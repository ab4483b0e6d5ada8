import Gallery.Image.Bmp
import Gallery.Image.Tiff
import Gallery.Image.WebP
import Gallery.Proofs.Image.Settled

/-!
# Headers made of fields

A BMP and a WebP file have their fields at known offsets, and a TIFF file says where the others are.
Each field is looked up and must be there, so the readers of these headers are settled.

An extended WebP file is the exception. It tells how far its chunks reach and is asked for all of
them, so a chunk that comes with further bytes may be one too many. In a TIFF file the directory
itself looks into the file. More bytes change its file but not its entries, nor what they point to.
-/

namespace Gallery

namespace Bmp

/-- The short header. -/
theorem settled_shortDimensions? : Settled shortDimensions? := by
  unfold shortDimensions?
  apply (settled_little? 18 2).bind
  intro width
  apply (settled_little? 20 2).bind
  intro height
  apply (settled_little? 22 2).bind
  intro planes
  apply (settled_little? 24 2).bind
  intro depth
  apply (settled_const _).bind
  intro dimensions
  apply Settled.ite (fun _ _ => rfl) (settled_const _)
  apply Settled.ite (fun _ _ => rfl) (settled_const _)
  exact .ite (fun _ _ => rfl) ((settled_slice? _ _).map _) (settled_const _)

/-- The long headers. Their colour masks are looked up in the file, all else in the header. -/
theorem settled_longDimensions? (headerLength : Nat) :
    Settled (longDimensions? · headerLength) := by
  unfold longDimensions?
  apply (settled_slice? 18 36).bind
  intro fields
  apply (settled_const _).bind
  intro width
  apply (settled_const _).bind
  intro height
  apply (settled_const _).bind
  intro planes
  apply (settled_const _).bind
  intro depth
  apply (settled_const _).bind
  intro compression
  apply (settled_const _).bind
  intro colours
  apply (settled_const _).bind
  intro dimensions
  apply Settled.ite (fun _ _ => rfl) (settled_const _)
  apply Settled.ite (fun _ _ => rfl) (settled_const _)
  apply (settled_const _).bind
  intro storage
  cases storage with
  | direct => exact settled_const _
  | palette => exact .ite (fun _ _ => rfl) (settled_const _) ((settled_slice? _ _).map _)
  | masks =>
    apply (settled_little? 54 4).bind
    intro red
    apply (settled_little? 58 4).bind
    intro green
    apply (settled_little? 62 4).bind
    intro blue
    have hmasks (alpha : Nat) : Settled fun _ : Bytes =>
        if areMasks depth [red, green, blue] alpha then some dimensions else none := settled_const _
    exact .ite (fun _ _ => rfl) ((settled_little? 66 4).bind hmasks) ((settled_const _).bind hmasks)

/-- The dimensions of a BMP file are settled. -/
theorem settled_dimensions? : Settled dimensions? := by
  unfold dimensions?
  apply (settled_slice? 0 2).bind
  intro signature
  apply Settled.ite (fun _ _ => rfl) (settled_const _)
  apply (settled_little? 14 4).bind
  intro headerLength
  apply Settled.ite (fun _ _ => rfl) settled_shortDimensions?
  exact .ite (fun _ _ => rfl) (settled_longDimensions? headerLength) (settled_const _)

end Bmp

namespace WebP

/-- The dimensions of a lossy image are settled. -/
theorem settled_lossyDimensions? (offset : Nat) : Settled (lossyDimensions? · offset) := by
  unfold lossyDimensions?
  apply (settled_little? offset 3).bind
  intro tag
  apply (settled_slice? (offset + 3) 3).bind
  intro startCode
  apply (settled_little? (offset + 6) 2).bind
  intro width
  apply (settled_little? (offset + 8) 2).bind
  intro height
  exact settled_const _

/-- So are those of a lossless one. -/
theorem settled_losslessDimensions? (offset : Nat) : Settled (losslessDimensions? · offset) := by
  unfold losslessDimensions?
  apply (settled_little? offset 1).bind
  intro signature
  apply (settled_little? (offset + 1) 4).bind
  intro bits
  exact settled_const _

/-- What the first chunk holds is settled by its kind, unless that is the extended one. -/
theorem settled_firstChunk {kind : Bytes} (hkind : kind ≠ ascii "VP8X") :
    Settled fun content : Bytes => little? content 16 4 >>= fun length =>
      if kind = ascii "VP8 " then lossyDimensions? content 20
      else if kind = ascii "VP8L" then losslessDimensions? content 20
      else if kind = ascii "VP8X" then extendedDimensions? content length
      else none := by
  apply (settled_little? 16 4).bind
  intro length
  simp only [if_neg hkind]
  apply Settled.ite (fun _ _ => rfl) (settled_lossyDimensions? 20)
  exact .ite (fun _ _ => rfl) (settled_losslessDimensions? 20) (settled_const _)

/-- Whether the first chunk of a file is that of an extended one. -/
def isExtended (content : Bytes) : Bool := (content.drop 12).take 4 = ascii "VP8X"

/-- A file that is not extended is read as before if more bytes follow. -/
theorem dimensions?_append {content : Bytes} {dimensions : Dimensions}
    (hplain : isExtended content = false) (hfound : dimensions? content = some dimensions)
    (more : Bytes) : dimensions? (content ++ more) = some dimensions := by
  obtain ⟨container, hcontainer, hfound⟩ := Option.bind_eq_some_iff.1 hfound
  obtain ⟨name, hname, hfound⟩ := Option.bind_eq_some_iff.1 hfound
  obtain ⟨hnames, hfound⟩ := Option.ite_none_left_eq_some.1 hfound
  obtain ⟨kind, hkind, hfound⟩ := Option.bind_eq_some_iff.1 hfound
  have hother : kind ≠ ascii "VP8X" := by
    rw [← (slice?_eq_some_iff.1 hkind).2]
    exact of_decide_eq_false hplain
  refine Option.bind_eq_some_iff.2 ⟨container, settled_slice? 0 4 hcontainer more, ?_⟩
  refine Option.bind_eq_some_iff.2 ⟨name, settled_slice? 8 4 hname more, ?_⟩
  refine Option.ite_none_left_eq_some.2 ⟨hnames, ?_⟩
  refine Option.bind_eq_some_iff.2 ⟨kind, settled_slice? 12 4 hkind more, ?_⟩
  exact settled_firstChunk hother hfound more

/-- An extended file may have room for a chunk behind its end, and a second image is one too many. -/
example :
    let extended := ascii "RIFF" ++ [46, 0, 0, 0] ++ ascii "WEBPVP8X" ++
      [10, 0, 0, 0, 0, 0, 0, 0, 2, 0, 0, 1, 0, 0] ++ ascii "VP8 " ++ [0, 0, 0, 0]
    dimensions? extended = some ⟨3, 2⟩ ∧
      dimensions? (extended ++ ascii "VP8L" ++ [0, 0, 0, 0]) = none := by
  decide +kernel

end WebP

namespace Tiff

/-! ## Finding the directory -/

/-- A number at an offset is settled. -/
theorem settled_number? (order : ByteOrder) (offset length : Nat) :
    Settled fun bytes : Bytes => order.number? bytes offset length :=
  (settled_slice? offset length).map order.number

/-- The order of the bytes is settled. -/
theorem settled_byteOrder? : Settled byteOrder? := by
  unfold byteOrder?
  apply (settled_slice? 0 2).bind
  intro start
  exact settled_const _

/-- So are the encoding and the place of the directory. -/
theorem settled_start? : Settled start? := by
  unfold start?
  apply settled_byteOrder?.bind
  intro order
  apply (settled_number? order 2 2).bind
  intro version
  by_cases hordinary : version = 42
  · subst hordinary
    exact (settled_number? order 4 4).bind fun offset => settled_const _
  by_cases hlarge : version = 43
  · subst hlarge
    apply (settled_number? order 4 2).bind
    intro length
    apply (settled_number? order 6 2).bind
    intro padding
    apply Settled.ite (fun _ _ => rfl) _ (settled_const _)
    exact (settled_number? order 8 8).bind fun offset => settled_const _
  · intro content start hfound
    split at hfound <;> contradiction

/-- An entry is read as before, and what is behind it goes on with what follows. -/
theorem entry?_append {encoding : Encoding} {bytes behind : Bytes} {entry : Option Entry}
    (hentry : encoding.entry? bytes = some (entry, behind)) (more : Bytes) :
    encoding.entry? (bytes ++ more) = some (entry, behind ++ more) := by
  unfold Encoding.entry? at hentry ⊢
  obtain ⟨tag, htag, hentry⟩ := Option.bind_eq_some_iff.1 hentry
  obtain ⟨type, htype, hentry⟩ := Option.bind_eq_some_iff.1 hentry
  refine Option.bind_eq_some_iff.2 ⟨tag, settled_number? _ 0 2 htag more, ?_⟩
  refine Option.bind_eq_some_iff.2 ⟨type, settled_number? _ 2 2 htype more, ?_⟩
  cases hknown : ValueType.ofNumber? type with
  | some known =>
    simp only [hknown] at hentry ⊢
    obtain ⟨count, hcount, hentry⟩ := Option.bind_eq_some_iff.1 hentry
    obtain ⟨field, hfield, hentry⟩ := Option.bind_eq_some_iff.1 hentry
    refine Option.bind_eq_some_iff.2 ⟨count, settled_number? _ 4 _ hcount more, ?_⟩
    refine Option.bind_eq_some_iff.2 ⟨field, settled_slice? _ _ hfield more, ?_⟩
    -- The field is the last part of an entry, so the entry is there as a whole.
    have hlength : encoding.entryLength ≤ bytes.length := by
      have hfits := (slice?_eq_some_iff.1 hfield).1
      rw [Encoding.entryLength]
      omega
    rw [List.drop_append_of_le_length hlength]
    obtain ⟨rfl, rfl⟩ := Prod.mk.inj (Option.some.inj hentry)
    rfl
  | none =>
    simp only [hknown] at hentry ⊢
    obtain ⟨skipped, hskipped, hentry⟩ := Option.bind_eq_some_iff.1 hentry
    refine Option.bind_eq_some_iff.2 ⟨skipped, settled_slice? 0 _ hskipped more, ?_⟩
    rw [drop_append_of_slice? hskipped]
    obtain ⟨rfl, rfl⟩ := Prod.mk.inj (Option.some.inj hentry)
    rfl

/-- So are several entries. -/
theorem entries?_append {encoding : Encoding} {count : Nat} {bytes behind : Bytes}
    {entries : List Entry} (hentries : encoding.entries? count bytes = some (entries, behind))
    (more : Bytes) : encoding.entries? count (bytes ++ more) = some (entries, behind ++ more) := by
  induction count generalizing bytes entries with
  | zero =>
    obtain ⟨rfl, rfl⟩ := Prod.mk.inj (Option.some.inj hentries)
    rfl
  | succ count ih =>
    obtain ⟨⟨entry, rest⟩, hentry, hentries⟩ := Option.bind_eq_some_iff.1 hentries
    obtain ⟨⟨others, last⟩, hothers, hentries⟩ := Option.bind_eq_some_iff.1 hentries
    obtain ⟨rfl, rfl⟩ := Prod.mk.inj (Option.some.inj hentries)
    refine Option.bind_eq_some_iff.2 ⟨(entry, rest ++ more), entry?_append hentry more, ?_⟩
    exact Option.bind_eq_some_iff.2 ⟨(others, last ++ more), ih hothers, rfl⟩

/-- More bytes behind a file are behind the file of its directory. -/
instance : HAppend Directory Bytes Directory :=
  ⟨fun directory more => { directory with content := directory.content ++ more }⟩

/-- The directory of a longer file has the same entries. -/
theorem directory?_append {encoding : Encoding} {content : Bytes} {offset : Nat}
    {directory : Directory} (hdirectory : encoding.directory? content offset = some directory)
    (more : Bytes) : encoding.directory? (content ++ more) offset = some (directory ++ more) := by
  unfold Encoding.directory? at hdirectory ⊢
  obtain ⟨count, hcount, hdirectory⟩ := Option.bind_eq_some_iff.1 hdirectory
  obtain ⟨⟨entries, behind⟩, hentries, hdirectory⟩ := Option.bind_eq_some_iff.1 hdirectory
  obtain ⟨next, hnext, hdirectory⟩ := Option.bind_eq_some_iff.1 hdirectory
  obtain ⟨hother, hdirectory⟩ := Option.ite_none_left_eq_some.1 hdirectory
  obtain rfl := Option.some.inj hdirectory
  have hlength : offset + encoding.countLength ≤ content.length := by
    obtain ⟨field, hfield, -⟩ := Option.map_eq_some_iff.1 hcount
    exact (slice?_eq_some_iff.1 hfield).1
  refine Option.bind_eq_some_iff.2 ⟨count, settled_number? _ _ _ hcount more, ?_⟩
  refine Option.bind_eq_some_iff.2 ⟨(entries, behind ++ more), ?_, ?_⟩
  · rw [List.drop_append_of_le_length hlength]
    exact entries?_append hentries more
  · refine Option.bind_eq_some_iff.2 ⟨next, settled_number? _ _ _ hnext more, ?_⟩
    exact Option.ite_none_left_eq_some.2 ⟨hother, rfl⟩

/-! ## Reading the directory -/

namespace Directory

/-- The values for a tag are found where they were. -/
theorem settled_values? (tag : Nat) : Settled (values? · tag) := by
  unfold values?
  apply Settled.bind (.of_unchanged fun _ _ => rfl)
  intro entry
  apply Settled.ite (fun _ _ => rfl) (settled_const _)
  apply Settled.ite (fun _ _ => rfl) (.of_unchanged fun _ _ => rfl)
  have helsewhere : Settled fun directory : Directory => slice? directory.content
      (directory.encoding.order.number entry.field) (entry.count * entry.type.length) := by
    intro directory elsewhere hfound more
    exact settled_slice? _ _ hfound more
  exact helsewhere.bind fun _ => .of_unchanged fun _ _ => rfl

/-- So is a reading of them. -/
theorem settled_reading {α : Type} (reading : Values → Option α) (tag : Nat) :
    Settled fun directory : Directory => (directory.values? tag).bind reading :=
  (settled_values? tag).bind fun _ => settled_const _

/-- So is what stands for a tag that may be missing. -/
theorem settled_orElse? {α : Type} (reading : Values → Option α) (tag : Nat) (otherwise : α) :
    Settled (orElse? · reading tag otherwise) :=
  .ite (fun _ _ => rfl) (settled_reading reading tag) (settled_const _)

/-- The samples are settled. -/
theorem settled_samples? : Settled samples? := by
  unfold samples?
  apply (settled_orElse? _ _ _).bind
  intro count
  apply (settled_orElse? _ _ _).bind
  intro extra
  apply (settled_orElse? _ _ _).bind
  intro bits
  apply (settled_orElse? _ _ _).bind
  intro formats
  apply (settled_const _).bind
  intro format
  apply Settled.ite (fun _ _ => rfl) _ (settled_const _)
  exact (settled_const _).bind fun _ => .of_unchanged fun _ _ => rfl

/-- So is the number of planes. -/
theorem settled_planes? (samples : Nat) : Settled (planes? · samples) :=
  (settled_orElse? _ _ _).bind fun _ => settled_const _

/-- A usable packing stays usable. -/
theorem persists_isPackingUsable : Persists isPackingUsable := by
  unfold isPackingUsable
  apply Persists.and
  · apply Persists.and
    · apply (settled_orElse? _ _ _).any
      intro compression
      apply Persists.or (.of_unchanged fun _ _ => rfl)
      exact (settled_orElse? _ _ _).any fun _ => .of_unchanged fun _ _ => rfl
    · exact (settled_orElse? _ _ _).any fun _ => .of_unchanged fun _ _ => rfl
  · exact (settled_orElse? _ _ _).any fun _ => .of_unchanged fun _ _ => rfl

/-- Places that are there stay there. -/
theorem persists_arePlaces (offsets lengths : Tag) (count : Nat) :
    Persists (arePlaces · offsets lengths count) := by
  have hplaces (tag : Tag) : Persists fun directory : Directory =>
      (directory.numbers? tag.number).any fun values => values.length = count :=
    (settled_reading _ _).any fun _ => .of_unchanged fun _ _ => rfl
  simp only [arePlaces, List.all_cons, List.all_nil, Bool.and_true]
  exact (hplaces offsets).and (hplaces lengths)

/-- So do those of the strips or tiles of an image. -/
theorem persists_hasPlaces (width height planes : Nat) :
    Persists (hasPlaces · width height planes) := by
  unfold hasPlaces
  apply Lasting.ite (fun _ _ => rfl)
  · apply Persists.and (.of_unchanged fun _ _ => rfl)
    apply (settled_orElse? _ _ _).any
    intro rows
    exact .and (.of_unchanged fun _ _ => rfl) (persists_arePlaces _ _ _)
  · apply Persists.and (.of_unchanged fun _ _ => rfl)
    apply (settled_reading _ _).any
    intro across
    apply (settled_reading _ _).any
    intro down
    exact .and (.of_unchanged fun _ _ => rfl) (persists_arePlaces _ _ _)

/-- The dimensions that a directory gives are settled. -/
theorem settled_dimensions? : Settled dimensions? := by
  unfold dimensions?
  apply (settled_reading _ _).bind
  intro width
  apply (settled_reading _ _).bind
  intro height
  apply (settled_reading _ _).bind
  intro space
  apply settled_samples?.bind
  intro samples
  apply (settled_planes? _).bind
  intro planes
  apply Settled.guard _ (settled_const _)
  apply Persists.and _ (persists_hasPlaces width height planes)
  exact .and (.of_unchanged fun _ _ => rfl) persists_isPackingUsable

end Directory

/-- The dimensions of a TIFF file are settled. -/
theorem settled_dimensions? : Settled dimensions? := by
  unfold dimensions?
  apply settled_start?.bind
  rintro ⟨encoding, offset⟩
  apply Settled.ite (fun _ _ => rfl) (settled_const _)
  intro content dimensions hfound more
  obtain ⟨directory, hdirectory, hfound⟩ := Option.bind_eq_some_iff.1 hfound
  apply Option.bind_eq_some_iff.2
  exact ⟨directory ++ more, directory?_append hdirectory more, Directory.settled_dimensions? hfound more⟩

end Tiff

end Gallery
