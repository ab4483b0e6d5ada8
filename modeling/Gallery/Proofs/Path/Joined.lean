import Gallery.Path.Components
import Gallery.Utf8
import Mathlib.Data.List.Lex
import Mathlib.Data.UInt

/-!
# Paths of what lies below a root

What lies below a root has the path of the root with the names joined that lead to it. The
components of such a path are those of the root and then the names, so other names give another
path, and the order of paths tells any two of them apart. Whether such a path names an image is
decided by its last name.
-/

namespace Gallery

/-- Moves that are ordered alike are the same. -/
theorem Move.rank_injective : Function.Injective Move.rank := by
  intro first second hrank
  cases first <;> cases second
  case enter.enter name other =>
    obtain ⟨bytes, hname⟩ := name
    obtain ⟨others, hother⟩ := other
    obtain rfl : bytes = others := (List.cons.inj hrank).2
    rfl
  all_goals simp_all [Move.rank]

/-- Whether a name has the extension of an image: what follows its last dot, which is not its
first byte, is one of those extensions in any letter case. -/
def Name.HasPictureExtension (name : Name) : Prop :=
  ∃ stem extension, name.bytes = stem ++ dot :: extension ∧ stem ≠ [] ∧ dot ∉ extension ∧
    Utf8.isValid extension ∧ extension.map lowerAscii ∈ pictureExtensions

namespace Path

/-- The path of what some names lead to from a root. -/
def joinAll (root : Bytes) (names : List Name) : Bytes := names.foldl join root

/-- Whether a path stands before another one: the first of their components that differ decide,
and in these the first bytes that differ. -/
def Before (first second : Bytes) : Prop :=
  (components first).map Move.rank < (components second).map Move.rank

variable {root : Bytes} {names others : List Name} {first second third : Bytes}

/-- A further name is joined at the end. -/
theorem joinAll_concat (root : Bytes) (names : List Name) (name : Name) :
    joinAll root (names ++ [name]) = join (joinAll root names) name :=
  List.foldl_concat join root name names

/-- The components of the root stand in front of the names. -/
theorem components_joinAll (root : Bytes) (names : List Name) :
    components (joinAll root names) = components root ++ names.map .enter := by
  induction names using List.reverseRecOn with
  | nil => rw [joinAll, List.foldl_nil, List.map_nil, List.append_nil]
  | append_singleton names name ih =>
    rw [joinAll_concat, components_join, ih, List.map_append, List.append_assoc]
    rfl

/-- Paths below a root that have the same components have the same names. -/
theorem joinAll_injective
    (hcomponents : components (joinAll root names) = components (joinAll root others)) :
    names = others := by
  rw [components_joinAll, components_joinAll] at hcomponents
  have henter : Function.Injective Move.enter := fun _ _ => Move.enter.inj
  exact henter.list_map (List.append_cancel_left hcomponents)

/-! ## Their order -/

/-- Of two paths one does not stand after the other. -/
theorem precedes_total (first second : Bytes) : precedes first second || precedes second first := by
  simpa only [precedes, Bool.or_eq_true, decide_eq_true_eq] using List.le_total _ _

/-- A path that does not stand after one that does not stand after a third does not stand after
the third. -/
theorem precedes_trans (hfirst : precedes first second) (hsecond : precedes second third) :
    precedes first third := by
  simp only [precedes, decide_eq_true_eq] at hfirst hsecond ⊢
  exact List.le_trans hfirst hsecond

/-- A path that does not stand after one with other components stands before it. -/
theorem before_of_precedes (hprecedes : precedes first second)
    (hother : components first ≠ components second) : Before first second := by
  simp only [precedes, decide_eq_true_eq] at hprecedes
  exact Std.lt_of_le_of_ne hprecedes fun hranks =>
    hother (Move.rank_injective.list_map hranks)

/-- No path stands before one that stands before it. -/
theorem Before.asymm (hfirst : Before first second) : ¬Before second first :=
  List.lt_asymm hfirst

/-! ## Their extension -/

/-- Only nothing at all has nothing for its only piece. -/
theorem splitAtByte_ne_singleton_nil {separator : UInt8} {bytes : Bytes} (hbytes : bytes ≠ []) :
    splitAtByte separator bytes ≠ [[]] := by
  cases bytes with
  | nil => contradiction
  | cons b rest =>
    rw [splitAtByte]
    split
    · exact fun hpieces => splitAtByte_ne_nil separator rest (List.cons.inj hpieces).2
    · split <;> simp

/-- What follows the last dot of a name is its extension, unless that dot is the first byte. -/
theorem extensionOfName?_append {stem extension : Bytes} (hstem : stem ≠ [])
    (hextension : dot ∉ extension) :
    extensionOfName? (stem ++ dot :: extension) = some extension := by
  rw [extensionOfName?, splitAtByte_append_cons, splitAtByte_of_notMem hextension]
  cases hpieces : splitAtByte dot stem with
  | nil => exact absurd hpieces (splitAtByte_ne_nil dot stem)
  | cons piece pieces =>
    cases pieces with
    | cons => simp [List.getLast?_cons]
    | nil =>
      have hpiece : piece ≠ [] := fun hnil =>
        splitAtByte_ne_singleton_nil hstem (hnil ▸ hpieces)
      simp [hpiece]

/-- A name with an extension has a dot before it that is not its first byte. -/
theorem extensionOfName?_eq_some_iff {name extension : Bytes} :
    extensionOfName? name = some extension ↔
      ∃ stem, name = stem ++ dot :: extension ∧ stem ≠ [] ∧ dot ∉ extension := by
  constructor
  · intro hname
    by_cases hdot : dot ∈ name
    · obtain ⟨last, front, hreverse, hlast⟩ :=
        List.eq_append_cons_of_mem (List.mem_reverse.2 hdot)
      have hsplit : name = front.reverse ++ dot :: last.reverse := by
        rw [← List.reverse_reverse name, hreverse]
        simp
      have hnotMem : dot ∉ last.reverse := fun hmem => hlast (List.mem_reverse.1 hmem)
      have hstem : front.reverse ≠ [] := by
        intro hnil
        rw [hsplit, hnil, List.nil_append, extensionOfName?, splitAtByte, if_pos rfl,
          splitAtByte_of_notMem hnotMem] at hname
        contradiction
      rw [hsplit, extensionOfName?_append hstem hnotMem] at hname
      obtain rfl := Option.some.inj hname
      exact ⟨front.reverse, hsplit, hstem, hnotMem⟩
    · rw [extensionOfName?, splitAtByte_of_notMem hdot] at hname
      contradiction
  · rintro ⟨stem, rfl, hstem, hextension⟩
    exact extensionOfName?_append hstem hextension

/-- Bytes of ASCII are text. -/
theorem isValid_of_ascii {bytes : Bytes} (hbytes : ∀ b ∈ bytes, b < 0x80) :
    Utf8.isValid bytes := by
  induction bytes with
  | nil => rfl
  | cons b rest ih =>
    have hb : Utf8.continuations? b = some [] := if_pos (hbytes b List.mem_cons_self)
    have hrest := ih fun other hother => hbytes other (List.mem_cons_of_mem _ hother)
    simpa [Utf8.isValid, Utf8.decode?, Utf8.decodeFrom, hb] using hrest

/-- The extension of an image is text. -/
theorem isValid_of_isPictureExtension {extension : Bytes}
    (hextension : extension.map lowerAscii ∈ pictureExtensions) : Utf8.isValid extension := by
  have hascii : ∀ text ∈ pictureExtensions, ∀ b ∈ text, b < 0x80 := by decide +kernel
  refine isValid_of_ascii fun b hb => ?_
  have hlower := hascii _ hextension (lowerAscii b) (List.mem_map_of_mem hb)
  unfold lowerAscii at hlower
  split at hlower <;> grind

/-- The path of an entry names an image if the name of the entry has such an extension. -/
theorem isPicture_join (path : Bytes) (name : Name) :
    isPicture (join path name) ↔ name.HasPictureExtension := by
  have hextension : extension? (join path name) = extensionOfName? name.bytes := by
    rw [extension?, components_join, List.getLast?_concat]
  rw [isPicture, hextension, Option.any_eq_true]
  simp only [extensionOfName?_eq_some_iff, isPictureExtension, List.contains_iff_mem]
  constructor
  · rintro ⟨extension, ⟨stem, hname, hstem, hdot⟩, hpicture⟩
    exact ⟨stem, extension, hname, hstem, hdot, isValid_of_isPictureExtension hpicture, hpicture⟩
  · rintro ⟨stem, extension, hname, hstem, hdot, -, hpicture⟩
    exact ⟨extension, ⟨stem, hname, hstem, hdot⟩, hpicture⟩

end Path

end Gallery
