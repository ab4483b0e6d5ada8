import Gallery.Output.Record
import Gallery.Proofs.Json.Reading
import Gallery.Proofs.Output.Passes

/-!
# Lines that can be decoded

Every pass of a session that is not cut short goes out as one line, and the line gives back the
pass: its totals, and its rows with their items, in which no caption is narrower than nothing.
Numbers that are not finite are told as such; all others come back as they were, if the reader of
numbers gives back what was written for them.
-/

namespace Gallery

open Json (Value)

/-- A value that is written in full on one line and from whose line something can be decoded. -/
def Decodes {α : Type} (number? : Bytes → Option Float) (decode? : Value → Option α)
    (value : Value) (x : α) : Prop :=
  ∃ result, Value.ReadsAs number? value result ∧ decode? result = some x

/-- A number that its reader gives back, if it is finite. -/
def Known (number? : Bytes → Option Float) (x : Float) : Prop :=
  x.isFinite = true → number? (Json.numberText x) = some x

instance (number? : Bytes → Option Float) (x : Float) : Decidable (Known number? x) :=
  inferInstanceAs (Decidable (_ → _))

variable {number? : Bytes → Option Float}

/-- A known number is decoded as far as it is finite. -/
theorem decodes_number {x : Float} (hx : Known number? x) :
    Decodes number? Value.number? (.number x) (finite? x) := by
  rw [finite?]
  cases hfinite : x.isFinite with
  | true => exact ⟨_, Value.readsAs_number hfinite (hx hfinite), rfl⟩
  | false => exact ⟨_, Value.readsAs_number_of_not_isFinite hfinite, rfl⟩

section Lists

variable {α β : Type} {decode? : Value → Option β} {encode : α → Value} {f : α → β} {items : List α}

/-- Values that are decoded one by one come back one by one. -/
theorem exists_results_of_decodes
    (hitems : ∀ item ∈ items, Decodes number? decode? (encode item) (f item)) :
    ∃ results, List.Forall₂ (Value.ReadsAs number?) (items.map encode) results ∧
      results.mapM decode? = some (items.map f) := by
  induction items with
  | nil => exact ⟨[], .nil, rfl⟩
  | cons item items ih =>
    rw [List.forall_mem_cons] at hitems
    obtain ⟨result, hread, hdecode⟩ := hitems.1
    obtain ⟨results, hreads, hdecodes⟩ := ih hitems.2
    exact ⟨result :: results, .cons hread hreads, by simp [hdecode, hdecodes]⟩

/-- A list is decoded if its elements are. -/
theorem decodes_array
    (hitems : ∀ item ∈ items, Decodes number? decode? (encode item) (f item)) :
    Decodes number? (Value.elements? decode?) (.array (items.map encode)) (items.map f) := by
  obtain ⟨results, hreads, hdecodes⟩ := exists_results_of_decodes hitems
  exact ⟨_, Value.readsAs_array hreads, hdecodes⟩

end Lists

/-- The numbers of an item. -/
def Placement.numbers (item : Placement Float) : List Float :=
  [item.ratio, item.width, item.height, item.captionWidth]

/-- An item is decoded if its path is text and its numbers are known. -/
theorem Placement.decodes {item : Placement Float} (hpath : Utf8.isValid item.path)
    (hnumbers : ∀ x ∈ item.numbers, Known number? x) :
    Decodes number? ofValue? (Document.itemValue item) (item.map finite?) := by
  simp only [numbers, List.forall_mem_cons] at hnumbers
  obtain ⟨hratio, hwidth, hheight, hcaption, -⟩ := hnumbers
  obtain ⟨ratio, hratio, hratio'⟩ := decodes_number hratio
  obtain ⟨width, hwidth, hwidth'⟩ := decodes_number hwidth
  obtain ⟨height, hheight, hheight'⟩ := decodes_number hheight
  obtain ⟨caption, hcaption, hcaption'⟩ := decodes_number hcaption
  refine ⟨.object [(ascii "index", .count item.index), (ascii "media_path", .text item.path),
    (ascii "aspect_ratio", ratio), (ascii "rendered_w", width), (ascii "rendered_h", height),
    (ascii "caption_w", caption)], Value.readsAs_object ?_, ?_⟩
  · exact .cons ⟨rfl, rfl, Value.readsAs_count _⟩ <| .cons ⟨rfl, rfl, Value.readsAs_text hpath⟩ <|
      .cons ⟨rfl, rfl, hratio⟩ <| .cons ⟨rfl, rfl, hwidth⟩ <| .cons ⟨rfl, rfl, hheight⟩ <|
      .cons ⟨rfl, rfl, hcaption⟩ .nil
  · change (do
      let ratio ← ratio.number?
      let width ← width.number?
      let height ← height.number?
      let captionWidth ← caption.number?
      some (⟨item.index, item.path, ratio, width, height, captionWidth⟩ :
        Placement (Option Float))) = _
    rw [hratio', hwidth', hheight', hcaption']
    rfl

/-- The numbers of a row. -/
def Row.numbers (row : Row Float) : List Float := row.height :: row.items.flatMap Placement.numbers

/-- A row is decoded if the paths of its items are text and its numbers are known. -/
theorem Row.decodes {row : Row Float} (hpaths : ∀ item ∈ row.items, Utf8.isValid item.path)
    (hnumbers : ∀ x ∈ row.numbers, Known number? x) :
    Decodes number? ofValue? (Document.rowValue row) (row.map finite?) := by
  rw [numbers, List.forall_mem_cons, List.forall_mem_flatMap] at hnumbers
  obtain ⟨height, hheight, hheight'⟩ := decodes_number hnumbers.1
  obtain ⟨items, hitems, hitems'⟩ := decodes_array fun item hitem =>
    Placement.decodes (hpaths item hitem) (hnumbers.2 item hitem)
  refine ⟨.object [(ascii "row_index", .count row.rowIndex.toNat),
    (ascii "start_index", .count row.start), (ascii "height_px", height),
    (ascii "wrapped", .bool row.wrapped), (ascii "items", items)], Value.readsAs_object ?_, ?_⟩
  · exact .cons ⟨rfl, rfl, Value.readsAs_count _⟩ <| .cons ⟨rfl, rfl, Value.readsAs_count _⟩ <|
      .cons ⟨rfl, rfl, hheight⟩ <| .cons ⟨rfl, rfl, Value.readsAs_bool _⟩ <|
      .cons ⟨rfl, rfl, hitems⟩ .nil
  · change (do
      let height ← height.number?
      let items ← items.elements? Placement.ofValue?
      if row.rowIndex.toNat < UInt32.size then
        some (⟨UInt32.ofNat row.rowIndex.toNat, row.start, height, row.wrapped, items⟩ :
          Row (Option Float))
      else none) = _
    rw [hheight', hitems', UInt32.ofNat_toNat]
    exact if_pos row.rowIndex.toNat_lt

namespace Pass

/-- The numbers of a pass, as they are written. -/
def numbers (pass : Pass) : List Float :=
  pass.summary.containerWidth :: pass.summary.totalHeight ::
    pass.rows.flatMap fun row => row.clamped.numbers

/-- What the document of a pass is to tell: the totals, and the rows with no caption narrower than
nothing. -/
def record (pass : Pass) : PassRecord :=
  ⟨finite? pass.summary.containerWidth, pass.summary.rowCount, pass.summary.itemCount,
    finite? pass.summary.totalHeight, pass.rows.map fun row => row.clamped.map finite?⟩

/-- A pass is decoded if its paths are text and its numbers are known. -/
theorem decodes {pass : Pass} (hpaths : PathsAreText pass.rows)
    (hnumbers : ∀ x ∈ pass.numbers, Known number? x) :
    Decodes number? PassRecord.ofValue?
      (Document.passValue pass.summary (pass.rows.map Row.clamped)) pass.record := by
  rw [numbers, List.forall_mem_cons, List.forall_mem_cons, List.forall_mem_flatMap] at hnumbers
  obtain ⟨hwidth, hheight, hrows⟩ := hnumbers
  obtain ⟨width, hwidth, hwidth'⟩ := decodes_number hwidth
  obtain ⟨height, hheight, hheight'⟩ := decodes_number hheight
  have hclamped : ∀ row ∈ pass.rows,
      Decodes number? Row.ofValue? (Document.rowValue row.clamped) (row.clamped.map finite?) := by
    intro row hrow
    refine Row.decodes ?_ (hrows row hrow)
    simpa [Row.clamped] using hpaths row hrow
  obtain ⟨rows, hrows, hrows'⟩ := decodes_array hclamped
  refine ⟨.object [(ascii "container_width", width),
    (ascii "row_count", .count pass.summary.rowCount),
    (ascii "item_count", .count pass.summary.itemCount), (ascii "total_height", height),
    (ascii "rows", rows)], Value.readsAs_object ?_, ?_⟩
  · rw [List.map_map]
    exact .cons ⟨rfl, rfl, hwidth⟩ <| .cons ⟨rfl, rfl, Value.readsAs_count _⟩ <|
      .cons ⟨rfl, rfl, Value.readsAs_count _⟩ <| .cons ⟨rfl, rfl, hheight⟩ <|
      .cons ⟨rfl, rfl, hrows⟩ .nil
  · change (do
      let width ← width.number?
      let height ← height.number?
      let rows ← rows.elements? Row.ofValue?
      some (⟨width, pass.summary.rowCount, pass.summary.itemCount, height, rows⟩ : PassRecord)) = _
    rw [hwidth', hheight', hrows']
    rfl

/-- What a line says of a pass: it is a JSON object, and the pass is decoded from it. -/
structure ToldBy (number? : Bytes → Option Float) (pass : Pass) (text : Bytes) : Prop where
  oneLine : newline ∉ text
  isObject : ∃ fields, Value.read? number? text = some (.object fields)
  record : (Value.read? number? text).bind PassRecord.ofValue? = some pass.record

/-- A pass is told by its document. -/
theorem toldBy_document {pass : Pass} (hpaths : PathsAreText pass.rows)
    (hnumbers : ∀ x ∈ pass.numbers, Known number? x) :
    pass.ToldBy number? pass.document.bytes := by
  obtain ⟨result, hread, hdecode⟩ := decodes hpaths hnumbers
  have hresult : Value.read? number? pass.document.bytes = some result := hread.read?
  refine ⟨hread.oneLine, ?_, by rw [hresult, Option.bind_some, hdecode]⟩
  cases result with
  | object fields => exact ⟨fields, hresult⟩
  | null | bool | count | number | text | array => contradiction

end Pass

namespace Session

/-- A session that writes documents without limit and is not cut short has written one line for
each of the passes that it counts, and each line tells its pass, if the numbers in the passes are
read back. -/
theorem run_writes_decodable_lines (session : Session) (queue : List (Tree × Trigger))
    (number? : Bytes → Option Float) (counts : SessionCounts) (rest : List (Tree × Trigger))
    (last : Run Sink)
    (hrun : session.run Sink.receiver (.fresh .json .unlimited) queue = (.ok counts, rest, last))
    (hnumbers : ∀ pass ∈ session.passes (turns session.root session.scanner queue),
      ∀ x ∈ pass.numbers, Known number? x) :
    ∃ lines : List Bytes, last.state.writer.held = lines.flatMap line ∧
      lines.length = counts.passes ∧
      List.Forall₂ (Pass.ToldBy number?)
        (session.passes (turns session.root session.scanner queue)) lines := by
  obtain ⟨htaken, rfl⟩ := takeAll_of_run_eq_ok hrun
  obtain ⟨left, final, htake, hstate, hcounts⟩ :=
    Run.takeAll_passes Sink.receiver queue ⟨session, .zero, .fresh .json .unlimited⟩
  obtain ⟨hok, -, rfl⟩ : _ ∧ rest = left ∧ last = final := by
    simpa using htaken.symm.trans htake
  obtain ⟨hcount, -⟩ := hcounts hok.symm
  have hfresh : Sink.fresh .json .unlimited = Sink.keeping .unlimited [] := rfl
  simp only [hfresh] at hok hstate
  obtain ⟨hpaths, next, hfeed, hheld⟩ | ⟨-, fault, next, hfeed⟩ :=
    Sink.feed_passes Writer.acceptsAll_unlimited
      (session.passes (turns session.root session.scanner queue))
  · rw [hfeed] at hstate
    refine ⟨(session.passes (turns session.root session.scanner queue)).map fun pass =>
      pass.document.bytes, ?_, ?_, ?_⟩
    · rw [hstate, List.flatMap_map]
      exact hheld
    · rw [List.length_map, hcount]
      exact (Nat.zero_add _).symm
    · rw [List.forall₂_map_right_iff, List.forall₂_same]
      exact fun pass hpass => Pass.toldBy_document (hpaths pass hpass) (hnumbers pass hpass)
  · -- A sink that gave up would have cut the session short.
    rw [hfeed] at hok
    exact absurd hok nofun

/-- A session whose only picture has quotes, a backslash and a line break in its path. -/
def quoted : Session :=
  { fresh (ascii "g") (.fresh .standard) .standard 0 with
    items := [⟨ascii "g/\"a\\\n.gif", 1, 18, ⟨3, 2⟩⟩] }

/-- A resize, and one to an undefined width. -/
def resizes : List (Tree × Trigger) := [200, 0.0 / 0.0].map fun width => (.empty, .resize width)

/-- The picture is told in the first line, and the second tells that no width was given. -/
theorem run_writes_decodable_lines_quoted :
    ∃ rest last,
      quoted.run Sink.receiver (.fresh .json .unlimited) resizes = (.ok ⟨2, 2, 0⟩, rest, last) ∧
      (∀ pass ∈ quoted.passes (turns quoted.root quoted.scanner resizes),
        ∀ x ∈ pass.numbers, Known Decimal.read? x) ∧
      ∃ lines : List Bytes, last.state.writer.held = lines.flatMap line ∧ lines.length = 2 ∧
        List.Forall₂ (Pass.ToldBy Decimal.read?)
          (quoted.passes (turns quoted.root quoted.scanner resizes)) lines := by
  have hcounts : (quoted.run Sink.receiver (.fresh .json .unlimited) resizes).1.toOption =
      some ⟨2, 2, 0⟩ := by decide +kernel
  cases hrun : quoted.run Sink.receiver (.fresh .json .unlimited) resizes with
  | mk outcome others =>
    obtain ⟨rest, last⟩ := others
    rw [hrun] at hcounts
    cases outcome with
    | error fault => contradiction
    | ok counts =>
      obtain rfl := Option.some.inj hcounts
      have hnumbers : ∀ pass ∈ quoted.passes (turns quoted.root quoted.scanner resizes),
          ∀ x ∈ pass.numbers, Known Decimal.read? x := by
        rw [resizes, turns_resized, passes_resized]
        decide +kernel
      exact ⟨rest, last, rfl, hnumbers, run_writes_decodable_lines quoted resizes Decimal.read?
        ⟨2, 2, 0⟩ rest last hrun hnumbers⟩

end Session

end Gallery
