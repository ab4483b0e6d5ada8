import Gallery.Proofs.Json.Number
import Gallery.Proofs.Output.Passes
import Gallery.Proofs.Text.Ascii

/-!
# The lines of a listing

A listing has a line for the container, for each row, for each item and for the totals, and five
fields on the line of an item. Nothing in it but the paths can hold a byte that ends a line or a
field: what the listing itself writes has no control bytes, numbers included. Paths are displayed as
they are, with the newlines and tabs in them. So the listing has as many lines as it should, and
one more for every newline in a path, and the same goes for the fields and tabs. Its lines and fields
are those intended where no path has such bytes, and only there.
-/

namespace Gallery

/-! ## Pieces -/

section Pieces

variable {separator : UInt8} {pieces : List Bytes}

/-- There is one more piece than there are separators. -/
theorem length_splitAtByte (separator : UInt8) (bytes : Bytes) :
    (splitAtByte separator bytes).length = bytes.count separator + 1 := by
  induction bytes with
  | nil => rfl
  | cons b rest ih =>
    by_cases hb : b = separator
    · simp [splitAtByte, hb, ih]
    · cases hpieces : splitAtByte separator rest with
      | nil => exact absurd hpieces (splitAtByte_ne_nil separator rest)
      | cons piece others =>
        rw [hpieces] at ih
        simpa [splitAtByte, hb, hpieces, List.count_cons_of_ne hb] using ih

/-- Pieces without a separator are those between the separators. -/
theorem splitAtByte_intercalate (hpieces : ∀ piece ∈ pieces, separator ∉ piece)
    (hsome : pieces ≠ []) : splitAtByte separator ([separator].intercalate pieces) = pieces := by
  induction pieces with
  | nil => contradiction
  | cons piece others ih =>
    obtain ⟨hpiece, hothers⟩ := List.forall_mem_cons.1 hpieces
    cases others with
    | nil => rw [List.intercalate_singleton, splitAtByte_of_notMem hpiece]
    | cons other rest =>
      rw [List.intercalate_cons_cons, List.append_assoc, List.singleton_append,
        splitAtByte_append_cons, splitAtByte_of_notMem hpiece, ih hothers (List.cons_ne_nil _ _),
        List.singleton_append]

/-- Lines without a newline are those of the text, which ends behind the last of them. -/
theorem splitAtByte_flatMap_line (hpieces : ∀ piece ∈ pieces, newline ∉ piece) :
    splitAtByte newline (pieces.flatMap line) = pieces ++ [[]] := by
  induction pieces with
  | nil => rfl
  | cons piece others ih =>
    obtain ⟨hpiece, hothers⟩ := List.forall_mem_cons.1 hpieces
    rw [List.flatMap_cons, line, List.append_assoc, List.singleton_append, splitAtByte_append_cons,
      splitAtByte_of_notMem hpiece, ih hothers]
    rfl

/-- Every line ends with a newline, and may have others in it. -/
theorem count_flatMap_line (pieces : List Bytes) :
    (pieces.flatMap line).count newline =
      pieces.length + (pieces.map (·.count newline)).sum := by
  induction pieces with
  | nil => rfl
  | cons piece others ih =>
    simp [line, ih]
    omega

end Pieces

/-! ## Control bytes -/

/-- Whether a text has no control bytes. -/
def Printable (text : Bytes) : Prop := ∀ b ∈ text, 32 ≤ b

section Printable

variable {text part : Bytes}

/-- No control byte occurs in such a text. -/
theorem Printable.count_eq_zero (htext : Printable text) {b : UInt8} (hb : b < 32) :
    text.count b = 0 := by
  refine List.count_eq_zero_of_not_mem fun hmem => ?_
  have hle := htext b hmem
  simp only [UInt8.le_iff_toNat_le, UInt8.lt_iff_toNat_lt] at hle hb
  omega

/-- Nor in what is taken from it. -/
theorem Printable.of_subset (htext : Printable text) (hpart : part ⊆ text) : Printable part :=
  fun b hb => htext b (hpart hb)

/-- Texts are put together from such texts. -/
@[simp]
theorem printable_append_iff {first second : Bytes} :
    Printable (first ++ second) ↔ Printable first ∧ Printable second := List.forall_mem_append

/-- Nothing is such a text. -/
@[simp]
theorem printable_nil : Printable [] := nofun

/-- So is a byte before such a text, unless it is a control byte. -/
@[simp]
theorem printable_cons_iff {b : UInt8} : Printable (b :: text) ↔ 32 ≤ b ∧ Printable text :=
  List.forall_mem_cons

/-- Words are judged by their characters. -/
@[simp]
theorem printable_ascii_iff {word : String} :
    Printable (ascii word) ↔ ∀ c ∈ word.toList, 32 ≤ UInt8.ofNat c.toNat := by
  simp [Printable, ascii]

/-- A numeral has no control bytes. -/
@[simp]
theorem printable_decimal (n : Nat) : Printable (decimal n) := by
  intro b hb
  have hdigit := List.all_eq_true.1 (all_isDigit_decimal n) b hb
  simp only [Json.isDigit, Bool.and_eq_true, decide_eq_true_eq, UInt8.le_iff_toNat_le,
    UInt8.reduceToNat] at hdigit ⊢
  omega

end Printable

namespace Decimal

/-- Nor has a special value. -/
@[simp]
theorem printable_specialText (infinite : Option Bool) : Printable (specialText infinite) := by
  cases infinite with
  | none => simp [specialText]
  | some negative => cases negative <;> simp [specialText]

/-- Nor have zeros. -/
@[simp]
theorem printable_zeros (n : Nat) : Printable (zeros n) := by
  intro b hb
  rw [List.eq_of_mem_replicate hb]
  decide

/-- Digits are laid out without any. -/
theorem printable_positionalText {digits : Bytes} (hdigits : Printable digits) (exponent : Int) :
    Printable (positionalText false digits exponent) := by
  have htake (n : Nat) := hdigits.of_subset (List.take_subset n digits)
  have hdrop (n : Nat) := hdigits.of_subset (List.drop_subset n digits)
  have hdot : 32 ≤ dot := by decide
  unfold positionalText
  split
  · simp [hdigits]
  · dsimp only
    split
    · simp [htake, hdrop, hdot]
    · simp [hdigits]

/-- The digits of a number have none. -/
theorem printable_significantDigits (d : Numeral) : Printable (significantDigits d) := by
  refine (printable_decimal d.digits).of_subset fun b hb => ?_
  rw [significantDigits, List.mem_reverse] at hb
  exact List.mem_reverse.1 ((List.dropWhile_sublist _).mem hb)

/-- A number in the plain style has none. -/
@[simp]
theorem printable_plainText (x : Float) : Printable (plainText x) := by
  unfold plainText
  split
  · exact printable_specialText _
  · exact printable_specialText _
  next negative magnitude hreading =>
    have hmagnitude : Printable (Style.plain.magnitudeText magnitude) := by
      unfold Style.magnitudeText
      split
      · exact printable_positionalText (by simp) 0
      · have hpositional (leading : Int) : Style.plain.isPositional leading = true := rfl
        simp only [hpositional, if_true]
        exact printable_positionalText (printable_significantDigits _) _
    cases negative <;> simp [Style.finiteText, hmagnitude]

/-- A number with two places has none. -/
@[simp]
theorem printable_twoPlacesText (x : Float) : Printable (twoPlacesText x) := by
  have hdot : 32 ≤ dot := by decide
  unfold twoPlacesText
  split
  · exact printable_specialText _
  · exact printable_specialText _
  next negative magnitude hreading => cases negative <;> simp [hundredthsText, hdot]

end Decimal

/-! ## The lines -/

namespace Listing

/-- The byte between two fields. -/
def tabByte : UInt8 := 9

/-- The fields of an item: its number, its path as it is displayed, the size at which it is shown,
and the width of its caption, which is not narrower than nothing. -/
def fieldTexts (item : Placement Float) : List Bytes :=
  [decimal item.index, Utf8.display item.path, Decimal.twoPlacesText item.width,
    Decimal.twoPlacesText item.height, Decimal.twoPlacesText
      (if item.captionWidth.isNaN then 0 else max item.captionWidth 0)]

/-- The text for the container. -/
def widthText (width : Float) : Bytes := ascii "# width " ++ Decimal.plainText width

/-- The header of a row. -/
def headerText (row : Row Float) : Bytes :=
  ascii "# row " ++ decimal row.rowIndex.toNat ++ ascii " height " ++
    Decimal.twoPlacesText row.height ++ if row.wrapped then [] else ascii " (default)"

/-- The text for an item: its fields with tabs between them. -/
def itemText (item : Placement Float) : Bytes := [tabByte].intercalate (fieldTexts item)

/-- The text for the totals. -/
def totalsText (summary : Summary) : Bytes :=
  ascii "# " ++ decimal summary.itemCount ++ ascii " items in " ++ decimal summary.rowCount ++
    ascii " rows, " ++ Decimal.twoPlacesText summary.totalHeight ++ ascii "px tall"

/-- The lines of a pass, without what ends them. -/
def texts (width : Float) (rows : List (Row Float)) (summary : Summary) : List Bytes :=
  widthText width :: ((rows.flatMap fun row => headerText row :: row.items.map itemText) ++
    [totalsText summary])

/-- There is a line for the container, for each row, for each item and for the totals. -/
theorem length_texts (width : Float) (rows : List (Row Float)) (summary : Summary) :
    (texts width rows summary).length = 2 + rows.length + (rows.map (·.items.length)).sum := by
  have hrows : (rows.flatMap fun row => headerText row :: row.items.map itemText).length =
      rows.length + (rows.map (·.items.length)).sum := by
    induction rows with
    | nil => rfl
    | cons row rows ih =>
      simp [ih]
      omega
  rw [texts, List.length_cons, List.length_append, List.length_singleton, hrows]
  omega

/-- What is written at the calls of a pass are its lines. -/
theorem passBytes_eq (width : Float) (rows : List (Row Float)) (summary : Summary) :
    OutputFormat.text.passBytes width rows summary = (texts width rows summary).flatMap line := by
  have hstart : OutputFormat.text.bytesAt (.start width) = line (widthText width) :=
    List.append_nil _
  have hitem (item : Placement Float) : itemLine item = line (itemText item) := by
    rw [itemLine, itemText, fieldTexts, ← shownCaption_eq_max]
    rfl
  have hrow (row : Row Float) : OutputFormat.text.bytesAt (.row row) =
      (headerText row :: row.items.map itemText).flatMap line := by
    rw [List.flatMap_cons, List.flatMap_map, ← funext hitem]
    exact List.append_nil _
  have hfinish : OutputFormat.text.bytesAt (.finish summary) = line (totalsText summary) :=
    List.append_nil _
  simp only [OutputFormat.passBytes, texts, hstart, hrow, hfinish, List.flatMap_cons,
    List.flatMap_append, List.flatMap_assoc, List.flatMap_nil, List.append_nil, List.append_assoc]

/-- The text for the container has no control bytes. -/
theorem printable_widthText (width : Float) : Printable (widthText width) := by
  simp [widthText]

/-- Nor has the header of a row. -/
theorem printable_headerText (row : Row Float) : Printable (headerText row) := by
  cases hwrapped : row.wrapped <;> simp [headerText, hwrapped]

/-- Nor has the text for the totals. -/
theorem printable_totalsText (summary : Summary) : Printable (totalsText summary) := by
  simp [totalsText]

variable {b : UInt8}

/-- The control bytes on the line of an item are the tabs between its fields and those of its path. -/
theorem count_itemText (hb : b < 32) (item : Placement Float) :
    (itemText item).count b = 4 * [tabByte].count b + item.path.count b := by
  have hascii : b < 0x80 := UInt8.lt_trans hb (by decide)
  have hnumber := (printable_decimal item.index).count_eq_zero hb
  have hplaces (x : Float) := (Decimal.printable_twoPlacesText x).count_eq_zero hb
  simp only [itemText, fieldTexts, List.intercalate_cons_cons, List.intercalate_singleton,
    List.count_append, hnumber, hplaces, Utf8.count_display item.path hascii]
  omega

/-- The fields of an item have no tab if its path has none. -/
theorem forall_tab_notMem_fieldTexts_iff (item : Placement Float) :
    (∀ field ∈ fieldTexts item, tabByte ∉ field) ↔ tabByte ∉ item.path := by
  have htab : tabByte < 32 := by decide
  have hnumber := (printable_decimal item.index).count_eq_zero htab
  have hplaces (x : Float) := (Decimal.printable_twoPlacesText x).count_eq_zero htab
  have hpath := Utf8.count_display item.path (UInt8.lt_trans htab (by decide))
  simp [← List.count_eq_zero, fieldTexts, hnumber, hplaces, hpath]

/-- These are the fields that are found between the tabs of its line. -/
theorem splitAtByte_itemText_eq_iff (item : Placement Float) :
    splitAtByte tabByte (itemText item) = fieldTexts item ↔ tabByte ∉ item.path := by
  rw [← forall_tab_notMem_fieldTexts_iff]
  constructor
  · intro hfields field hmem
    exact notMem_of_mem_splitAtByte (hfields ▸ hmem)
  · intro hfields
    exact splitAtByte_intercalate hfields (List.cons_ne_nil _ _)

/-- The newlines on the line of an item are those of its path. -/
theorem count_newline_itemText (item : Placement Float) :
    (itemText item).count newline = item.path.count newline := by
  have htab : [tabByte].count newline = 0 := by decide
  rw [count_itemText (by decide), htab, Nat.mul_zero, Nat.zero_add]

/-- The newlines in the lines of a pass are those of the paths. -/
theorem sum_count_newline_texts (width : Float) (rows : List (Row Float)) (summary : Summary) :
    ((texts width rows summary).map (·.count newline)).sum =
      ((rows.flatMap (·.items)).map (·.path.count newline)).sum := by
  have hnewline : newline < 32 := by decide
  have hwidth := (printable_widthText width).count_eq_zero hnewline
  have htotals := (printable_totalsText summary).count_eq_zero hnewline
  have hheader (row : Row Float) := (printable_headerText row).count_eq_zero hnewline
  have hrows : ((rows.flatMap fun row => headerText row :: row.items.map itemText).map
      (·.count newline)).sum = ((rows.flatMap (·.items)).map (·.path.count newline)).sum := by
    induction rows with
    | nil => rfl
    | cons row rows ih =>
      simp [hheader, count_newline_itemText, Function.comp_def, ih]
  simp [texts, hwidth, htotals, hrows]

/-- The lines of a pass have no newline in them if no path has one. -/
theorem forall_newline_notMem_texts_iff (width : Float) (rows : List (Row Float))
    (summary : Summary) :
    (∀ text ∈ texts width rows summary, newline ∉ text) ↔
      ∀ row ∈ rows, ∀ item ∈ row.items, newline ∉ item.path := by
  have hzero (pieces : List Bytes) : (∀ piece ∈ pieces, newline ∉ piece) ↔
      (pieces.map (·.count newline)).sum = 0 := by
    simp [List.sum_eq_zero_iff_forall_eq_nat, List.count_eq_zero]
  have hpaths := hzero ((rows.flatMap (·.items)).map (·.path))
  rw [List.map_map, Function.comp_def] at hpaths
  rw [hzero, sum_count_newline_texts, ← hpaths]
  simp only [List.forall_mem_map, List.forall_mem_flatMap]

end Listing

open Listing in
/-- A listing has a line for the container, for each row, for each item and for the totals, in
this order, and five fields on the line of each item, as far as the paths allow it. Every newline
in a path makes one more line, and every tab one more field. So the lines and the fields that
are found in the listing are those that it has just if no path has a newline, or a tab. -/
theorem Sink.listing_has_lines_and_fields (width : Float) (rows : List (Row Float))
    (summary : Summary) :
    ∃ sink, receiver.feed (fresh .text .unlimited) (passCalls width rows summary) = (.ok (), sink) ∧
      sink.writer.held = (texts width rows summary).flatMap line ∧
      (texts width rows summary).length = 2 + rows.length + (rows.map (·.items.length)).sum ∧
      sink.writer.held.count newline = (texts width rows summary).length +
        ((rows.flatMap (·.items)).map (·.path.count newline)).sum ∧
      (splitAtByte newline sink.writer.held = texts width rows summary ++ [[]] ↔
        ∀ row ∈ rows, ∀ item ∈ row.items, newline ∉ item.path) ∧
      ∀ row ∈ rows, ∀ item ∈ row.items,
        (splitAtByte tabByte (itemText item)).length = 5 + item.path.count tabByte ∧
        (splitAtByte tabByte (itemText item) = fieldTexts item ↔ tabByte ∉ item.path) := by
  have hformat : OutputFormat.text ≠ .json := nofun
  obtain ⟨sink, hfeed, hheld⟩ := feed_passCalls_of_ne_json hformat width rows summary
  rw [passBytes_eq] at hheld
  refine ⟨sink, hfeed, hheld, length_texts width rows summary, ?_, ?_, ?_⟩
  · rw [hheld, count_flatMap_line, sum_count_newline_texts]
  · rw [hheld, ← forall_newline_notMem_texts_iff width rows summary]
    constructor
    · intro hlines text hmem
      exact notMem_of_mem_splitAtByte (hlines ▸ List.mem_append_left _ hmem)
    · intro hlines
      exact splitAtByte_flatMap_line hlines
  · intro row hrow item hitem
    have htab : [tabByte].count tabByte = 1 := by decide
    constructor
    · rw [length_splitAtByte, count_itemText (by decide), htab]
      omega
    · exact splitAtByte_itemText_eq_iff item

/-- A row of two items, one with a newline in its path and one with a tab. -/
def crookedRow : Row Float :=
  ⟨0, 0, 180, false, [⟨0, ascii "a\nb.jpg", 1.5, 270, 180, 238⟩, ⟨1, ascii "c\td.jpg", 1, 180, 180, 148⟩]⟩

/-- Its listing has six lines instead of five, and six fields on the line of the second item. -/
theorem Sink.listing_of_crooked_paths :
    ((receiver.feed (fresh .text .unlimited)
        (passCalls 1000 [crookedRow] ⟨1000, 1, 2, 180⟩)).2.writer.held.count newline = 6) ∧
      2 + [crookedRow].length + ([crookedRow].map (·.items.length)).sum = 5 ∧
      (crookedRow.items.map fun item =>
        (splitAtByte Listing.tabByte (Listing.itemText item)).length) = [5, 6] := by
  decide +kernel

end Gallery
