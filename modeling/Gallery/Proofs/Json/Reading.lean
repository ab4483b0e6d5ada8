import Gallery.Proofs.Json.Number
import Gallery.Proofs.Json.Text
import Mathlib.Data.List.Forall2

/-!
# Values that come back

A value that is written in full comes back when it is read, but for numbers that are not finite,
which come back as null. Whether a number comes back is up to its reader, so it is assumed of the
finite numbers in the value.

What is read of a value is told together with what its surroundings need to know: how it begins,
that it has no line break, and what may follow it. Then a value comes back if its parts do.
-/

namespace Gallery.Json

/-! ## Parts with commas between them -/

/-- Texts with a comma between neighbours. -/
def commas (texts : List Bytes) : Bytes := List.intercalate [44] texts

section Commas

variable {texts : List Bytes}

/-- A comma stands behind a text that is not the last. -/
theorem commas_cons_cons (first second : Bytes) (texts : List Bytes) :
    commas (first :: second :: texts) = first ++ 44 :: commas (second :: texts) := by
  rw [commas, List.intercalate_cons_cons, List.append_assoc]
  rfl

/-- Commas add nothing else to the bytes of the texts. -/
theorem notMem_commas {b : UInt8} (hb : b ≠ 44) (htexts : ∀ text ∈ texts, b ∉ text) :
    b ∉ commas texts := by
  induction texts with
  | nil => exact nofun
  | cons first texts ih =>
    rw [List.forall_mem_cons] at htexts
    cases texts with
    | nil => simpa [commas] using htexts.1
    | cons second texts =>
      rw [commas_cons_cons, List.mem_append, List.mem_cons]
      simp [htexts.1, hb, ih htexts.2]

/-- Commas only make texts longer. -/
theorem sum_length_le_commas (texts : List Bytes) :
    (texts.map List.length).sum ≤ (commas texts).length := by
  induction texts with
  | nil => rfl
  | cons first texts ih =>
    cases texts with
    | nil => simp [commas]
    | cons second texts =>
      rw [commas_cons_cons, List.map_cons, List.sum_cons, List.length_append, List.length_cons]
      omega

end Commas

/-- Whether what follows a value does not go on with it. -/
def Stops (rest : Bytes) : Prop := ∀ b ∈ rest.head?, isNumberByte b = false

/-- A text that comes back as a value, whatever stops it, if the reader may go down as often as
the text is long. No list is closed by its first byte. -/
structure Part {α : Type} (closing : UInt8) (item : Nat → Bytes → Option (α × Bytes))
    (text : Bytes) (value : α) : Prop where
  first : ∃ b rest, text = b :: rest ∧ isSpace b = false ∧ b ≠ closing
  reads : ∀ fuel rest, text.length ≤ fuel → Stops rest →
    item fuel (text ++ rest) = some (value, rest)

/-- Nothing is skipped in front of a byte that is no blank. -/
theorem skipSpace_cons {b : UInt8} (hb : isSpace b = false) (rest : Bytes) :
    skipSpace (b :: rest) = b :: rest := by
  simp [skipSpace, hb]

section Lists

variable {α : Type} {closing : UInt8} {item : Nat → Bytes → Option (α × Bytes)}
  {texts : List Bytes} {values : List α}

/-- Parts come back from between commas. -/
theorem readItems_commas (hclosing : closing = 93 ∨ closing = 125)
    (hparts : List.Forall₂ (Part closing item) texts values) (hnonempty : texts ≠ [])
    {depth fuel : Nat} (hdepth : (commas texts).length ≤ depth) (hfuel : texts.length ≤ fuel)
    (rest : Bytes) :
    readItems closing (item depth) fuel (commas texts ++ closing :: rest) = some (values, rest) := by
  have hstops : Stops (closing :: rest) := by
    obtain rfl | rfl := hclosing <;> exact fun b hb => Option.some.inj hb ▸ rfl
  have hspace : isSpace closing = false := by obtain rfl | rfl := hclosing <;> rfl
  -- The second bound goes down with every part; the first is for each part alone.
  induction hparts generalizing fuel with
  | nil => contradiction
  | @cons text value texts values hpart hothers ih =>
    obtain ⟨fuel, rfl⟩ := Nat.exists_eq_add_of_le' (Nat.le_trans (Nat.le_add_left 1 _) hfuel)
    rw [readItems]
    cases hothers with
    | nil =>
      rw [commas, List.intercalate_singleton] at hdepth ⊢
      rw [hpart.reads depth _ hdepth hstops]
      simp only [skipSpace_cons hspace, if_true]
    | @cons next other texts values hnext hothers =>
      have hother : 44 ≠ closing := by obtain rfl | rfl := hclosing <;> decide
      have hcomma : isSpace 44 = false := rfl
      have hread := hpart.reads depth (44 :: (commas (next :: texts) ++ closing :: rest))
      rw [commas_cons_cons, List.length_append, List.length_cons] at hdepth
      rw [commas_cons_cons, List.append_assoc, List.cons_append,
        hread (by omega) fun b hb => Option.some.inj hb ▸ rfl]
      simp only [skipSpace_cons hcomma, hother, if_false, if_true]
      rw [ih nofun (by omega) (by simpa using hfuel)]
      rfl

/-- There are no more parts than bytes. -/
theorem length_le_commas (hparts : List.Forall₂ (Part closing item) texts values) :
    texts.length ≤ (commas texts).length := by
  refine Nat.le_trans ?_ (sum_length_le_commas texts)
  induction hparts with
  | nil => rfl
  | cons hpart _ ih =>
    obtain ⟨b, rest, rfl, -⟩ := hpart.first
    simp only [List.length_cons, List.map_cons, List.sum_cons]
    omega

/-- Parts come back as a list, also if there are none. -/
theorem readList_commas (hclosing : closing = 93 ∨ closing = 125)
    (hparts : List.Forall₂ (Part closing item) texts values) {fuel : Nat}
    (hfuel : (commas texts).length ≤ fuel) (rest : Bytes) :
    readList closing (item fuel) fuel (commas texts ++ closing :: rest) = some (values, rest) := by
  have hlength := Nat.le_trans (length_le_commas hparts) hfuel
  rw [readList]
  cases hparts with
  | nil =>
    have hspace : isSpace closing = false := by obtain rfl | rfl := hclosing <;> rfl
    have hskip : skipSpace (commas [] ++ closing :: rest) = closing :: rest :=
      skipSpace_cons hspace rest
    simp [hskip]
  | @cons text value texts values hpart hothers =>
    -- The first byte of the first part tells that the list is not empty.
    obtain ⟨b, more, hcons, hspace, hother⟩ := hpart.first
    have hbegins : ∃ more, commas (text :: texts) ++ closing :: rest = b :: more := by
      cases texts with
      | nil => exact ⟨_, by rw [commas, List.intercalate_singleton, hcons]; rfl⟩
      | cons next texts => exact ⟨_, by rw [commas_cons_cons, hcons]; rfl⟩
    obtain ⟨after, hbegins⟩ := hbegins
    rw [if_neg, readItems_commas hclosing (.cons hpart hothers) nofun hfuel hlength]
    rw [hbegins, skipSpace_cons hspace, List.head?_cons, Option.some.injEq]
    exact hother

end Lists

/-! ## Values -/

/-- A value whose written form is read as another value. -/
structure Value.ReadsAs (number? : Bytes → Option Float) (value result : Value) : Prop where
  complete : value.render.isComplete
  oneLine : newline ∉ value.render.bytes
  part : Part 93 (readValue number?) value.render.bytes result

namespace Value

variable {number? : Bytes → Option Float}

/-- Only the written form of a value counts. -/
theorem ReadsAs.of_render {value other result : Value} (hother : ReadsAs number? other result)
    (hrender : value.render = other.render) : ReadsAs number? value result := by
  obtain ⟨hcomplete, honeLine, hpart⟩ := hother
  rw [← hrender] at hcomplete honeLine hpart
  exact ⟨hcomplete, honeLine, hpart⟩

/-- Null comes back. -/
theorem readsAs_null : ReadsAs number? .null .null where
  complete := rfl
  oneLine := by decide
  part := by
    refine ⟨⟨_, _, rfl, rfl, by decide⟩, ?_⟩
    rintro (_ | fuel) rest hfuel -
    · contradiction
    · rfl

/-- Truth values come back. -/
theorem readsAs_bool (truth : Bool) : ReadsAs number? (.bool truth) (.bool truth) where
  complete := by cases truth <;> rfl
  oneLine := by cases truth <;> decide
  part := by
    refine ⟨by cases truth <;> exact ⟨_, _, rfl, rfl, by decide⟩, ?_⟩
    rintro (_ | fuel) rest hfuel -
    · cases truth <;> contradiction
    · cases truth <;> rfl

/-- What is written with the bytes of a number is read as the number. -/
theorem readsAs_of_token {value result : Value} {token : Bytes}
    (hvalue : value.render = .whole token)
    (hfirst : ∃ b rest, token = b :: rest ∧ (isDigit b || b = 45)) (htoken : token.all isNumberByte)
    (hresult : ofNumber? number? token = some result) : ReadsAs number? value result := by
  obtain ⟨b, others, rfl, hb⟩ := hfirst
  have hspace : isSpace b = false := by
    unfold isDigit at hb
    unfold isSpace
    grind
  -- No other value begins with a digit or a minus, so the reader takes it for a number.
  have hother : b ≠ 34 ∧ b ≠ 91 ∧ b ≠ 93 ∧ b ≠ 123 := by
    unfold isDigit at hb
    grind
  have hbytes : value.render.bytes = b :: others := congrArg Fragment.bytes hvalue
  refine ⟨hvalue ▸ rfl, ?_, ⟨b, others, hbytes, hspace, hother.2.2.1⟩, ?_⟩
  · rw [hbytes]
    intro hmem
    exact absurd (List.all_eq_true.1 htoken newline hmem) (by decide)
  · rw [hbytes]
    rintro (_ | fuel) rest hfuel hrest
    · contradiction
    · obtain ⟨htake, hdrop⟩ := span_append htoken hrest
      rw [readValue, List.cons_append, skipSpace_cons hspace]
      simp only [hother, if_false]
      rw [if_pos hb, readNumber, ← List.cons_append, htake, hdrop, hresult]
      rfl

/-- Counts come back. -/
theorem readsAs_count (n : Nat) : ReadsAs number? (.count n) (.count n) := by
  have hdigits := all_isDigit_decimal n
  have hwhole : isWhole (decimal n) := by
    by_cases hn : n = 0
    · rw [hn]
      rfl
    · exact (Decimal.leads_decimal hn).isWhole
  have hnumber : isNumber (decimal n) := by
    have hfraction : isFraction [] := rfl
    have hexponent : isExponent [] := rfl
    simpa using isNumber_append hwhole hfraction hexponent false
  have hrender : (Value.count n).render = .whole (decimal n) := by rw [render]
  refine readsAs_of_token hrender ?_ (all_isNumberByte_of_all_isDigit hdigits) ?_
  · obtain ⟨b, rest, hcons⟩ := List.exists_cons_of_ne_nil (decimal_ne_nil n)
    rw [hcons, List.all_cons, Bool.and_eq_true] at hdigits
    exact ⟨b, rest, hcons, by rw [hdigits.1]; rfl⟩
  · simp [ofNumber?, hnumber, hdigits, ofDigits_decimal]

/-- A number that is finite comes back if its reader knows it. -/
theorem readsAs_number {x : Float} (hx : x.isFinite = true) (hread : number? (numberText x) = some x) :
    ReadsAs number? (.number x) (.number x) := by
  obtain ⟨hnumber, hbytes, hnotCount, hfirst⟩ := writesNumber_numberText hx
  refine readsAs_of_token (by rw [render]) hfirst hbytes ?_
  simp [ofNumber?, hnumber, hnotCount, hread]

/-- A number that is not finite comes back as null. -/
theorem readsAs_number_of_not_isFinite {x : Float} (hx : x.isFinite = false) :
    ReadsAs number? (.number x) .null :=
  readsAs_null.of_render (by rw [render, render, numberText_of_not_isFinite hx])

/-- Text that is well-formed comes back. -/
theorem readsAs_text {text : Bytes} (htext : Utf8.isValid text) :
    ReadsAs number? (.text text) (.text text) := by
  have hrender : (Value.text text).render = .whole (quote text) := by rw [render, if_pos htext]
  have hbytes : (Value.text text).render.bytes = quote text := congrArg Fragment.bytes hrender
  refine ⟨hrender ▸ rfl, ?_, ⟨34, _, hbytes, rfl, by decide⟩, ?_⟩
  · rw [hbytes]
    exact newline_notMem_quote text
  · rw [hbytes]
    rintro (_ | fuel) rest hfuel -
    · contradiction
    · have hspace : isSpace 34 = false := rfl
      rw [readValue, quote, List.cons_append, skipSpace_cons hspace, List.append_assoc]
      simp [readText_quoted htext]

/-! ## Arrays and objects -/

/-- What is in brackets is written in full if it is so itself. -/
theorem isComplete_enclosed (opening closing : Bytes) (middle : Fragment) :
    (.whole opening ++ middle ++ .whole closing : Fragment).isComplete = middle.isComplete := by
  simp [Fragment.isComplete_append, Fragment.whole]

/-- What is written in full stands between its brackets. -/
theorem bytes_enclosed {middle : Fragment} (hmiddle : middle.isComplete)
    (opening closing : Bytes) :
    (.whole opening ++ middle ++ .whole closing : Fragment).bytes =
      opening ++ (middle.bytes ++ closing) := by
  have hopening : (Fragment.whole opening ++ middle).isComplete := by
    rw [Fragment.isComplete_append, hmiddle]
    rfl
  rw [Fragment.bytes_append_of_isComplete hopening, Fragment.bytes_append_of_isComplete rfl,
    List.append_assoc]
  rfl

/-- What is written in full has a comma behind it. -/
theorem bytes_comma {first : Fragment} (hfirst : first.isComplete) (others : Fragment) :
    (first ++ .whole (ascii ",") ++ others).bytes = first.bytes ++ 44 :: others.bytes := by
  have hcomma : (first ++ Fragment.whole (ascii ",")).isComplete := by
    rw [Fragment.isComplete_append, hfirst]
    rfl
  rw [Fragment.bytes_append_of_isComplete hcomma, Fragment.bytes_append_of_isComplete hfirst,
    List.append_assoc]
  rfl

/-- Elements that are written in full have commas between them. -/
theorem bytes_renderElements {values : List Value}
    (hvalues : ∀ value ∈ values, value.render.isComplete) :
    (renderElements values).bytes = commas (values.map fun value => value.render.bytes) := by
  induction values with
  | nil => rfl
  | cons value values ih =>
    rw [List.forall_mem_cons] at hvalues
    cases values with
    | nil => simp [renderElements, commas]
    | cons next values =>
      rw [renderElements, bytes_comma hvalues.1, ih hvalues.2]
      · exact (commas_cons_cons _ _ _).symm
      · exact List.cons_ne_nil _ _

/-- A field in its written form. -/
def fieldText (field : Bytes × Value) : Bytes := quote field.1 ++ 58 :: field.2.render.bytes

/-- Fields that are written in full have commas between them. -/
theorem bytes_renderFields {fields : List (Bytes × Value)}
    (hfields : ∀ field ∈ fields, field.2.render.isComplete) :
    (renderFields fields).bytes = commas (fields.map fieldText) := by
  induction fields with
  | nil => rfl
  | cons field fields ih =>
    obtain ⟨name, value⟩ := field
    rw [List.forall_mem_cons] at hfields
    have hbytes : (.whole (quote name ++ ascii ":") ++ value.render : Fragment).bytes =
        fieldText (name, value) := by
      rw [Fragment.bytes_append_of_isComplete rfl, fieldText]
      exact List.append_assoc _ _ _
    cases fields with
    | nil => rw [renderFields, hbytes, List.map_singleton, commas, List.intercalate_singleton]
    | cons next fields =>
      rw [renderFields, bytes_comma, ih hfields.2, hbytes]
      · exact (commas_cons_cons _ _ _).symm
      · rw [Fragment.isComplete_append]
        exact hfields.1
      · exact List.cons_ne_nil _ _

/-- A list in brackets comes back if what follows the opening bracket does. -/
theorem readsAs_of_enclosed {value result : Value} {opening closing : UInt8} {middle : Fragment}
    {texts : List Bytes} (hvalue : value.render = .whole [opening] ++ middle ++ .whole [closing])
    (hmiddle : middle.isComplete) (hbytes : middle.bytes = commas texts)
    (hlines : ∀ text ∈ texts, newline ∉ text)
    (hopening : opening = 91 ∨ opening = 123) (hclosing : closing = 93 ∨ closing = 125)
    (hreads : ∀ fuel rest, (commas texts).length ≤ fuel →
      readValue number? (fuel + 1) (opening :: (commas texts ++ closing :: rest)) =
        some (result, rest)) : ReadsAs number? value result := by
  have henclosed : value.render.bytes = opening :: (commas texts ++ [closing]) := by
    rw [hvalue, bytes_enclosed hmiddle, hbytes]
    rfl
  refine ⟨by rw [hvalue, isComplete_enclosed, hmiddle], ?_, ?_, ?_⟩
  · have hcommas : newline ∉ commas texts := notMem_commas (by decide) hlines
    have hbegin : newline ≠ opening := by obtain rfl | rfl := hopening <;> decide
    have hend : newline ≠ closing := by obtain rfl | rfl := hclosing <;> decide
    rw [henclosed, List.mem_cons, List.mem_append, List.mem_singleton]
    simp [hcommas, hbegin, hend]
  · refine ⟨opening, _, henclosed, ?_⟩
    obtain rfl | rfl := hopening <;> exact ⟨rfl, by decide⟩
  · rw [henclosed]
    rintro (_ | fuel) rest hfuel -
    · contradiction
    · rw [List.cons_append, List.append_assoc]
      refine hreads fuel rest ?_
      rw [List.length_cons, List.length_append] at hfuel
      omega

/-- An array comes back if its elements do. -/
theorem readsAs_array {values results : List Value}
    (helements : List.Forall₂ (ReadsAs number?) values results) :
    ReadsAs number? (.array values) (.array results) := by
  have hmembers : ∀ value ∈ values, value.render.isComplete ∧ newline ∉ value.render.bytes :=
    ((List.forall₂_and_left _ _).1 (helements.imp fun _ _ h => ⟨⟨h.complete, h.oneLine⟩, h⟩)).1
  have hparts : List.Forall₂ (Part 93 (readValue number?))
      (values.map fun value => value.render.bytes) results :=
    List.forall₂_map_left_iff.2 (helements.imp fun _ _ h => h.part)
  have hspace : isSpace 91 = false := rfl
  refine readsAs_of_enclosed (by rw [render]; rfl) ?_
    (bytes_renderElements fun value hvalue => (hmembers value hvalue).1)
    (List.forall_mem_map.2 fun value hvalue => (hmembers value hvalue).2) (.inl rfl) (.inl rfl) ?_
  · rw [isComplete_renderElements, List.all_eq_true]
    exact fun value hvalue => (hmembers value hvalue).1
  · intro fuel rest hfuel
    rw [readValue, skipSpace_cons hspace]
    simp [readList_commas (.inl rfl) hparts hfuel]

/-- A field whose name is text and whose value comes back. -/
structure FieldReadsAs (number? : Bytes → Option Float) (field result : Bytes × Value) : Prop where
  name : result.1 = field.1
  text : Utf8.isValid field.1
  value : ReadsAs number? field.2 result.2

/-- Such a field comes back. -/
theorem FieldReadsAs.part {field result : Bytes × Value} (hfield : FieldReadsAs number? field result) :
    Part 125 (fun fuel => readField (readValue number? fuel)) (fieldText field) result := by
  obtain ⟨name, value⟩ := field
  obtain ⟨other, result⟩ := result
  obtain ⟨hname, htext, hvalue⟩ := hfield
  dsimp only at hname htext hvalue
  subst hname
  refine ⟨⟨34, _, rfl, rfl, by decide⟩, ?_⟩
  intro fuel rest hfuel hrest
  have hquote : isSpace 34 = false := rfl
  have hcolon : isSpace 58 = false := rfl
  have hlength : value.render.bytes.length ≤ fuel := by
    simp only [fieldText, List.length_append, List.length_cons] at hfuel
    omega
  have hbytes : fieldText (other, value) ++ rest =
      34 :: (other.flatMap escapeByte ++ 34 :: 58 :: (value.render.bytes ++ rest)) := by
    simp [fieldText, quote]
  rw [hbytes, readField, skipSpace_cons hquote]
  simp [readText_quoted htext, skipSpace_cons hcolon, hvalue.part.reads fuel rest hlength hrest]

/-- Such a field has no line break. -/
theorem FieldReadsAs.oneLine {field result : Bytes × Value}
    (hfield : FieldReadsAs number? field result) : newline ∉ fieldText field := by
  have hcolon : newline ≠ 58 := by decide
  rw [fieldText, List.mem_append, List.mem_cons]
  simp [newline_notMem_quote, hcolon, hfield.value.oneLine]

/-- An object comes back if its fields do. -/
theorem readsAs_object {fields results : List (Bytes × Value)}
    (hfields : List.Forall₂ (FieldReadsAs number?) fields results) :
    ReadsAs number? (.object fields) (.object results) := by
  have hmembers : ∀ field ∈ fields, field.2.render.isComplete ∧ newline ∉ fieldText field :=
    ((List.forall₂_and_left _ _).1
      (hfields.imp fun _ _ h => ⟨⟨h.value.complete, h.oneLine⟩, h⟩)).1
  have hparts : List.Forall₂ (Part 125 fun fuel => readField (readValue number? fuel))
      (fields.map fieldText) results :=
    List.forall₂_map_left_iff.2 (hfields.imp fun _ _ h => h.part)
  have hspace : isSpace 123 = false := rfl
  refine readsAs_of_enclosed (by rw [render]; rfl) ?_
    (bytes_renderFields fun field hfield => (hmembers field hfield).1)
    (List.forall_mem_map.2 fun field hfield => (hmembers field hfield).2) (.inr rfl) (.inr rfl) ?_
  · rw [isComplete_renderFields, List.all_eq_true]
    exact fun field hfield => (hmembers field hfield).1
  · intro fuel rest hfuel
    rw [readValue, skipSpace_cons hspace]
    simp [readList_commas (.inr rfl) hparts hfuel]

/-- A text that is nothing but a value is read as it. -/
theorem ReadsAs.read? {value result : Value} (hvalue : ReadsAs number? value result) :
    Value.read? number? value.render.bytes = some result := by
  have hread := hvalue.part.reads value.render.bytes.length [] (Nat.le_refl _) nofun
  rw [List.append_nil] at hread
  rw [Value.read?, hread]
  rfl

end Value

end Gallery.Json
