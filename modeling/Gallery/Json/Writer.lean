import Gallery.Json.Value
import Gallery.Decimal.Style
import Gallery.Utf8

/-!
# Writing JSON

A value is written without blanks. In text a quote, a backslash and the control characters
are escaped, five of these by a letter of their own; everything else stands for itself, so
the written form of a value never contains a line break. A number that is not finite is
written as null.

Text that is not well-formed cannot be written. The document then breaks off right in front
of it; a fragment records what was written and whether it is complete.
-/

namespace Gallery.Json

/-- Written text that may have broken off. -/
structure Fragment where
  bytes : Bytes
  isComplete : Bool
  deriving DecidableEq, Repr

namespace Fragment

/-- A complete fragment. -/
def whole (bytes : Bytes) : Fragment := ⟨bytes, true⟩

/-- A fragment that broke off before its first byte. -/
def broken : Fragment := ⟨[], false⟩

/-- One fragment after another; nothing follows a fragment that broke off. -/
def append (first second : Fragment) : Fragment :=
  if first.isComplete then ⟨first.bytes ++ second.bytes, second.isComplete⟩ else first

instance : Append Fragment := ⟨append⟩

/-- One fragment after another is complete if both are. -/
theorem isComplete_append (first second : Fragment) :
    (first ++ second).isComplete = (first.isComplete && second.isComplete) := by
  change (first.append second).isComplete = _
  unfold append
  cases hfirst : first.isComplete <;> simp [hfirst]

/-- What comes behind a complete fragment is written behind it. -/
theorem bytes_append_of_isComplete {first : Fragment} (hfirst : first.isComplete)
    (second : Fragment) : (first ++ second).bytes = first.bytes ++ second.bytes := by
  change (first.append second).bytes = _
  rw [append, if_pos hfirst]

end Fragment

/-- The digit of a number below sixteen, in lower case. -/
def hexDigit (n : Nat) : UInt8 := UInt8.ofNat (if n < 10 then 48 + n else 87 + n)

/-- The escape letter of a byte that has one. -/
def escapeLetter? (b : UInt8) : Option UInt8 :=
  if b = 34 then some 34
  else if b = 92 then some 92
  else if b = 8 then some 98
  else if b = 12 then some 102
  else if b = 10 then some 110
  else if b = 13 then some 114
  else if b = 9 then some 116
  else none

/-- A byte of text in its written form. -/
def escapeByte (b : UInt8) : Bytes :=
  match escapeLetter? b with
  | some letter => [92, letter]
  | none =>
    if b < 32 then ascii "\\u00" ++ [hexDigit (b.toNat / 16), hexDigit (b.toNat % 16)]
    else [b]

/-- Text between quotes. -/
def quote (text : Bytes) : Bytes := 34 :: (text.flatMap escapeByte ++ [34])

/-- The text of a number. -/
def numberText (x : Float) : Bytes :=
  match Decimal.Reading.ofFloat x with
  | .finite negative magnitude => Decimal.Style.document.finiteText negative magnitude
  | _ => ascii "null"

namespace Value

mutual

/-- The written form of a value. -/
def render : Value → Fragment
  | .null => .whole (ascii "null")
  | .bool true => .whole (ascii "true")
  | .bool false => .whole (ascii "false")
  | .count n => .whole (decimal n)
  | .number x => .whole (numberText x)
  | .text bytes => if Utf8.isValid bytes then .whole (quote bytes) else .broken
  | .array elements => .whole (ascii "[") ++ renderElements elements ++ .whole (ascii "]")
  | .object fields => .whole (ascii "\x7b") ++ renderFields fields ++ .whole (ascii "\x7d")

/-- The elements of an array, with commas between them. -/
def renderElements : List Value → Fragment
  | [] => .whole []
  | [value] => value.render
  | value :: values => value.render ++ .whole (ascii ",") ++ renderElements values

/-- The fields of an object, with commas between them. -/
def renderFields : List (Bytes × Value) → Fragment
  | [] => .whole []
  | [(key, value)] => .whole (quote key ++ ascii ":") ++ value.render
  | (key, value) :: fields =>
    .whole (quote key ++ ascii ":") ++ value.render ++ .whole (ascii ",") ++ renderFields fields

end

/-- Elements are written in full if each of them is. -/
theorem isComplete_renderElements (elements : List Value) :
    (renderElements elements).isComplete = elements.all fun value => value.render.isComplete := by
  induction elements with
  | nil => rfl
  | cons value elements ih =>
    cases elements with
    | nil => simp [renderElements]
    | cons next rest =>
      rw [renderElements, Fragment.isComplete_append, Fragment.isComplete_append, ih, List.all_cons]
      · simp [Fragment.whole]
      · simp

/-- Fields are written in full if each of their values is. -/
theorem isComplete_renderFields (fields : List (Bytes × Value)) :
    (renderFields fields).isComplete = fields.all fun field => field.2.render.isComplete := by
  induction fields with
  | nil => rfl
  | cons field fields ih =>
    obtain ⟨key, value⟩ := field
    cases fields with
    | nil => simp [renderFields, Fragment.isComplete_append, Fragment.whole]
    | cons next rest =>
      rw [renderFields, Fragment.isComplete_append, Fragment.isComplete_append,
        Fragment.isComplete_append, ih, List.all_cons]
      · simp [Fragment.whole]
      · simp

end Value

end Gallery.Json
