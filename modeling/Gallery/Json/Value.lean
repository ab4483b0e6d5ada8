import Gallery.Bytes

/-!
# JSON values

The values of which the documents of a layout are made. Counts and numbers are kept apart,
since a count never shows a point and a number always does. Text is a byte string; only
well-formed text has a written form.
-/

namespace Gallery.Json

/-- A JSON value. An object lists its fields in the order in which they are written. -/
inductive Value where
  | null
  | bool (value : Bool)
  | count (value : Nat)
  | number (value : Float)
  | text (value : Bytes)
  | array (elements : List Value)
  | object (fields : List (Bytes × Value))

end Gallery.Json
