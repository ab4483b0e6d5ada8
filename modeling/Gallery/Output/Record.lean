import Gallery.Json.Reader
import Gallery.Row

/-!
# Records of passes

What a line of the document says of its pass: the totals, and the rows with their items. A number
that was not finite is only known to be so. Fields are found by their names, in any order, and
fields with other names do not matter.
-/

namespace Gallery

/-- What a document tells of a number: nothing if it is not finite. -/
def finite? (x : Float) : Option Float := if x.isFinite then some x else none

namespace Placement

variable {α β : Type}

/-- An item with other numbers. -/
def map (f : α → β) (item : Placement α) : Placement β :=
  ⟨item.index, item.path, f item.ratio, f item.width, f item.height, f item.captionWidth⟩

end Placement

namespace Row

variable {α β : Type}

/-- A row with other numbers. -/
def map (f : α → β) (row : Row α) : Row β :=
  ⟨row.rowIndex, row.start, f row.height, row.wrapped, row.items.map (·.map f)⟩

end Row

/-- What a document tells of a pass. -/
structure PassRecord where
  containerWidth : Option Float
  rowCount : Nat
  itemCount : Nat
  totalHeight : Option Float
  rows : List (Row (Option Float))
  deriving DecidableEq

namespace Json.Value

/-- The value of a field. -/
def field? (name : Bytes) : Value → Option Value
  | .object fields => fields.lookup name
  | _ => none

/-- A count. -/
def count? : Value → Option Nat
  | .count n => some n
  | _ => none

/-- A truth value. -/
def bool? : Value → Option Bool
  | .bool truth => some truth
  | _ => none

/-- Text. -/
def text? : Value → Option Bytes
  | .text bytes => some bytes
  | _ => none

/-- A number, or null for one that is not finite. -/
def number? : Value → Option (Option Float)
  | .number x => some (some x)
  | .null => some none
  | _ => none

/-- The elements of an array, each read in the same way. -/
def elements? {α : Type} (element? : Value → Option α) : Value → Option (List α)
  | .array elements => elements.mapM element?
  | _ => none

end Json.Value

open Json (Value)

/-- The item of a value. -/
def Placement.ofValue? (value : Value) : Option (Placement (Option Float)) := do
  let index ← (value.field? (ascii "index")).bind Value.count?
  let path ← (value.field? (ascii "media_path")).bind Value.text?
  let ratio ← (value.field? (ascii "aspect_ratio")).bind Value.number?
  let width ← (value.field? (ascii "rendered_w")).bind Value.number?
  let height ← (value.field? (ascii "rendered_h")).bind Value.number?
  let captionWidth ← (value.field? (ascii "caption_w")).bind Value.number?
  some ⟨index, path, ratio, width, height, captionWidth⟩

/-- The row of a value. Its index must fit into 32 bits. -/
def Row.ofValue? (value : Value) : Option (Row (Option Float)) := do
  let rowIndex ← (value.field? (ascii "row_index")).bind Value.count?
  let start ← (value.field? (ascii "start_index")).bind Value.count?
  let height ← (value.field? (ascii "height_px")).bind Value.number?
  let wrapped ← (value.field? (ascii "wrapped")).bind Value.bool?
  let items ← (value.field? (ascii "items")).bind (Value.elements? Placement.ofValue?)
  if rowIndex < UInt32.size then some ⟨UInt32.ofNat rowIndex, start, height, wrapped, items⟩
  else none

/-- The pass of a value. -/
def PassRecord.ofValue? (value : Value) : Option PassRecord := do
  let containerWidth ← (value.field? (ascii "container_width")).bind Value.number?
  let rowCount ← (value.field? (ascii "row_count")).bind Value.count?
  let itemCount ← (value.field? (ascii "item_count")).bind Value.count?
  let totalHeight ← (value.field? (ascii "total_height")).bind Value.number?
  let rows ← (value.field? (ascii "rows")).bind (Value.elements? Row.ofValue?)
  some ⟨containerWidth, rowCount, itemCount, totalHeight, rows⟩

end Gallery
