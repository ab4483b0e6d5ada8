import Gallery.Scalar
import Gallery.Bytes

/-!
# Rows

A row is a run of consecutive items that are shown side by side at one height. Its start is
the position of its first item in the whole sequence.
-/

namespace Gallery

/-- One item as it is placed in a row. -/
structure Placement (α : Type) where
  /-- Position in the whole sequence of items. -/
  index : Nat
  path : Bytes
  /-- Intrinsic width over intrinsic height. -/
  ratio : α
  width : α
  height : α
  /-- The width less the padding of the caption; it may be negative. -/
  captionWidth : α
  deriving DecidableEq

/-- A row of items. -/
structure Row (α : Type) where
  rowIndex : UInt32
  start : Nat
  height : α
  /-- Whether the row was closed by overflow and scaled, rather than by the end of the items. -/
  wrapped : Bool
  items : List (Placement α)
  deriving DecidableEq

namespace Row

variable {α : Type}

/-- The row of the given items; a row without items starts at zero. -/
def ofItems (rowIndex : UInt32) (height : α) (wrapped : Bool) (items : List (Placement α)) : Row α :=
  ⟨rowIndex, (items.head?.map (·.index)).getD 0, height, wrapped, items⟩

/-- The position after the last item. -/
def stop (row : Row α) : Nat := row.start + row.items.length

/-- The sum of the widths of the items, gaps excluded. -/
def contentWidth [Scalar α] (row : Row α) : α := Scalar.sum (row.items.map (·.width))

/-- The height of stacked rows with a gap between neighbours; no rows have height zero. -/
def totalHeight [Scalar α] (gap : α) : List (Row α) → α
  | [] => Scalar.ofCount 0
  | row :: rows =>
    Scalar.sum ((row :: rows).map (·.height)) + Scalar.ofCount rows.length * gap

end Row

end Gallery
