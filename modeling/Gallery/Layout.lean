import Gallery.Picture
import Gallery.Row
import Gallery.Utf8

/-!
# Justified layout

Items are packed from left to right at a default height. A row keeps one gap per item and
one more for its leading edge. As soon as the packed width exceeds what the gaps leave of
the container, the row is closed and its height scaled by the ratio of the two, so that it
spans the container exactly. A last row that never overflows keeps the default height.

Every item is checked for a defined aspect ratio before the first row is built, so a layout
either has all its rows or none. The computed sizes are reported as they are: a container
narrower than its gaps gives rows of negative height.
-/

namespace Gallery

/-- The settings of a layout. -/
structure Layout (α : Type) where
  /-- The height at which items are packed. -/
  rowHeight : α
  /-- The space of one gap. -/
  gutter : α
  /-- What a caption is narrower than its item. -/
  captionPadding : α
  deriving DecidableEq

/-- The settings used where none are given. -/
def Layout.standard : Layout Float := ⟨180, 20, 32⟩

/-- An item of which the aspect ratio is undefined, with its position. -/
structure GeometryFault where
  index : Nat
  path : Bytes
  dimensions : Dimensions
  deriving DecidableEq, Repr

/-- The wording of the error. -/
def GeometryFault.message (error : GeometryFault) : Bytes :=
  ascii "invalid geometry for item " ++ decimal error.index ++ ascii " (" ++
    Utf8.display error.path ++ ascii "): " ++ decimal error.dimensions.width.toNat ++
    ascii "x" ++ decimal error.dimensions.height.toNat

/-- An item ready for packing: its position, its path and its aspect ratio. -/
structure Tile (α : Type) where
  index : Nat
  path : Bytes
  ratio : α
  deriving DecidableEq

/-- The tiles of the items, numbered from `index`; the first item without an aspect ratio
is an error. -/
def tilesFrom {α : Type} [Scalar α] (index : Nat) :
    List Picture → Except GeometryFault (List (Tile α))
  | [] => .ok []
  | item :: items =>
    match (item.aspectRatio? : Option α) with
    | none => .error ⟨index, item.path, item.dimensions⟩
    | some ratio =>
      match tilesFrom (index + 1) items with
      | .error error => .error error
      | .ok tiles => .ok (⟨index, item.path, ratio⟩ :: tiles)

/-- A row that still accepts tiles. -/
structure OpenRow (α : Type) where
  rowIndex : UInt32
  /-- The tiles so far, the latest first. -/
  tiles : List (Tile α)
  /-- Their widths at the default height, added in order. -/
  used : α
  /-- One gap per tile and one for the leading edge. -/
  gaps : Nat

namespace OpenRow

variable {α : Type} [Scalar α]

/-- A row without tiles. -/
def empty (rowIndex : UInt32) : OpenRow α := ⟨rowIndex, [], Scalar.ofCount 0, 1⟩

/-- The row with one more tile. -/
def push (layout : Layout α) (row : OpenRow α) (tile : Tile α) : OpenRow α :=
  ⟨row.rowIndex, tile :: row.tiles, row.used + layout.rowHeight * tile.ratio, row.gaps + 1⟩

/-- What the gaps leave of the container. -/
def room (layout : Layout α) (width : α) (row : OpenRow α) : α :=
  width - Scalar.ofGaps row.gaps * layout.gutter

/-- Whether the tiles exceed what the gaps leave. -/
def overflows (layout : Layout α) (width : α) (row : OpenRow α) : Bool :=
  Scalar.less (row.room layout width) row.used

/-- The height at which the row is shown. -/
def height (layout : Layout α) (width : α) (row : OpenRow α) : α :=
  if row.overflows layout width then row.room layout width / row.used * layout.rowHeight
  else layout.rowHeight

end OpenRow

namespace Layout

variable {α : Type} [Scalar α]

/-- A tile as it is shown in a row of the given height. -/
def place (layout : Layout α) (height : α) (tile : Tile α) : Placement α :=
  ⟨tile.index, tile.path, tile.ratio, height * tile.ratio, height,
    height * tile.ratio - layout.captionPadding⟩

/-- The finished form of an open row. -/
def close (layout : Layout α) (width : α) (row : OpenRow α) : Row α :=
  Row.ofItems row.rowIndex (row.height layout width) (row.overflows layout width)
    (row.tiles.reverse.map (layout.place (row.height layout width)))

/-- Pack the remaining tiles, beginning with an open row. A row is closed when it
overflows or when no tile is left for it. -/
def pack (layout : Layout α) (width : α) (row : OpenRow α) : List (Tile α) → List (Row α)
  | [] => []
  | tile :: tiles =>
    let row := row.push layout tile
    if row.overflows layout width || tiles.isEmpty then
      layout.close width row :: layout.pack width (.empty (row.rowIndex + 1)) tiles
    else layout.pack width row tiles

/-- Whether a container of this width can hold rows at all. -/
def isUsable (width : α) : Bool := Scalar.isFinite width && Scalar.less (Scalar.ofCount 0) width

/-- The rows of the items in a container of the given width. A container that is not finite
and positive shows no rows, whatever the items are. -/
def arrange (layout : Layout α) (items : List Picture) (width : α) :
    Except GeometryFault (List (Row α)) :=
  if items.isEmpty || !isUsable width then .ok []
  else match tilesFrom 0 items with
    | .error error => .error error
    | .ok tiles => .ok (layout.pack width (.empty 0) tiles)

end Layout

/-- Where a row begins and ends, and its height. -/
structure RowExtent (α : Type) where
  start : Nat
  stop : Nat
  height : α
  deriving DecidableEq

/-- The extent of a row. -/
def Row.toExtent {α : Type} (row : Row α) : RowExtent α := ⟨row.start, row.stop, row.height⟩

/-- The extents of the rows of a layout, without their items. -/
def Layout.extents {α : Type} [Scalar α] (layout : Layout α) (items : List Picture) (width : α) :
    Except GeometryFault (List (RowExtent α)) :=
  (layout.arrange items width).map (List.map Row.toExtent)

end Gallery
