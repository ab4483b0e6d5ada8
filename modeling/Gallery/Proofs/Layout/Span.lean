import Gallery.Layout

/-!
# Spans of items

A row shows a span of the items: those from one position up to, but not including, another.
The width of a span at the packing height, the room that its gaps leave of the container,
and the row that shows it are defined here from the span alone, without reference to the
pass that packs the items and to anything that pass carries from one item to the next.

Widths are added from left to right, in the order in which the items stand, since no law of
addition is at hand.
-/

namespace Gallery

variable {α : Type} [Scalar α]

/-- Width over height. This is the aspect ratio of every picture that has one. -/
def Picture.ratio (picture : Picture) : α :=
  Scalar.ofCount picture.dimensions.width.toNat / Scalar.ofCount picture.dimensions.height.toNat

/-- A picture of nonzero height has its ratio for an aspect ratio. -/
theorem Picture.aspectRatio?_eq_some (picture : Picture) (hheight : picture.dimensions.height ≠ 0) :
    picture.aspectRatio? = some (picture.ratio : α) := if_neg hheight

/-- The tiles of items that all have an aspect ratio, numbered from `index`. -/
def tilesOf (index : Nat) (items : List Picture) : List (Tile α) :=
  (items.zipIdx index).map fun item => ⟨item.2, item.1.path, item.1.ratio⟩

/-- Items of nonzero height pass the check of the aspect ratios. -/
theorem tilesFrom_eq_ok (index : Nat) (items : List Picture)
    (hheights : ∀ item ∈ items, item.dimensions.height ≠ 0) :
    tilesFrom index items = .ok (tilesOf index items : List (Tile α)) := by
  induction items generalizing index with
  | nil => rfl
  | cons item items ih =>
    have hratio := item.aspectRatio?_eq_some (α := α) (hheights item List.mem_cons_self)
    have htail := ih (index + 1) fun other hother => hheights other (List.mem_cons_of_mem _ hother)
    rw [tilesFrom, hratio]
    simp only [htail]
    rfl

/-- Tiles are numbered on across two lists of items. -/
theorem tilesOf_append (index : Nat) (first second : List Picture) :
    (tilesOf index (first ++ second) : List (Tile α)) =
      tilesOf index first ++ tilesOf (index + first.length) second := by
  rw [tilesOf, List.zipIdx_append, List.map_append]
  rfl

/-- The items from a position up to, but not including, another. -/
def span (items : List Picture) (start stop : Nat) : List Picture := (items.take stop).drop start

/-- A span holds nothing but items. -/
theorem mem_of_mem_span {items : List Picture} {start stop : Nat} {item : Picture}
    (hitem : item ∈ span items start stop) : item ∈ items :=
  List.mem_of_mem_take (List.mem_of_mem_drop hitem)

/-- A span within the items has as many of them as its ends are apart. -/
theorem length_span {items : List Picture} {start stop : Nat} (hstop : stop ≤ items.length) :
    (span items start stop).length = stop - start := by
  rw [span, List.length_drop, List.length_take, Nat.min_eq_left hstop]

/-- A span that stops where it starts is empty. -/
theorem span_self (items : List Picture) (start : Nat) : span items start start = [] :=
  List.drop_eq_nil_of_le (List.length_take_le ..)

/-- A span grows by the item that it stopped at. -/
theorem span_succ {items : List Picture} {start stop : Nat} (hstart : start ≤ stop)
    (hstop : stop < items.length) :
    span items start (stop + 1) = span items start stop ++ [items[stop]] := by
  have hlength : start ≤ (items.take stop).length := by
    rw [List.length_take]
    omega
  rw [span, List.take_add_one, List.getElem?_eq_getElem hstop, List.drop_append_of_le_length hlength]
  rfl

/-- What remains from a position on begins with the item at that position. -/
theorem tilesOf_drop {items : List Picture} {start : Nat} (hstart : start < items.length) :
    (tilesOf start (items.drop start) : List (Tile α)) =
      ⟨start, items[start].path, items[start].ratio⟩ :: tilesOf (start + 1) (items.drop (start + 1)) := by
  rw [List.drop_eq_getElem_cons hstart]
  rfl

namespace Layout

variable (layout : Layout α) (items : List Picture) (width : α)

/-- The widths of the items of a span at the packing height, added in order. -/
def spanWidth (start stop : Nat) : α :=
  (span items start stop).foldl (fun total item => total + layout.rowHeight * item.ratio)
    (Scalar.ofCount 0)

/-- What is left of the container beside one gap for each item of a span and one for the
leading edge. -/
def spanRoom (start stop : Nat) : α := width - Scalar.ofCount (stop - start + 1) * layout.gutter

/-- Whether the items of a span are wider than the room they have. -/
def spanOverflows (start stop : Nat) : Bool :=
  Scalar.less (layout.spanRoom width start stop) (layout.spanWidth items start stop)

/-- The height at which a span is shown: scaled to its room if it overflows. -/
def spanHeight (start stop : Nat) : α :=
  if layout.spanOverflows items width start stop then
    layout.spanRoom width start stop / layout.spanWidth items start stop * layout.rowHeight
  else layout.rowHeight

/-- The row that shows a span. -/
def spanRow (index start stop : Nat) : Row α where
  rowIndex := UInt32.ofNat index
  start := start
  height := layout.spanHeight items width start stop
  wrapped := layout.spanOverflows items width start stop
  items := (tilesOf start (span items start stop)).map
    (layout.place (layout.spanHeight items width start stop))

/-- An empty span has no width. -/
theorem spanWidth_self (start : Nat) : layout.spanWidth items start start = Scalar.ofCount 0 := by
  rw [spanWidth, span_self]
  rfl

/-- The width of a span grows by that of the item that it stopped at. -/
theorem spanWidth_succ {items : List Picture} {start stop : Nat} (hstart : start ≤ stop)
    (hstop : stop < items.length) :
    layout.spanWidth items start (stop + 1) =
      layout.spanWidth items start stop + layout.rowHeight * items[stop].ratio := by
  rw [spanWidth, span_succ hstart hstop, List.foldl_append]
  rfl

/-- The row of a span within the items stops where the span does. -/
theorem stop_spanRow (index : Nat) {start stop : Nat} (hstart : start ≤ stop)
    (hstop : stop ≤ items.length) : (layout.spanRow items width index start stop).stop = stop := by
  have hlength : (layout.spanRow items width index start stop).items.length = stop - start := by
    rw [spanRow, List.length_map, tilesOf, List.length_map, List.length_zipIdx, length_span hstop]
  rw [Row.stop, hlength]
  exact Nat.add_sub_cancel' hstart

end Layout

end Gallery
