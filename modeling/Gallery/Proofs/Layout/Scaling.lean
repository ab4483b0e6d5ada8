import Gallery.Proofs.Layout.ExactFit
import Gallery.Proofs.Layout.Faults

/-!
# Layouts in other units

Read over the rationals, a layout does not depend on the unit of length. With all settings and the
container a factor larger, the same items come in the same rows, and all that is shown is larger by
that factor. The aspect ratios are no lengths and stay what they are.

Both packings go through the same tiles, and at every tile the open row of one is that of the other
in the larger unit. So they close their rows at the same tiles. The room and the width in use are
lengths, and a positive factor does not change which of them is larger; the height of a wrapped row
is a quotient of lengths, in which the factor cancels, times a length.
-/

namespace Gallery

variable (factor : Rat)

/-- A placement in another unit. -/
def Placement.scale (item : Placement Rat) : Placement Rat :=
  { item with
    width := factor * item.width
    height := factor * item.height
    captionWidth := factor * item.captionWidth }

/-- A row in another unit. -/
def Row.scale (row : Row Rat) : Row Rat :=
  { row with
    height := factor * row.height
    items := row.items.map (Placement.scale factor) }

/-- An open row in another unit. -/
def OpenRow.scale (row : OpenRow Rat) : OpenRow Rat := { row with used := factor * row.used }

/-- Settings in another unit. -/
def Layout.scale (layout : Layout Rat) : Layout Rat :=
  ⟨factor * layout.rowHeight, factor * layout.gutter, factor * layout.captionPadding⟩

/-- A length of zero is zero in every unit. -/
theorem Scalar.mul_ofCount_zero : factor * (Scalar.ofCount 0 : Rat) = Scalar.ofCount 0 :=
  mul_zero factor

/-- Stacked rows and the gaps between them are higher by the factor. -/
theorem Row.totalHeight_scale (gap : Rat) (rows : List (Row Rat)) :
    Row.totalHeight (factor * gap) (rows.map (Row.scale factor)) =
      factor * Row.totalHeight gap rows := by
  cases rows with
  | nil => exact (Scalar.mul_ofCount_zero factor).symm
  | cons row rows =>
    have hheights (all : List (Row Rat)) :
        Scalar.sum ((all.map (Row.scale factor)).map (·.height)) =
          factor * Scalar.sum (all.map (·.height)) := by
      rw [Scalar.sum_eq_sum, Scalar.sum_eq_sum, List.map_map, ← List.sum_map_mul_left]
      rfl
    have hsum := hheights (row :: rows)
    rw [List.map_cons] at hsum ⊢
    rw [totalHeight, totalHeight, List.length_map, hsum]
    ring

namespace OpenRow

variable (layout : Layout Rat) (width : Rat) (row : OpenRow Rat)

/-- A row without tiles is the same in every unit. -/
theorem scale_empty (rowIndex : UInt32) : (empty rowIndex).scale factor = empty rowIndex := by
  rw [scale, empty, Scalar.mul_ofCount_zero]

/-- A tile adds to the width in use what it adds in the other unit. -/
theorem push_scale (tile : Tile Rat) :
    (row.scale factor).push (layout.scale factor) tile = (row.push layout tile).scale factor := by
  have hused : factor * row.used + factor * layout.rowHeight * tile.ratio =
      factor * (row.used + layout.rowHeight * tile.ratio) := by ring
  rw [scale, push, Layout.scale, hused, scale, push]

/-- The gaps leave more room by the factor. -/
theorem room_scale :
    (row.scale factor).room (layout.scale factor) (factor * width) =
      factor * row.room layout width := by
  rw [room, room, scale, Layout.scale]
  ring

variable {factor} (hfactor : 0 < factor)
include hfactor

/-- A row overflows in one unit if it does in the other. -/
theorem overflows_scale :
    (row.scale factor).overflows (layout.scale factor) (factor * width) =
      row.overflows layout width := by
  rw [overflows, overflows, room_scale]
  exact decide_eq_decide.2 (mul_lt_mul_iff_right₀ hfactor)

/-- A row is higher by the factor, be it scaled to its room or not. -/
theorem height_scale :
    (row.scale factor).height (layout.scale factor) (factor * width) =
      factor * row.height layout width := by
  have hquotient : factor * row.room layout width / (factor * row.used) =
      row.room layout width / row.used := mul_div_mul_left _ _ hfactor.ne'
  rw [height, height, overflows_scale layout width row hfactor, room_scale]
  split
  · change factor * row.room layout width / (factor * row.used) * (factor * layout.rowHeight) = _
    rw [hquotient]
    ring
  · rfl

end OpenRow

namespace Layout

variable (layout : Layout Rat) (width : Rat)

/-- A tile is placed in a row of the other unit as it is in the row, in that unit. -/
theorem place_scale (height : Rat) (tile : Tile Rat) :
    (layout.scale factor).place (factor * height) tile = (layout.place height tile).scale factor := by
  have hwidth : factor * height * tile.ratio = factor * (height * tile.ratio) := mul_assoc ..
  rw [place, place, Placement.scale, hwidth, scale, mul_sub]

section

variable {factor} (hfactor : 0 < factor)
include hfactor

/-- An open row closes to the same row in the other unit. -/
theorem close_scale (row : OpenRow Rat) :
    (layout.scale factor).close (factor * width) (row.scale factor) =
      (layout.close width row).scale factor := by
  have hitems : row.tiles.reverse.map ((layout.scale factor).place
      (factor * row.height layout width)) =
      (row.tiles.reverse.map (layout.place (row.height layout width))).map (Placement.scale factor) := by
    rw [List.map_map]
    exact List.map_congr_left fun tile _ => layout.place_scale factor _ tile
  rw [close, OpenRow.height_scale layout width row hfactor,
    OpenRow.overflows_scale layout width row hfactor, close, Row.scale]
  change Row.ofItems row.rowIndex _ _ (row.tiles.reverse.map _) = _
  rw [hitems, Row.ofItems, Row.ofItems, List.head?_map]
  cases (row.tiles.reverse.map (layout.place (row.height layout width))).head? <;> rfl

/-- Tiles are packed into the same rows in the other unit. -/
theorem pack_scale (row : OpenRow Rat) (tiles : List (Tile Rat)) :
    (layout.scale factor).pack (factor * width) (row.scale factor) tiles =
      (layout.pack width row tiles).map (Row.scale factor) := by
  induction tiles generalizing row with
  | nil => rfl
  | cons tile tiles ih =>
    rw [pack, pack, OpenRow.push_scale, OpenRow.overflows_scale layout width _ hfactor]
    split
    · rw [List.map_cons, layout.close_scale width hfactor, ← ih, OpenRow.scale_empty]
      rfl
    · exact ih (row.push layout tile)

/-- A container can hold rows in one unit if it can in the other. -/
theorem isUsable_scale : isUsable (factor * width) = isUsable width := by
  have hless :
      Scalar.less (Scalar.ofCount 0) (factor * width) = Scalar.less (Scalar.ofCount 0) width := by
    conv_lhs => rw [← Scalar.mul_ofCount_zero factor]
    exact decide_eq_decide.2 (mul_lt_mul_iff_right₀ hfactor)
  rw [isUsable, isUsable, hless]
  rfl

/-- Items are arranged in the same rows in the other unit, or refused for the same reason. -/
theorem arrange_scale (items : List Picture) :
    (layout.scale factor).arrange items (factor * width) =
      (layout.arrange items width).map (List.map (Row.scale factor)) := by
  rw [arrange, arrange, isUsable_scale width hfactor]
  split
  · rfl
  · cases (tilesFrom 0 items : Except GeometryFault (List (Tile Rat))) with
    | error fault => rfl
    | ok tiles =>
      have hpack := layout.pack_scale width hfactor (.empty 0) tiles
      rw [OpenRow.scale_empty] at hpack
      exact congrArg Except.ok hpack

end

/-- Layouts do not depend on the unit of length. Read exactly, with the packing height, the gaps, the
padding of captions and the container all larger by a positive factor, the same items come in rows
with the same numbers, starts, paths, ratios and flags, and every height, width and caption width
is larger by this factor. So is the height of the stacked rows, if the space between them is
larger, too. No item needs a width for this: a row without any has a quotient by zero for its
height, which is read as zero in every unit. -/
theorem arrange_independent_of_unit (layout : Layout Rat) (items : List Picture)
    (width gap factor : Rat) (hfactor : 0 < factor)
    (hheights : ∀ item ∈ items, item.dimensions.height ≠ 0) :
    ∃ rows, layout.arrange items width = .ok rows ∧
      (layout.scale factor).arrange items (factor * width) = .ok (rows.map (Row.scale factor)) ∧
      Row.totalHeight (factor * gap) (rows.map (Row.scale factor)) =
        factor * Row.totalHeight gap rows := by
  obtain ⟨rows, harrange⟩ := @exists_arrange_eq_ok _ _ layout items hheights width
  refine ⟨rows, harrange, ?_, Row.totalHeight_scale factor gap rows⟩
  rw [arrange_scale layout width hfactor, harrange]
  rfl

/-- A panorama that is scaled to its container, and two squares that are not. -/
theorem arrange_independent_of_unit_panorama :
    (0 : Rat) < 5 / 2 ∧ ∃ rows,
      (⟨180, 20, 32⟩ : Layout Rat).arrange [.ofDimensions [] ⟨12000, 1000⟩,
        .ofDimensions [] ⟨500, 500⟩, .ofDimensions [] ⟨500, 500⟩] 1000 = .ok rows ∧
      rows.map (·.height) = [80, 180] ∧
      ((⟨180, 20, 32⟩ : Layout Rat).scale (5 / 2)).arrange [.ofDimensions [] ⟨12000, 1000⟩,
        .ofDimensions [] ⟨500, 500⟩, .ofDimensions [] ⟨500, 500⟩] (5 / 2 * 1000) =
          .ok (rows.map (Row.scale (5 / 2))) ∧
      Row.totalHeight (5 / 2 * 8) (rows.map (Row.scale (5 / 2))) = 5 / 2 * Row.totalHeight 8 rows := by
  have hfactor : (0 : Rat) < 5 / 2 := by decide +kernel
  obtain ⟨rows, harrange, hscaled, htotal⟩ := arrange_independent_of_unit ⟨180, 20, 32⟩
    [.ofDimensions [] ⟨12000, 1000⟩, .ofDimensions [] ⟨500, 500⟩, .ofDimensions [] ⟨500, 500⟩]
    1000 8 (5 / 2) hfactor (by decide)
  have hheights : ((⟨180, 20, 32⟩ : Layout Rat).arrange [.ofDimensions [] ⟨12000, 1000⟩,
      .ofDimensions [] ⟨500, 500⟩, .ofDimensions [] ⟨500, 500⟩] 1000).map (List.map (·.height)) =
      .ok [80, 180] := by decide +kernel
  rw [harrange] at hheights
  exact ⟨hfactor, rows, harrange, Except.ok.inj hheights, hscaled, htotal⟩

end Layout

end Gallery
