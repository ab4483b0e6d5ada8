import Gallery.Proofs.Layout.Greedy
import Mathlib.Algebra.BigOperators.Ring.List
import Mathlib.Algebra.Order.BigOperators.Group.List
import Mathlib.Data.Rat.Cast.Order
import Mathlib.Data.Sign.Basic
import Mathlib.Tactic.Linarith
import Mathlib.Tactic.Ring

/-!
# The exact fit of a row

Read over the rationals, a wrapped row spans its container exactly. The width that decides
the height of a row is added up while the row is packed, and the widths that are shown are
computed from that height afterwards. Both are multiples of the sum of the aspect ratios of
the row, and the fit is the identity that relates the two multiples.

A row all of whose items have width zero is the one case in which the division has no
meaning. Whether such a row is wrapped depends on its gaps alone.
-/

namespace Gallery

/-- The sum of the aspect ratios of items. -/
def ratioSum (items : List Picture) : Rat := (items.map fun item => (item.ratio : Rat)).sum

/-- Aspect ratios are never negative. -/
theorem Picture.ratio_nonneg (picture : Picture) : (0 : Rat) ≤ picture.ratio :=
  div_nonneg (Nat.cast_nonneg _) (Nat.cast_nonneg _)

/-- None of the aspect ratios of items is negative. -/
theorem Picture.ratios_nonneg (items : List Picture) :
    ∀ ratio ∈ items.map fun item => (item.ratio : Rat), 0 ≤ ratio :=
  List.forall_mem_map.2 fun item _ => item.ratio_nonneg

/-- A picture with neither dimension zero has a positive aspect ratio. -/
theorem Picture.ratio_pos {picture : Picture} (hwidth : picture.dimensions.width ≠ 0)
    (hheight : picture.dimensions.height ≠ 0) : (0 : Rat) < picture.ratio := by
  have hpos (x : UInt32) (hx : x ≠ 0) : (0 : Rat) < (x.toNat : Rat) := by
    refine Nat.cast_pos.2 (Nat.pos_of_ne_zero fun hzero => hx ?_)
    exact UInt32.toNat_inj.1 hzero
  exact div_pos (hpos _ hwidth) (hpos _ hheight)

/-- A picture of width zero has aspect ratio zero. -/
theorem Picture.ratio_eq_zero {picture : Picture} (hwidth : picture.dimensions.width = 0) :
    (picture.ratio : Rat) = 0 := by
  change ((picture.dimensions.width.toNat : Rat) / _) = 0
  rw [hwidth]
  exact zero_div _

/-- One item of positive width makes the sum positive. -/
theorem ratioSum_pos {items : List Picture} (hheights : ∀ item ∈ items, item.dimensions.height ≠ 0)
    (hwidth : ∃ item ∈ items, item.dimensions.width ≠ 0) : 0 < ratioSum items := by
  obtain ⟨item, hitem, hwidth⟩ := hwidth
  have hle : item.ratio ≤ ratioSum items :=
    List.single_le_sum (Picture.ratios_nonneg items) _ (List.mem_map_of_mem hitem)
  exact (Picture.ratio_pos hwidth (hheights item hitem)).trans_le hle

/-- Without an item of positive width the sum is zero. -/
theorem ratioSum_eq_zero {items : List Picture} (hwidths : ∀ item ∈ items, item.dimensions.width = 0) :
    ratioSum items = 0 := by
  apply List.sum_eq_zero
  intro ratio hratio
  obtain ⟨item, hitem, rfl⟩ := List.mem_map.1 hratio
  exact Picture.ratio_eq_zero (hwidths item hitem)

/-- Read exactly, a sum does not depend on the order of the additions. -/
theorem Scalar.sum_eq_sum (values : List Rat) : Scalar.sum values = values.sum :=
  List.sum_eq_foldl.symm

namespace Layout

variable {layout : Layout Rat} {items : List Picture} {width : Rat}

/-- Read exactly, a container that can hold rows is one of positive width. -/
theorem isUsable_rat (hwidth : 0 < width) : isUsable width = true := by
  have hpositive : decide (((0 : Nat) : Rat) < width) = true := decide_eq_true hwidth
  exact hpositive

variable (layout items) in
/-- The width of a span at the packing height is that height times its aspect ratios. -/
theorem spanWidth_eq_mul_ratioSum (start stop : Nat) :
    layout.spanWidth items start stop = layout.rowHeight * ratioSum (span items start stop) := by
  have hfold (pictures : List Picture) (total : Rat) :
      pictures.foldl (fun total item => total + layout.rowHeight * item.ratio) total =
        total + layout.rowHeight * ratioSum pictures := by
    induction pictures generalizing total with
    | nil => simp [ratioSum]
    | cons item pictures ih =>
      rw [List.foldl_cons, ih, ratioSum, ratioSum, List.map_cons, List.sum_cons]
      ring
  have hzero : (Scalar.ofCount 0 : Rat) = 0 := Nat.cast_zero
  rw [spanWidth, hzero]
  exact (hfold _ 0).trans (zero_add _)

variable (layout width) in
/-- The room of a row is the container less its gaps, one more than its items. -/
theorem spanRoom_row (row : Row Rat) : layout.spanRoom width row.start row.stop =
    width - (row.items.length + 1) * layout.gutter := by
  have hcount : row.stop - row.start = row.items.length := Nat.add_sub_cancel_left ..
  have hgaps : (Scalar.ofCount (row.items.length + 1) : Rat) = row.items.length + 1 :=
    Nat.cast_succ _
  rw [spanRoom, hcount, hgaps]

variable {index start : Nat} {rows : List (Row Rat)} {row : Row Rat}

/-- What a row shows is its height times its aspect ratios. -/
theorem Greedy.contentWidth_of_mem (hrows : layout.Greedy items width index start rows)
    (hrow : row ∈ rows) :
    row.contentWidth = row.height * ratioSum (span items row.start row.stop) := by
  obtain ⟨_, number, hspan⟩ := hrows.exists_of_mem hrow
  have hwidths : row.items.map (·.width) =
      (span items row.start row.stop).map fun item => row.height * (item.ratio : Rat) := by
    rw [congrArg Row.height hspan, congrArg Row.items hspan]
    change ((tilesOf row.start (span items row.start row.stop)).map _).map _ = _
    rw [tilesOf, List.map_map, List.map_map]
    conv_rhs => rw [← List.zipIdx_map_fst row.start (span items row.start row.stop), List.map_map]
    rfl
  rw [Row.contentWidth, hwidths, Scalar.sum_eq_sum, List.sum_map_mul_left, ratioSum]

/-- A row is wrapped when the span that it shows is wider than its room. -/
theorem Greedy.wrapped_iff_of_mem (hrows : layout.Greedy items width index start rows)
    (hrow : row ∈ rows) :
    row.wrapped = true ↔
      layout.spanRoom width row.start row.stop < layout.spanWidth items row.start row.stop := by
  rw [hrows.wrapped_of_mem hrow]
  exact decide_eq_true_iff

/-- A wrapped row with a width to divide by fills its room. -/
theorem Greedy.contentWidth_of_wrapped (hrows : layout.Greedy items width index start rows)
    (hrow : row ∈ rows) (hwrapped : row.wrapped = true)
    (hdivisor : layout.spanWidth items row.start row.stop ≠ 0) :
    row.contentWidth = layout.spanRoom width row.start row.stop := by
  rw [hrows.contentWidth_of_mem hrow, hrows.height_of_wrapped hrow hwrapped]
  change layout.spanRoom width row.start row.stop / layout.spanWidth items row.start row.stop *
    layout.rowHeight * ratioSum (span items row.start row.stop) = _
  rw [mul_assoc, ← spanWidth_eq_mul_ratioSum, div_mul_cancel₀ _ hdivisor]

/-- A row that is not wrapped stays within its room. -/
theorem Greedy.contentWidth_le_of_not_wrapped (hrows : layout.Greedy items width index start rows)
    (hrow : row ∈ rows) (hwrapped : row.wrapped = false) :
    row.contentWidth ≤ layout.spanRoom width row.start row.stop := by
  rw [hrows.contentWidth_of_mem hrow, hrows.height_of_not_wrapped hrow hwrapped,
    ← spanWidth_eq_mul_ratioSum, ← not_lt, ← hrows.wrapped_iff_of_mem hrow]
  exact Bool.eq_false_iff.1 hwrapped

/-- Only wrapped rows are lower than the packing height. -/
theorem Greedy.height_lt_iff (hrows : layout.Greedy items width index start rows)
    (hrow : row ∈ rows) (hrowHeight : 0 < layout.rowHeight)
    (hdivisor : 0 < layout.spanWidth items row.start row.stop) :
    row.height < layout.rowHeight ↔ row.wrapped = true := by
  constructor
  · intro hlower
    by_contra hwrapped
    rw [hrows.height_of_not_wrapped hrow (Bool.eq_false_iff.2 hwrapped)] at hlower
    exact lt_irrefl _ hlower
  · intro hwrapped
    rw [hrows.height_of_wrapped hrow hwrapped]
    apply mul_lt_of_lt_one_left hrowHeight
    exact (div_lt_one₀ hdivisor).2 ((hrows.wrapped_iff_of_mem hrow).1 hwrapped)

/-- The height of a wrapped row has the sign of its room. -/
theorem Greedy.sign_height_of_wrapped (hrows : layout.Greedy items width index start rows)
    (hrow : row ∈ rows) (hrowHeight : 0 < layout.rowHeight)
    (hdivisor : 0 < layout.spanWidth items row.start row.stop) (hwrapped : row.wrapped = true) :
    SignType.sign row.height = SignType.sign (layout.spanRoom width row.start row.stop) := by
  rw [hrows.height_of_wrapped hrow hwrapped]
  change SignType.sign (layout.spanRoom width row.start row.stop /
    layout.spanWidth items row.start row.stop * layout.rowHeight) = _
  rw [div_eq_mul_inv, sign_mul, sign_mul, sign_pos hrowHeight, sign_pos (inv_pos.2 hdivisor), mul_one,
    mul_one]

/-- Read exactly, rows fit their container. A wrapped row with an item of positive width is
scaled by a positive divisor and fills the container to the last bit together with its gaps;
a row that is not wrapped stays within it. Only wrapped rows are lower than the packing
height, and the sign of their height is that of the room that the gaps leave. A row without
an item of positive width has divisor zero and is wrapped just when its gaps do not fit. -/
theorem arrange_fits_exactly (layout : Layout Rat) (items : List Picture) (width : Rat)
    (hrowHeight : 0 < layout.rowHeight) (hwidth : 0 < width)
    (hheights : ∀ item ∈ items, item.dimensions.height ≠ 0) :
    ∃ rows, layout.arrange items width = .ok rows ∧ ∀ row ∈ rows,
      (row.wrapped = true → row.height =
        (width - (row.items.length + 1) * layout.gutter) /
          layout.spanWidth items row.start row.stop * layout.rowHeight) ∧
      ((∃ item ∈ span items row.start row.stop, item.dimensions.width ≠ 0) →
        (row.wrapped = true → 0 < layout.spanWidth items row.start row.stop ∧
          row.contentWidth + (row.items.length + 1) * layout.gutter = width) ∧
        (row.wrapped = false →
          row.contentWidth + (row.items.length + 1) * layout.gutter ≤ width) ∧
        (row.height < layout.rowHeight ↔ row.wrapped = true) ∧
        (row.wrapped = true → SignType.sign row.height =
          SignType.sign (width - (row.items.length + 1) * layout.gutter))) ∧
      ((∀ item ∈ span items row.start row.stop, item.dimensions.width = 0) →
        layout.spanWidth items row.start row.stop = 0 ∧
        (row.wrapped = true ↔ width < (row.items.length + 1) * layout.gutter)) := by
  obtain ⟨rows, harrange, hrows⟩ :=
    greedy_arrange layout (countsGaps_rat items) hheights (isUsable_rat hwidth)
  refine ⟨rows, harrange, ?_⟩
  intro row hrow
  have hroom := spanRoom_row layout width row
  have hspanWidth := spanWidth_eq_mul_ratioSum layout items row.start row.stop
  refine ⟨?_, ?_, ?_⟩
  · intro hwrapped
    rw [← hroom]
    exact hrows.height_of_wrapped hrow hwrapped
  · intro hpositive
    have hratios : 0 < ratioSum (span items row.start row.stop) :=
      ratioSum_pos (fun item hitem => hheights item (mem_of_mem_span hitem)) hpositive
    have hdivisor : 0 < layout.spanWidth items row.start row.stop := by
      rw [hspanWidth]
      exact mul_pos hrowHeight hratios
    refine ⟨?_, ?_, hrows.height_lt_iff hrow hrowHeight hdivisor, ?_⟩
    · intro hwrapped
      refine ⟨hdivisor, ?_⟩
      have hfill := hrows.contentWidth_of_wrapped hrow hwrapped hdivisor.ne'
      rw [hroom] at hfill
      linarith
    · intro hwrapped
      have hwithin := hrows.contentWidth_le_of_not_wrapped hrow hwrapped
      rw [hroom] at hwithin
      linarith
    · intro hwrapped
      rw [← hroom]
      exact hrows.sign_height_of_wrapped hrow hrowHeight hdivisor hwrapped
  · intro hzero
    have hdivisor : layout.spanWidth items row.start row.stop = 0 := by
      rw [hspanWidth, ratioSum_eq_zero hzero, mul_zero]
    refine ⟨hdivisor, ?_⟩
    rw [hrows.wrapped_iff_of_mem hrow, hdivisor, hroom, sub_neg]

/-- A panorama is scaled to a narrow container, and a sliver after it is not. -/
theorem arrange_fits_exactly_panorama :
    (0 : Rat) < 180 ∧ (0 : Rat) < 1000 ∧ ∃ rows,
      (⟨180, 20, 32⟩ : Layout Rat).arrange
        [.ofDimensions [] ⟨12000, 1000⟩, .ofDimensions [] ⟨0, 600⟩] 1000 = .ok rows ∧
      ∀ row ∈ rows, (∃ item ∈ span [.ofDimensions [] ⟨12000, 1000⟩, .ofDimensions [] ⟨0, 600⟩]
          row.start row.stop, item.dimensions.width ≠ 0) →
        row.wrapped = true → row.contentWidth + (row.items.length + 1) * 20 = 1000 := by
  refine ⟨by decide, by decide, ?_⟩
  obtain ⟨rows, harrange, hfits⟩ := arrange_fits_exactly ⟨180, 20, 32⟩
    [.ofDimensions [] ⟨12000, 1000⟩, .ofDimensions [] ⟨0, 600⟩] 1000 (by decide) (by decide) (by decide)
  refine ⟨rows, harrange, ?_⟩
  intro row hrow hpositive hwrapped
  obtain ⟨-, hpositives, -⟩ := hfits row hrow
  exact ((hpositives hpositive).1 hwrapped).2

end Layout

end Gallery
