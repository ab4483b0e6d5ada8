import Gallery.Proofs.Layout.ExactFit

/-!
# Rows with more room

Read over the rationals, a layout that leaves its rows more room needs no more of them, and each
of its rows stops at the same item or later. Room comes from a wider container, from narrower
gaps, and from a lower packing height.

Once two layouts have broken at different items their rows are no longer comparable one by one.
What carries over from row to row is that the roomier layout is ahead: its rows start at the same
item or later. A span that overflows with more room still overflows when there is less, also if
it is preceded by further items, and so the layout with less room cannot get past a stop of the
other.
-/

namespace Gallery.Layout

/-- Settings under which rows have at least as much room as under others: items are packed no
higher, gaps are no wider, and the container is no narrower. -/
structure Roomier (wide tight : Layout Rat) (wider width : Rat) : Prop where
  rowHeight_nonneg : 0 ≤ wide.rowHeight
  rowHeight_le : wide.rowHeight ≤ tight.rowHeight
  gutter_nonneg : 0 ≤ wide.gutter
  gutter_le : wide.gutter ≤ tight.gutter
  width_le : width ≤ wider

/-- Items in front add to the aspect ratios of a span. -/
theorem ratioSum_span_le (items : List Picture) {start later : Nat} (hstart : start ≤ later)
    (stop : Nat) : ratioSum (span items later stop) ≤ ratioSum (span items start stop) := by
  have hdrop : span items later stop = (span items start stop).drop (later - start) := by
    rw [span, span, List.drop_drop, Nat.add_sub_cancel' hstart]
  have hsublist : (span items later stop).Sublist (span items start stop) := by
    rw [hdrop]
    exact List.drop_sublist _ _
  exact (hsublist.map _).sum_le_sum (Picture.ratios_nonneg _)

variable {wide tight : Layout Rat} {items : List Picture} {wider width : Rat}
variable {index start later : Nat}

/-- With more room, and without the items in front, a span is no wider. -/
theorem Roomier.spanWidth_le (hroom : Roomier wide tight wider width) (hstart : start ≤ later)
    (stop : Nat) : wide.spanWidth items later stop ≤ tight.spanWidth items start stop := by
  have hratios := ratioSum_span_le items hstart stop
  have hnonneg : 0 ≤ ratioSum (span items later stop) := List.sum_nonneg (Picture.ratios_nonneg _)
  rw [spanWidth_eq_mul_ratioSum, spanWidth_eq_mul_ratioSum]
  exact mul_le_mul hroom.rowHeight_le hratios hnonneg
    (hroom.rowHeight_nonneg.trans hroom.rowHeight_le)

/-- With more room, and without the gaps of the items in front, more is left of the container. -/
theorem Roomier.spanRoom_le (hroom : Roomier wide tight wider width) (hstart : start ≤ later)
    (stop : Nat) : tight.spanRoom width start stop ≤ wide.spanRoom wider later stop := by
  have hgaps : ((stop - later + 1 : Nat) : Rat) ≤ ((stop - start + 1 : Nat) : Rat) :=
    Nat.cast_le.2 (by omega)
  exact sub_le_sub hroom.width_le
    (mul_le_mul hgaps hroom.gutter_le hroom.gutter_nonneg (Nat.cast_nonneg _))

/-- A span that overflows with more room overflows with less, whatever items are in front. -/
theorem Roomier.spanOverflows (hroom : Roomier wide tight wider width) (hstart : start ≤ later)
    {stop : Nat} (hoverflows : wide.spanOverflows items wider later stop = true) :
    tight.spanOverflows items width start stop = true := by
  have hwide : wide.spanRoom wider later stop < wide.spanWidth items later stop :=
    of_decide_eq_true hoverflows
  have htight : tight.spanRoom width start stop < tight.spanWidth items start stop :=
    calc tight.spanRoom width start stop
      _ ≤ wide.spanRoom wider later stop := hroom.spanRoom_le hstart stop
      _ < wide.spanWidth items later stop := hwide
      _ ≤ tight.spanWidth items start stop := hroom.spanWidth_le hstart stop
  exact decide_eq_true htight

/-- A row that starts no earlier and has more room stops no earlier. -/
theorem Roomier.stop_le (hroom : Roomier wide tight wider width) (hstart : start ≤ later)
    {stop other : Nat} (hstop : tight.StopsAt items width start stop)
    (hother : wide.StopsAt items wider later other) : stop ≤ other := by
  have hlater := hother.later
  rcases hother.closed with hoverflows | hend
  · by_contra hpast
    have hopen := hstop.least other (by omega) (by omega)
    rw [hroom.spanOverflows hstart hoverflows] at hopen
    contradiction
  · rw [hend]
    exact hstop.within

/-- The layout with more room stays ahead: if it starts no earlier, it needs no more rows and each
of them stops no earlier. -/
theorem Roomier.stays_ahead (hroom : Roomier wide tight wider width) {other : Nat}
    {rows others : List (Row Rat)} (hothers : wide.Greedy items wider other later others)
    (hrows : tight.Greedy items width index start rows) (hstart : start ≤ later) :
    others.length ≤ rows.length ∧
      ∀ (k : Nat) (hother : k < others.length) (hrow : k < rows.length),
        rows[k].stop ≤ others[k].stop := by
  induction hothers generalizing index start rows with
  | finished => exact ⟨Nat.zero_le _, fun k hother => absurd hother (Nat.not_lt_zero k)⟩
  | @row other later wideStop others hwide _ ih =>
    cases hrows with
    | finished =>
      have hlater := hwide.later
      have hwithin := hwide.within
      omega
    | @row _ _ tightStop rows htight hrest =>
      have hstop : tightStop ≤ wideStop := hroom.stop_le hstart htight hwide
      obtain ⟨hlength, hstops⟩ := ih hrest hstop
      refine ⟨Nat.succ_le_succ hlength, ?_⟩
      intro k hother hrow
      cases k with
      | zero =>
        rw [List.getElem_cons_zero, List.getElem_cons_zero,
          stop_spanRow tight items width _ (Nat.le_of_lt htight.later) htight.within,
          stop_spanRow wide items wider _ (Nat.le_of_lt hwide.later) hwide.within]
        exact hstop
      | succ k => exact hstops k (Nat.lt_of_succ_lt_succ hother) (Nat.lt_of_succ_lt_succ hrow)

/-- Row breaks are monotone in the settings. Read exactly, a lower packing height, narrower gaps
and a wider container, each of them or all together, never lead to more rows, and every row
that both layouts have stops at the same item or later. -/
theorem arrange_breaks_no_earlier (wide tight : Layout Rat) (items : List Picture)
    (wider width : Rat) (hheights : ∀ item ∈ items, item.dimensions.height ≠ 0)
    (hwidth : 0 < width) (hroom : Roomier wide tight wider width) :
    ∃ others rows, wide.arrange items wider = .ok others ∧ tight.arrange items width = .ok rows ∧
      others.length ≤ rows.length ∧
      ∀ (k : Nat) (hother : k < others.length) (hrow : k < rows.length),
        rows[k].stop ≤ others[k].stop := by
  have hwider : 0 < wider := hwidth.trans_le hroom.width_le
  obtain ⟨others, hothersArrange, hothers⟩ :=
    greedy_arrange wide (countsGaps_rat items) hheights (isUsable_rat hwider)
  obtain ⟨rows, harrange, hrows⟩ :=
    greedy_arrange tight (countsGaps_rat items) hheights (isUsable_rat hwidth)
  obtain ⟨hlength, hstops⟩ := hroom.stays_ahead hothers hrows (Nat.le_refl 0)
  exact ⟨others, rows, hothersArrange, harrange, hlength, hstops⟩

/-- Squares, one item of width zero and a panorama: twice the width and a lower packing height
lead to no more rows, although the rows break at different items. -/
theorem arrange_breaks_no_earlier_doubled :
    (0 : Rat) < 320 ∧ Roomier ⟨180, 20, 32⟩ ⟨200, 20, 32⟩ 640 320 ∧
    ∃ others rows,
      (⟨180, 20, 32⟩ : Layout Rat).arrange
        [.ofDimensions [] ⟨500, 500⟩, .ofDimensions [] ⟨500, 500⟩, .ofDimensions [] ⟨0, 500⟩,
          .ofDimensions [] ⟨1200, 100⟩, .ofDimensions [] ⟨500, 500⟩] 640 = .ok others ∧
      (⟨200, 20, 32⟩ : Layout Rat).arrange
        [.ofDimensions [] ⟨500, 500⟩, .ofDimensions [] ⟨500, 500⟩, .ofDimensions [] ⟨0, 500⟩,
          .ofDimensions [] ⟨1200, 100⟩, .ofDimensions [] ⟨500, 500⟩] 320 = .ok rows ∧
      others.length ≤ rows.length ∧
      ∀ (k : Nat) (hother : k < others.length) (hrow : k < rows.length),
        rows[k].stop ≤ others[k].stop := by
  have hroom : Roomier ⟨180, 20, 32⟩ ⟨200, 20, 32⟩ 640 320 :=
    ⟨by decide, by decide, by decide, by decide, by decide⟩
  exact ⟨by decide, hroom, arrange_breaks_no_earlier ⟨180, 20, 32⟩ ⟨200, 20, 32⟩
    [.ofDimensions [] ⟨500, 500⟩, .ofDimensions [] ⟨500, 500⟩, .ofDimensions [] ⟨0, 500⟩,
      .ofDimensions [] ⟨1200, 100⟩, .ofDimensions [] ⟨500, 500⟩] 640 320 (by decide) (by decide)
    hroom⟩

end Gallery.Layout
