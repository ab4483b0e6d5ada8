import Gallery.Proofs.Layout.Greedy
import Mathlib.Control.Monad.Basic
import Mathlib.Tactic.ByContra

/-!
# Growing lists of items

Items that are appended leave the rows before them alone. A row that has overflowed is closed for
good, with the same items at the same height, since its span says nothing about what follows. A
last row that was closed for want of items is open again: it starts where it did and now goes
further.

Nothing is assumed of the arithmetic, so this holds for doubles as it does for exact numbers.
-/

namespace Gallery

variable {α : Type} [Scalar α]

/-- A span within the items is the same whatever follows them. -/
theorem span_append {items : List Picture} (more : List Picture) (start : Nat) {stop : Nat}
    (hstop : stop ≤ items.length) : span (items ++ more) start stop = span items start stop := by
  rw [span, span, List.take_append_of_le_length hstop]

namespace Layout

variable {layout : Layout α} {items : List Picture} {width : α}
variable {index start stop : Nat} {rows all : List (Row α)} {last : Row α}

variable (layout width) in
/-- Whether a span overflows does not depend on what follows the items. -/
theorem spanOverflows_append (more : List Picture) (start : Nat) (hstop : stop ≤ items.length) :
    layout.spanOverflows (items ++ more) width start stop =
      layout.spanOverflows items width start stop := by
  rw [spanOverflows, spanOverflows, spanWidth, spanWidth, span_append more start hstop]

variable (layout width) in
/-- The row of a span does not depend on what follows the items. -/
theorem spanRow_append (more : List Picture) (index start : Nat) (hstop : stop ≤ items.length) :
    layout.spanRow (items ++ more) width index start stop =
      layout.spanRow items width index start stop := by
  have hheight : layout.spanHeight (items ++ more) width start stop =
      layout.spanHeight items width start stop := by
    rw [spanHeight, spanHeight, spanOverflows_append layout width more start hstop, spanWidth,
      spanWidth, span_append more start hstop]
  rw [spanRow, spanRow, hheight, spanOverflows_append layout width more start hstop,
    span_append more start hstop]

/-- A row that has overflowed stops at the same item whatever follows. -/
theorem StopsAt.append (hstop : layout.StopsAt items width start stop)
    (hoverflows : layout.spanOverflows items width start stop = true) (more : List Picture) :
    layout.StopsAt (items ++ more) width start stop where
  later := hstop.later
  within := by
    rw [List.length_append]
    exact Nat.le_add_right_of_le hstop.within
  closed := .inl ((spanOverflows_append layout width more start hstop.within).trans hoverflows)
  least := by
    intro before hlater hbefore
    have hwithin := hstop.within
    rw [spanOverflows_append layout width more start (by omega)]
    exact hstop.least before hlater hbefore

/-- A row that has not overflowed stops for want of items. -/
theorem StopsAt.eq_length (hstop : layout.StopsAt items width start stop)
    (hfits : layout.spanOverflows items width start stop = false) : stop = items.length :=
  hstop.closed.resolve_left (Bool.eq_false_iff.1 hfits)

/-- A row that has not overflowed goes further if something follows. -/
theorem StopsAt.lt_of_append (hstop : layout.StopsAt items width start stop)
    (hfits : layout.spanOverflows items width start stop = false) {more : List Picture}
    (hmore : more ≠ []) {next : Nat}
    (hnext : layout.StopsAt (items ++ more) width start next) : stop < next := by
  have hend := hstop.eq_length hfits
  have hpositive := List.length_pos_iff.2 hmore
  by_contra hbefore
  have hwithin : next ≤ items.length := by omega
  -- Up to the end of the items neither list has a place to stop.
  have hopen : layout.spanOverflows items width start next = false := by
    rcases Nat.lt_or_ge next stop with hlt | hge
    · exact hstop.least next hnext.later hlt
    · obtain rfl : next = stop := by omega
      exact hfits
  rcases hnext.closed with hoverflows | hall
  · rw [spanOverflows_append layout width more start hwithin, hopen] at hoverflows
    contradiction
  · rw [List.length_append] at hall
    omega

/-- From an item on there is a first row, and the others follow it. -/
theorem Greedy.exists_cons (hrows : layout.Greedy items width index start rows)
    (hstart : start < items.length) :
    ∃ stop others, rows = layout.spanRow items width index start stop :: others ∧
      layout.StopsAt items width start stop ∧
      layout.Greedy items width (index + 1) stop others := by
  cases hrows with
  | finished => exact absurd hstart (Nat.lt_irrefl _)
  | row hstop hothers => exact ⟨_, _, rfl, hstop, hothers⟩

/-- Behind the last item there is no row. -/
theorem Greedy.eq_nil (hrows : layout.Greedy items width index items.length rows) : rows = [] :=
  (Greedy.finished index).unique hrows

/-- A row that has overflowed is also the next row of the longer list. -/
theorem Greedy.exists_append (hstop : layout.StopsAt items width start stop)
    (hoverflows : layout.spanOverflows items width start stop = true) {more : List Picture}
    (hall : layout.Greedy (items ++ more) width index start all) :
    ∃ others, all = layout.spanRow items width index start stop :: others ∧
      layout.Greedy (items ++ more) width (index + 1) stop others := by
  have hlonger := hstop.append hoverflows more
  have hlater := hlonger.later
  have hwithin := hlonger.within
  obtain ⟨other, others, rfl, hother, hothers⟩ := hall.exists_cons (by omega)
  obtain rfl : other = stop := Nat.le_antisymm (hother.le hlonger) (hlonger.le hother)
  rw [spanRow_append layout width more index start hstop.within]
  exact ⟨others, rfl, hothers⟩

/-- The wrapped rows come first in the rows of a longer list. -/
theorem Greedy.filter_wrapped_isPrefix (hrows : layout.Greedy items width index start rows)
    {more : List Picture} (hall : layout.Greedy (items ++ more) width index start all) :
    rows.filter (·.wrapped) <+: all := by
  induction hrows generalizing all with
  | finished => exact List.nil_prefix
  | @row index start stop rows hstop hrest ih =>
    have hwrapped : (layout.spanRow items width index start stop).wrapped =
      layout.spanOverflows items width start stop := rfl
    cases hoverflows : layout.spanOverflows items width start stop with
    | true =>
      obtain ⟨others, rfl, hothers⟩ := Greedy.exists_append hstop hoverflows hall
      rw [List.filter_cons_of_pos (hwrapped.trans hoverflows)]
      exact (List.prefix_cons_inj _).2 (ih hothers)
    | false =>
      obtain rfl := hstop.eq_length hoverflows
      obtain rfl := hrest.eq_nil
      rw [List.filter_cons_of_neg (Bool.eq_false_iff.1 (hwrapped.trans hoverflows))]
      exact List.nil_prefix

/-- Where the last row is not wrapped, the next row of a longer list starts as it does and stops
later. -/
theorem Greedy.exists_longer (hrows : layout.Greedy items width index start rows)
    {more : List Picture} (hall : layout.Greedy (items ++ more) width index start all)
    (hlast : rows.getLast? = some last) (hopen : last.wrapped = false) (hmore : more ≠ []) :
    ∃ next, all[(rows.filter (·.wrapped)).length]? = some next ∧
      next.rowIndex = last.rowIndex ∧ next.start = last.start ∧ last.stop < next.stop := by
  induction hrows generalizing all with
  | finished => contradiction
  | @row index start stop rows hstop hrest ih =>
    have hwrapped : (layout.spanRow items width index start stop).wrapped =
      layout.spanOverflows items width start stop := rfl
    cases hoverflows : layout.spanOverflows items width start stop with
    | true =>
      obtain ⟨others, rfl, hothers⟩ := Greedy.exists_append hstop hoverflows hall
      rw [List.filter_cons_of_pos (hwrapped.trans hoverflows), List.length_cons,
        List.getElem?_cons_succ]
      refine ih hothers ?_
      rw [← hlast]
      cases rows with
      | nil =>
        obtain rfl : layout.spanRow items width index start stop = last := Option.some.inj hlast
        exact absurd (hoverflows.symm.trans hopen) Bool.true_eq_false.mp
      | cons row rest => exact List.getLast?_cons_cons.symm
    | false =>
      obtain rfl := hstop.eq_length hoverflows
      obtain rfl := hrest.eq_nil
      obtain rfl : layout.spanRow items width index start items.length = last :=
        Option.some.inj hlast
      have hlater := hstop.later
      have hlonger : start < (items ++ more).length := by
        rw [List.length_append]
        exact Nat.lt_add_right _ hlater
      obtain ⟨next, others, rfl, hnext, -⟩ := hall.exists_cons hlonger
      rw [List.filter_cons_of_neg (Bool.eq_false_iff.1 (hwrapped.trans hoverflows))]
      refine ⟨_, rfl, rfl, rfl, ?_⟩
      rw [stop_spanRow layout items width index (Nat.le_of_lt hlater) (Nat.le_refl _),
        stop_spanRow layout (items ++ more) width index (Nat.le_of_lt hnext.later) hnext.within]
      exact hstop.lt_of_append hoverflows hmore hnext

/-- Appending items never disturbs closed rows. The wrapped rows of some items are, with all that
they show, the first rows of any list that goes on from these items. If the last row is not
wrapped and something is appended, then the row that follows these in the longer list has the
number and the start of that last row, and stops later. -/
theorem arrange_append_keeps_wrapped_rows (layout : Layout α) (items more : List Picture) (width : α)
    (hcount : (items ++ more).length < 2 ^ 32 - 1)
    (hheights : ∀ item ∈ items ++ more, item.dimensions.height ≠ 0)
    (hwidth : isUsable width = true) :
    ∃ rows all, layout.arrange items width = .ok rows ∧
      layout.arrange (items ++ more) width = .ok all ∧
      rows.filter (·.wrapped) <+: all ∧
      ∀ last, rows.getLast? = some last → last.wrapped = false → more ≠ [] →
        ∃ next, all[(rows.filter (·.wrapped)).length]? = some next ∧
          next.rowIndex = last.rowIndex ∧ next.start = last.start ∧ last.stop < next.stop := by
  have hfew : items.length < 2 ^ 32 - 1 := by
    rw [List.length_append] at hcount
    omega
  obtain ⟨rows, harrange, hrows⟩ := greedy_arrange layout (countsGaps_of_length_lt hfew)
    (fun item hitem => hheights item (List.mem_append_left more hitem)) hwidth
  obtain ⟨all, hallArrange, hall⟩ :=
    greedy_arrange layout (countsGaps_of_length_lt hcount) hheights hwidth
  refine ⟨rows, all, harrange, hallArrange, hrows.filter_wrapped_isPrefix hall, ?_⟩
  intro last hlast hopen hmore
  exact hrows.exists_longer hall hlast hopen hmore

/-- A panorama is closed, and a square behind it is not. Another square joins this one. -/
theorem arrange_append_keeps_wrapped_rows_panorama :
    ∃ rows all last next,
      Layout.standard.arrange
        [.ofDimensions [] ⟨12000, 1000⟩, .ofDimensions [] ⟨500, 500⟩] 1000 = .ok rows ∧
      Layout.standard.arrange ([.ofDimensions [] ⟨12000, 1000⟩, .ofDimensions [] ⟨500, 500⟩] ++
        [.ofDimensions [] ⟨500, 500⟩]) 1000 = .ok all ∧
      rows.filter (·.wrapped) <+: all ∧ rows.getLast? = some last ∧ last.wrapped = false ∧
      all[1]? = some next ∧ next.start = last.start ∧ last.stop < next.stop := by
  obtain ⟨rows, all, hrows, hall, hfirst, hlonger⟩ :=
    arrange_append_keeps_wrapped_rows Layout.standard
      [.ofDimensions [] ⟨12000, 1000⟩, .ofDimensions [] ⟨500, 500⟩] [.ofDimensions [] ⟨500, 500⟩]
      1000 (by decide) (by decide) (by decide)
  have hshape : (Layout.standard.arrange
      [.ofDimensions [] ⟨12000, 1000⟩, .ofDimensions [] ⟨500, 500⟩] 1000).map
        (fun rows => (rows.getLast?.map (·.wrapped), (rows.filter (·.wrapped)).length)) =
      .ok (some false, 1) := by decide +kernel
  rw [hrows] at hshape
  obtain ⟨hlast, hcount⟩ := Prod.mk.inj (Except.ok.inj hshape)
  obtain ⟨last, hlast, hopen⟩ := Option.map_eq_some_iff.1 hlast
  obtain ⟨next, hnext, -, hstart, hstop⟩ := hlonger last hlast hopen (List.cons_ne_nil _ _)
  rw [hcount] at hnext
  exact ⟨rows, all, last, next, hrows, hall, hfirst, hlast, hopen, hnext, hstart, hstop⟩

end Layout

end Gallery
