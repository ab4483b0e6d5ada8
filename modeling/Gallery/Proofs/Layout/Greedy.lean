import Gallery.Proofs.Layout.Span
import Mathlib.Algebra.Group.Nat.Defs

/-!
# The greedy rule

Packing is a single pass that carries an open row from item to item. The rows it leaves
behind follow a rule in which nothing is carried: a row stops at the first position at which
its span overflows, or at the end of the items, and the next row starts where it stops.

The rule determines the rows. What the pass carries, on the other hand, is at every moment
what the span of the open row determines, and this is the invariant of the pass.
-/

namespace Gallery.Layout

variable {α : Type} [Scalar α]

/-- Where the row that starts at an item stops. -/
structure StopsAt (layout : Layout α) (items : List Picture) (width : α) (start stop : Nat) : Prop where
  later : start < stop
  within : stop ≤ items.length
  closed : layout.spanOverflows items width start stop = true ∨ stop = items.length
  least : ∀ before, start < before → before < stop →
    layout.spanOverflows items width start before = false

/-- Rows that follow the greedy rule from an item on, the first of them numbered `index`. -/
inductive Greedy (layout : Layout α) (items : List Picture) (width : α) :
    (index start : Nat) → List (Row α) → Prop where
  | finished (index : Nat) : Greedy layout items width index items.length []
  | row {index start stop : Nat} {rows : List (Row α)}
      (hstop : layout.StopsAt items width start stop)
      (hrows : Greedy layout items width (index + 1) stop rows) :
      Greedy layout items width index start (layout.spanRow items width index start stop :: rows)

variable {layout : Layout α} {items : List Picture} {width : α}

/-- A row cannot stop in two places. -/
theorem StopsAt.le {start stop other : Nat} (hstop : layout.StopsAt items width start stop)
    (hother : layout.StopsAt items width start other) : stop ≤ other := by
  rcases Nat.lt_or_ge other stop with hlt | hge
  · rcases hother.closed with hoverflow | hend
    · rw [hstop.least other hother.later hlt] at hoverflow
      contradiction
    · have hwithin := hstop.within
      omega
  · exact hge

/-- The rule leaves no choice. -/
theorem Greedy.unique {index start : Nat} {rows others : List (Row α)}
    (hrows : layout.Greedy items width index start rows)
    (hothers : layout.Greedy items width index start others) : others = rows := by
  induction hrows generalizing others with
  | finished index =>
    cases hothers with
    | finished => rfl
    | row hother _ =>
      have hlater := hother.later
      have hwithin := hother.within
      omega
  | row hstop _ ih =>
    cases hothers with
    | finished =>
      have hlater := hstop.later
      have hwithin := hstop.within
      omega
    | row hother hrest =>
      obtain rfl := Nat.le_antisymm (hstop.le hother) (hother.le hstop)
      rw [ih hrest]

/-- The number of gaps of every row of the items comes out of the counter as it is. -/
def CountsGaps (α : Type) [Scalar α] (items : List Picture) : Prop :=
  ∀ gaps ≤ items.length + 1, (Scalar.ofGaps gaps : α) = Scalar.ofCount gaps

/-- The counter has room for the gaps of all but the very longest lists. -/
theorem countsGaps_of_length_lt (hcount : items.length < 2 ^ 32 - 1) : CountsGaps α items :=
  fun gaps hgaps => Scalar.ofGaps_eq_ofCount gaps (show gaps < 2 ^ 32 by omega)

/-- Read exactly, the counter is always right. -/
theorem countsGaps_rat (items : List Picture) : CountsGaps Rat items := fun _ _ => rfl

variable (layout items) in
/-- The open row that has taken in a span. -/
def openSpan (index start stop : Nat) : OpenRow α where
  rowIndex := UInt32.ofNat index
  tiles := (tilesOf start (span items start stop)).reverse
  used := layout.spanWidth items start stop
  gaps := stop - start + 1

/-- The row that packing opens has taken in nothing. -/
theorem openSpan_self (index start : Nat) :
    layout.openSpan items index start start = .empty (UInt32.ofNat index) := by
  rw [openSpan, span_self, spanWidth_self, Nat.sub_self]
  rfl

/-- The next item joins the span of the open row. -/
theorem push_openSpan (index : Nat) {start stop : Nat} (hstart : start ≤ stop)
    (hstop : stop < items.length) :
    (layout.openSpan items index start stop).push layout
        ⟨stop, items[stop].path, items[stop].ratio⟩ =
      layout.openSpan items index start (stop + 1) := by
  have hlength : start + (span items start stop).length = stop := by
    rw [length_span (Nat.le_of_lt hstop)]
    exact Nat.add_sub_cancel' hstart
  have htiles : (tilesOf start (span items start (stop + 1)) : List (Tile α)) =
      tilesOf start (span items start stop) ++ [⟨stop, items[stop].path, items[stop].ratio⟩] := by
    rw [span_succ hstart hstop, tilesOf_append, hlength]
    rfl
  have hgaps : stop + 1 - start + 1 = stop - start + 1 + 1 := by omega
  rw [openSpan, openSpan, OpenRow.push, htiles, List.reverse_concat, spanWidth_succ layout hstart hstop,
    hgaps]

/-- The gaps of the open row leave the room of its span. -/
theorem room_openSpan (hgaps : CountsGaps α items) (index : Nat) {start stop : Nat}
    (hstop : stop ≤ items.length) :
    (layout.openSpan items index start stop).room layout width = layout.spanRoom width start stop := by
  rw [OpenRow.room, spanRoom, openSpan, hgaps (stop - start + 1) (by omega)]

/-- The open row overflows when its span does. -/
theorem overflows_openSpan (hgaps : CountsGaps α items) (index : Nat) {start stop : Nat}
    (hstop : stop ≤ items.length) :
    (layout.openSpan items index start stop).overflows layout width =
      layout.spanOverflows items width start stop := by
  rw [OpenRow.overflows, room_openSpan hgaps index hstop]
  rfl

/-- The open row would be shown at the height of its span. -/
theorem height_openSpan (hgaps : CountsGaps α items) (index : Nat) {start stop : Nat}
    (hstop : stop ≤ items.length) :
    (layout.openSpan items index start stop).height layout width =
      layout.spanHeight items width start stop := by
  rw [OpenRow.height, overflows_openSpan hgaps index hstop, room_openSpan hgaps index hstop]
  rfl

/-- The open row closes to the row of its span. -/
theorem close_openSpan (hgaps : CountsGaps α items) (index : Nat) {start stop : Nat}
    (hstart : start < stop) (hstop : stop ≤ items.length) :
    layout.close width (layout.openSpan items index start stop) =
      layout.spanRow items width index start stop := by
  have hspan : span items start stop ≠ [] := by
    rw [← List.length_pos_iff, length_span hstop]
    omega
  have hhead (place : Tile α → Placement α) (hplace : ∀ tile, (place tile).index = tile.index) :
      ((((tilesOf start (span items start stop)).map place).head?).map (·.index)).getD 0 = start := by
    cases hitems : span items start stop with
    | nil => contradiction
    | cons item rest => exact hplace _
  rw [close, height_openSpan hgaps index hstop, overflows_openSpan hgaps index hstop, openSpan,
    List.reverse_reverse, Row.ofItems, hhead _ fun _ => rfl]
  rfl

variable (layout width) in
/-- From any moment of the pass on, the rows follow the rule. The open row has not overflowed
so far, and it is not left without a further item unless it has none at all. -/
theorem greedy_pack (hgaps : CountsGaps α items) (index : Nat) {start stop : Nat}
    (hstart : start ≤ stop) (hstop : stop ≤ items.length) (hopen : start < stop → stop < items.length)
    (hleast : ∀ before, start < before → before ≤ stop →
      layout.spanOverflows items width start before = false) :
    layout.Greedy items width index start
      (layout.pack width (layout.openSpan items index start stop) (tilesOf stop (items.drop stop))) := by
  induction hrest : items.length - stop generalizing index start stop with
  | zero =>
    have hend : stop = items.length := by omega
    have hempty : start = items.length := by omega
    subst hend hempty
    rw [List.drop_length]
    exact .finished index
  | succ rest ih =>
    have hitem : stop < items.length := by omega
    rw [tilesOf_drop hitem, pack, push_openSpan index hstart hitem, overflows_openSpan hgaps index hitem]
    have hlast : (tilesOf (stop + 1) (items.drop (stop + 1)) : List (Tile α)).isEmpty = true ↔
        stop + 1 = items.length := by
      rw [List.isEmpty_iff, tilesOf, List.map_eq_nil_iff, List.zipIdx_eq_nil_iff,
        List.drop_eq_nil_iff]
      omega
    by_cases hclose : layout.spanOverflows items width start (stop + 1) = true ∨ stop + 1 = items.length
    · have hnext : UInt32.ofNat index + 1 = UInt32.ofNat (index + 1) := by
        rw [UInt32.ofNat_add]
        rfl
      rw [if_pos (by rwa [Bool.or_eq_true, hlast]), close_openSpan hgaps index (by omega) hitem]
      have hstops : layout.StopsAt items width start (stop + 1) := by
        refine ⟨by omega, hitem, hclose, ?_⟩
        intro before hlater hbefore
        exact hleast before hlater (Nat.le_of_lt_succ hbefore)
      have hrows := ih (index + 1) (Nat.le_refl (stop + 1)) hitem (by omega)
        (fun before hlater hbefore => by omega) (by omega)
      rw [openSpan_self, ← hnext] at hrows
      exact .row hstops hrows
    · -- The row stays open, so nothing it has taken in overflows and an item is left for it.
      rw [not_or] at hclose
      rw [if_neg (by rwa [Bool.or_eq_true, hlast, not_or])]
      refine ih index (by omega) hitem (by omega) ?_ (by omega)
      intro before hlater hbefore
      rcases Nat.lt_or_ge stop before with hnew | hold
      · obtain rfl : before = stop + 1 := by omega
        exact Bool.eq_false_iff.2 hclose.1
      · exact hleast before hlater hold

variable (layout) in
/-- Items that all have an aspect ratio are arranged in rows that follow the rule. -/
theorem greedy_arrange (hgaps : CountsGaps α items)
    (hheights : ∀ item ∈ items, item.dimensions.height ≠ 0) (hwidth : isUsable width = true) :
    ∃ rows, layout.arrange items width = .ok rows ∧ layout.Greedy items width 0 0 rows := by
  cases hitems : items with
  | nil => exact ⟨[], rfl, .finished 0⟩
  | cons item rest =>
    rw [← hitems]
    have hempty : items.isEmpty = false := by rw [hitems, List.isEmpty_cons]
    refine ⟨layout.pack width (.empty 0) (tilesOf 0 items), ?_, ?_⟩
    · rw [arrange, hempty, hwidth, tilesFrom_eq_ok 0 items hheights]
      rfl
    · have hrows := greedy_pack layout width hgaps 0 (Nat.le_refl 0)
        (Nat.zero_le items.length) (by omega) (fun before hlater hbefore => by omega)
      rw [openSpan_self, List.drop_zero] at hrows
      exact hrows

variable {index start : Nat} {rows : List (Row α)} {row : Row α}

/-- Every row is that of a span which stops where the rule says. -/
theorem Greedy.exists_of_mem (hrows : layout.Greedy items width index start rows)
    (hrow : row ∈ rows) :
    layout.StopsAt items width row.start row.stop ∧
      ∃ number, row = layout.spanRow items width number row.start row.stop := by
  induction hrows with
  | finished => contradiction
  | @row index start stop rows hstop _ ih =>
    rcases List.mem_cons.1 hrow with rfl | hlater
    · have hstops : (layout.spanRow items width index start stop).stop = stop :=
        stop_spanRow layout items width index (Nat.le_of_lt hstop.later) hstop.within
      rw [hstops]
      exact ⟨hstop, index, rfl⟩
    · exact ih hlater

/-- A row is wrapped exactly when its span overflows. -/
theorem Greedy.wrapped_of_mem (hrows : layout.Greedy items width index start rows)
    (hrow : row ∈ rows) :
    row.wrapped = layout.spanOverflows items width row.start row.stop := by
  obtain ⟨_, number, hspan⟩ := hrows.exists_of_mem hrow
  exact congrArg Row.wrapped hspan

/-- A wrapped row is scaled to its room. -/
theorem Greedy.height_of_wrapped (hrows : layout.Greedy items width index start rows)
    (hrow : row ∈ rows) (hwrapped : row.wrapped = true) : row.height =
      layout.spanRoom width row.start row.stop / layout.spanWidth items row.start row.stop *
        layout.rowHeight := by
  obtain ⟨_, number, hspan⟩ := hrows.exists_of_mem hrow
  rw [hrows.wrapped_of_mem hrow] at hwrapped
  exact (congrArg Row.height hspan).trans (if_pos hwrapped)

/-- A row that is not wrapped keeps the packing height. -/
theorem Greedy.height_of_not_wrapped (hrows : layout.Greedy items width index start rows)
    (hrow : row ∈ rows) (hwrapped : row.wrapped = false) : row.height = layout.rowHeight := by
  obtain ⟨_, number, hspan⟩ := hrows.exists_of_mem hrow
  rw [hrows.wrapped_of_mem hrow] at hwrapped
  exact (congrArg Row.height hspan).trans (if_neg (Bool.eq_false_iff.1 hwrapped))

/-- Only the last row can stop for want of items, so all others have overflowed. -/
theorem Greedy.wrapped_of_mem_dropLast (hrows : layout.Greedy items width index start rows)
    (hrow : row ∈ rows.dropLast) : row.wrapped = true := by
  induction hrows with
  | finished => contradiction
  | row hstop hrest ih =>
    cases hrest with
    | finished => contradiction
    | row hnext _ =>
      rw [List.dropLast_cons_cons] at hrow
      rcases List.mem_cons.1 hrow with rfl | hlater
      · have hbefore := hnext.later
        have hwithin := hnext.within
        exact hstop.closed.resolve_right (by omega)
      · exact ih hlater

/-- The pass over the items computes the greedy rule. A row stops at the first position at
which its span overflows, or at the end of the items; it is wrapped when its span overflows,
be it the last row or not, and only then scaled. Only the last row need not be wrapped, and
no other rows follow the rule. -/
theorem arrange_follows_greedy_rule (layout : Layout α) (items : List Picture) (width : α)
    (hcount : items.length < 2 ^ 32 - 1) (hheights : ∀ item ∈ items, item.dimensions.height ≠ 0)
    (hwidth : isUsable width = true) :
    ∃ rows, layout.arrange items width = .ok rows ∧
      layout.Greedy items width 0 0 rows ∧
      (∀ row ∈ rows,
        layout.StopsAt items width row.start row.stop ∧
        row.wrapped = layout.spanOverflows items width row.start row.stop ∧
        (row.wrapped = true → row.height =
          layout.spanRoom width row.start row.stop / layout.spanWidth items row.start row.stop *
            layout.rowHeight) ∧
        (row.wrapped = false → row.height = layout.rowHeight)) ∧
      (∀ row ∈ rows.dropLast, row.wrapped = true) ∧
      ∀ others, layout.Greedy items width 0 0 others → others = rows := by
  obtain ⟨rows, harrange, hrows⟩ :=
    greedy_arrange layout (countsGaps_of_length_lt hcount) hheights hwidth
  refine ⟨rows, harrange, hrows, ?_, ?_, ?_⟩
  · intro row hrow
    obtain ⟨hstops, -⟩ := hrows.exists_of_mem hrow
    exact ⟨hstops, hrows.wrapped_of_mem hrow, hrows.height_of_wrapped hrow,
      hrows.height_of_not_wrapped hrow⟩
  · intro row hrow
    exact hrows.wrapped_of_mem_dropLast hrow
  · intro others hothers
    exact hrows.unique hothers

/-- A panorama that overflows on its own, between squares. -/
theorem arrange_follows_greedy_rule_panorama :
    ∃ rows, Layout.standard.arrange
        [.ofDimensions [] ⟨500, 500⟩, .ofDimensions [] ⟨12000, 1000⟩, .ofDimensions [] ⟨500, 500⟩] 1000 =
          .ok rows ∧
      Layout.standard.Greedy
        [.ofDimensions [] ⟨500, 500⟩, .ofDimensions [] ⟨12000, 1000⟩, .ofDimensions [] ⟨500, 500⟩]
        1000 0 0 rows := by
  obtain ⟨rows, harrange, hrows, -⟩ := arrange_follows_greedy_rule Layout.standard
    [.ofDimensions [] ⟨500, 500⟩, .ofDimensions [] ⟨12000, 1000⟩, .ofDimensions [] ⟨500, 500⟩] 1000
    (by decide) (by decide) (by decide)
  exact ⟨rows, harrange, hrows⟩

end Gallery.Layout
