import Gallery.Proofs.Layout.Greedy
import Mathlib.Control.Monad.Basic
import Mathlib.Order.Nat

/-!
# Restarting at a row

Nothing is carried from one row to the next. The items from the start of a row on, arranged on
their own, come in the rows that they have in the whole layout. All that tells the two apart is
how many rows and items stand before them, which the numbers of rows and the positions of items
count.

Sums are added anew in every row, so this holds for doubles as it does for exact numbers.
-/

namespace Gallery

variable {α : Type} [Scalar α]

/-- A placement as it is numbered behind further items. -/
def Placement.behind (before : Nat) (item : Placement α) : Placement α :=
  { item with index := before + item.index }

/-- A row as it is numbered behind further rows and their items. -/
def Row.behind (rowsBefore itemsBefore : Nat) (row : Row α) : Row α where
  rowIndex := UInt32.ofNat rowsBefore + row.rowIndex
  start := itemsBefore + row.start
  height := row.height
  wrapped := row.wrapped
  items := row.items.map (Placement.behind itemsBefore)

/-- A span of what remains from a position on is a span of the items. -/
theorem span_drop (items : List Picture) (before start stop : Nat) :
    span (items.drop before) start stop = span items (before + start) (before + stop) := by
  rw [span, span, List.take_drop, List.drop_drop]

/-- Tiles are the same behind further items, but for their numbers. -/
theorem tilesOf_add (before index : Nat) (items : List Picture) :
    (tilesOf (before + index) items : List (Tile α)) =
      (tilesOf index items).map fun tile => { tile with index := before + tile.index } := by
  induction items generalizing index with
  | nil => rfl
  | cons item items ih => exact congrArg _ (ih (index + 1))

namespace Layout

variable {layout : Layout α} {items : List Picture} {width : α}
variable {index start stop : Nat} {rows : List (Row α)}

variable (layout items) in
/-- The width of a span does not depend on what stands before it. -/
theorem spanWidth_drop (before start stop : Nat) :
    layout.spanWidth (items.drop before) start stop =
      layout.spanWidth items (before + start) (before + stop) := by
  rw [spanWidth, span_drop, spanWidth]

variable (layout width) in
/-- The room of a span depends on the number of its items only. -/
theorem spanRoom_add (before start stop : Nat) :
    layout.spanRoom width (before + start) (before + stop) = layout.spanRoom width start stop := by
  rw [spanRoom, spanRoom, Nat.add_sub_add_left]

variable (layout items width) in
/-- Whether a span overflows does not depend on what stands before it. -/
theorem spanOverflows_drop (before start stop : Nat) :
    layout.spanOverflows (items.drop before) width start stop =
      layout.spanOverflows items width (before + start) (before + stop) := by
  rw [spanOverflows, spanWidth_drop, ← spanRoom_add layout width before, spanOverflows]

variable (layout items width) in
/-- The height of a span does not depend on what stands before it. -/
theorem spanHeight_drop (before start stop : Nat) :
    layout.spanHeight (items.drop before) width start stop =
      layout.spanHeight items width (before + start) (before + stop) := by
  rw [spanHeight, spanOverflows_drop, spanWidth_drop, ← spanRoom_add layout width before, spanHeight]

variable (layout items width) in
/-- The row of a span depends on what stands before it in its numbers only. -/
theorem spanRow_drop (rowsBefore before index start stop : Nat) :
    (layout.spanRow (items.drop before) width index start stop).behind rowsBefore before =
      layout.spanRow items width (rowsBefore + index) (before + start) (before + stop) := by
  have hitems (height : α) :
      ((tilesOf start (span (items.drop before) start stop)).map (layout.place height)).map
          (Placement.behind before) =
        (tilesOf (before + start) (span items (before + start) (before + stop))).map
          (layout.place height) := by
    rw [span_drop, tilesOf_add, List.map_map, List.map_map]
    rfl
  rw [spanRow, spanRow, Row.behind, hitems, spanHeight_drop, spanOverflows_drop, UInt32.ofNat_add]

/-- A row of what remains stops where the same row of all items does. -/
theorem StopsAt.of_drop {before : Nat} (hstop : layout.StopsAt (items.drop before) width start stop) :
    layout.StopsAt items width (before + start) (before + stop) := by
  obtain ⟨hlater, hwithin, hclosed, hleast⟩ := hstop
  rw [List.length_drop] at hwithin hclosed
  refine ⟨Nat.add_lt_add_left hlater before, by omega, ?_, ?_⟩
  · rcases hclosed with hoverflows | hend
    · exact .inl ((spanOverflows_drop layout items width before start stop).symm.trans hoverflows)
    · exact .inr (by omega)
  · intro between hafter hbefore
    have hbetween : between = before + (between - before) := by omega
    rw [hbetween, ← spanOverflows_drop layout items width before]
    exact hleast (between - before) (by omega) (by omega)

/-- Rows of what remains are rows of all items. -/
theorem Greedy.of_drop {before : Nat} (rowsBefore : Nat) (hbefore : before ≤ items.length)
    (hrows : layout.Greedy (items.drop before) width index start rows) :
    layout.Greedy items width (rowsBefore + index) (before + start)
      (rows.map (Row.behind rowsBefore before)) := by
  induction hrows with
  | finished =>
    rw [List.length_drop, Nat.add_sub_cancel' hbefore]
    exact .finished _
  | row hstop _ ih =>
    rw [List.map_cons, spanRow_drop]
    exact .row hstop.of_drop ih

/-- From any of its rows on, a layout follows the rule. -/
theorem Greedy.drop (hrows : layout.Greedy items width index start rows) {j : Nat}
    (hj : j < rows.length) : layout.Greedy items width (index + j) rows[j].start (rows.drop j) := by
  induction hrows generalizing j with
  | finished => exact absurd hj (Nat.not_lt_zero j)
  | @row index start stop rows hstop hrest ih =>
    cases j with
    | zero => exact .row hstop hrest
    | succ j =>
      rw [List.getElem_cons_succ, List.drop_succ_cons, Nat.add_comm j 1, ← Nat.add_assoc]
      exact ih (Nat.lt_of_succ_lt_succ hj)

/-- Layouts restart at every row. The items from the start of a row on, arranged on their own in a
container of the same width, come in the remaining rows of the whole layout, with all that these
show. Only their numbers are lower, by the rows and the items that stand before. -/
theorem arrange_restarts_at_every_row (layout : Layout α) (items : List Picture) (width : α)
    (hcount : items.length < 2 ^ 32 - 1) (hheights : ∀ item ∈ items, item.dimensions.height ≠ 0)
    (hwidth : isUsable width = true) :
    ∃ rows, layout.arrange items width = .ok rows ∧
      ∀ (j : Nat) (hj : j < rows.length), ∃ rest,
        layout.arrange (items.drop rows[j].start) width = .ok rest ∧
          rest.map (Row.behind j rows[j].start) = rows.drop j := by
  obtain ⟨rows, harrange, hrows⟩ :=
    greedy_arrange layout (countsGaps_of_length_lt hcount) hheights hwidth
  refine ⟨rows, harrange, ?_⟩
  intro j hj
  obtain ⟨hstop, -⟩ := hrows.exists_of_mem (List.getElem_mem hj)
  have hstart : rows[j].start ≤ items.length := (Nat.le_of_lt hstop.later).trans hstop.within
  have hfewer : (items.drop rows[j].start).length < 2 ^ 32 - 1 := by
    rw [List.length_drop]
    omega
  obtain ⟨rest, hrestArrange, hrest⟩ := greedy_arrange layout (countsGaps_of_length_lt hfewer)
    (fun item hitem => hheights item (List.mem_of_mem_drop hitem)) hwidth
  -- Both are rows of all items from the same item on, and the rule leaves no choice.
  have hwhole := hrest.of_drop j hstart
  have hremaining := hrows.drop hj
  rw [Nat.zero_add] at hremaining
  exact ⟨rest, hrestArrange, hremaining.unique hwhole⟩

/-- The second row of four items, of which the third overflows beside the square before it. -/
theorem arrange_restarts_at_every_row_panoramas :
    ∃ rows rest, Layout.standard.arrange
        [.ofDimensions [] ⟨12000, 1000⟩, .ofDimensions [] ⟨500, 500⟩, .ofDimensions [] ⟨12000, 1000⟩,
          .ofDimensions [] ⟨800, 400⟩] 1000 = .ok rows ∧
      rows.map (·.start) = [0, 1, 3] ∧
      Layout.standard.arrange
        [.ofDimensions [] ⟨500, 500⟩, .ofDimensions [] ⟨12000, 1000⟩,
          .ofDimensions [] ⟨800, 400⟩] 1000 = .ok rest ∧
      rest.map (Row.behind 1 1) = rows.drop 1 := by
  obtain ⟨rows, harrange, hrestart⟩ := arrange_restarts_at_every_row Layout.standard
    [.ofDimensions [] ⟨12000, 1000⟩, .ofDimensions [] ⟨500, 500⟩, .ofDimensions [] ⟨12000, 1000⟩,
      .ofDimensions [] ⟨800, 400⟩] 1000 (by decide) (by decide) (by decide)
  have hstarts : (Layout.standard.arrange
      [.ofDimensions [] ⟨12000, 1000⟩, .ofDimensions [] ⟨500, 500⟩, .ofDimensions [] ⟨12000, 1000⟩,
        .ofDimensions [] ⟨800, 400⟩] 1000).map (List.map (·.start)) = .ok [0, 1, 3] := by
    decide +kernel
  rw [harrange] at hstarts
  have hrows : rows.map (·.start) = [0, 1, 3] := Except.ok.inj hstarts
  have hlength : 1 < rows.length := by
    have hlengths := congrArg List.length hrows
    rw [List.length_map] at hlengths
    exact Nat.lt_of_lt_of_eq (by decide) hlengths.symm
  have hsecond : (rows.map (·.start))[1]? = some 1 := by
    rw [hrows]
    rfl
  rw [List.getElem?_map, List.getElem?_eq_getElem hlength] at hsecond
  have hstart : rows[1].start = 1 := Option.some.inj hsecond
  obtain ⟨rest, hrest, hsame⟩ := hrestart 1 hlength
  rw [hstart] at hrest hsame
  exact ⟨rows, rest, harrange, hrows, hrest, hsame⟩

end Layout

end Gallery
