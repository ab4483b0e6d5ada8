import Gallery.Proofs.Layout.Coverage
import Mathlib.Algebra.BigOperators.Group.List.Defs
import Mathlib.Algebra.Order.Floor.Div
import Mathlib.Logic.Function.Iterate
import Mathlib.Tactic.ByContra

/-!
# Items of one aspect ratio

Items that all have one aspect ratio come in rows that all hold the same number of them, but for the
last row, which holds what is left. A row adds up the same numbers in the same order as every other
row, wherever it starts, so the width of a span depends on how many items it holds and on nothing
else. The number at which a row overflows is the least for which such a width exceeds its room, and
it does not depend on how many items there are.

Each row is looked at on its own: it holds no more items than this number, and as many only if it is
wrapped. That all rows but the last are wrapped, and that the rows hold all items, then leaves no
choice for the number of rows and for the last of them.
-/

namespace Gallery

/-- A row goes on for as many positions as it has items. -/
theorem Row.stop_sub_start {α : Type} (row : Row α) : row.stop - row.start = row.items.length :=
  Nat.add_sub_cancel_left ..

/-- Parts of one size and a last part, which is not empty and not larger, are counted by the
quotient, rounded up. -/
theorem ceilDiv_mul_add (parts : Nat) {size last : Nat} (hpos : 0 < last) (hle : last ≤ size) :
    (parts * size + last) ⌈/⌉ size = parts + 1 := by
  have hsize : 0 < size := hpos.trans_le hle
  refine Nat.le_antisymm ((ceilDiv_le_iff_le_mul hsize).2 ?_) ?_
  · rw [Nat.mul_succ, Nat.mul_comm]
    exact Nat.add_le_add_left hle _
  · by_contra hfewer
    have hparts := (ceilDiv_le_iff_le_mul hsize).1 (Nat.le_of_not_lt hfewer)
    rw [Nat.mul_comm] at hparts
    omega

/-- The last part is as large as the others if the whole is a multiple of their size. -/
theorem eq_iff_dvd_mul_add (parts : Nat) {size last : Nat} (hpos : 0 < last) (hle : last ≤ size) :
    last = size ↔ size ∣ parts * size + last := by
  rw [Nat.dvd_add_right (Nat.dvd_mul_left size parts)]
  constructor
  · rintro rfl
    exact Nat.dvd_refl last
  · intro hdvd
    exact Nat.le_antisymm hle (Nat.le_of_dvd hpos hdvd)

variable {α : Type} [Scalar α]

/-- A picture with an aspect ratio has a height. -/
theorem Picture.height_ne_zero {picture : Picture} {ratio : α}
    (hratio : picture.aspectRatio? = some ratio) : picture.dimensions.height ≠ 0 := by
  intro hheight
  rw [aspectRatio?, if_pos hheight] at hratio
  contradiction

/-- Its aspect ratio is its ratio. -/
theorem Picture.ratio_eq {picture : Picture} {ratio : α}
    (hratio : picture.aspectRatio? = some ratio) : picture.ratio = ratio :=
  Option.some.inj ((picture.aspectRatio?_eq_some (height_ne_zero hratio)).symm.trans hratio)

namespace Layout

variable (layout : Layout α) (width ratio : α)

/-- The widths of some items of one ratio at the packing height, added in order. -/
def evenWidth (count : Nat) : α :=
  (fun total => total + layout.rowHeight * ratio)^[count] (Scalar.ofCount 0)

/-- What is left of the container beside one gap for each of some items and one for the leading
edge. -/
def evenRoom (count : Nat) : α := width - Scalar.ofCount (count + 1) * layout.gutter

/-- Whether some items of one ratio are wider than the room they have. -/
def evenOverflows (count : Nat) : Bool :=
  Scalar.less (layout.evenRoom width count) (layout.evenWidth ratio count)

/-- Whether a row of items of one ratio overflows with the last of `count` items and not before. -/
structure Fills (count : Nat) : Prop where
  pos : 0 < count
  overflows : layout.evenOverflows width ratio count = true
  least : ∀ fewer, 0 < fewer → fewer < count → layout.evenOverflows width ratio fewer = false

variable {layout width ratio} {items : List Picture} {index start stop count : Nat}
variable {rows : List (Row α)} {row : Row α}

/-- If some number of items overflows there is a first that does. -/
theorem exists_fills (hpos : 0 < count) (hoverflows : layout.evenOverflows width ratio count = true) :
    ∃ first ≤ count, layout.Fills width ratio first := by
  have hsome : ∃ first, 0 < first ∧ layout.evenOverflows width ratio first = true :=
    ⟨count, hpos, hoverflows⟩
  obtain ⟨hfirst, hfull⟩ := Nat.find_spec hsome
  refine ⟨Nat.find hsome, Nat.find_min' hsome ⟨hpos, hoverflows⟩, hfirst, hfull, ?_⟩
  intro fewer hfewer hlt
  exact Bool.eq_false_iff.2 fun hoverflows => Nat.find_min hsome hlt ⟨hfewer, hoverflows⟩

variable (layout) in
/-- The width of a span of such items is that of their number. -/
theorem spanWidth_of_ratio (hratio : ∀ item ∈ items, item.aspectRatio? = some ratio)
    (hstop : stop ≤ items.length) :
    layout.spanWidth items start stop = layout.evenWidth ratio (stop - start) := by
  have hratios (total : α) (item : Picture) (hitem : item ∈ span items start stop) :
      total + layout.rowHeight * item.ratio = total + layout.rowHeight * ratio := by
    rw [item.ratio_eq (hratio item (mem_of_mem_span hitem))]
  rw [spanWidth, List.foldl_ext _ _ _ hratios, List.foldl_const, length_span hstop]
  rfl

variable (layout width) in
/-- Whether a span of such items overflows depends on their number. -/
theorem spanOverflows_of_ratio (hratio : ∀ item ∈ items, item.aspectRatio? = some ratio)
    (hstop : stop ≤ items.length) :
    layout.spanOverflows items width start stop =
      layout.evenOverflows width ratio (stop - start) := by
  rw [spanOverflows, spanWidth_of_ratio layout hratio hstop]
  rfl

/-- No row is empty. -/
theorem Greedy.length_pos (hrows : layout.Greedy items width index start rows) (hrow : row ∈ rows) :
    0 < row.items.length := by
  obtain ⟨hstop, -⟩ := hrows.exists_of_mem hrow
  exact row.stop_sub_start ▸ Nat.sub_pos_of_lt hstop.later

namespace Greedy

variable (hratio : ∀ item ∈ items, item.aspectRatio? = some ratio)
  (hrows : layout.Greedy items width index start rows)

include hratio hrows

/-- Whether a row of such items is wrapped depends on their number. -/
theorem wrapped_of_ratio (hrow : row ∈ rows) :
    row.wrapped = layout.evenOverflows width ratio row.items.length := by
  obtain ⟨hstop, -⟩ := hrows.exists_of_mem hrow
  rw [hrows.wrapped_of_mem hrow, spanOverflows_of_ratio layout width hratio hstop.within,
    row.stop_sub_start]

/-- No row goes on behind the item with which it overflows. -/
theorem length_le_of_fills (hfills : layout.Fills width ratio count) (hrow : row ∈ rows) :
    row.items.length ≤ count := by
  obtain ⟨hstop, -⟩ := hrows.exists_of_mem hrow
  by_contra hlonger
  have hbefore : row.start + count < row.stop := by
    rw [Row.stop]
    omega
  have hopen := hstop.least (row.start + count) (Nat.lt_add_of_pos_right hfills.pos) hbefore
  rw [spanOverflows_of_ratio layout width hratio (hbefore.le.trans hstop.within),
    Nat.add_sub_cancel_left, hfills.overflows] at hopen
  contradiction

/-- A row is wrapped if it holds as many items as a row can hold. -/
theorem wrapped_iff_of_fills (hfills : layout.Fills width ratio count) (hrow : row ∈ rows) :
    row.wrapped = true ↔ row.items.length = count := by
  rw [hrows.wrapped_of_ratio hratio hrow]
  constructor
  · intro hoverflows
    refine Nat.le_antisymm (hrows.length_le_of_fills hratio hfills hrow) ?_
    by_contra hshorter
    have hopen := hfills.least row.items.length (hrows.length_pos hrow) (by omega)
    rw [hoverflows] at hopen
    contradiction
  · intro hlength
    rw [hlength, hfills.overflows]

/-- All wrapped rows have the same height. -/
theorem height_of_fills (hfills : layout.Fills width ratio count) (hrow : row ∈ rows)
    (hwrapped : row.wrapped = true) : row.height =
      layout.evenRoom width count / layout.evenWidth ratio count * layout.rowHeight := by
  obtain ⟨hstop, -⟩ := hrows.exists_of_mem hrow
  have hlength := (hrows.wrapped_iff_of_fills hratio hfills hrow).1 hwrapped
  rw [hrows.height_of_wrapped hrow hwrapped, spanWidth_of_ratio layout hratio hstop.within, spanRoom,
    row.stop_sub_start, hlength, evenRoom]

/-- Rows that hold fewer items than overflow are not wrapped. -/
theorem wrapped_eq_false_of_fills_lt
    (hfills : ∀ count, layout.Fills width ratio count → items.length < count) (hrow : row ∈ rows) :
    row.wrapped = false := by
  obtain ⟨hstop, -⟩ := hrows.exists_of_mem hrow
  rw [hrows.wrapped_of_ratio hratio hrow]
  refine Bool.eq_false_iff.2 fun hoverflows => ?_
  obtain ⟨first, hfirst, hfirstFills⟩ := exists_fills (hrows.length_pos hrow) hoverflows
  have hmore := hfills first hfirstFills
  have hwithin := hstop.within
  rw [Row.stop] at hwithin
  omega

end Greedy

/-- Items of one aspect ratio come in equal rows. If a row of such items overflows with the last of
`count` items and not before, then there are as many rows as rounding up says, each but the last
holds `count` items, the last holds the rest and is wrapped if nothing is left over, and all wrapped
rows have the height of `count` items. If there are not that many items, or if no number of them
overflows, they are all in one row that is not wrapped. -/
theorem arrange_equal_items_in_equal_rows (layout : Layout α) (items : List Picture) (width ratio : α)
    (hcount : items.length < 2 ^ 32 - 1) (hsome : items ≠ [])
    (hratio : ∀ item ∈ items, item.aspectRatio? = some ratio) (hwidth : isUsable width = true) :
    ∃ before last, layout.arrange items width = .ok (before ++ [last]) ∧
      (∀ count, layout.Fills width ratio count →
        (before ++ [last]).length = items.length ⌈/⌉ count ∧
        (∀ row ∈ before, row.items.length = count) ∧
        last.items.length = items.length - (items.length ⌈/⌉ count - 1) * count ∧
        (last.wrapped = true ↔ count ∣ items.length) ∧
        ∀ row ∈ before ++ [last], row.wrapped = true →
          row.height =
            layout.evenRoom width count / layout.evenWidth ratio count * layout.rowHeight) ∧
      ((∀ count, layout.Fills width ratio count → items.length < count) →
        before = [] ∧ last.items.length = items.length ∧ last.wrapped = false) := by
  have hheights : ∀ item ∈ items, item.dimensions.height ≠ 0 :=
    fun item hitem => item.height_ne_zero (hratio item hitem)
  obtain ⟨rows, harrange, hrows⟩ :=
    greedy_arrange layout (countsGaps_of_length_lt hcount) hheights hwidth
  have hsum := sum_length_items_arrange harrange hwidth
  obtain rfl | ⟨before, last, rfl⟩ := rows.eq_nil_or_concat'
  · exact absurd hsum.symm (Nat.ne_of_gt (List.length_pos_iff.2 hsome))
  have hlast : last ∈ before ++ [last] := List.mem_append_right before (List.mem_singleton_self last)
  have hbefore (row : Row α) (hrow : row ∈ before) : row.wrapped = true :=
    hrows.wrapped_of_mem_dropLast (by rwa [List.dropLast_concat])
  rw [List.map_append, List.sum_append, List.map_singleton, List.sum_singleton] at hsum
  refine ⟨before, last, harrange, ?_, ?_⟩
  · intro count hfills
    have hfull (row : Row α) (hrow : row ∈ before) : row.items.length = count :=
      (hrows.wrapped_iff_of_fills hratio hfills (List.mem_append_left _ hrow)).1 (hbefore row hrow)
    have hlengths : (before.map (·.items.length)).sum = before.length * count := by
      rw [List.sum_eq_card_nsmul _ count (List.forall_mem_map.2 hfull), List.length_map, smul_eq_mul]
    -- What the full rows leave of all items is in the last row, and it is not more than they hold.
    rw [hlengths] at hsum
    have hpos := hrows.length_pos hlast
    have hle := hrows.length_le_of_fills hratio hfills hlast
    have hparts := ceilDiv_mul_add before.length hpos hle
    refine ⟨?_, hfull, ?_, ?_, fun row hrow => hrows.height_of_fills hratio hfills hrow⟩
    · rw [← hsum, hparts, List.length_append, List.length_singleton]
    · rw [← hsum, hparts, Nat.add_sub_cancel, Nat.add_sub_cancel_left]
    · rw [hrows.wrapped_iff_of_fills hratio hfills hlast, ← hsum]
      exact eq_iff_dvd_mul_add before.length hpos hle
  · intro hfills
    have hopen (row : Row α) (hrow : row ∈ before ++ [last]) : row.wrapped = false :=
      hrows.wrapped_eq_false_of_fills_lt hratio hfills hrow
    have hnone : before = [] := by
      refine List.eq_nil_iff_forall_not_mem.2 fun row hrow => ?_
      exact absurd ((hopen row (List.mem_append_left _ hrow)).symm.trans (hbefore row hrow)) nofun
    rw [hnone] at hsum
    exact ⟨hnone, (Nat.zero_add _).symm.trans hsum, hopen last hlast⟩

/-- A picture of sixteen to nine. -/
def widescreen : Picture := .ofDimensions [] ⟨1600, 900⟩

/-- Six of them overflow, and so thirteen come in two rows of six, with one left over. -/
theorem arrange_equal_items_in_equal_rows_widescreen :
    ∃ before last, Layout.standard.arrange (.replicate 13 widescreen) 1920 =
        .ok (before ++ [last]) ∧
      (before ++ [last]).length = 3 ∧ (∀ row ∈ before, row.items.length = 6) ∧
      last.items.length = 1 ∧ ¬last.wrapped = true := by
  have hratio : ∀ item ∈ List.replicate 13 widescreen,
      item.aspectRatio? = some (widescreen.ratio : Float) := by
    intro item hitem
    rw [List.eq_of_mem_replicate hitem]
    exact widescreen.aspectRatio?_eq_some (by decide)
  have hfits : ∀ fewer < 6, 0 < fewer →
      Layout.standard.evenOverflows 1920 widescreen.ratio fewer = false := by decide +kernel
  have hfills : Layout.standard.Fills 1920 widescreen.ratio 6 :=
    ⟨by decide, by decide +kernel, fun fewer hsome hfewer => hfits fewer hfewer hsome⟩
  obtain ⟨before, last, harrange, heven, -⟩ := arrange_equal_items_in_equal_rows Layout.standard
    (.replicate 13 widescreen) 1920 widescreen.ratio (by decide) (List.cons_ne_nil _ _) hratio
    (by decide)
  obtain ⟨hlength, hfull, hlast, hwrapped, -⟩ := heven 6 hfills
  refine ⟨before, last, harrange, hlength.trans (by decide), hfull, hlast.trans (by decide), ?_⟩
  exact fun hlast => absurd (hwrapped.1 hlast) (by decide)

end Layout

end Gallery
