import Gallery.Proofs.Layout.Greedy
import Mathlib.Algebra.Ring.Nat
import Mathlib.Data.List.Basic
import Mathlib.Tactic.Conv

/-!
# Every item is shown once

The rows of a layout show the items of their spans, and the spans of successive rows follow
each other from the first item to the last. So no item is lost, shown twice or moved, and
what is shown of an item is its own path and its own aspect ratio, at the height of its row.

Which items a row takes is of no concern here. All that is used of the greedy rule is that
every row starts where the one before it stopped. That there are as many placements as items
needs no rule at all, and no bound on the number of items.
-/

namespace Gallery

variable {α : Type} [Scalar α]

/-- Tiles carry the positions from `index` on. -/
theorem map_index_tilesOf (index : Nat) (items : List Picture) :
    (tilesOf index items : List (Tile α)).map (·.index) = List.range' index items.length := by
  rw [tilesOf, List.map_map]
  exact List.zipIdx_map_snd index items

/-- A tile of a span belongs to the item at its position. -/
theorem exists_of_mem_tilesOf_span {items : List Picture} {start stop : Nat} {tile : Tile α}
    (htile : tile ∈ tilesOf start (span items start stop)) :
    ∃ picture, items[tile.index]? = some picture ∧
      tile.path = picture.path ∧ tile.ratio = picture.ratio := by
  obtain ⟨⟨picture, position⟩, hmem, rfl⟩ := List.mem_map.1 htile
  obtain ⟨hstart, hget⟩ := List.mk_mem_zipIdx_iff_le_and_getElem?_sub.1 hmem
  refine ⟨picture, ?_, rfl, rfl⟩
  rw [span, List.getElem?_drop, Nat.add_sub_cancel' hstart, List.getElem?_take] at hget
  split at hget
  · exact hget
  · contradiction

/-- Tiles carry the paths of the items. -/
theorem map_path_of_tilesFrom {index : Nat} {items : List Picture} {tiles : List (Tile α)}
    (htiles : tilesFrom index items = .ok tiles) :
    tiles.map (·.path) = items.map (·.path) := by
  induction items generalizing index tiles with
  | nil =>
    obtain rfl := Except.ok.inj htiles
    rfl
  | cons item items ih =>
    rw [tilesFrom] at htiles
    cases hratio : (item.aspectRatio? : Option α) with
    | none =>
      rw [hratio] at htiles
      contradiction
    | some ratio =>
      rw [hratio] at htiles
      cases hrest : (tilesFrom (index + 1) items : Except GeometryFault (List (Tile α))) with
      | error fault =>
        simp only [hrest] at htiles
        contradiction
      | ok rest =>
        simp only [hrest] at htiles
        obtain rfl := Except.ok.inj htiles
        rw [List.map_cons, List.map_cons, ih hrest]

/-- The tile that is shown by a placement. -/
def Placement.tile (item : Placement α) : Tile α := ⟨item.index, item.path, item.ratio⟩

namespace Layout

variable {layout : Layout α} {items : List Picture} {width : α}
variable {index start : Nat} {rows : List (Row α)} {row : Row α}

/-- There are no more rows than items. -/
theorem Greedy.length_le (hrows : layout.Greedy items width index start rows) :
    start + rows.length ≤ items.length := by
  induction hrows with
  | finished => exact Nat.le_refl _
  | row hstop _ ih =>
    have hlater := hstop.later
    rw [List.length_cons]
    omega

/-- Rows are numbered in order. -/
theorem Greedy.rowIndex_getElem (hrows : layout.Greedy items width index start rows) (j : Nat)
    (hj : j < rows.length) :
    rows[j].rowIndex = UInt32.ofNat (index + j) := by
  induction hrows generalizing j with
  | finished => exact absurd hj (Nat.not_lt_zero j)
  | row _ _ ih =>
    cases j with
    | zero => rfl
    | succ j =>
      rw [List.getElem_cons_succ, ih j (Nat.lt_of_succ_lt_succ hj), Nat.add_right_comm, Nat.add_assoc]

/-- Every row starts where the one before it stops, and the last one stops at the end. -/
theorem Greedy.starts_eq_stops (hrows : layout.Greedy items width index start rows) :
    rows.map (·.start) ++ [items.length] = start :: rows.map (·.stop) := by
  induction hrows with
  | finished => rfl
  | row hstop _ ih =>
    rw [List.map_cons, List.map_cons, List.cons_append, ih,
      stop_spanRow layout items width _ (Nat.le_of_lt hstop.later) hstop.within]
    rfl

/-- The positions from the start of each row to its stop are all positions, in order. -/
theorem Greedy.flatMap_range' (hrows : layout.Greedy items width index start rows) :
    (rows.flatMap fun row => List.range' row.start (row.stop - row.start)) =
      List.range' start (items.length - start) := by
  induction hrows with
  | finished => rw [Nat.sub_self, List.range'_zero, List.flatMap_nil]
  | @row index start stop rows hstop _ ih =>
    obtain ⟨hlater, hwithin⟩ := hstop.later, hstop.within
    have hstart : (layout.spanRow items width index start stop).start = start := rfl
    have hnext : stop = start + (stop - start) := by omega
    have htotal : items.length - start = stop - start + (items.length - stop) := by omega
    rw [List.flatMap_cons, ih, stop_spanRow layout items width index (Nat.le_of_lt hlater) hwithin, hstart,
      htotal, ← List.range'_append_1, ← hnext]

/-- A row shows the items at the positions from its start to its stop. -/
theorem Greedy.map_index_of_mem (hrows : layout.Greedy items width index start rows)
    (hrow : row ∈ rows) :
    row.items.map (·.index) = List.range' row.start (row.stop - row.start) := by
  obtain ⟨hstop, number, hspan⟩ := hrows.exists_of_mem hrow
  have hitems : row.items = (tilesOf row.start (span items row.start row.stop)).map
      (layout.place row.height) := by rw [congrArg Row.height hspan, congrArg Row.items hspan]; rfl
  rw [hitems, List.map_map, ← length_span hstop.within]
  exact map_index_tilesOf _ _

/-- What a row shows of an item is the item's own, at the height of the row. -/
theorem Greedy.exists_picture_of_mem (hrows : layout.Greedy items width index start rows)
    (hrow : row ∈ rows) {placed : Placement α} (hplaced : placed ∈ row.items) :
    ∃ picture, items[placed.index]? = some picture ∧ placed.path = picture.path ∧
      placed.ratio = picture.ratio ∧ placed.height = row.height ∧
      placed.width = row.height * placed.ratio ∧
      placed.captionWidth = placed.width - layout.captionPadding := by
  obtain ⟨_, number, hspan⟩ := hrows.exists_of_mem hrow
  have hheight : row.height = layout.spanHeight items width row.start row.stop :=
    congrArg Row.height hspan
  rw [congrArg Row.items hspan] at hplaced
  obtain ⟨tile, htile, rfl⟩ := List.mem_map.1 hplaced
  obtain ⟨picture, hpicture, hpath, hratio⟩ := exists_of_mem_tilesOf_span htile
  rw [hheight]
  exact ⟨picture, hpicture, hpath, hratio, rfl, rfl, rfl⟩

/-- The placements of all rows are numbered through. -/
theorem Greedy.map_index_items (hrows : layout.Greedy items width 0 0 rows) :
    (rows.flatMap (·.items)).map (·.index) = List.range items.length := by
  have hranges := hrows.flatMap_range'
  rw [Nat.sub_zero, ← List.range_eq_range'] at hranges
  rw [← hranges, List.map_flatMap]
  apply List.flatMap_congr
  intro row hrow
  exact hrows.map_index_of_mem hrow

/-- Among them the item at a position has its place at that position, in one of the rows. -/
theorem Greedy.exists_placed (hrows : layout.Greedy items width 0 0 rows) {k : Nat}
    (hk : k < items.length) :
    ∃ row ∈ rows, ∃ placed ∈ row.items,
      (rows.flatMap (·.items))[k]? = some placed ∧ placed.index = k := by
  have hget : ((rows.flatMap (·.items)).map (·.index))[k]? = some k := by
    rw [hrows.map_index_items, List.getElem?_range hk]
  rw [List.getElem?_map] at hget
  obtain ⟨placed, hplaced, hindex⟩ := Option.map_eq_some_iff.1 hget
  obtain ⟨row, hrow, hmem⟩ := List.mem_flatMap.1 (List.mem_of_getElem? hplaced)
  exact ⟨row, hrow, placed, hmem, hplaced, hindex⟩

/-- A closed row shows the tiles of the open row. -/
theorem map_tile_items_close (row : OpenRow α) :
    (layout.close width row).items.map Placement.tile = row.tiles.reverse := by
  rw [close, Row.ofItems, List.map_map]
  exact List.map_id _

/-- Packing shows every tile in one row, and those of the open row in the first. -/
theorem flatMap_tile_pack (row : OpenRow α) {tiles : List (Tile α)} (htiles : tiles ≠ []) :
    ((layout.pack width row tiles).flatMap fun row => row.items.map Placement.tile) =
      row.tiles.reverse ++ tiles := by
  induction tiles generalizing row with
  | nil => contradiction
  | cons tile tiles ih =>
    have hpushed : (row.push layout tile).tiles.reverse = row.tiles.reverse ++ [tile] :=
      List.reverse_cons
    rw [pack]
    cases tiles with
    | nil =>
      rw [List.isEmpty_nil, Bool.or_true, if_pos rfl, List.flatMap_cons, map_tile_items_close,
        hpushed]
      exact List.append_nil _
    | cons next rest =>
      have hnext := List.cons_ne_nil next rest
      split
      · rw [List.flatMap_cons, map_tile_items_close, hpushed, ih _ hnext]
        simp [OpenRow.empty]
      · rw [ih _ hnext, hpushed]
        simp

/-- The rows of a usable container show the items in their order, however many there are. -/
theorem flatMap_path_arrange (harrange : layout.arrange items width = .ok rows)
    (hwidth : isUsable width = true) :
    (rows.flatMap fun row => row.items.map (·.path)) = items.map (·.path) := by
  cases items with
  | nil =>
    obtain rfl := Except.ok.inj harrange
    rfl
  | cons item items =>
    rw [arrange, hwidth, List.isEmpty_cons] at harrange
    cases htiles : (tilesFrom 0 (item :: items) : Except GeometryFault (List (Tile α))) with
    | error fault =>
      rw [htiles] at harrange
      contradiction
    | ok tiles =>
      rw [htiles] at harrange
      obtain rfl := Except.ok.inj harrange
      have hpaths := map_path_of_tilesFrom htiles
      have hsome : tiles ≠ [] := by
        rintro rfl
        exact List.cons_ne_nil _ _ hpaths.symm
      have hpack : ((layout.pack width (.empty 0) tiles).flatMap
          fun row => row.items.map Placement.tile) = tiles := flatMap_tile_pack _ hsome
      have hpath : (fun item : Placement α => item.path) = (fun tile => tile.path) ∘ Placement.tile :=
        rfl
      rw [← hpaths]
      conv_rhs => rw [← hpack]
      simp only [List.map_flatMap, List.map_map, hpath]

/-- The rows of a usable container show as many items as there are. -/
theorem sum_length_items_arrange (harrange : layout.arrange items width = .ok rows)
    (hwidth : isUsable width = true) : (rows.map (·.items.length)).sum = items.length := by
  have hlength := congrArg List.length (flatMap_path_arrange harrange hwidth)
  simpa [List.length_flatMap] using hlength

/-- A layout loses, repeats and reorders nothing. No row is empty, the positions that the rows
show are all positions in order, rows are numbered in order, and each starts where the one
before it stops, the first at the first item and the last one stopping at the end. Every
placement carries the path and the aspect ratio of the item at its position, and its sizes
follow from the height of its row. The extents are those of the rows, so they tile the items. -/
theorem arrange_shows_every_item_once (layout : Layout α) (items : List Picture) (width : α)
    (hcount : items.length < 2 ^ 32 - 1) (hheights : ∀ item ∈ items, item.dimensions.height ≠ 0)
    (hwidth : isUsable width = true) :
    ∃ rows, layout.arrange items width = .ok rows ∧
      (∀ row ∈ rows, row.items ≠ []) ∧
      (rows.flatMap fun row => row.items.map (·.index)) = List.range items.length ∧
      (∀ (j : Nat) (hj : j < rows.length), rows[j].rowIndex.toNat = j) ∧
      rows.map (·.start) ++ [items.length] = 0 :: rows.map (·.stop) ∧
      (∀ row ∈ rows, ∀ placed ∈ row.items, ∃ picture,
        items[placed.index]? = some picture ∧ placed.path = picture.path ∧
        picture.aspectRatio? = some placed.ratio ∧ placed.height = row.height ∧
        placed.width = row.height * placed.ratio ∧
        placed.captionWidth = placed.width - layout.captionPadding) ∧
      layout.extents items width = .ok (rows.map fun row => ⟨row.start, row.stop, row.height⟩) ∧
      (∀ row ∈ rows, row.start < row.stop) ∧
      (rows.flatMap fun row => List.range' row.start (row.stop - row.start)) =
        List.range items.length := by
  obtain ⟨rows, harrange, hrows⟩ :=
    greedy_arrange layout (countsGaps_of_length_lt hcount) hheights hwidth
  have hspans (row : Row α) (hrow : row ∈ rows) : row.start < row.stop :=
    (hrows.exists_of_mem hrow).1.later
  have htile : (rows.flatMap fun row => List.range' row.start (row.stop - row.start)) =
      List.range items.length := by
    rw [hrows.flatMap_range', Nat.sub_zero, List.range_eq_range']
  refine ⟨rows, harrange, ?_, ?_, ?_, hrows.starts_eq_stops, ?_, ?_, hspans, htile⟩
  · intro row hrow hempty
    have hstop : row.stop = row.start := by rw [Row.stop, hempty, List.length_nil, Nat.add_zero]
    exact absurd (hspans row hrow) (by omega)
  · rw [← htile]
    apply List.flatMap_congr
    intro row hrow
    exact hrows.map_index_of_mem hrow
  · intro j hj
    have hlength := hrows.length_le
    have hsmall : j < 2 ^ 32 := by omega
    rw [hrows.rowIndex_getElem j hj, Nat.zero_add, UInt32.toNat_ofNat_of_lt' hsmall]
  · intro row hrow placed hplaced
    obtain ⟨picture, hpicture, hpath, hratio, hplaced⟩ := hrows.exists_picture_of_mem hrow hplaced
    have hheight := hheights picture (List.mem_of_getElem? hpicture)
    exact ⟨picture, hpicture, hpath, by rw [picture.aspectRatio?_eq_some hheight, hratio], hplaced⟩
  · rw [extents, harrange]
    rfl

/-- Five items over rows of different lengths. -/
theorem arrange_shows_every_item_once_mixed :
    ∃ rows, Layout.standard.arrange
        [.ofDimensions [] ⟨500, 500⟩, .ofDimensions [] ⟨300, 900⟩, .ofDimensions [] ⟨12000, 1000⟩,
          .ofDimensions [] ⟨0, 600⟩, .ofDimensions [] ⟨800, 400⟩] 640 = .ok rows ∧
      (rows.flatMap fun row => row.items.map (·.index)) = List.range 5 := by
  obtain ⟨rows, harrange, -, hindices, -⟩ := arrange_shows_every_item_once Layout.standard
    [.ofDimensions [] ⟨500, 500⟩, .ofDimensions [] ⟨300, 900⟩, .ofDimensions [] ⟨12000, 1000⟩,
      .ofDimensions [] ⟨0, 600⟩, .ofDimensions [] ⟨800, 400⟩] 640 (by decide) (by decide) (by decide)
  exact ⟨rows, harrange, hindices⟩

end Layout

end Gallery
