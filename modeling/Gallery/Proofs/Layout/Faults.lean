import Gallery.Proofs.Layout.Span
import Mathlib.Control.Monad.Basic
import Mathlib.Data.List.Basic

/-!
# Layouts that fail

A layout fails on items without height and on nothing else, and only where it would show rows at
all. A container that is not finite and positive shows no rows, whatever the items are.

The error names the first item without height. Which item that is does not depend on the container,
nor on the items behind it. The check passes the items once and counts them from any number on, so
what is said of it here is said of the fault that it finds with the number of items before it left
open.
-/

namespace Gallery

/-- Whether a container is finite and has a width. -/
def IsProper (width : Float) : Prop := width.isFinite = true ∧ 0 < width

/-- These are the containers that can hold rows. -/
theorem isUsable_iff_isProper (width : Float) : Layout.isUsable width = true ↔ IsProper width := by
  rw [Layout.isUsable, Bool.and_eq_true]
  exact and_congr_right fun _ => decide_eq_true_iff

namespace GeometryFault

/-- Whether a fault names the first item without height: by its position, its path and its
dimensions. -/
structure NamesFirst (fault : GeometryFault) (items : List Picture) : Prop where
  item : ∃ item, items[fault.index]? = some item ∧ item.path = fault.path ∧
    item.dimensions = fault.dimensions
  flat : fault.dimensions.height = 0
  first : ∀ other ∈ items.take fault.index, other.dimensions.height ≠ 0

/-- The same item where others stand before all items. -/
def behind (count : Nat) (fault : GeometryFault) : GeometryFault :=
  { fault with index := count + fault.index }

/-- Items before others that stand before all items also stand before all. -/
theorem behind_behind (count more : Nat) (fault : GeometryFault) :
    (fault.behind more).behind count = fault.behind (count + more) :=
  congrArg (fun index => { fault with index }) (Nat.add_assoc count more fault.index).symm

variable {fault : GeometryFault} {item : Picture} {items : List Picture}

/-- Among no items there is no first. -/
theorem not_namesFirst_nil : ¬fault.NamesFirst [] := by
  rintro ⟨⟨named, hnamed, -⟩, -, -⟩
  contradiction

/-- An item without height in front is the first. -/
theorem namesFirst_cons_of_flat (hheight : item.dimensions.height = 0) :
    fault.NamesFirst (item :: items) ↔ fault = ⟨0, item.path, item.dimensions⟩ := by
  constructor
  · rintro ⟨⟨named, hnamed, hpath, hdimensions⟩, -, hfirst⟩
    obtain ⟨index, path, dimensions⟩ := fault
    cases index with
    | zero =>
      obtain rfl := Option.some.inj hnamed
      rw [hpath, hdimensions]
    | succ index => exact absurd hheight (hfirst item (List.mem_cons_self ..))
  · rintro rfl
    exact ⟨⟨item, rfl, rfl, rfl⟩, hheight, nofun⟩

/-- Behind an item with a height it is the first of the others. -/
theorem namesFirst_cons_of_height (hheight : item.dimensions.height ≠ 0) :
    fault.NamesFirst (item :: items) ↔
      ∃ later : GeometryFault, later.NamesFirst items ∧ fault = later.behind 1 := by
  constructor
  · rintro ⟨⟨named, hnamed, hpath, hdimensions⟩, hflat, hfirst⟩
    obtain ⟨index, path, dimensions⟩ := fault
    cases index with
    | zero =>
      obtain rfl := Option.some.inj hnamed
      exact absurd (hdimensions ▸ hflat) hheight
    | succ index =>
      refine ⟨⟨index, path, dimensions⟩, ⟨⟨named, hnamed, hpath, hdimensions⟩, hflat, ?_⟩, ?_⟩
      · exact fun other hother => hfirst other (List.mem_cons_of_mem item hother)
      · rw [behind, Nat.add_comm]
  · rintro ⟨later, ⟨hitem, hflat, hfirst⟩, rfl⟩
    refine ⟨?_, hflat, ?_⟩ <;> rw [behind, Nat.add_comm]
    · exact hitem
    · exact List.forall_mem_cons.2 ⟨hheight, hfirst⟩

/-- There is a first item without height if there is one at all. -/
theorem exists_namesFirst_iff :
    (∃ fault : GeometryFault, fault.NamesFirst items) ↔
      ∃ item ∈ items, item.dimensions.height = 0 := by
  induction items with
  | nil => exact iff_of_false (fun ⟨_, hfirst⟩ => not_namesFirst_nil hfirst) nofun
  | cons item items ih =>
    rw [List.exists_mem_cons_iff, ← ih]
    by_cases hheight : item.dimensions.height = 0
    · simp only [namesFirst_cons_of_flat hheight, exists_eq, hheight, true_or]
    · simp only [namesFirst_cons_of_height hheight, hheight, false_or]
      rw [exists_comm]
      simp only [exists_and_left, exists_eq, and_true]

end GeometryFault

variable {α : Type} [Scalar α]

/-- Items are refused with the first of them that has no height. -/
theorem tilesFrom_eq_error_iff {index : Nat} {items : List Picture} {fault : GeometryFault} :
    (tilesFrom index items : Except GeometryFault (List (Tile α))) = .error fault ↔
      ∃ first : GeometryFault, first.NamesFirst items ∧ fault = first.behind index := by
  induction items generalizing index with
  | nil => exact iff_of_false nofun fun ⟨_, hfirst, _⟩ => GeometryFault.not_namesFirst_nil hfirst
  | cons item items ih =>
    rw [tilesFrom]
    by_cases hheight : item.dimensions.height = 0
    · have hratio : (item.aspectRatio? : Option α) = none := if_pos hheight
      simp only [hratio, GeometryFault.namesFirst_cons_of_flat hheight, exists_eq_left,
        Except.error.injEq, eq_comm]
      rfl
    · have hlater : (∃ first : GeometryFault, first.NamesFirst (item :: items) ∧
          fault = first.behind index) ↔
          ∃ later : GeometryFault, later.NamesFirst items ∧ fault = later.behind (index + 1) := by
        simp only [GeometryFault.namesFirst_cons_of_height hheight]
        constructor
        · rintro ⟨first, ⟨later, hlater, rfl⟩, rfl⟩
          exact ⟨later, hlater, later.behind_behind index 1⟩
        · rintro ⟨later, hlater, rfl⟩
          exact ⟨later.behind 1, ⟨later, hlater, rfl⟩, (later.behind_behind index 1).symm⟩
      rw [hlater, ← ih, item.aspectRatio?_eq_some hheight]
      cases (tilesFrom (index + 1) items : Except GeometryFault (List (Tile α))) <;> simp

namespace Layout

variable {layout : Layout α} {items : List Picture} {width : α} {fault : GeometryFault}

/-- A container that is not usable shows no rows. -/
theorem arrange_of_not_isUsable (hwidth : isUsable width = false) :
    layout.arrange items width = .ok [] := by
  rw [arrange, hwidth, Bool.not_false, Bool.or_true, if_pos rfl]

/-- A layout fails if the container is usable, and then with the first item without height. -/
theorem arrange_eq_error_iff :
    layout.arrange items width = .error fault ↔ isUsable width = true ∧ fault.NamesFirst items := by
  cases hwidth : isUsable width with
  | false => simp [arrange_of_not_isUsable hwidth]
  | true =>
    have hcheck : fault.NamesFirst items ↔
        (tilesFrom 0 items : Except GeometryFault (List (Tile α))) = .error fault := by
      simp [tilesFrom_eq_error_iff, GeometryFault.behind]
    rw [arrange, hwidth, hcheck]
    cases items with
    | nil => simp [tilesFrom]
    | cons item items =>
      cases (tilesFrom 0 (item :: items) : Except GeometryFault (List (Tile α))) <;> simp

example : Layout.standard.arrange [.ofDimensions [] ⟨3, 2⟩, .ofDimensions (ascii "a.png") ⟨4, 0⟩,
    .ofDimensions (ascii "b.png") ⟨0, 0⟩] 640 = .error ⟨1, ascii "a.png", ⟨4, 0⟩⟩ := by decide +kernel

/-- A layout fails if the container is usable and some item has no height. -/
theorem exists_arrange_eq_error_iff :
    (∃ fault, layout.arrange items width = .error fault) ↔
      isUsable width = true ∧ ∃ item ∈ items, item.dimensions.height = 0 := by
  simp only [arrange_eq_error_iff, exists_and_left, GeometryFault.exists_namesFirst_iff]

/-- The extents fail as the layout does. -/
theorem extents_eq_error_iff :
    layout.extents items width = .error fault ↔ layout.arrange items width = .error fault := by
  rw [extents]
  cases layout.arrange items width <;> simp [Except.map]

/-- Items that all have a height have a layout in every container. -/
theorem exists_arrange_eq_ok (hheights : ∀ item ∈ items, item.dimensions.height ≠ 0) (width : α) :
    ∃ rows, layout.arrange items width = .ok rows := by
  cases harrange : layout.arrange items width with
  | ok rows => exact ⟨rows, rfl⟩
  | error fault =>
    obtain ⟨-, item, hitem, hheight⟩ := exists_arrange_eq_error_iff.1 ⟨fault, harrange⟩
    exact absurd hheight (hheights item hitem)

end Layout

end Gallery
