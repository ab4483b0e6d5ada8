import Gallery.Proofs.Tree.Resolution
import Gallery.Tree.Probe

/-!
# The order of entries

Trees with the same entries in any order show the same. A walk asks what stands at places, and
never how entries are listed, so paths lead to the same places and files have the same dimensions.
-/

namespace Gallery.Tree

/-- Whether a tree is another one with its entries in any order. -/
structure Relists (other tree : Tree) : Prop where
  entries : other.entries.Perm tree.entries
  workingDirectory : other.workingDirectory = tree.workingDirectory

namespace Relists

variable {tree other : Tree} (hother : other.Relists tree)

include hother

/-- The same stands at every place. -/
theorem find?_eq : other.find? = tree.find? := by
  funext location
  rw [find?, find?, lookup_of_perm hother.entries tree.distinct]

/-- The same places are directories. -/
theorem isDirectory_eq : other.isDirectory = tree.isDirectory := by
  funext location
  rw [isDirectory, isDirectory, hother.find?_eq]

/-- Walks up to the first link are the same. -/
theorem advance_eq : other.advance = tree.advance := by
  funext follow location moves
  induction moves generalizing location with
  | nil => rfl
  | cons move moves ih => simp only [advance, hother.isDirectory_eq, hother.find?_eq, ih]

/-- Walks along links are the same. -/
theorem walkTo_eq : other.walkTo = tree.walkTo := by
  funext follow links location moves
  induction links generalizing location moves with
  | zero => rw [walkTo, walkTo, hother.advance_eq]
  | succ links ih =>
    rw [walkTo, walkTo, hother.advance_eq]
    simp only [ih]

/-- Paths lead to the same places. -/
theorem arrive_eq : other.arrive = tree.arrive := by
  funext follow path
  rw [arrive, arrive, hother.walkTo_eq, hother.workingDirectory]

/-- The same paths are resolved. -/
theorem resolve?_eq : other.resolve? = tree.resolve? := by
  funext path
  rw [resolve?, resolve?, hother.arrive_eq]

/-- The same stands at the end of a path, be it a link. -/
theorem itself?_eq : other.itself? = tree.itself? := by
  funext path
  rw [itself?, itself?, hother.arrive_eq, hother.find?_eq]

/-- Files have the same dimensions. -/
theorem dimensions_eq : other.dimensions = tree.dimensions := by
  funext path
  unfold dimensions read? target?
  rw [hother.resolve?_eq, hother.find?_eq]

end Relists

end Gallery.Tree
