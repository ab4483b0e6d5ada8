import Gallery.Lookup
import Gallery.Tree.Basic

/-!
# Changes of a tree

Files are written, directories and links are made, and entries are removed. Whatever is made
gets the directories that its path needs first. A change that its path does not allow, such
as making an entry below a file, leaves the tree as it is.
-/

namespace Gallery.Tree

/-- The tree with an entry at a place, instead of what stood there. A directory is not given up
for another entry. -/
def insert (tree : Tree) (location : Location) (entry : Entry) : Tree :=
  if directory : tree.isDirectory location then tree
  else
    { tree with
      entries := (location, entry) :: tree.entries.filter fun other => other.1 ≠ location
      distinct := by
        rw [List.map_cons, List.nodup_cons]
        refine ⟨fun member => ?_, (List.filter_sublist.map Prod.fst).nodup tree.distinct⟩
        obtain ⟨other, member, same⟩ := List.mem_map.1 member
        simpa [same] using (List.mem_filter.1 member).2
      grounded := by
        intro place above below
        have different : place ≠ location := by
          rintro rfl
          exact directory (tree.isDirectory_of_prefix above)
        refine List.mem_cons_of_mem _ (List.mem_filter.2 ⟨tree.grounded place above below, ?_⟩)
        simpa using different }

/-- What was put at a place stands there, if no directory did. -/
theorem find?_insert_self (tree : Tree) {location : Location} (entry : Entry)
    (free : tree.isDirectory location = false) :
    (tree.insert location entry).find? location = some entry := by
  have below : location ≠ [] := by
    rintro rfl
    contradiction
  simp [insert, free, find?, below]

/-- All other places are as they were. -/
theorem find?_insert_of_ne (tree : Tree) {location other : Location} (entry : Entry)
    (different : other ≠ location) :
    (tree.insert location entry).find? other = tree.find? other := by
  unfold insert
  split
  · rfl
  · have kept : (tree.entries.filter fun held => held.1 ≠ location).lookup other =
        tree.entries.lookup other :=
      lookup_filter_of_pos (fun held => held ≠ location) (by simpa using different)
    have apart : (other == location) = false := beq_false_of_ne different
    rw [find?, find?, List.lookup_cons, apart, kept]

/-- Whether one place goes when another is erased: everything at and below it does, but for the
working directory and what that stands in. -/
def goesWith (tree : Tree) (location other : Location) : Bool :=
  location.isPrefixOf other && !other.isPrefixOf tree.workingDirectory

/-- The tree without a place and everything below it that goes with it. -/
def erase (tree : Tree) (location : Location) : Tree where
  entries := tree.entries.filter fun other => !tree.goesWith location other.1
  distinct := (List.filter_sublist.map Prod.fst).nodup tree.distinct
  workingDirectory := tree.workingDirectory
  grounded place above below := by
    refine List.mem_filter.2 ⟨tree.grounded place above below, ?_⟩
    simp [goesWith, List.isPrefixOf_iff_prefix.2 above]

/-- Nothing stands at a place that went with one that was erased, and all other places are as they
were. -/
theorem find?_erase (tree : Tree) (location other : Location) :
    (tree.erase location).find? other =
      if tree.goesWith location other then none else tree.find? other := by
  by_cases top : other = []
  · simp [find?, top, goesWith]
  rw [find?, find?, if_neg top, if_neg top, erase]
  split
  next inside =>
    exact lookup_filter_of_neg (fun held => !tree.goesWith location held) (by simp [inside])
  next outside =>
    exact lookup_filter_of_pos (fun held => !tree.goesWith location held) (by simp [outside])

/-- Make a directory where some moves lead, if nothing stands there. -/
def makeDirectoryAt (tree : Tree) (moves : List Move) : Tree :=
  match tree.walkTo false linkLimit tree.workingDirectory moves with
  | .absent location => tree.insert location .directory
  | _ => tree

/-- Make the directories along some moves. -/
def makeDirectoriesAt (tree : Tree) (moves : List Move) : Tree :=
  (List.range moves.length).foldl (fun tree count => tree.makeDirectoryAt (moves.take (count + 1)))
    tree

/-- Make a directory with its parents. -/
def makeDirectory (tree : Tree) (path : Bytes) : Tree :=
  tree.makeDirectoriesAt (Path.components path)

/-- Make the directories above the end of a path. -/
def makeParents (tree : Tree) (path : Bytes) : Tree :=
  tree.makeDirectoriesAt (Path.components path).dropLast

/-- Write a file, through a link if the path ends at one. -/
def write (tree : Tree) (path content : Bytes) (modified : Int) : Tree :=
  let tree := tree.makeParents path
  match tree.arrive true path with
  | .absent location | .found location => tree.insert location (.file content modified)
  | _ => tree

/-- Make a link where nothing stands. A link needs a target. -/
def makeLink (tree : Tree) (path target : Bytes) (modified : Int) : Tree :=
  let tree := tree.makeParents path
  match tree.arrive false path with
  | .absent location =>
    if target = [] then tree else tree.insert location (.link target modified)
  | _ => tree

/-- Remove a file, a link, or a directory with everything below it. -/
def remove (tree : Tree) (path : Bytes) : Tree :=
  match tree.arrive false path with
  | .found location => tree.erase location
  | _ => tree

end Gallery.Tree
