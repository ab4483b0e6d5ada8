import Gallery.Lookup
import Gallery.Path

/-!
# File trees

A tree holds files, links and directories under a directory at the top. A path is resolved
move by move, from the top if it begins with a slash and from the working directory otherwise.
Every move but the last must start at a directory, and a link is replaced by the moves of its
target, counted from the top or from where the link stands. The top is its own parent. A path
that leads through too many links, or to something that is not there, is not resolved.

The order of the entries is the order in which directories list them. It carries no meaning.
-/

namespace Gallery

/-- A place in a tree: the names that lead to it from the top. -/
abbrev Location := List Name

/-- What stands at a place. Times are in nanoseconds since the epoch. -/
inductive Entry where
  | file (content : Bytes) (modified : Int)
  | link (target : Bytes) (modified : Int)
  | directory
  deriving DecidableEq

/-- A tree below a directory at the top, which is not an entry itself. -/
structure Tree where
  entries : List (Location × Entry)
  distinct : (entries.map Prod.fst).Nodup
  /-- Where paths start that do not start at the top. -/
  workingDirectory : Location
  /-- The working directory is one, and so is everything above it. -/
  grounded : ∀ place, place <+: workingDirectory → place ≠ [] → (place, Entry.directory) ∈ entries

/-- What a walk along some moves comes to. -/
inductive Arrival where
  /-- A place where something stands. -/
  | found (location : Location)
  /-- A place of an existing directory where nothing stands. -/
  | absent (location : Location)
  /-- A link: the walk goes on from a directory with other moves. -/
  | redirected (location : Location) (moves : List Move)
  /-- No place at all. -/
  | nowhere
  deriving DecidableEq

/-- How many links a path may lead through. -/
def linkLimit : Nat := 40

namespace Tree

/-- The name of the working directory in a tree that holds nothing else. -/
def start : Name := ⟨ascii "work", by decide⟩

/-- A tree in which nothing stands but its working directory, right below the top. -/
def empty : Tree where
  entries := [([start], .directory)]
  distinct := List.nodup_cons.2 ⟨List.not_mem_nil, List.nodup_nil⟩
  workingDirectory := [start]
  grounded place above below := by
    have concat : place <+: [] ++ [start] := above
    obtain rfl | higher := List.prefix_concat_iff.1 concat
    · exact List.mem_cons_self
    · exact absurd (List.prefix_nil.1 higher) below

/-- What stands at a place. -/
def find? (tree : Tree) (location : Location) : Option Entry :=
  if location = [] then some .directory else tree.entries.lookup location

/-- Whether a directory stands at a place. -/
def isDirectory (tree : Tree) (location : Location) : Bool :=
  tree.find? location = some .directory

/-- The working directory is a directory, and so is everything above it. -/
theorem isDirectory_of_prefix (tree : Tree) {place : Location}
    (above : place <+: tree.workingDirectory) : tree.isDirectory place := by
  rw [isDirectory, find?]
  by_cases top : place = []
  · simp [top]
  · simp [top, lookup_of_mem tree.distinct (tree.grounded place above top)]

/-- The entries of a directory. -/
def children (tree : Tree) (directory : Location) : List (Name × Entry) :=
  tree.entries.filterMap fun (location, entry) =>
    if location.dropLast = directory then location.getLast?.map fun name => (name, entry)
    else none

/-- Walk along moves up to the first link. A link at the very end is only left for its target
if `follow` asks for it. -/
def advance (tree : Tree) (follow : Bool) : Location → List Move → Arrival
  | location, [] => .found location
  | location, move :: moves =>
    if tree.isDirectory location then
      match move with
      | .top => tree.advance follow [] moves
      | .here => tree.advance follow location moves
      | .up => tree.advance follow location.dropLast moves
      | .enter name =>
        match tree.find? (location ++ [name]) with
        | none => if moves.isEmpty then .absent (location ++ [name]) else .nowhere
        | some (.link target _) =>
          if moves.isEmpty && !follow then .found (location ++ [name])
          else .redirected location (Path.moves target ++ moves)
        | some _ => tree.advance follow (location ++ [name]) moves
    else .nowhere

/-- Walk along moves through at most the given number of links. -/
def walkTo (tree : Tree) (follow : Bool) (links : Nat) (location : Location) (moves : List Move) :
    Arrival :=
  match tree.advance follow location moves with
  | .redirected location moves =>
    match links with
    | 0 => .nowhere
    | links + 1 => tree.walkTo follow links location moves
  | arrival => arrival

/-- Where a path leads. An empty path leads nowhere. -/
def arrive (tree : Tree) (follow : Bool) (path : Bytes) : Arrival :=
  if path = [] then .nowhere
  else tree.walkTo follow linkLimit tree.workingDirectory (Path.moves path)

/-- The place to which a path leads, with a link at its end left for its target. -/
def resolve? (tree : Tree) (path : Bytes) : Option Location :=
  match tree.arrive true path with
  | .found location => some location
  | _ => none

/-- What stands at the end of a path, with a link there left for its target. -/
def target? (tree : Tree) (path : Bytes) : Option Entry :=
  (tree.resolve? path).bind tree.find?

/-- What stands at the end of a path, be it a link. -/
def itself? (tree : Tree) (path : Bytes) : Option Entry :=
  match tree.arrive false path with
  | .found location => tree.find? location
  | _ => none

/-- The content of the file to which a path leads. -/
def read? (tree : Tree) (path : Bytes) : Option Bytes :=
  match tree.target? path with
  | some (.file content _) => some content
  | _ => none

end Tree

end Gallery
