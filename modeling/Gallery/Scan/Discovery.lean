import Gallery.Cache.Key
import Gallery.Tree.Basic

/-!
# Discovery

The image files below a directory are found by walking the tree. A directory is descended
and is not a file itself. A link is either taken as a file, with its own size and time, or
followed: then it stands for what its path resolves to, and it is passed over when that is
nothing or one of the directories on the way to it. Files without the extension of an image
are passed over as well.

What is found is put in the order of paths, so the order in which directories list their
entries does not matter.
-/

namespace Gallery

/-- How a directory is scanned. -/
structure ScanPolicy where
  /-- Whether directories below the first are descended. -/
  recursive : Bool
  /-- How deep entries may lie below the root; zero sets no limit. -/
  maxDepth : Nat
  /-- Whether links are followed. -/
  followLinks : Bool
  /-- Whether broken pictures are left out. -/
  skipBroken : Bool
  /-- How many entries a new cache holds. -/
  cacheCapacity : Nat
  deriving DecidableEq, Repr

/-- The deepest entries that are looked at; the entries of the root itself have depth one. -/
def ScanPolicy.depthLimit? (policy : ScanPolicy) : Option Nat :=
  if !policy.recursive then some 1
  else if policy.maxDepth = 0 then none
  else some policy.maxDepth

/-- The size of an entry in bytes. -/
def Entry.size : Entry → Nat
  | .file content _ => content.length
  | .link target _ => target.length
  | .directory => 0

/-- The time of an entry in whole seconds, zero when it lies before the epoch. -/
def Entry.seconds : Entry → Nat
  | .file _ modified => (modified / 1000000000).toNat
  | .link _ modified => (modified / 1000000000).toNat
  | .directory => 0

/-- The version of a file that an entry shows under a path. -/
def Entry.version (entry : Entry) (path : Bytes) : FileVersion :=
  ⟨path, Int64.ofNat entry.seconds, Int64.ofNat entry.size⟩

namespace Tree

/-- The version of an entry under a path, if the path names an image file. -/
def pictureAt (path : Bytes) (entry : Entry) : List FileVersion :=
  if Path.isPicture path then [entry.version path] else []

/-- A depth that no walk reaches. A walk meets a directory twice only below a link that was
followed, and it follows no link to a directory that it is in. -/
def depthBound (tree : Tree) : Nat := (tree.entries.length + 1) * (tree.entries.length + 1)

/-- The image files below a directory, down to a depth. `ancestors` are the directories
that the walk is in, and `path` is the path under which it came to this one. -/
def picturesBelow (tree : Tree) (follow : Bool) :
    Nat → List Location → Location → Bytes → List FileVersion
  | 0, _, _, _ => []
  | depth + 1, ancestors, directory, path =>
    (tree.children directory).flatMap fun (name, entry) =>
      match entry with
      | .directory =>
        tree.picturesBelow follow depth ((directory ++ [name]) :: ancestors) (directory ++ [name])
          (Path.join path name)
      | .file _ _ => pictureAt (Path.join path name) entry
      | .link _ _ =>
        if !follow then pictureAt (Path.join path name) entry
        else match tree.resolve? (Path.join path name) with
          | none => []
          | some target =>
            match tree.find? target with
            | none => []
            | some .directory =>
              if ancestors.contains target then []
              else tree.picturesBelow follow depth (target :: ancestors) target
                (Path.join path name)
            | some entry => pictureAt (Path.join path name) entry

/-- The root of a scan as an entry of its own, which it only is as a link that is not
followed. -/
def pictureAtRoot (tree : Tree) (follow : Bool) (root : Bytes) : List FileVersion :=
  match tree.itself? root with
  | some (.link target modified) => if follow then [] else pictureAt root (.link target modified)
  | _ => []

/-- The image files that a scan of a directory finds, in the order of their paths. -/
def discover (tree : Tree) (policy : ScanPolicy) (root : Bytes) (directory : Location) :
    List FileVersion :=
  (tree.pictureAtRoot policy.followLinks root ++
    tree.picturesBelow policy.followLinks (policy.depthLimit?.getD tree.depthBound) [directory]
      directory root).mergeSort fun first second => Path.precedes first.path second.path

end Tree

end Gallery
