import Gallery.Picture

/-!
# Paths

A path is a byte string in which slashes separate names. Read as a walk, it is a sequence of
moves, in which an empty piece moves nowhere and a slash at the end asks for a directory.
Read as a name for comparison, it is the sequence of its components, which are the moves
without the ones that stay in place, except at the beginning.

Paths are ordered by their components and components by their bytes, so everything below a
directory stands together. The extension of a path is what follows the last dot of its file
name, unless that dot is the first byte.
-/

namespace Gallery

/-- The name of a directory entry. It is neither of the two names that stand for a directory
itself and for its parent. -/
structure Name where
  bytes : Bytes
  valid : bytes ≠ [] ∧ bytes ≠ [dot] ∧ bytes ≠ [dot, dot] ∧ slash ∉ bytes
  deriving DecidableEq

/-- The name made of the given bytes, if they can be one. -/
def Name.ofBytes? (bytes : Bytes) : Option Name :=
  if valid : bytes ≠ [] ∧ bytes ≠ [dot] ∧ bytes ≠ [dot, dot] ∧ slash ∉ bytes then
    some ⟨bytes, valid⟩
  else none

/-- A move of a path. -/
inductive Move where
  /-- To the top of everything. -/
  | top
  /-- To where it starts. -/
  | here
  /-- To the parent. -/
  | up
  /-- To an entry. -/
  | enter (name : Name)
  deriving DecidableEq

namespace Move

/-- The move that a piece of a path stands for; an empty piece stands for none. -/
def ofPiece? (piece : Bytes) : Option Move :=
  if piece = [dot] then some .here
  else if piece = [dot, dot] then some .up
  else (Name.ofBytes? piece).map .enter

/-- What a move is ordered by: all names come after the other moves. -/
def rank : Move → Bytes
  | .top => [0]
  | .here => [1]
  | .up => [2]
  | .enter name => 3 :: name.bytes

end Move

namespace Path

/-- The moves of a path. -/
def moves (path : Bytes) : List Move :=
  (if path.head? = some slash then [.top] else []) ++
    (splitAtByte slash path).filterMap Move.ofPiece? ++
    (if path.getLast? = some slash then [.here] else [])

/-- The components of a path. -/
def components (path : Bytes) : List Move :=
  match moves path with
  | [] => []
  | first :: others => first :: others.filter fun move => move ≠ .here

/-- Whether a path does not stand after another one. -/
def precedes (first second : Bytes) : Bool :=
  (components first).map Move.rank ≤ (components second).map Move.rank

/-- The path of an entry of a directory. -/
def join (directory : Bytes) (name : Name) : Bytes :=
  if directory = [] || directory.getLast? = some slash then directory ++ name.bytes
  else directory ++ slash :: name.bytes

/-- The extension of a file name. -/
def extensionOfName? (name : Bytes) : Option Bytes :=
  match splitAtByte dot name with
  | [_] => none
  | [[], _] => none
  | pieces => pieces.getLast?

/-- The extension of a path; a path that does not end in a name has none. -/
def extension? (path : Bytes) : Option Bytes :=
  match (components path).getLast? with
  | some (.enter name) => extensionOfName? name.bytes
  | _ => none

/-- Whether a path names an image file. -/
def isPicture (path : Bytes) : Bool := (extension? path).any isPictureExtension

end Path

end Gallery
