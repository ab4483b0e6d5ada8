import Gallery.Path

/-!
# The components of joined paths

Joining a name to the path of a directory adds one component and leaves the others as they
are, whether or not the path of the directory ends in a slash. So entries of one directory
are ordered by their names, and the paths of different entries are never equal.
-/

namespace Gallery

namespace Move

/-- The bytes of a name are the move to it. -/
theorem ofPiece?_bytes (name : Name) : ofPiece? name.bytes = some (.enter name) := by
  simp [ofPiece?, Name.ofBytes?, name.valid]

/-- Every piece but the empty one stands for a move. -/
theorem isSome_ofPiece? {piece : Bytes} (nonempty : piece ≠ []) (noSlash : slash ∉ piece) :
    (ofPiece? piece).isSome := by
  unfold ofPiece? Name.ofBytes?
  split
  · simp
  · split
    · simp
    · simp [*]

end Move

namespace Path

/-- The moves of a path before a slash at its end. -/
def frontMoves (path : Bytes) : List Move :=
  (if path.head? = some slash then [.top] else []) ++
    (splitAtByte slash path).filterMap Move.ofPiece?

/-- A name is one move. -/
theorem moves_name (name : Name) : moves name.bytes = [.enter name] := by
  obtain ⟨-, -, -, noSlash⟩ := name.valid
  have head : name.bytes.head? ≠ some slash := fun h => noSlash (List.mem_of_mem_head? h)
  have last : name.bytes.getLast? ≠ some slash := fun h => noSlash (List.mem_of_getLast? h)
  simp [moves, splitAtByte_of_notMem noSlash, head, last, Move.ofPiece?_bytes]

/-- Every path but the empty one has a move before the slash at its end. -/
theorem frontMoves_ne_nil {path : Bytes} (nonempty : path ≠ []) : frontMoves path ≠ [] := by
  by_cases other : ∃ b ∈ path, b ≠ slash
  · obtain ⟨b, member, different⟩ := other
    obtain ⟨piece, inPieces, inPiece⟩ := exists_mem_splitAtByte member different
    obtain ⟨move, isMove⟩ := Option.isSome_iff_exists.1
      (Move.isSome_ofPiece? (List.ne_nil_of_mem inPiece) (notMem_of_mem_splitAtByte inPieces))
    exact List.append_ne_nil_of_right_ne_nil _
      (List.ne_nil_of_mem (List.mem_filterMap.2 ⟨piece, inPieces, isMove⟩))
  · cases path with
    | nil => exact absurd rfl nonempty
    | cons b rest =>
      have same : b = slash := Classical.byContradiction fun h => other ⟨b, by simp, h⟩
      simp [frontMoves, same]

/-- The path of an entry moves as that of its directory and then to the entry. -/
theorem moves_join {directory : Bytes} (name : Name) (nonempty : directory ≠ []) :
    moves (join directory name) = frontMoves directory ++ [.enter name] := by
  obtain ⟨bytesNonempty, -, -, noSlash⟩ := name.valid
  have last (front : Bytes) : (front ++ slash :: name.bytes).getLast? ≠ some slash := by
    obtain ⟨body, final, same⟩ := List.eq_nil_or_concat name.bytes |>.resolve_left bytesNonempty
    have different : final ≠ slash := fun h => noSlash (by simp [same, h])
    have whole : front ++ slash :: name.bytes = (front ++ slash :: body) ++ [final] := by simp [same]
    rw [whole, List.getLast?_concat]
    simpa using different
  by_cases ends : directory.getLast? = some slash
  · obtain ⟨front, rfl⟩ := List.getLast?_eq_some_iff.1 ends
    have joined : join (front ++ [slash]) name = front ++ slash :: name.bytes := by
      simp [join]
    have head : (front ++ slash :: name.bytes).head? = (front ++ [slash]).head? := by
      cases front <;> simp
    rw [joined, moves, if_neg (last front), head, splitAtByte_append_cons,
      splitAtByte_of_notMem noSlash, frontMoves, splitAtByte_append_cons]
    have none : Move.ofPiece? [] = none := by simp [Move.ofPiece?, Name.ofBytes?]
    simp [splitAtByte, Move.ofPiece?_bytes, none]
  · have joined : join directory name = directory ++ slash :: name.bytes := by
      simp [join, nonempty, ends]
    have head : (directory ++ slash :: name.bytes).head? = directory.head? := by
      cases directory with
      | nil => exact absurd rfl nonempty
      | cons => simp
    rw [joined, moves, if_neg (last directory), head, splitAtByte_append_cons,
      splitAtByte_of_notMem noSlash, frontMoves]
    simp [Move.ofPiece?_bytes]

/-- An entry of a directory has one component more than the directory. -/
theorem components_join (directory : Bytes) (name : Name) :
    components (join directory name) = components directory ++ [.enter name] := by
  by_cases nonempty : directory = []
  · subst nonempty
    have joined : join [] name = name.bytes := by simp [join]
    have none : moves [] = [] := by
      simp [moves, splitAtByte, Move.ofPiece?, Name.ofBytes?, dot]
    simp [components, joined, moves_name, none]
  · have whole : moves directory = frontMoves directory ++
        (if directory.getLast? = some slash then [.here] else []) := rfl
    cases front : frontMoves directory with
    | nil => exact absurd front (frontMoves_ne_nil nonempty)
    | cons first others =>
      rw [components, components, moves_join name nonempty, whole, front]
      by_cases ends : directory.getLast? = some slash <;> simp [ends]

end Path

end Gallery
