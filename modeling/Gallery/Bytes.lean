/-!
# Byte strings

Paths, file contents and everything that is written are byte strings. Text that the
program itself supplies is ASCII and is turned into bytes here; decimal numerals and
little-endian words are the only other encodings that need no further rule.
-/

namespace Gallery

/-- A byte string, first byte first. -/
abbrev Bytes := List UInt8

/-- The bytes of an ASCII text. -/
def ascii (text : String) : Bytes := text.toList.map fun c => UInt8.ofNat c.toNat

/-- The byte that ends a line. -/
def newline : UInt8 := 10

/-- The byte that separates the names of a path. -/
def slash : UInt8 := 47

/-- The byte that separates a name from its extension. -/
def dot : UInt8 := 46

/-- The decimal numeral of a number, without sign or leading zeros. -/
def decimal (n : Nat) : Bytes := (Nat.toDigits 10 n).map fun c => UInt8.ofNat c.toNat

/-- The value of a digit byte, if it is one. -/
def digitValue? (b : UInt8) : Option Nat :=
  if 48 ≤ b && b ≤ 57 then some (b.toNat - 48) else none

/-- The lower-case form of an ASCII letter; every other byte is left alone. -/
def lowerAscii (b : UInt8) : UInt8 := if 65 ≤ b && b ≤ 90 then b + 32 else b

/-- The pieces between the occurrences of a separator; there is always at least one. -/
def splitAtByte (separator : UInt8) : Bytes → List Bytes
  | [] => [[]]
  | b :: rest =>
    if b = separator then [] :: splitAtByte separator rest
    else match splitAtByte separator rest with
      | [] => [[b]]
      | piece :: pieces => (b :: piece) :: pieces

/-- There is always a piece. -/
theorem splitAtByte_ne_nil (separator : UInt8) (bytes : Bytes) :
    splitAtByte separator bytes ≠ [] := by
  cases bytes with
  | nil => simp [splitAtByte]
  | cons b rest =>
    unfold splitAtByte
    split
    · simp
    · split <;> simp

/-- A separator ends one piece and begins the next. -/
theorem splitAtByte_append_cons (separator : UInt8) (first second : Bytes) :
    splitAtByte separator (first ++ separator :: second) =
      splitAtByte separator first ++ splitAtByte separator second := by
  induction first with
  | nil => simp [splitAtByte]
  | cons b rest ih =>
    by_cases same : b = separator
    · simp [splitAtByte, same, ih]
    · cases pieces : splitAtByte separator rest with
      | nil => exact absurd pieces (splitAtByte_ne_nil separator rest)
      | cons piece others => simp [splitAtByte, same, ih, pieces]

/-- Bytes without the separator are one piece. -/
theorem splitAtByte_of_notMem {separator : UInt8} {bytes : Bytes} (absent : separator ∉ bytes) :
    splitAtByte separator bytes = [bytes] := by
  induction bytes with
  | nil => rfl
  | cons b rest ih =>
    simp only [List.mem_cons, not_or] at absent
    simp [splitAtByte, Ne.symm absent.1, ih absent.2]

/-- The separator is in no piece. -/
theorem notMem_of_mem_splitAtByte {separator : UInt8} {bytes piece : Bytes}
    (member : piece ∈ splitAtByte separator bytes) : separator ∉ piece := by
  induction bytes generalizing piece with
  | nil => simp_all [splitAtByte]
  | cons b rest ih =>
    by_cases same : b = separator
    · rcases List.mem_cons.1 (by simpa [splitAtByte, same] using member) with rfl | inRest
      · simp
      · exact ih inRest
    · cases pieces : splitAtByte separator rest with
      | nil => exact absurd pieces (splitAtByte_ne_nil separator rest)
      | cons first others =>
        rw [pieces] at ih
        rcases List.mem_cons.1 (by simpa [splitAtByte, same, pieces] using member) with rfl | inRest
        · simpa [Ne.symm same] using ih List.mem_cons_self
        · exact ih (List.mem_cons_of_mem _ inRest)

/-- Every other byte is in some piece. -/
theorem exists_mem_splitAtByte {separator b : UInt8} {bytes : Bytes} (member : b ∈ bytes)
    (other : b ≠ separator) : ∃ piece ∈ splitAtByte separator bytes, b ∈ piece := by
  induction bytes with
  | nil => simp at member
  | cons first rest ih =>
    by_cases same : first = separator
    · have inRest : b ∈ rest := by simpa [same, other] using member
      obtain ⟨piece, inPieces, inPiece⟩ := ih inRest
      exact ⟨piece, by simp [splitAtByte, same, inPieces], inPiece⟩
    · cases pieces : splitAtByte separator rest with
      | nil => exact absurd pieces (splitAtByte_ne_nil separator rest)
      | cons piece others =>
        rcases List.mem_cons.1 member with rfl | inRest
        · exact ⟨b :: piece, by simp [splitAtByte, same, pieces], by simp⟩
        · obtain ⟨found, inPieces, inFound⟩ := ih inRest
          rcases List.mem_cons.1 (pieces ▸ inPieces) with rfl | inOthers
          · exact ⟨first :: found, by simp [splitAtByte, same, pieces], by simp [inFound]⟩
          · exact ⟨found, by simp [splitAtByte, same, pieces, inOthers], inFound⟩

/-- The number written by bytes, least significant first. -/
def ofLittleEndian : Bytes → Nat
  | [] => 0
  | b :: rest => b.toNat + 256 * ofLittleEndian rest

/-- The number written by bytes, most significant first. -/
def ofBigEndian (bytes : Bytes) : Nat := ofLittleEndian bytes.reverse

/-- A run of bytes at an offset, if all of it is there. -/
def slice? (bytes : Bytes) (offset length : Nat) : Option Bytes :=
  if offset + length ≤ bytes.length then some ((bytes.drop offset).take length) else none

/-- The little-endian number of some bytes at an offset. -/
def little? (bytes : Bytes) (offset length : Nat) : Option Nat :=
  (slice? bytes offset length).map ofLittleEndian

/-- The eight bytes of a word, least significant first. -/
def littleEndian64 (w : UInt64) : Bytes :=
  [w.toUInt8, (w >>> 8).toUInt8, (w >>> 16).toUInt8, (w >>> 24).toUInt8,
   (w >>> 32).toUInt8, (w >>> 40).toUInt8, (w >>> 48).toUInt8, (w >>> 56).toUInt8]

end Gallery
