import Gallery.Json.Reader
import Mathlib.Data.List.Basic

/-!
# Text between quotes

Text is written byte by byte, and each byte comes back as one piece: the bytes that need no escape
and those with a letter of their own as themselves, and the other control characters as units of
UTF-16. These are below every surrogate and below the first code point that takes two bytes.
-/

namespace Gallery.Json

/-- The piece as which a byte of text comes back. -/
def pieceOf (b : UInt8) : Piece :=
  if (escapeLetter? b).isNone && b < 32 then .unit b.toNat else .byte b

/-- An escape letter stands for the byte that has it. -/
theorem ofLetter?_of_escapeLetter? {b letter : UInt8} (hletter : escapeLetter? b = some letter) :
    ofLetter? letter = some b := by
  unfold escapeLetter? at hletter
  repeat' split at hletter
  all_goals grind [ofLetter?, slash]

/-- The digits of a control character stand for it. -/
theorem ofHexDigits?_of_lt {n : Nat} (hn : n < 32) :
    ofHexDigits? [48, 48, hexDigit (n / 16), hexDigit (n % 16)] = some n := by
  revert n
  decide

/-- A byte in its written form is read as its piece. -/
theorem pieces?_escapeByte (b : UInt8) (rest : Bytes) :
    pieces? (escapeByte b ++ rest) =
      (pieces? rest).map fun (pieces, rest) => (pieceOf b :: pieces, rest) := by
  cases hletter : escapeLetter? b with
  | some letter =>
    have hpiece : pieceOf b = .byte b := by simp [pieceOf, hletter]
    have hbytes : escapeByte b ++ rest = 92 :: letter :: rest := by simp [escapeByte, hletter]
    rw [hbytes, hpiece, pieces?.eq_def]
    simp [ofLetter?_of_escapeLetter? hletter]
  | none =>
    by_cases hcontrol : b < 32
    · have hpiece : pieceOf b = .unit b.toNat := by simp [pieceOf, hletter, hcontrol]
      have hbytes : escapeByte b ++ rest = 92 :: 117 :: 48 :: 48 :: hexDigit (b.toNat / 16) ::
          hexDigit (b.toNat % 16) :: rest := by
        simp [escapeByte, hletter, hcontrol, ascii]
      have hunit := ofHexDigits?_of_lt (UInt8.lt_iff_toNat_lt.1 hcontrol)
      have hnone : ofLetter? 117 = none := rfl
      rw [hbytes, hpiece, pieces?.eq_def]
      simp only [hnone, hunit]
      cases pieces? rest <;> simp
    · have hpiece : pieceOf b = .byte b := by simp [pieceOf, hcontrol]
      have hbytes : escapeByte b ++ rest = b :: rest := by simp [escapeByte, hletter, hcontrol]
      have hquote : b ≠ 34 := by
        rintro rfl
        contradiction
      have hbackslash : b ≠ 92 := by
        rintro rfl
        contradiction
      rw [hbytes, hpiece, pieces?.eq_def]
      simp [hquote, hbackslash, hcontrol]

/-- Text in its written form is read as the pieces of its bytes. -/
theorem pieces?_flatMap_escapeByte (text rest : Bytes) :
    pieces? (text.flatMap escapeByte ++ 34 :: rest) = some (text.map pieceOf, rest) := by
  induction text with
  | nil =>
    rw [pieces?.eq_def]
    rfl
  | cons b text ih =>
    rw [List.flatMap_cons, List.append_assoc, pieces?_escapeByte, ih]
    rfl

/-- A control character is one byte. -/
theorem utf8EncodeChar_of_lt {n : Nat} (hn : n < 32) :
    String.utf8EncodeChar (Char.ofNat n) = [UInt8.ofNat n] := by
  revert n
  decide

/-- The pieces of bytes are the pieces of the text. -/
theorem ofPieces?_map_pieceOf (text : Bytes) : ofPieces? (text.map pieceOf) = some text := by
  induction text with
  | nil => rfl
  | cons b text ih =>
    rw [List.map_cons, pieceOf]
    split
    next hcontrol =>
      -- Only control characters come back as units, and none of them is a surrogate.
      rw [Bool.and_eq_true, decide_eq_true_eq, UInt8.lt_iff_toNat_lt] at hcontrol
      have hcode : b.toNat < 32 := hcontrol.2
      have hlow : isLowSurrogate b.toNat = false := by
        simp only [isLowSurrogate, Bool.and_eq_false_iff, decide_eq_false_iff_not]
        omega
      have hhigh : isHighSurrogate b.toNat = false := by
        simp only [isHighSurrogate, Bool.and_eq_false_iff, decide_eq_false_iff_not]
        omega
      have hencode := utf8EncodeChar_of_lt hcode
      rw [UInt8.ofNat_toNat] at hencode
      rw [ofPieces?.eq_def]
      simp [hlow, hhigh, hencode, ih]
    · rw [ofPieces?, ih]
      rfl

/-- Text that is well-formed is read back from between its quotes. -/
theorem readText_quoted {text : Bytes} (htext : Utf8.isValid text) (rest : Bytes) :
    readText (text.flatMap escapeByte ++ 34 :: rest) = some (text, rest) := by
  simp [readText, pieces?_flatMap_escapeByte, ofPieces?_map_pieceOf, htext]

/-- A line break is written as its escape letter. -/
theorem newline_notMem_escapeByte (b : UInt8) : newline ∉ escapeByte b := by
  change 10 ∉ escapeByte b
  have hdigit : ∀ n < 16, 10 ≠ hexDigit n := by decide
  have hhigh : 10 ≠ hexDigit (b.toNat / 16) := hdigit _ (by have := b.toNat_lt; omega)
  have hlow : 10 ≠ hexDigit (b.toNat % 16) := hdigit _ (by omega)
  unfold escapeByte
  cases hletter : escapeLetter? b with
  | some letter =>
    have hother : 10 ≠ letter := by
      rintro rfl
      have hnone : ofLetter? 10 = none := rfl
      exact absurd (hnone.symm.trans (ofLetter?_of_escapeLetter? hletter)) nofun
    simp [hother]
  | none =>
    have hb : 10 ≠ b := by
      rintro rfl
      contradiction
    dsimp only
    split
    · simp [hhigh, hlow, ascii]
    · simp [hb]

/-- Text between quotes has no line break. -/
theorem newline_notMem_quote (text : Bytes) : newline ∉ quote text := by
  have htext : newline ∉ text.flatMap escapeByte := by
    simp [List.mem_flatMap, newline_notMem_escapeByte]
  simp only [quote, List.mem_cons, List.mem_append, List.not_mem_nil, or_false, not_or]
  exact ⟨by decide, htext, by decide⟩

end Gallery.Json
