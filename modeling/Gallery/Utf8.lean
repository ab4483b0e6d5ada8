import Gallery.Bytes

/-!
# Text in UTF-8

A lead byte fixes the ranges in which its continuation bytes must lie, which excludes
overlong forms, surrogates and values above the last code point. Decoding reads a byte
string against those ranges and fails on the first byte outside them. Display instead
replaces each maximal ill-formed part by the replacement character and goes on with the
byte that broke it.
-/

namespace Gallery.Utf8

/-- The ranges of the continuation bytes that a lead byte calls for, in order. -/
def continuations? (b : UInt8) : Option (List (UInt8 × UInt8)) :=
  if b < 0x80 then some []
  else if b < 0xC2 then none
  else if b < 0xE0 then some [(0x80, 0xBF)]
  else if b = 0xE0 then some [(0xA0, 0xBF), (0x80, 0xBF)]
  else if b = 0xED then some [(0x80, 0x9F), (0x80, 0xBF)]
  else if b < 0xF0 then some [(0x80, 0xBF), (0x80, 0xBF)]
  else if b = 0xF0 then some [(0x90, 0xBF), (0x80, 0xBF), (0x80, 0xBF)]
  else if b < 0xF4 then some [(0x80, 0xBF), (0x80, 0xBF), (0x80, 0xBF)]
  else if b = 0xF4 then some [(0x80, 0x8F), (0x80, 0xBF), (0x80, 0xBF)]
  else none

/-- The bits of the code point that a lead byte carries itself. -/
def leadBits (b : UInt8) : Nat :=
  if b < 0x80 then b.toNat
  else if b < 0xE0 then b.toNat % 32
  else if b < 0xF0 then b.toNat % 16
  else b.toNat % 8

/-- Decode the rest of a text whose current character has collected `code` and still
expects continuation bytes in the given ranges. -/
def decodeFrom (code : Nat) : List (UInt8 × UInt8) → Bytes → Option (List Char)
  | [], [] => some []
  | _ :: _, [] => none
  | [], b :: rest =>
    match continuations? b with
    | none => none
    | some [] => (decodeFrom 0 [] rest).map (Char.ofNat b.toNat :: ·)
    | some expected => decodeFrom (leadBits b) expected rest
  | (low, high) :: expected, b :: rest =>
    if low ≤ b && b ≤ high then
      let code := code * 64 + b.toNat % 64
      match expected with
      | [] => (decodeFrom 0 [] rest).map (Char.ofNat code :: ·)
      | _ => decodeFrom code expected rest
    else none

/-- The characters of a well-formed text. -/
def decode? (bytes : Bytes) : Option (List Char) := decodeFrom 0 [] bytes

/-- Whether a byte string is well-formed. -/
def isValid (bytes : Bytes) : Bool := (decode? bytes).isSome

/-- The encoding of U+FFFD. -/
def replacement : Bytes := [0xEF, 0xBF, 0xBD]

/-- What a byte at the start of a character shows at once, what it leaves pending, and the
ranges it still expects. -/
def start (b : UInt8) : Bytes × Bytes × List (UInt8 × UInt8) :=
  match continuations? b with
  | none => (replacement, [], [])
  | some [] => ([b], [], [])
  | some expected => ([], [b], expected)

/-- Display the rest of a text after the pending part of an unfinished character. -/
def displayFrom (pending : Bytes) : List (UInt8 × UInt8) → Bytes → Bytes
  | [], [] => []
  | _ :: _, [] => replacement
  | [], b :: rest =>
    let (shown, pending, expected) := start b
    shown ++ displayFrom pending expected rest
  | (low, high) :: expected, b :: rest =>
    if low ≤ b && b ≤ high then
      match expected with
      | [] => pending ++ b :: displayFrom [] [] rest
      | _ => displayFrom (pending ++ [b]) expected rest
    else
      let (shown, pending, expected) := start b
      replacement ++ shown ++ displayFrom pending expected rest

/-- The text with every maximal ill-formed part replaced by U+FFFD. -/
def display (bytes : Bytes) : Bytes := displayFrom [] [] bytes

end Gallery.Utf8
