import Gallery.Decimal.Reader
import Gallery.Json.Writer

/-!
# Reading JSON

A text is read as one value with blanks around it and between its parts. In text between quotes
every escape is understood, in letters of either case, and two units of UTF-16 may stand for one
character; what comes out must be well-formed. A number without sign, point and exponent is a
count. What any other number is, is left to a reader of its own, which is only asked about what
the grammar allows.

Values lie in each other to any depth. Each of them takes up a byte at least, so the length of a
text bounds how often reading goes down and how often it goes on.
-/

namespace Gallery.Json

/-- Whether a byte may stand between the parts of a value. -/
def isSpace (b : UInt8) : Bool := b = 32 || b = 9 || b = 10 || b = 13

/-- A text without the blanks in front. -/
def skipSpace (text : Bytes) : Bytes := text.dropWhile isSpace

/-! ## Numbers -/

/-- Whether a byte is a digit. -/
def isDigit (b : UInt8) : Bool := 48 ≤ b && b ≤ 57

/-- Whether a byte begins an exponent. -/
def isExponentMark (b : UInt8) : Bool := b = 69 || b = 101

/-- Whether a byte is a sign. -/
def isSign (b : UInt8) : Bool := b = 43 || b = 45

/-- Whether a byte can stand in a number. -/
def isNumberByte (b : UInt8) : Bool := isDigit b || isExponentMark b || isSign b || b = dot

/-- Whether bytes are digits, one at least. -/
def areDigits (bytes : Bytes) : Bool := !bytes.isEmpty && bytes.all isDigit

/-- Whether bytes are an integral part, which has no zero in front of other digits. -/
def isWhole (bytes : Bytes) : Bool := areDigits bytes && (bytes.head? ≠ some 48 || bytes.length = 1)

/-- Whether bytes are a point with digits behind it, or nothing. -/
def isFraction : Bytes → Bool
  | [] => true
  | b :: digits => b = dot && areDigits digits

/-- Whether bytes are an exponent with a sign or without, or nothing. -/
def isExponent : Bytes → Bool
  | [] => true
  | b :: rest => isExponentMark b && areDigits (if rest.head?.any isSign then rest.tail else rest)

/-- Whether bytes are a number. -/
def isNumber (token : Bytes) : Bool :=
  let unsigned := if token.head? = some 45 then token.tail else token
  let places := unsigned.dropWhile isDigit
  isWhole (unsigned.takeWhile isDigit) &&
    isFraction (places.takeWhile fun b => !isExponentMark b) &&
    isExponent (places.dropWhile fun b => !isExponentMark b)

/-- The value of a number. -/
def ofNumber? (number? : Bytes → Option Float) (token : Bytes) : Option Value :=
  if !isNumber token then none
  else if token.all isDigit then some (.count (Decimal.ofDigits (token.filterMap digitValue?)))
  else (number? token).map .number

/-! ## Text -/

/-- The number for which a digit stands, in letters of either case. -/
def ofHexDigit? (b : UInt8) : Option Nat := (List.range 16).find? fun n => hexDigit n = lowerAscii b

/-- The number of some digits, the most significant first. -/
def ofHexDigits? (digits : Bytes) : Option Nat :=
  digits.foldlM (fun n b => (ofHexDigit? b).map (16 * n + ·)) 0

/-- The byte for which an escape letter stands. -/
def ofLetter? (letter : UInt8) : Option UInt8 :=
  if letter = 34 || letter = 92 || letter = slash then some letter
  else if letter = 98 then some 8
  else if letter = 102 then some 12
  else if letter = 110 then some 10
  else if letter = 114 then some 13
  else if letter = 116 then some 9
  else none

/-- A part of text between quotes. -/
inductive Piece where
  /-- A byte that stands for itself. -/
  | byte (b : UInt8)
  /-- A unit of UTF-16, given by its number. -/
  | unit (n : Nat)
  deriving DecidableEq

/-- The pieces of text up to a quote, and what follows the quote. -/
def pieces? : Bytes → Option (List Piece × Bytes)
  | [] => none
  | b :: rest =>
    if b = 34 then some ([], rest)
    else if b < 32 then none
    else if b ≠ 92 then (pieces? rest).map fun (pieces, rest) => (.byte b :: pieces, rest)
    else match rest with
      | [] => none
      | letter :: rest =>
        match ofLetter? letter with
        | some b => (pieces? rest).map fun (pieces, rest) => (.byte b :: pieces, rest)
        | none =>
          match rest with
          | a :: b :: c :: d :: rest =>
            if letter = 117 then do
              let n ← ofHexDigits? [a, b, c, d]
              let (pieces, rest) ← pieces? rest
              some (.unit n :: pieces, rest)
            else none
          | _ => none

/-- Whether a unit is the first of two for one character. -/
def isHighSurrogate (n : Nat) : Bool := 0xD800 ≤ n && n < 0xDC00

/-- Whether a unit is the second of two for one character. -/
def isLowSurrogate (n : Nat) : Bool := 0xDC00 ≤ n && n < 0xE000

/-- The text of pieces. Two units that stand for one character stand next to each other. -/
def ofPieces? : List Piece → Option Bytes
  | [] => some []
  | .byte b :: pieces => (ofPieces? pieces).map (b :: ·)
  | .unit n :: pieces =>
    if isLowSurrogate n then none
    else if isHighSurrogate n then
      match pieces with
      | .unit low :: pieces =>
        if isLowSurrogate low then
          -- Each of the two carries ten bits of the code point.
          let code := 0x10000 + (n - 0xD800) * 0x400 + (low - 0xDC00)
          (ofPieces? pieces).map (String.utf8EncodeChar (Char.ofNat code) ++ ·)
        else none
      | _ => none
    else (ofPieces? pieces).map (String.utf8EncodeChar (Char.ofNat n) ++ ·)

/-- The text up to a quote, and what follows the quote. -/
def readText (text : Bytes) : Option (Bytes × Bytes) := do
  let (pieces, rest) ← pieces? text
  let bytes ← ofPieces? pieces
  if Utf8.isValid bytes then some (bytes, rest) else none

/-! ## Values -/

/-- A word that stands for a value, and what follows it. -/
def readWord (text : Bytes) : Option (Value × Bytes) :=
  if (ascii "null").isPrefixOf text then some (.null, text.drop 4)
  else if (ascii "true").isPrefixOf text then some (.bool true, text.drop 4)
  else if (ascii "false").isPrefixOf text then some (.bool false, text.drop 5)
  else none

/-- A number, which goes on as long as there are bytes that can stand in one, and what follows it. -/
def readNumber (number? : Bytes → Option Float) (text : Bytes) : Option (Value × Bytes) :=
  (ofNumber? number? (text.takeWhile isNumberByte)).map fun value =>
    (value, text.dropWhile isNumberByte)

/-- Items with commas between them, up to a closing byte, and what follows it. -/
def readItems {α : Type} (closing : UInt8) (item : Bytes → Option (α × Bytes)) :
    Nat → Bytes → Option (List α × Bytes)
  | 0, _ => none
  | fuel + 1, text =>
    match item text with
    | none => none
    | some (value, rest) =>
      match skipSpace rest with
      | [] => none
      | b :: rest =>
        if b = closing then some ([value], rest)
        else if b = 44 then
          (readItems closing item fuel rest).map fun (values, rest) => (value :: values, rest)
        else none

/-- Items up to a closing byte, if there are any. -/
def readList {α : Type} (closing : UInt8) (item : Bytes → Option (α × Bytes)) (fuel : Nat)
    (text : Bytes) : Option (List α × Bytes) :=
  if (skipSpace text).head? = some closing then some ([], (skipSpace text).tail)
  else readItems closing item fuel text

/-- A field: its name, a colon and its value. -/
def readField (value : Bytes → Option (Value × Bytes)) (text : Bytes) :
    Option ((Bytes × Value) × Bytes) :=
  match skipSpace text with
  | [] => none
  | b :: rest =>
    if b ≠ 34 then none
    else match readText rest with
      | none => none
      | some (name, rest) =>
        match skipSpace rest with
        | [] => none
        | b :: rest =>
          if b ≠ 58 then none else (value rest).map fun (value, rest) => ((name, value), rest)

/-- A value, and what follows it. -/
def readValue (number? : Bytes → Option Float) : Nat → Bytes → Option (Value × Bytes)
  | 0, _ => none
  | fuel + 1, text =>
    match skipSpace text with
    | [] => none
    | b :: rest =>
      if b = 34 then (readText rest).map fun (bytes, rest) => (.text bytes, rest)
      else if b = 91 then
        (readList 93 (readValue number? fuel) fuel rest).map fun (elements, rest) =>
          (.array elements, rest)
      else if b = 123 then
        (readList 125 (readField (readValue number? fuel)) fuel rest).map fun (fields, rest) =>
          (.object fields, rest)
      else if isDigit b || b = 45 then readNumber number? (b :: rest)
      else readWord (b :: rest)

/-- The value that a text holds, and nothing else. -/
def Value.read? (number? : Bytes → Option Float) (text : Bytes) : Option Value :=
  (readValue number? text.length text).bind fun (value, rest) =>
    if skipSpace rest = [] then some value else none

end Gallery.Json
