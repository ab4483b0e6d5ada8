import Gallery.Bytes

/-!
# Compressed streams

A stream is a header of two bytes, blocks of bits, and a checksum of what the blocks hold.
The bits of a byte are read from the lowest on. A block holds its bytes as they are, or as a
sequence of literals and of copies of earlier output, written in two prefix codes that are
fixed or described in front of the sequence. What follows the checksum is ignored.
-/

namespace Gallery.Zlib

/-- A sequence of bits, first bit first. -/
abbrev Bits := List Bool

/-- The bits of some bytes. -/
def bitsOf (bytes : Bytes) : Bits :=
  bytes.flatMap fun b => (List.range 8).map fun i => b.toNat / Nat.pow 2 i % 2 = 1

/-- The number written by bits, least significant first. -/
def ofBits : Bits → Nat
  | [] => 0
  | bit :: rest => bit.toNat + 2 * ofBits rest

/-- The number in the next bits, and the bits behind it. -/
def number? (count : Nat) (bits : Bits) : Option (Nat × Bits) :=
  let field := bits.take count
  if field.length = count then some (ofBits field, bits.drop count) else none

/-- A prefix code: the number of code words of each length from one on, and the symbols in the
order of their code words. -/
structure PrefixCode where
  counts : List Nat
  symbols : List Nat

/-- The longest code word. -/
def wordLimit : Nat := 15

/-- The code in which each symbol has a code word of a given length, or none for length zero.
Code words of one length are given out in the order of the symbols, after all shorter ones. -/
def PrefixCode.ofLengths (lengths : List Nat) : PrefixCode :=
  let wordLengths := (List.range wordLimit).map (· + 1)
  ⟨wordLengths.map fun length => lengths.count length,
    wordLengths.flatMap fun length =>
      (List.range lengths.length).filter fun symbol => lengths[symbol]? = some length⟩

/-- The number of words left over when words of each length have been given out, if there are
enough of them. -/
def wordsLeft? (free : Nat) : List Nat → Option Nat
  | [] => some free
  | count :: counts =>
    if count ≤ 2 * free then wordsLeft? (2 * free - count) counts else none

/-- Whether every sequence of bits begins with a code word. -/
def PrefixCode.isComplete (code : PrefixCode) : Bool := wordsLeft? 1 code.counts = some 0

/-- Whether a code has no word, or one word of one bit. -/
def PrefixCode.isTrivial (code : PrefixCode) : Bool :=
  code.counts.all (· = 0) || (code.counts.headD 0 = 1 && (code.counts.drop 1).all (· = 0))

/-- Find the symbol of the code word that the bits begin with. `word` is what has been read of
it, `first` the first code word of that length and `index` the place of its symbol. -/
def symbolFrom? (symbols : List Nat) (word first index : Nat) :
    List Nat → Bits → Option (Nat × Bits)
  | count :: counts, bit :: rest =>
    let word := 2 * word + bit.toNat
    let first := 2 * first
    if word < first + count then symbols[index + (word - first)]?.map fun symbol => (symbol, rest)
    else symbolFrom? symbols word (first + count) (index + count) counts rest
  | _, _ => none

/-- The symbol whose code word the bits begin with, and the bits behind it. -/
def PrefixCode.symbol? (code : PrefixCode) (bits : Bits) : Option (Nat × Bits) :=
  symbolFrom? code.symbols 0 0 0 code.counts bits

/-- The least length of each symbol for a copy, and the number of bits to add. -/
def copyLengths : List (Nat × Nat) :=
  [(3, 0), (4, 0), (5, 0), (6, 0), (7, 0), (8, 0), (9, 0), (10, 0), (11, 1), (13, 1), (15, 1),
   (17, 1), (19, 2), (23, 2), (27, 2), (31, 2), (35, 3), (43, 3), (51, 3), (59, 3), (67, 4),
   (83, 4), (99, 4), (115, 4), (131, 5), (163, 5), (195, 5), (227, 5), (258, 0)]

/-- The least distance of each symbol for the source of a copy, and the number of bits to add. -/
def copyDistances : List (Nat × Nat) :=
  [(1, 0), (2, 0), (3, 0), (4, 0), (5, 1), (7, 1), (9, 2), (13, 2), (17, 3), (25, 3), (33, 4),
   (49, 4), (65, 5), (97, 5), (129, 6), (193, 6), (257, 7), (385, 7), (513, 8), (769, 8),
   (1025, 9), (1537, 9), (2049, 10), (3073, 10), (4097, 11), (6145, 11), (8193, 12),
   (12289, 12), (16385, 13), (24577, 13)]

/-- The value of a symbol with the bits to add, and the bits behind them. -/
def stepped? (steps : List (Nat × Nat)) (symbol : Nat) (bits : Bits) : Option (Nat × Bits) := do
  let (least, extra) ← steps[symbol]?
  let (more, bits) ← number? extra bits
  some (least + more, bits)

/-- Append bytes that each repeat the one at a distance before it. -/
def copy (distance : Nat) : Nat → Array UInt8 → Array UInt8
  | 0, output => output
  | length + 1, output =>
    copy distance length (output.push (output.getD (output.size - distance) 0))

/-- The output of a sequence of literals and copies, and the bits behind its end. Every step
takes a bit at least, so as many steps as bits are enough. -/
def sequence? (literals distances : PrefixCode) :
    Nat → Bits → Array UInt8 → Option (Array UInt8 × Bits)
  | 0, _, _ => none
  | steps + 1, bits, output => do
    let (symbol, bits) ← literals.symbol? bits
    if symbol < 256 then sequence? literals distances steps bits (output.push (UInt8.ofNat symbol))
    else if symbol = 256 then some (output, bits)
    else
      let (length, bits) ← stepped? copyLengths (symbol - 257) bits
      let (symbol, bits) ← distances.symbol? bits
      let (distance, bits) ← stepped? copyDistances symbol bits
      if distance ≤ output.size then
        sequence? literals distances steps bits (copy distance length output)
      else none

/-- The lengths of the code words of the fixed code of literals. -/
def fixedLiterals : List Nat :=
  List.replicate 144 8 ++ List.replicate 112 9 ++ List.replicate 24 7 ++ List.replicate 8 8

/-- The lengths of the code words of the fixed code of distances. -/
def fixedDistances : List Nat := List.replicate 32 5

/-- The order in which the lengths for the code of lengths are written. -/
def lengthOrder : List Nat := [16, 17, 18, 0, 8, 7, 9, 6, 10, 5, 11, 4, 12, 3, 13, 2, 14, 1, 15]

/-- The next numbers of three bits, and the bits behind them. -/
def triples? : Nat → Bits → Option (List Nat × Bits)
  | 0, bits => some ([], bits)
  | count + 1, bits => do
    let (value, bits) ← number? 3 bits
    let (values, bits) ← triples? count bits
    some (value :: values, bits)

/-- What a symbol of the code of lengths appends to the lengths so far, and the bits behind it:
a length, the last length again, or zeros. -/
def lengthRun? (symbol : Nat) (bits : Bits) (lengths : List Nat) :
    Option (List Nat × Bits) := do
  if symbol < 16 then some ([symbol], bits)
  else if symbol = 16 then
    let (more, bits) ← number? 2 bits
    some (List.replicate (3 + more) (← lengths.getLast?), bits)
  else if symbol = 17 then
    let (more, bits) ← number? 3 bits
    some (List.replicate (3 + more) 0, bits)
  else
    let (more, bits) ← number? 7 bits
    some (List.replicate (11 + more) 0, bits)

/-- Read lengths until there are as many as wanted, and the bits behind them. -/
def lengths? (code : PrefixCode) (wanted : Nat) :
    Nat → Bits → List Nat → Option (List Nat × Bits)
  | 0, _, _ => none
  | steps + 1, bits, lengths => do
    if lengths.length = wanted then some (lengths, bits)
    else if wanted < lengths.length then none
    else
      let (symbol, bits) ← code.symbol? bits
      let (run, bits) ← lengthRun? symbol bits lengths
      lengths? code wanted steps bits (lengths ++ run)

/-- The codes of literals and of distances described in front of a sequence, and the bits
behind the description. The code of distances may leave words unused if it is trivial. -/
def describedCodes? (bits : Bits) : Option (PrefixCode × PrefixCode × Bits) := do
  let (literals, bits) ← number? 5 bits
  let (distances, bits) ← number? 5 bits
  let (triples, bits) ← number? 4 bits
  let (triples, bits) ← triples? (triples + 4) bits
  let literals := literals + 257
  let distances := distances + 1
  let lengthCode := PrefixCode.ofLengths ((List.range 19).map fun symbol =>
    (triples[lengthOrder.idxOf symbol]?).getD 0)
  let wanted := literals + distances
  if 286 < literals || 30 < distances || !lengthCode.isComplete then none
  else
    let (lengths, bits) ← lengths? lengthCode wanted (wanted + 1) bits []
    let literalCode := PrefixCode.ofLengths (lengths.take literals)
    let distanceCode := PrefixCode.ofLengths (lengths.drop literals)
    if literalCode.isComplete && (distanceCode.isComplete || distanceCode.isTrivial) then
      some (literalCode, distanceCode, bits)
    else none

/-- The output of a block that holds its bytes as they are, and the bits behind it. The bytes
begin at the next whole byte; their number is written twice, once with all bits turned. -/
def stored? (bits : Bits) (output : Array UInt8) : Option (Array UInt8 × Bits) := do
  let (length, bits) ← number? 16 (bits.drop (bits.length % 8))
  let (turned, bits) ← number? 16 bits
  let field := bits.take (8 * length)
  if length + turned = 65535 && field.length = 8 * length then
    let bytes := (List.range length).map fun i =>
      UInt8.ofNat (ofBits ((field.drop (8 * i)).take 8))
    some (output ++ bytes.toArray, bits.drop (8 * length))
  else none

/-- The output of blocks up to the last one, and the bits behind it. Every block takes a bit at
least, so as many blocks as bits are enough. -/
def blocks? : Nat → Bits → Array UInt8 → Option (Array UInt8 × Bits)
  | 0, _, _ => none
  | steps + 1, bits, output => do
    let (last, bits) ← number? 1 bits
    let (kind, bits) ← number? 2 bits
    let (output, bits) ←
      if kind = 0 then stored? bits output
      else if kind = 1 then
        sequence? (.ofLengths fixedLiterals) (.ofLengths fixedDistances) bits.length bits output
      else if kind = 2 then do
        let (literals, distances, bits) ← describedCodes? bits
        sequence? literals distances bits.length bits output
      else none
    if last = 1 then some (output, bits) else blocks? steps bits output

/-- The checksum of some bytes: a running sum, and the running sum of that sum. -/
def checksum (bytes : Array UInt8) : Nat :=
  let (sum, sums) := bytes.foldl (fun (sum, sums) b =>
    let sum := (sum + b.toNat) % 65521
    (sum, (sums + sum) % 65521)) (1, 0)
  65536 * sums + sum

/-- Whether a header announces a stream of this kind without a dictionary. -/
def isHeader (first second : UInt8) : Bool :=
  first % 16 = 8 && first / 16 ≤ 7 && second / 32 % 2 = 0 &&
    (256 * first.toNat + second.toNat) % 31 = 0

/-- What a stream holds, if it is complete and its checksum is right. -/
def content? : Bytes → Option (Array UInt8)
  | first :: second :: rest => do
    if !isHeader first second then none
    else
      let bits := bitsOf rest
      let (output, bits) ← blocks? bits.length bits #[]
      let behind := bits.length / 8
      let stored ← slice? rest (rest.length - behind) 4
      if ofBigEndian stored = checksum output then some output else none
  | _ => none

end Gallery.Zlib
