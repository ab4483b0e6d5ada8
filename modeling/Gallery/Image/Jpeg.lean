import Gallery.Picture

/-!
# JPEG headers

A JPEG file is a sequence of segments. A segment begins with the byte FF and a code, and has
a length and a body. Bytes between segments are passed over until the next FF that a code
follows; further bytes FF in front of the code are filling. The dimensions are those of the
frame segment and are accepted at the first scan segment. Up to there every segment must be
complete and the tables in it well-formed. Only baseline, extended sequential and progressive
frames with Huffman coding are frames here; segments of unknown kinds are skipped.
-/

namespace Gallery.Jpeg

/-- The dimensions of a frame and the identifiers of its components. -/
structure Frame where
  dimensions : Dimensions
  components : List UInt8

/-- Whether the sampling factors of a component are allowed: up to four in each direction, but
not three across. -/
def isSampling (across down : UInt8) : Bool :=
  (across = 1 || across = 2 || across = 4) && 1 ≤ down && down ≤ 4

/-- The identifiers of the components of a frame, if their factors and table numbers are
allowed. -/
def components? : Bytes → Option (List UInt8)
  | [] => some []
  | identifier :: sampling :: table :: rest =>
    if isSampling (sampling / 16) (sampling % 16) && table < 4 then
      (components? rest).map (identifier :: ·)
    else none
  | _ => none

/-- The body of a frame segment: eight bits of precision, height before width. -/
def frame? : Bytes → Option Frame
  | precision :: h1 :: h0 :: w1 :: w0 :: count :: rest =>
    let height := ofBigEndian [h1, h0]
    let width := ofBigEndian [w1, w0]
    if precision = 8 && 0 < width && 0 < height && (count = 1 || count = 3 || count = 4) &&
        rest.length = 3 * count.toNat then
      (components? rest).map fun components =>
        ⟨⟨UInt32.ofNat width, UInt32.ofNat height⟩, components⟩
    else none
  | _ => none

/-- Whether a body consists of quantization tables: each has a precision, a number below
four, and 64 entries of one or two bytes. -/
def areQuantizationTables : Bytes → Bool
  | [] => true
  | info :: rest =>
    let length := if info / 16 = 0 then 64 else 128
    if info / 16 ≤ 1 && info % 16 < 4 && length ≤ rest.length then
      areQuantizationTables (rest.drop length)
    else false
termination_by bytes => bytes.length

/-- Whether codes can be given out for the counts of codes of each length, shortest first,
so that no code consists of ones only. `next` is the first code not given out yet. -/
def areCodeCounts (next : Nat) (length : Nat) : List Nat → Bool
  | [] => true
  | count :: counts =>
    (counts.all (· = 0) && count = 0 || next + count < Nat.pow 2 length) &&
      areCodeCounts (2 * (next + count)) (length + 1) counts

/-- Whether a body consists of Huffman tables: each has a class, a number below four, sixteen
counts of codes and as many symbols, which for the first class are below sixteen. -/
def areHuffmanTables : Bytes → Bool
  | [] => true
  | info :: rest =>
    let counts := (rest.take 16).map UInt8.toNat
    let total := counts.foldl (· + ·) 0
    let symbols := (rest.drop 16).take total
    if info / 16 ≤ 1 && info % 16 < 4 && total ≤ 256 && 16 + total ≤ rest.length &&
        areCodeCounts 0 1 counts && (info / 16 = 1 || symbols.all (· < 16)) then
      areHuffmanTables (rest.drop (16 + total))
    else false
termination_by bytes => bytes.length

/-- The identifiers of the components of a scan and what follows them. -/
def scanComponents? : Nat → Bytes → Option (List UInt8 × Bytes)
  | 0, rest => some ([], rest)
  | n + 1, identifier :: _ :: rest =>
    (scanComponents? n rest).map fun (identifiers, rest) => (identifier :: identifiers, rest)
  | _, _ => none

/-- Whether a body opens a scan of a frame: one to four different components of the frame,
then a spectral range and an approximation within bounds. -/
def isScan (frame : Frame) : Bytes → Bool
  | count :: rest =>
    match scanComponents? count.toNat rest with
    | some (identifiers, [first, last, approximation]) =>
      1 ≤ count && count ≤ 4 && identifiers.eraseDups.length = identifiers.length &&
        identifiers.all frame.components.contains &&
        first ≤ 63 && last ≤ 63 && approximation / 16 ≤ 13 && approximation % 16 ≤ 13
    | _ => false
  | [] => false

/-- The code of the segment that says where a file comes from. -/
def originCode : UInt8 := 0xE0

/-- The code of the segment that says how colours are transformed. -/
def transformCode : UInt8 := 0xEE

/-- The code of the segment that holds metadata. -/
def metadataCode : UInt8 := 0xE1

/-- The name that a note about the transform of colours begins with. -/
def transformName : Bytes := [0x41, 0x64, 0x6F, 0x62, 0x65]

/-- The name that a part of metadata too long for one segment begins with. -/
def metadataPartName : Bytes :=
  [0x68, 0x74, 0x74, 0x70, 0x3A, 0x2F, 0x2F, 0x6E, 0x73, 0x2E, 0x61, 0x64, 0x6F, 0x62, 0x65, 0x2E,
   0x63, 0x6F, 0x6D, 0x2F, 0x78, 0x6D, 0x70, 0x2F, 0x65, 0x78, 0x74, 0x65, 0x6E, 0x73, 0x69, 0x6F,
   0x6E, 0x2F, 0]

/-- The body of a segment that states its length, from what follows the length on. Two kinds
are told by the bytes there even where the length is too small for them: a name of five bytes
is read as a whole where more than three are stated, and a note about the transform of colours
must state its twelve bytes. -/
def body? (code : UInt8) (stated : Nat) (rest : Bytes) : Option Bytes :=
  if code = originCode && 3 < stated then slice? rest 0 (max stated 5)
  else if code = transformCode then
    match slice? rest 0 5 with
    | none => none
    | some name => if name = transformName && stated < 12 then none else slice? rest 0 stated
  else slice? rest 0 stated

/-- Whether a body names a known transform of colours, if it is a note about one. -/
def namesKnownTransform (body : Bytes) : Bool :=
  body.take 5 ≠ transformName || (body.drop 11).headD 3 ≤ 2

/-- Whether a body holds a part of metadata in full, if it is one: a digest of 32 bytes, the
whole length and an offset of four bytes each. The name alone is no part. -/
def isWholePart (body : Bytes) : Bool :=
  let part := body.drop metadataPartName.length
  !metadataPartName.isPrefixOf body || part.isEmpty || 40 ≤ part.length

/-- Whether a segment of this kind is a frame. -/
def isFrameCode (code : UInt8) : Bool := code = 0xC0 || code = 0xC1 || code = 0xC2

/-- The code of the segment that opens a scan. -/
def scanCode : UInt8 := 0xDA

/-- Whether a segment of this kind ends the search: arithmetic coding, the end of the image,
and a number of lines. -/
def isRefusedCode (code : UInt8) : Bool := code = 0xCC || code = 0xD9 || code = 0xDC

/-- Whether the body of a segment that is neither a frame nor a scan is well-formed. -/
def isWellFormed (code : UInt8) (body : Bytes) : Bool :=
  if code = 0xDB then areQuantizationTables body
  else if code = 0xC4 then areHuffmanTables body
  else if code = 0xDD then body.length = 2
  else if code = transformCode then namesKnownTransform body
  else if code = metadataCode then isWholePart body
  else true

/-- Go through segments up to the first scan. `armed` tells whether the byte in front was FF,
so that the next byte is the code of a segment unless it is zero. -/
def scan (armed : Bool) (frame : Option Frame) : Bytes → Option Dimensions
  | [] => none
  | code :: rest =>
    if code = 0xFF then scan true frame rest
    else if !armed || code = 0 then scan false frame rest
    else if isRefusedCode code then none
    else match rest with
      | l1 :: l0 :: rest =>
        let length := ofBigEndian [l1, l0]
        if length < 2 then none
        else match body? code (length - 2) rest with
          | none => none
          | some body =>
            let behind := rest.drop body.length
            if code = scanCode then
              match frame with
              | some frame => if isScan frame body then some frame.dimensions else none
              | none => none
            else if isFrameCode code then
              match frame, frame? body with
              | none, some frame => scan false (some frame) behind
              | _, _ => none
            else if isWellFormed code body then scan false frame behind
            else none
      | _ => none
termination_by bytes => bytes.length

/-- The dimensions of a JPEG file. -/
def dimensions? : Bytes → Option Dimensions
  | 0xFF :: 0xD8 :: rest => scan false none rest
  | _ => none

end Gallery.Jpeg
