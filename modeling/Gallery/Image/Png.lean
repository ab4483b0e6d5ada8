import Gallery.Image.Zlib
import Gallery.Picture

/-!
# PNG headers

A PNG file is a signature followed by chunks. The first chunk is the image header, and the
dimensions it gives are accepted once the header of the first data chunk has been seen. The
chunks in between must be complete. Those that a decoder must understand have to carry the
right checksum and to be known; of the others, the ones with a wrong checksum are skipped,
and only a wrong frame control, wrong code points of colours and a background without its
palette make the file unreadable. A line of pixels must fit into the room that the chunks in
front of the data leave: texts and a profile are held, and so is the longest chunk read.
-/

namespace Gallery.Png

/-- The signature. -/
def signature : Bytes := [0x89, 0x50, 0x4E, 0x47, 0x0D, 0x0A, 0x1A, 0x0A]

/-- One bit of the checksum. -/
def checksumBit (crc : UInt32) : UInt32 :=
  if crc &&& 1 = 1 then (crc >>> 1) ^^^ 0xEDB88320 else crc >>> 1

/-- One byte of the checksum. -/
def checksumByte (crc : UInt32) (b : UInt8) : UInt32 :=
  (List.range 8).foldl (fun crc _ => checksumBit crc) (crc ^^^ b.toUInt32)

/-- The cyclic redundancy check of a chunk. -/
def checksum (bytes : Bytes) : UInt32 := bytes.foldl checksumByte 0xFFFFFFFF ^^^ 0xFFFFFFFF

/-- Whether the four bytes behind a chunk are its checksum. -/
def isChecksum (kindAndBody stored : Bytes) : Bool :=
  (checksum kindAndBody).toNat = ofBigEndian stored

/-- Whether a decoder must understand a chunk. -/
def isCritical (kind : Bytes) : Bool :=
  match kind with
  | b :: _ => b &&& 32 = 0
  | [] => false

/-- What the samples of a pixel mean. -/
inductive Colour where
  | greyscale
  | truecolour
  | indexed
  | greyscaleAlpha
  | truecolourAlpha
  deriving DecidableEq, Repr

/-- The meaning that a number in the image header stands for. -/
def Colour.ofNumber? : Nat → Option Colour
  | 0 => some .greyscale
  | 2 => some .truecolour
  | 3 => some .indexed
  | 4 => some .greyscaleAlpha
  | 6 => some .truecolourAlpha
  | _ => none

/-- The numbers of bits that a sample may have. -/
def Colour.depths : Colour → List Nat
  | .greyscale => [1, 2, 4, 8, 16]
  | .indexed => [1, 2, 4, 8]
  | _ => [8, 16]

/-- The number of samples of a pixel after a look into the palette; transparency is a sample
of its own. -/
def Colour.samples (isTransparent : Bool) : Colour → Nat
  | .greyscale => if isTransparent then 2 else 1
  | .truecolour | .indexed => if isTransparent then 4 else 3
  | .greyscaleAlpha => 2
  | .truecolourAlpha => 4

/-- The image header. -/
structure Header where
  dimensions : Dimensions
  colour : Colour
  depth : Nat

/-- Read the body of the image header. -/
def header? : Bytes → Option Header
  | [w3, w2, w1, w0, h3, h2, h1, h0, depth, colour, compression, filter, interlace] => do
    let width := ofBigEndian [w3, w2, w1, w0]
    let height := ofBigEndian [h3, h2, h1, h0]
    let colour ← Colour.ofNumber? colour.toNat
    if width ≠ 0 && height ≠ 0 && colour.depths.contains depth.toNat &&
        compression = 0 && filter = 0 && interlace ≤ 1 then
      some ⟨⟨UInt32.ofNat width, UInt32.ofNat height⟩, colour, depth.toNat⟩
    else none
  | _ => none

/-- The number of bytes of a line of pixels, with one byte for a sample of up to eight bits. -/
def Header.lineLength (header : Header) (isTransparent : Bool) : Nat :=
  header.dimensions.width.toNat * header.colour.samples isTransparent *
    (if header.depth = 16 then 2 else 1)

/-- The number of bytes that can be held: half a gibibyte. -/
def room : Nat := 0x20000000

/-- Whether a chunk of transparency applies: it must hold a sample of each colour, or come
behind the palette whose entries it is about. -/
def isTransparency (colour : Colour) (hasPalette : Bool) (body : Bytes) : Bool :=
  match colour with
  | .greyscale => 2 ≤ body.length
  | .truecolour => 6 ≤ body.length
  | .indexed => hasPalette
  | .greyscaleAlpha | .truecolourAlpha => false

/-- Whether a chunk controls a frame that is the image itself: it has the expected number in
the sequence, the size of the image and no offset, and a known way to dispose and to blend. -/
def isFrameControl (dimensions : Dimensions) (number : Nat) (body : Bytes) : Bool :=
  let field (offset length : Nat) : Nat := ofBigEndian ((body.drop offset).take length)
  field 0 4 = number &&
    field 4 4 = dimensions.width.toNat && field 8 4 = dimensions.height.toNat &&
    field 12 4 = 0 && field 16 4 = 0 && field 24 1 ≤ 2 && field 25 1 ≤ 1

/-- Whether code points of colours are usable: samples are not recombined, and the range of
their values is given. -/
def areCodePoints (body : Bytes) : Bool :=
  (body.drop 2).headD 0 = 0 && (body.drop 3).headD 0 ≤ 1

/-- The colour profile in a chunk: behind a name of up to 79 bytes, a zero and the number of
the only way to compress. -/
def profile? (body : Bytes) : Option (Array UInt8) :=
  let name := body.takeWhile (· ≠ 0)
  match body.drop name.length with
  | 0 :: 0 :: stream =>
    if 1 ≤ name.length && name.length ≤ 79 then Zlib.content? stream else none
  | _ => none

/-- The kinds of the chunks whose texts are held. -/
def textKinds : List Bytes := [ascii "tEXt", ascii "zTXt", ascii "iTXt"]

/-- The least and the greatest length of a chunk of a kind that is read, if it is bounded. -/
def lengthBounds? (kind : Bytes) : Option (Nat × Nat) :=
  if kind = ascii "PLTE" then some (3, 768)
  else if kind = ascii "tRNS" then some (1, 256)
  else if kind = ascii "bKGD" then some (1, 6)
  else if kind = ascii "fcTL" then some (26, 26)
  else if kind = ascii "cICP" then some (4, 4)
  else none

/-- What becomes of a chunk by its kind and length. -/
inductive Fate where
  | refused
  | skipped
  | read
  deriving DecidableEq, Repr

/-- The fate of a chunk. A chunk of a bounded kind is not read if its length is out of bounds;
this is let pass unless a decoder must understand the chunk or it controls a frame. -/
def fate (kind : Bytes) (length : Nat) : Fate :=
  match lengthBounds? kind with
  | some (least, greatest) =>
    if least ≤ length && length ≤ greatest then .read
    else if isCritical kind || kind = ascii "fcTL" then .refused
    else .skipped
  | none =>
    if textKinds.contains kind || kind = ascii "iCCP" || kind = ascii "eXIf" then .read
    else if isCritical kind then .refused
    else .skipped

/-- The length of the buffer for a chunk: the shortest that is long enough when one of 128 bytes
is doubled again and again. -/
def bufferLength (length : Nat) : Nat :=
  (List.range 32).foldl (fun buffer _ => if buffer < length then 2 * buffer else buffer) 128

/-- What the chunks behind the image header have told so far: whether there were a palette, a
transparency, code points of colours and a profile, and how many frame controls there were;
and the length of the buffer for chunks and the room that is left. -/
structure Progress where
  hasPalette : Bool
  isTransparent : Bool
  hasCodePoints : Bool
  hasProfile : Bool
  frameControls : Nat
  buffer : Nat
  spare : Nat

namespace Progress

/-- Nothing has been told right behind the image header. -/
def start : Progress := ⟨false, false, false, false, 0, bufferLength 0, room⟩

/-- Hold some bytes, if there is room for them. -/
def hold? (progress : Progress) (length : Nat) : Option Progress :=
  if length ≤ progress.spare then some { progress with spare := progress.spare - length }
  else none

/-- Make the buffer long enough for a chunk. It never becomes shorter. -/
def extend? (progress : Progress) (length : Nat) : Option Progress :=
  let buffer := max progress.buffer (bufferLength length)
  { progress with buffer := buffer }.hold? (buffer - progress.buffer)

/-- Take in a chunk that is to be read and has the right checksum; nothing comes of one that
makes the file unreadable. -/
def read? (progress : Progress) (header : Header) (kind body : Bytes) : Option Progress :=
  if kind = ascii "PLTE" then
    if progress.hasPalette then none else some { progress with hasPalette := true }
  else if kind = ascii "tRNS" then
    let applies := isTransparency header.colour progress.hasPalette body
    some { progress with isTransparent := progress.isTransparent || applies }
  else if kind = ascii "bKGD" then
    if header.colour = .indexed && !progress.hasPalette then none else some progress
  else if kind = ascii "fcTL" then
    if isFrameControl header.dimensions progress.frameControls body then
      some { progress with frameControls := progress.frameControls + 1 }
    else none
  else if kind = ascii "cICP" then
    if progress.hasPalette || progress.hasCodePoints then some progress
    else if areCodePoints body then some { progress with hasCodePoints := true }
    else none
  else if kind = ascii "iCCP" && !progress.hasProfile then
    match profile? body with
    | none => some progress
    | some profile => { progress with hasProfile := true }.hold? profile.size
  else if textKinds.contains kind then progress.hold? body.length
  else some progress

/-- Take in a chunk. -/
def step? (progress : Progress) (header : Header) (kind body : Bytes) (isIntact : Bool) :
    Option Progress :=
  match fate kind body.length with
  | .refused => none
  | .skipped => some progress
  | .read => do
    let progress ← progress.extend? body.length
    if isIntact then progress.read? header kind body
    else if isCritical kind then none
    else some progress

end Progress

/-- The kinds of chunks that must not come in front of the data: a second image header, the
end of the image, and data of a further frame. -/
def misplacedKinds : List Bytes := [ascii "IHDR", ascii "IEND", ascii "fdAT"]

/-- Whether a data chunk begins behind chunks that can be taken in, and a line of its pixels
has room. -/
def reachesData (header : Header) (progress : Progress) : Bytes → Bool
  | l3 :: l2 :: l1 :: l0 :: k0 :: k1 :: k2 :: k3 :: rest =>
    let length := ofBigEndian [l3, l2, l1, l0]
    let kind := [k0, k1, k2, k3]
    if kind = ascii "IDAT" then header.lineLength progress.isTransparent ≤ progress.spare
    else if misplacedKinds.contains kind then false
    else match slice? rest length 4 with
      | none => false
      | some stored =>
        let body := rest.take length
        match progress.step? header kind body (isChecksum (kind ++ body) stored) with
        | none => false
        | some progress => reachesData header progress (rest.drop (length + 4))
  | _ => false
termination_by bytes => bytes.length

/-- The dimensions of a PNG file. -/
def dimensions? (content : Bytes) : Option Dimensions := do
  if (← slice? content 0 8) ≠ signature then none
  else if (← slice? content 8 8) ≠ [0, 0, 0, 13] ++ ascii "IHDR" then none
  else if !isChecksum (← slice? content 12 17) (← slice? content 29 4) then none
  else
    let header ← header? (← slice? content 16 13)
    if reachesData header .start (content.drop 33) then some header.dimensions else none

end Gallery.Png
