import Gallery.Picture

/-!
# WebP headers

The first chunk of a WebP file tells its kind. A lossy or a lossless image has its dimensions
at the start of that chunk. An extended file gives the size of its canvas there and must
then hold an image of exactly one of the two kinds, or the chunks of an animation, and the
metadata that it announces. Frames of an animation are looked into as far as their headers,
also where no animation is announced.
-/

namespace Gallery.WebP

/-- The dimensions of a lossy image at an offset. It must be a key frame; the two bits above
each dimension are a scale. -/
def lossyDimensions? (content : Bytes) (offset : Nat) : Option Dimensions := do
  let tag ← little? content offset 3
  let startCode ← slice? content (offset + 3) 3
  let width := (← little? content (offset + 6) 2) % 0x4000
  let height := (← little? content (offset + 8) 2) % 0x4000
  if tag % 2 = 0 && startCode = [0x9D, 0x01, 0x2A] && width ≠ 0 && height ≠ 0 then
    some ⟨UInt32.ofNat width, UInt32.ofNat height⟩
  else none

/-- The dimensions of a lossless image at an offset: fourteen bits each, less one, in front
of an alpha bit and a version that must be zero. -/
def losslessDimensions? (content : Bytes) (offset : Nat) : Option Dimensions := do
  let signature ← little? content offset 1
  let bits ← little? content (offset + 1) 4
  if signature = 0x2F && bits < 0x20000000 then
    some ⟨UInt32.ofNat ((bits + 1) % 0x4000), UInt32.ofNat ((bits / 0x4000 + 1) % 0x4000)⟩
  else none

/-- A chunk: its kind, the length that it states, and the bytes of the file from its body on,
which may be fewer. -/
structure Chunk where
  kind : Bytes
  length : Nat
  body : Bytes

/-- The chunks that begin in `span` bytes from the start; a chunk is padded to an even length,
and one that is cut off after its header still counts. -/
def chunks : Nat → Bytes → List Chunk
  | 0, _ => []
  | span + 1, k0 :: k1 :: k2 :: k3 :: l0 :: l1 :: l2 :: l3 :: rest =>
    let length := ofLittleEndian [l0, l1, l2, l3]
    let padded := length + length % 2
    ⟨[k0, k1, k2, k3], length, rest⟩ :: chunks (span + 1 - (8 + padded)) (rest.drop padded)
  | _, _ => []
termination_by span => span

/-- The first chunk of a kind. -/
def chunkOf? (chunks : List Chunk) (kind : String) : Option Chunk :=
  chunks.find? fun chunk => chunk.kind = ascii kind

/-- Whether the chunks are those that the flags of an extended file call for. -/
def areExpected (flags : Nat) (chunks : List Chunk) : Bool :=
  let has (kind : String) : Bool := (chunkOf? chunks kind).isSome
  let isAnimated := flags / 2 % 2 = 1
  (if isAnimated then has "ANIM" && has "ANMF" else has "VP8 " != has "VP8L") &&
    (flags / 8 % 2 = 0 || has "EXIF") && (flags / 4 % 2 = 0 || has "XMP ")

/-- Whether an animation has its settings in full. -/
def areSettings (chunk : Chunk) : Bool := chunk.length = 6 && 6 ≤ chunk.body.length

/-- Whether the image in a frame is a lossy one, by the kind of the first chunk in it. -/
def isLossyFrame (frame : Chunk) : Bool :=
  [ascii "VP8 ", ascii "ALPH"].contains ((frame.body.drop 16).take 4)

/-- Whether the frames among some chunks have room for a header and an image, and their headers
are there; up to the first lossy frame the header of the image must be there as well. -/
def areFrames (seenLossy : Bool) : List Chunk → Bool
  | [] => true
  | chunk :: chunks =>
    if chunk.kind = ascii "ANMF" then
      24 ≤ chunk.length && (if seenLossy then 16 else 24) ≤ chunk.body.length &&
        areFrames (seenLossy || isLossyFrame chunk) chunks
    else areFrames seenLossy chunks

/-- Whether there are eight bytes more behind the header of the image in a frame, if by the
length of that image the frame has room for a second chunk. -/
def isFirstFrame (frame : Chunk) : Bool :=
  let length := ofLittleEndian ((frame.body.drop 20).take 4)
  frame.length < 32 + length + length % 2 || 32 ≤ frame.body.length

/-- Whether the chunks of an extended file with the given flags are usable. -/
def areUsable (flags : Nat) (chunks : List Chunk) : Bool :=
  areExpected flags chunks && areFrames false chunks &&
    (flags / 2 % 2 = 0 || (chunkOf? chunks "ANIM").all areSettings) &&
    (chunkOf? chunks "ANMF").all isFirstFrame

/-- The dimensions of an extended file with a first chunk of the given length. -/
def extendedDimensions? (content : Bytes) (length : Nat) : Option Dimensions := do
  let span ← little? content 4 4
  let flags ← little? content 20 1
  let width := (← little? content 24 3) + 1
  let height := (← little? content 27 3) + 1
  let chunks := chunks (span - 12) (content.drop (20 + length + length % 2))
  if width * height < 0x100000000 && areUsable flags chunks then
    some ⟨UInt32.ofNat width, UInt32.ofNat height⟩
  else none

/-- The dimensions of a WebP file. -/
def dimensions? (content : Bytes) : Option Dimensions := do
  if (← slice? content 0 4) ≠ ascii "RIFF" || (← slice? content 8 4) ≠ ascii "WEBP" then none
  else
    let kind ← slice? content 12 4
    let length ← little? content 16 4
    if kind = ascii "VP8 " then lossyDimensions? content 20
    else if kind = ascii "VP8L" then losslessDimensions? content 20
    else if kind = ascii "VP8X" then extendedDimensions? content length
    else none

end Gallery.WebP
