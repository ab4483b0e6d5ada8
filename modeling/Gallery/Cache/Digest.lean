import Gallery.Bytes

/-!
# A 64-bit digest

The XXH3 hash with seed zero and its standard secret. Four schemes share the work by the
length of the input: up to 16 bytes are folded into one product, up to 240 bytes are mixed
in blocks of 16, and longer inputs are accumulated in eight lanes, a stripe of 64 bytes at
a time, and merged at the end. All words are little-endian and all sums and products wrap.
-/

namespace Gallery.Digest

/-- The standard secret. -/
def secret : Bytes :=
  [0xB8, 0xFE, 0x6C, 0x39, 0x23, 0xA4, 0x4B, 0xBE, 0x7C, 0x01, 0x81, 0x2C, 0xF7, 0x21, 0xAD, 0x1C,
   0xDE, 0xD4, 0x6D, 0xE9, 0x83, 0x90, 0x97, 0xDB, 0x72, 0x40, 0xA4, 0xA4, 0xB7, 0xB3, 0x67, 0x1F,
   0xCB, 0x79, 0xE6, 0x4E, 0xCC, 0xC0, 0xE5, 0x78, 0x82, 0x5A, 0xD0, 0x7D, 0xCC, 0xFF, 0x72, 0x21,
   0xB8, 0x08, 0x46, 0x74, 0xF7, 0x43, 0x24, 0x8E, 0xE0, 0x35, 0x90, 0xE6, 0x81, 0x3A, 0x26, 0x4C,
   0x3C, 0x28, 0x52, 0xBB, 0x91, 0xC3, 0x00, 0xCB, 0x88, 0xD0, 0x65, 0x8B, 0x1B, 0x53, 0x2E, 0xA3,
   0x71, 0x64, 0x48, 0x97, 0xA2, 0x0D, 0xF9, 0x4E, 0x38, 0x19, 0xEF, 0x46, 0xA9, 0xDE, 0xAC, 0xD8,
   0xA8, 0xFA, 0x76, 0x3F, 0xE3, 0x9C, 0x34, 0x3F, 0xF9, 0xDC, 0xBB, 0xC7, 0xC7, 0x0B, 0x4F, 0x1D,
   0x8A, 0x51, 0xE0, 0x4B, 0xCD, 0xB4, 0x59, 0x31, 0xC8, 0x9F, 0x7E, 0xC9, 0xD9, 0x78, 0x73, 0x64,
   0xEA, 0xC5, 0xAC, 0x83, 0x34, 0xD3, 0xEB, 0xC3, 0xC5, 0x81, 0xA0, 0xFF, 0xFA, 0x13, 0x63, 0xEB,
   0x17, 0x0D, 0xDD, 0x51, 0xB7, 0xF0, 0xDA, 0x49, 0xD3, 0x16, 0x55, 0x26, 0x29, 0xD4, 0x68, 0x9E,
   0x2B, 0x16, 0xBE, 0x58, 0x7D, 0x47, 0xA1, 0xFC, 0x8F, 0xF8, 0xB8, 0xD1, 0x7A, 0xD0, 0x31, 0xCE,
   0x45, 0xCB, 0x3A, 0x8F, 0x95, 0x16, 0x04, 0x28, 0xAF, 0xD7, 0xFB, 0xCA, 0xBB, 0x4B, 0x40, 0x7E]

/-- The 64-bit word at an offset. -/
def word64 (bytes : Bytes) (offset : Nat) : UInt64 :=
  UInt64.ofNat (ofLittleEndian ((bytes.drop offset).take 8))

/-- The 32-bit word at an offset, as a 64-bit word. -/
def word32 (bytes : Bytes) (offset : Nat) : UInt64 :=
  UInt64.ofNat (ofLittleEndian ((bytes.drop offset).take 4))

/-- The multipliers of the 32-bit steps. -/
def prime32 : Vector UInt64 3 := #v[0x9E3779B1, 0x85EBCA77, 0xC2B2AE3D]

/-- The multipliers of the 64-bit steps. -/
def prime64 : Vector UInt64 5 :=
  #v[0x9E3779B185EBCA87, 0xC2B2AE3D27D4EB4F, 0x165667B19E3779F9, 0x85EBCA77C2B2AE63,
    0x27D4EB2F165667C5]

/-- Rotate a word to the left. -/
def rotateLeft (x amount : UInt64) : UInt64 := (x <<< amount) ||| (x >>> (64 - amount))

/-- The bytes of a word in the opposite order. -/
def reverseBytes (x : UInt64) : UInt64 :=
  UInt64.ofNat (ofLittleEndian (littleEndian64 x).reverse)

/-- The two halves of the 128-bit product, combined. -/
def foldProduct (x y : UInt64) : UInt64 :=
  let product := x.toNat * y.toNat
  UInt64.ofNat product ^^^ UInt64.ofNat (product / 0x10000000000000000)

/-- The final mixing of most schemes. -/
def avalanche (x : UInt64) : UInt64 :=
  let x := (x ^^^ (x >>> 37)) * 0x165667919E3779F9
  x ^^^ (x >>> 32)

/-- The final mixing of the shortest inputs. -/
def avalancheShort (x : UInt64) : UInt64 :=
  let x := (x ^^^ (x >>> 33)) * prime64[1]
  let x := (x ^^^ (x >>> 29)) * prime64[2]
  x ^^^ (x >>> 32)

/-- Inputs of one to three bytes: the first, the middle and the last byte and the length. -/
def ofThree (input : Bytes) : UInt64 :=
  let first := (input.headD 0).toUInt64
  let middle := ((input.drop (input.length / 2)).headD 0).toUInt64
  let last := (input.getLastD 0).toUInt64
  let combined := (first <<< 16) ||| (middle <<< 24) ||| last ||| (UInt64.ofNat input.length <<< 8)
  avalancheShort (combined ^^^ word32 secret 0 ^^^ word32 secret 4)

/-- Inputs of four to eight bytes: the first and the last four. -/
def ofEight (input : Bytes) : UInt64 :=
  let combined := word32 input (input.length - 4) + (word32 input 0 <<< 32)
  let x := combined ^^^ word64 secret 8 ^^^ word64 secret 16
  let x := (x ^^^ rotateLeft x 49 ^^^ rotateLeft x 24) * 0x9FB21C651E98DF25
  let x := (x ^^^ ((x >>> 35) + UInt64.ofNat input.length)) * 0x9FB21C651E98DF25
  x ^^^ (x >>> 28)

/-- Inputs of nine to sixteen bytes: the first and the last eight. -/
def ofSixteen (input : Bytes) : UInt64 :=
  let low := word64 input 0 ^^^ word64 secret 24 ^^^ word64 secret 32
  let high := word64 input (input.length - 8) ^^^ word64 secret 40 ^^^ word64 secret 48
  avalanche (UInt64.ofNat input.length + reverseBytes low + high + foldProduct low high)

/-- Sixteen bytes of input mixed with sixteen bytes of the secret. -/
def mix (input : Bytes) (offset secretOffset : Nat) : UInt64 :=
  foldProduct (word64 input offset ^^^ word64 secret secretOffset)
    (word64 input (offset + 8) ^^^ word64 secret (secretOffset + 8))

/-- Inputs of 17 to 128 bytes: pairs of blocks from both ends towards the middle. -/
def ofMedium (input : Bytes) : UInt64 :=
  let pairs := (input.length - 1) / 32 + 1
  avalanche ((List.range pairs).foldl
    (fun acc i => acc + mix input (16 * i) (32 * i)
      + mix input (input.length - 16 * (i + 1)) (32 * i + 16))
    (UInt64.ofNat input.length * prime64[0]))

/-- Inputs of 129 to 240 bytes: eight blocks, then the others under a shifted secret, and
the last block once more. -/
def ofLong (input : Bytes) : UInt64 :=
  let first := avalanche ((List.range 8).foldl (fun acc i => acc + mix input (16 * i) (16 * i))
    (UInt64.ofNat input.length * prime64[0]))
  let others := (List.range (input.length / 16 - 8)).foldl
    (fun acc i => acc + mix input (16 * (i + 8)) (16 * i + 3)) first
  avalanche (others + mix input (input.length - 16) 119)

/-- The bits of the lower half of a word. -/
def lowHalf : UInt64 := 0xFFFFFFFF

/-- The lanes before the first stripe. -/
def initialLanes : List UInt64 :=
  [prime32[2], prime64[0], prime64[1], prime64[2], prime64[3], prime32[1], prime64[4], prime32[0]]

/-- The lanes after a stripe: each takes in the word of its neighbour and the product of the
halves of its own word under the secret. -/
def accumulate (input : Bytes) (lanes : List UInt64) (offset secretOffset : Nat) : List UInt64 :=
  let stripe := input.drop offset
  lanes.mapIdx fun (i : Nat) (lane : UInt64) =>
    let neighbour : Nat := if i % 2 = 0 then i + 1 else i - 1
    let keyed : UInt64 := word64 stripe (8 * i) ^^^ word64 secret (secretOffset + 8 * i)
    lane + word64 stripe (8 * neighbour) + (keyed &&& lowHalf) * (keyed >>> 32)

/-- The lanes after a full block of sixteen stripes. -/
def scramble (lanes : List UInt64) : List UInt64 :=
  lanes.mapIdx fun (i : Nat) (lane : UInt64) =>
    (lane ^^^ (lane >>> 47) ^^^ word64 secret (128 + 8 * i)) * prime32[0]

/-- The lanes after the first stripes of the block at an offset. -/
def accumulateBlock (input : Bytes) (offset count : Nat) (lanes : List UInt64) : List UInt64 :=
  (List.range count).foldl (fun lanes i => accumulate input lanes (offset + 64 * i) (8 * i)) lanes

/-- The products of neighbouring lanes under the secret, combined. -/
def mergeLanes (lanes : List UInt64) (start : UInt64) : UInt64 :=
  let lane (i : Nat) : UInt64 := (lanes[i]?).getD 0
  avalanche ((List.range 4).foldl
    (fun acc i => acc + foldProduct (lane (2 * i) ^^^ word64 secret (11 + 16 * i))
      (lane (2 * i + 1) ^^^ word64 secret (19 + 16 * i)))
    start)

/-- Inputs of more than 240 bytes: full blocks, the stripes of the block that is left, and
the last 64 bytes once more. -/
def ofStripes (input : Bytes) : UInt64 :=
  let blocks := (input.length - 1) / 1024
  let lanes := (List.range blocks).foldl
    (fun lanes i => scramble (accumulateBlock input (1024 * i) 16 lanes)) initialLanes
  let lanes := accumulateBlock input (1024 * blocks) ((input.length - 1 - 1024 * blocks) / 64) lanes
  let lanes := accumulate input lanes (input.length - 64) 121
  mergeLanes lanes (UInt64.ofNat input.length * prime64[0])

/-- The digest of a byte string. -/
def ofBytes (input : Bytes) : UInt64 :=
  if input.length = 0 then avalancheShort (word64 secret 56 ^^^ word64 secret 64)
  else if input.length ≤ 3 then ofThree input
  else if input.length ≤ 8 then ofEight input
  else if input.length ≤ 16 then ofSixteen input
  else if input.length ≤ 128 then ofMedium input
  else if input.length ≤ 240 then ofLong input
  else ofStripes input

end Gallery.Digest
