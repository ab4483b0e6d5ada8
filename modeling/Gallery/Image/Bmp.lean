import Gallery.Picture

/-!
# BMP headers

The information header comes in two shapes, told apart by its length: the short one has
unsigned dimensions of two bytes, the others signed ones of four. A negative height turns
the image over. The depth and the compression must go together, the palette of an image of
up to eight bits must be complete, and colour masks must each be one run of bits.
-/

namespace Gallery.Bmp

/-- How the pixels are stored, as far as it matters before them. -/
inductive Storage where
  | direct
  | palette
  | masks
  deriving DecidableEq

/-- The storage of an image with a long header, if its compression suits its depth. -/
def storage? (compression depth : Nat) : Option Storage :=
  match compression with
  | 0 =>
    if depth = 1 || depth = 2 || depth = 4 || depth = 8 then some .palette
    else if depth = 16 || depth = 24 || depth = 32 then some .direct
    else none
  | 1 => if depth = 8 then some .palette else none
  | 2 => if depth = 4 then some .palette else none
  | 3 => if depth = 16 || depth = 32 then some .masks else none
  | _ => none

/-- The magnitude and the sign of a number of four bytes in two's complement. -/
def signed (n : Nat) : Int := if n < 0x80000000 then n else (n : Int) - 0x100000000

/-- The dimensions, if neither is zero or too large. -/
def dimensionsOf? (width : Int) (height : Nat) : Option Dimensions :=
  if 0 < width && width ≤ 65535 && 0 < height then
    some ⟨UInt32.ofNat width.toNat, UInt32.ofNat height⟩
  else none

/-- Drop the zeros at the low end of a number that is not zero. -/
def dropLowZeros : Nat → Nat → Nat
  | 0, n => n
  | bits + 1, n => if n % 2 = 0 then dropLowZeros bits (n / 2) else n

/-- Whether a mask is one run of bits among the lowest `depth`. -/
def isMask (depth mask : Nat) : Bool :=
  let run := dropLowZeros 32 mask + 1
  mask < Nat.pow 2 depth && dropLowZeros 33 run = 1

/-- Whether the colour masks are usable: red, green and blue are there, and so is alpha
unless it is left out. -/
def areMasks (depth : Nat) (colours : List Nat) (alpha : Nat) : Bool :=
  colours.all (fun mask => mask ≠ 0 && isMask depth mask) && (alpha = 0 || isMask depth alpha)

/-- The dimensions of a file with the short header. -/
def shortDimensions? (content : Bytes) : Option Dimensions := do
  let width ← little? content 18 2
  let height ← little? content 20 2
  let planes ← little? content 22 2
  let depth ← little? content 24 2
  let dimensions ← dimensionsOf? width height
  if planes ≠ 1 then none
  else if depth = 24 then some dimensions
  else if depth = 1 || depth = 4 || depth = 8 then
    (slice? content 26 (3 * Nat.pow 2 depth)).map fun _ => dimensions
  else none

/-- The dimensions of a file with a long header of the given length. -/
def longDimensions? (content : Bytes) (headerLength : Nat) : Option Dimensions := do
  let fields ← slice? content 18 36
  let width := signed (← little? fields 0 4)
  let height := signed (← little? fields 4 4)
  let planes ← little? fields 8 2
  let depth ← little? fields 10 2
  let compression ← little? fields 12 4
  let colours ← little? fields 28 4
  let dimensions ← dimensionsOf? width height.natAbs
  if 65535 < height || height = -0x80000000 || planes ≠ 1 then none
  else if height < 0 && compression ≠ 0 && compression ≠ 3 then none
  else match ← storage? compression depth with
    | .direct => some dimensions
    | .palette =>
      if Nat.pow 2 depth < colours then none
      else
        let count := if colours = 0 then Nat.pow 2 depth else colours
        (slice? content (14 + headerLength) (4 * count)).map fun _ => dimensions
    | .masks =>
      let red ← little? content 54 4
      let green ← little? content 58 4
      let blue ← little? content 62 4
      let alpha ← if 56 ≤ headerLength then little? content 66 4 else some 0
      if areMasks depth [red, green, blue] alpha then some dimensions else none

/-- The dimensions of a BMP file. -/
def dimensions? (content : Bytes) : Option Dimensions := do
  if (← slice? content 0 2) ≠ ascii "BM" then none
  else
    let headerLength ← little? content 14 4
    if headerLength = 12 then shortDimensions? content
    else if [40, 52, 56, 108, 124].contains headerLength then longDimensions? content headerLength
    else none

end Gallery.Bmp
