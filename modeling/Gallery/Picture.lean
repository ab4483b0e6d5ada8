import Gallery.Scalar
import Gallery.Bytes

/-!
# Pictures

A picture is an image file together with its intrinsic dimensions. Which files are
images is decided by the extension alone; a file whose dimensions could not be read has
dimension zero and counts as broken.
-/

namespace Gallery

/-- The extensions of image files, in lower case. -/
def pictureExtensions : List Bytes :=
  [ascii "jpg", ascii "jpeg", ascii "png", ascii "webp", ascii "gif", ascii "bmp",
   ascii "tiff", ascii "tif"]

/-- Whether an extension names an image file. Letter case does not matter, and no letter
outside ASCII has one of these letters as its lower-case form. -/
def isPictureExtension (extension : Bytes) : Bool :=
  pictureExtensions.contains (extension.map lowerAscii)

/-- Width and height in pixels. -/
structure Dimensions where
  width : UInt32
  height : UInt32
  deriving DecidableEq, Repr

/-- The dimensions of a file that cannot be read. -/
def Dimensions.unreadable : Dimensions := ⟨0, 0⟩

/-- An image file: its path, the version found on disk, and its intrinsic dimensions. -/
structure Picture where
  path : Bytes
  /-- Seconds since the epoch. -/
  mtime : Int64
  /-- Bytes on disk. -/
  size : Int64
  dimensions : Dimensions
  deriving DecidableEq, Repr

namespace Picture

/-- A picture of which only the path and the dimensions are known. -/
def ofDimensions (path : Bytes) (dimensions : Dimensions) : Picture :=
  ⟨path, 0, 0, dimensions⟩

/-- Width over height; undefined when the height is zero. -/
def aspectRatio? {α : Type} [Scalar α] (picture : Picture) : Option α :=
  if picture.dimensions.height = 0 then none
  else some (Scalar.ofCount picture.dimensions.width.toNat /
    Scalar.ofCount picture.dimensions.height.toNat)

/-- Whether either dimension is zero. -/
def isBroken (picture : Picture) : Bool :=
  picture.dimensions.width = 0 || picture.dimensions.height = 0

end Picture

end Gallery
