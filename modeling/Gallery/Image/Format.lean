import Gallery.Image.Png
import Gallery.Image.Jpeg
import Gallery.Image.Gif
import Gallery.Image.Bmp
import Gallery.Image.WebP
import Gallery.Image.Tiff

/-!
# Image formats

The dimensions of an image are read from the header of its file; pixels are never decoded.
The format is recognised by the first bytes and only where they are not known by the
extension, so a file under the extension of another format is still read. Whatever cannot
be read has the dimensions zero by zero.
-/

namespace Gallery

/-- The formats that can be read. -/
inductive ImageFormat where
  | png
  | jpeg
  | gif
  | webp
  | tiff
  | bmp
  deriving DecidableEq, Repr

namespace ImageFormat

/-- The format that a file shows by its first bytes. -/
def ofSignature? (content : Bytes) : Option ImageFormat :=
  if content.take 8 = Png.signature then some .png
  else if content.take 3 = [0xFF, 0xD8, 0xFF] then some .jpeg
  else if Gif.signatures.contains (content.take 6) then some .gif
  else if content.take 4 = ascii "RIFF" && (content.drop 8).take 4 = ascii "WEBP" then some .webp
  else if Tiff.signatures.contains (content.take 4) then some .tiff
  else if content.take 2 = ascii "BM" then some .bmp
  else none

/-- The format that an extension names. -/
def ofExtension? (extension : Bytes) : Option ImageFormat :=
  let lower := extension.map lowerAscii
  if lower = ascii "png" then some .png
  else if lower = ascii "jpg" || lower = ascii "jpeg" then some .jpeg
  else if lower = ascii "gif" then some .gif
  else if lower = ascii "webp" then some .webp
  else if lower = ascii "tif" || lower = ascii "tiff" then some .tiff
  else if lower = ascii "bmp" then some .bmp
  else none

/-- The dimensions that a file of a format gives. -/
def dimensions? (format : ImageFormat) (content : Bytes) : Option Dimensions :=
  match format with
  | .png => Png.dimensions? content
  | .jpeg => Jpeg.dimensions? content
  | .gif => Gif.dimensions? content
  | .webp => WebP.dimensions? content
  | .tiff => Tiff.dimensions? content
  | .bmp => Bmp.dimensions? content

end ImageFormat

/-- The dimensions of a file with the given extension and content. -/
def imageDimensions (extension content : Bytes) : Dimensions :=
  let format := (ImageFormat.ofSignature? content).or (ImageFormat.ofExtension? extension)
  ((format.bind fun format => format.dimensions? content).getD .unreadable)

end Gallery
