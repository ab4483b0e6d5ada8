import Gallery.Image.Tiff.Directory
import Gallery.Picture

/-!
# TIFF headers

The dimensions are those of the first directory. They are accepted if it describes an image
in a colour space and a depth that are known: grey, red-green-blue or four inks, with equal
samples, and a place in the file for each strip or each tile of each plane of the image.
-/

namespace Gallery.Tiff

/-- The signatures of an ordinary file in the two byte orders. -/
def signatures : List Bytes := [[0x49, 0x49, 42, 0], [0x4D, 0x4D, 0, 42]]

/-- What an entry of a directory is about. -/
inductive Tag where
  | imageWidth
  | imageLength
  | bitsPerSample
  | compression
  | photometricInterpretation
  | stripOffsets
  | samplesPerPixel
  | rowsPerStrip
  | stripByteCounts
  | planarConfiguration
  | predictor
  | tileWidth
  | tileLength
  | tileOffsets
  | tileByteCounts
  | extraSamples
  | sampleFormat
  | jpegTables
  | chromaSubsampling
  deriving DecidableEq, Repr

/-- The number of a tag. -/
def Tag.number : Tag → Nat
  | .imageWidth => 256
  | .imageLength => 257
  | .bitsPerSample => 258
  | .compression => 259
  | .photometricInterpretation => 262
  | .stripOffsets => 273
  | .samplesPerPixel => 277
  | .rowsPerStrip => 278
  | .stripByteCounts => 279
  | .planarConfiguration => 284
  | .predictor => 317
  | .tileWidth => 322
  | .tileLength => 323
  | .tileOffsets => 324
  | .tileByteCounts => 325
  | .extraSamples => 338
  | .sampleFormat => 339
  | .jpegTables => 347
  | .chromaSubsampling => 530

/-- The samples of a pixel: how many there are, the meanings of those that are not colours,
the number of bits that each has, and their formats where they are given. -/
structure Samples where
  count : Nat
  extra : List Nat
  bits : Nat
  formats : List Nat

/-- The number of samples that are colours. -/
def Samples.colours (samples : Samples) : Nat := samples.count - samples.extra.length

/-- The one value that all members of a list have. -/
def common? (values : List Nat) : Option Nat :=
  match values with
  | [] => none
  | value :: others => if others.all (· = value) then some value else none

/-- The samples that a directory describes. All have the same number of bits, which is given
once or for each of them, and the same format. -/
def Directory.samples? (directory : Directory) : Option Samples := do
  let count ← directory.orElse? Values.short? Tag.samplesPerPixel.number 1
  let extra ← directory.orElse? Values.shorts? Tag.extraSamples.number []
  let bits ← directory.orElse? Values.numbers? Tag.bitsPerSample.number [1]
  let formats ← directory.orElse? Values.numbers? Tag.sampleFormat.number [1]
  let _ ← common? formats
  if count ≠ 0 && extra.length ≤ count && (bits.length = count || bits.length = 1) then
    some ⟨count, extra, ← common? bits,
      if directory.has Tag.sampleFormat.number then formats else []⟩
  else none

/-- Whether samples of so many bits may have a format: whole numbers of up to sixteen bits, or
floating-point numbers of thirty-two. -/
def isFormat (bits format : Nat) : Bool :=
  (format = 1 && bits ≤ 16) || (format = 3 && bits = 32)

/-- Whether the samples that are not colours begin with one that says how transparent the
pixel is, in either of two ways. -/
def Samples.isTransparent (samples : Samples) : Bool :=
  samples.extra.head? = some 1 || samples.extra.head? = some 2

/-- Whether samples suit a colour space. Grey of either direction has one sample and
red-green-blue three colours, or four of which the last is taken for transparency. Four inks
go without transparency. -/
def Samples.suit (samples : Samples) (space : Nat) : Bool :=
  samples.formats.all (isFormat samples.bits) &&
    match space with
    | 0 | 1 => samples.count = 1 && [1, 8, 16].contains samples.bits
    | 2 =>
      (samples.colours = 3 || samples.colours = 4) && [8, 16, 32].contains samples.bits
    | 5 => samples.colours = 4 && !samples.isTransparent && [8, 16].contains samples.bits
    | _ => false

/-- Whether how the pixels are packed is described in a usable way, as far as it is described:
the compression, the shared tables of one of its kinds, the predictor and the subsampling of
colours. -/
def Directory.isPackingUsable (directory : Directory) : Bool :=
  (directory.orElse? Values.short? Tag.compression.number 1).any (fun compression =>
      compression ≠ 7 || (directory.orElse? Values.octets? Tag.jpegTables.number [0, 0]).any
        fun tables => 2 ≤ tables.length) &&
    (directory.orElse? Values.short? Tag.predictor.number 1).any (fun predictor =>
      1 ≤ predictor && predictor ≤ 3) &&
    (directory.orElse? Values.numbers? Tag.chromaSubsampling.number [2, 2]).any fun factors =>
      factors.length = 2 && factors.all (· < 0x10000)

/-- The number of planes that an image of so many samples is stored in: one, or one for each
sample. -/
def Directory.planes? (directory : Directory) (samples : Nat) : Option Nat := do
  match ← directory.orElse? Values.short? Tag.planarConfiguration.number 1 with
  | 1 => some 1
  | 2 => some samples
  | _ => none

/-- The number of parts of a given size that cover a length. -/
def parts (length size : Nat) : Nat := (length - 1) / size + 1

/-- Whether there are as many offsets and as many lengths as there are places. -/
def Directory.arePlaces (directory : Directory) (offsets lengths : Tag) (count : Nat) : Bool :=
  [offsets, lengths].all fun tag =>
    (directory.numbers? tag.number).any fun values => values.length = count

/-- The number of strips of some rows each; the count has four bytes and begins again behind its
greatest value. -/
def stripCount (height rows planes : Nat) : Nat := parts height rows * planes % 0x100000000

/-- The number of tiles of a given width and length; the count has eight bytes and begins again
behind its greatest value. -/
def tileCount (width height across down planes : Nat) : Nat :=
  parts width across * parts height down * planes % 0x10000000000000000

/-- Whether the strips or the tiles of an image in some planes have their places. A directory
must not have entries of both kinds. -/
def Directory.hasPlaces (directory : Directory) (width height planes : Nat) : Bool :=
  let has (tag : Tag) : Bool := directory.has tag.number
  if has .stripOffsets && has .stripByteCounts then
    !has .tileOffsets && !has .tileByteCounts &&
      (directory.orElse? Values.long? Tag.rowsPerStrip.number height).any fun rows =>
        rows ≠ 0 &&
          directory.arePlaces .stripOffsets .stripByteCounts (stripCount height rows planes)
  else
    !has .stripOffsets && !has .stripByteCounts &&
      (directory.long? Tag.tileWidth.number).any fun across =>
        (directory.long? Tag.tileLength.number).any fun down =>
          across ≠ 0 && down ≠ 0 &&
            directory.arePlaces .tileOffsets .tileByteCounts
              (tileCount width height across down planes)

/-- The dimensions that a directory gives. -/
def Directory.dimensions? (directory : Directory) : Option Dimensions := do
  let width ← directory.long? Tag.imageWidth.number
  let height ← directory.long? Tag.imageLength.number
  let space ← directory.short? Tag.photometricInterpretation.number
  let samples ← directory.samples?
  let planes ← directory.planes? samples.count
  if 0 < width && 0 < height && samples.suit space && directory.isPackingUsable &&
      directory.hasPlaces width height planes then
    some ⟨UInt32.ofNat width, UInt32.ofNat height⟩
  else none

/-- The byte order that a file begins with. -/
def byteOrder? (content : Bytes) : Option ByteOrder := do
  let start ← slice? content 0 2
  if start = ascii "II" then some .little
  else if start = ascii "MM" then some .big
  else none

/-- The encoding of a file and the offset of its first directory. A large file says the length
of an offset in front of it. -/
def start? (content : Bytes) : Option (Encoding × Nat) := do
  let order ← byteOrder? content
  match ← order.number? content 2 2 with
  | 42 => some (⟨order, false⟩, ← order.number? content 4 4)
  | 43 =>
    if (← order.number? content 4 2) = 8 && (← order.number? content 6 2) = 0 then
      some (⟨order, true⟩, ← order.number? content 8 8)
    else none
  | _ => none

/-- The dimensions of a TIFF file. -/
def dimensions? (content : Bytes) : Option Dimensions := do
  let (encoding, offset) ← start? content
  if offset = 0 then none
  else (← encoding.directory? content offset).dimensions?

end Gallery.Tiff
