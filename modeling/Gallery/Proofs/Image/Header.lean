import Gallery.Proofs.Image.Fields
import Gallery.Proofs.Image.Sequences
import Gallery.Tree.Change
import Gallery.Tree.Probe
import Mathlib.Data.List.Basic
import Mathlib.Tactic.SplitIfs

/-!
# Only the header counts

The dimensions of an image file depend on its first bytes alone, as far as its header reaches. Once
they can be read, whatever is written behind makes no difference, and neither does the extension, as
long as it is that of an image. For the signature at the start decides the format, and the reader
of each format is settled.
-/

namespace Gallery

namespace ImageFormat

/-- What a file begins with is in front of the rest of it. -/
theorem exists_eq_append_of_take {content start : Bytes} {length : Nat}
    (hstart : content.take length = start) : ∃ rest, content = start ++ rest :=
  ⟨content.drop length, by rw [← hstart, List.take_append_drop]⟩

/-- A file that shows its format goes on showing it. No signature is the beginning of another one. -/
theorem settled_ofSignature? : Settled ofSignature? := by
  intro format content hshown more
  unfold ofSignature? at hshown
  split_ifs at hshown with hpng hjpeg hgif hwebp htiff hbmp <;> obtain rfl := Option.some.inj hshown
  · obtain ⟨rest, rfl⟩ := exists_eq_append_of_take hpng
    rfl
  · obtain ⟨rest, rfl⟩ := exists_eq_append_of_take hjpeg
    rfl
  · rcases List.mem_pair.1 (List.contains_iff_mem.1 hgif) with hstart | hstart <;>
      obtain ⟨rest, rfl⟩ := exists_eq_append_of_take hstart <;> rfl
  · obtain ⟨hcontainer, hname⟩ := Bool.and_eq_true_iff.1 hwebp
    obtain ⟨rest, rfl⟩ := exists_eq_append_of_take (of_decide_eq_true hcontainer)
    replace hname : (rest.drop 4).take 4 = ascii "WEBP" := of_decide_eq_true hname
    -- Between the two names are the four bytes of the size, which may be any.
    rcases rest with _ | ⟨s0, _ | ⟨s1, _ | ⟨s2, _ | ⟨s3, rest⟩⟩⟩⟩
    · contradiction
    · contradiction
    · contradiction
    · contradiction
    · obtain ⟨rest, rfl⟩ := exists_eq_append_of_take hname
      rfl
  · rcases List.mem_pair.1 (List.contains_iff_mem.1 htiff) with hstart | hstart <;>
      obtain ⟨rest, rfl⟩ := exists_eq_append_of_take hstart <;> rfl
  · obtain ⟨rest, rfl⟩ := exists_eq_append_of_take hbmp
    rfl

/-- Once the dimensions of a file can be read, more bytes do not change them. -/
theorem dimensions?_append {format : ImageFormat} {content : Bytes} {dimensions : Dimensions}
    (hplain : format = .webp → WebP.isExtended content = false)
    (hfound : format.dimensions? content = some dimensions) (more : Bytes) :
    format.dimensions? (content ++ more) = some dimensions := by
  cases format with
  | png => exact Png.settled_dimensions? hfound more
  | jpeg => exact Jpeg.settled_dimensions? hfound more
  | gif => exact Gif.settled_dimensions? hfound more
  | webp => exact WebP.dimensions?_append (hplain rfl) hfound more
  | tiff => exact Tiff.settled_dimensions? hfound more
  | bmp => exact Bmp.settled_dimensions? hfound more

/-- Whether a file shows a format by its first bytes, other than the extended kind of WebP. -/
def isPlain (content : Bytes) : Bool :=
  (ofSignature? content).any fun format => format ≠ .webp || !WebP.isExtended content

/-- A plain file has a format of which more bytes cannot change the dimensions. -/
theorem exists_of_isPlain {content : Bytes} (hplain : isPlain content) :
    ∃ format, ofSignature? content = some format ∧
      (format = .webp → WebP.isExtended content = false) := by
  obtain ⟨format, hshown, hformat⟩ := (Option.any_eq_true _ _).1 hplain
  refine ⟨format, hshown, ?_⟩
  rintro rfl
  simpa using hformat

end ImageFormat

namespace Tree

variable {tree : Tree} {path content : Bytes}

/-- Only a path with the extension of an image is probed. -/
theorem isPicture_of_dimensions_ne (hdimensions : tree.dimensions path ≠ .unreadable) :
    Path.isPicture path := by
  unfold dimensions at hdimensions
  unfold Path.isPicture
  cases hextension : Path.extension? path with
  | none => simp [hextension] at hdimensions
  | some extension =>
    rw [hextension] at hdimensions
    dsimp only at hdimensions
    split_ifs at hdimensions with hpicture
    · exact hpicture
    · exact absurd rfl hdimensions

/-- Where the first bytes of a file show its format, the extension has no say in the dimensions. -/
theorem dimensions_of_ofSignature? {format : ImageFormat} (hpicture : Path.isPicture path)
    (hread : tree.read? path = some content)
    (hshown : ImageFormat.ofSignature? content = some format) :
    tree.dimensions path = (format.dimensions? content).getD .unreadable := by
  obtain ⟨extension, hextension, hknown⟩ := (Option.any_eq_true _ _).1 hpicture
  simp only [dimensions, hextension, if_pos hknown, hread, imageDimensions, hshown, Option.some_or,
    Option.bind_some]

/-- Only the header of an image decides its dimensions. Take any file that shows its format by its
first bytes and is no extended WebP file, and suppose that probing a path to it gives dimensions. Then
a file that begins with the whole of it has the same dimensions, whatever comes behind, and wherever
it stands under the extension of an image: under the same path or another one, with the same
extension or that of another format, in lower or upper case. -/
theorem header_decides_dimensions {other : Tree} {otherPath : Bytes} (more : Bytes)
    (hread : tree.read? path = some content) (hplain : ImageFormat.isPlain content)
    (hdimensions : tree.dimensions path ≠ .unreadable)
    (hother : other.read? otherPath = some (content ++ more))
    (hpicture : Path.isPicture otherPath) :
    other.dimensions otherPath = tree.dimensions path := by
  obtain ⟨format, hshown, hformat⟩ := ImageFormat.exists_of_isPlain hplain
  have hmore : ImageFormat.ofSignature? (content ++ more) = some format :=
    ImageFormat.settled_ofSignature? hshown more
  have hbefore := dimensions_of_ofSignature? (isPicture_of_dimensions_ne hdimensions) hread hshown
  rw [hbefore] at hdimensions
  rw [hbefore, dimensions_of_ofSignature? hpicture hother hmore]
  cases hfound : format.dimensions? content with
  | none => exact absurd (by rw [hfound]; rfl) hdimensions
  | some found => rw [ImageFormat.dimensions?_append hformat hfound more]

/-- A JPEG file that ends right behind its header. -/
def headerOnly : Bytes :=
  [0xFF, 0xD8, 0xFF, 0xC0, 0, 11, 8, 0, 2, 0, 3, 1, 1, 0x11, 0, 0xFF, 0xDA, 0, 8, 1, 1, 0, 0, 63, 0]

/-- Another header behind it is not looked at, and neither is a wrong extension. -/
theorem header_decides_dimensions_misnamed :
    let tree := Tree.empty.write (ascii "a.jpg") headerOnly 0
    let other := Tree.empty.write (ascii "b.TiF") (headerOnly ++ ascii "GIF89a") 0
    tree.read? (ascii "a.jpg") = some headerOnly ∧ ImageFormat.isPlain headerOnly ∧
      tree.dimensions (ascii "a.jpg") = ⟨3, 2⟩ ∧
      other.read? (ascii "b.TiF") = some (headerOnly ++ ascii "GIF89a") ∧
      Path.isPicture (ascii "b.TiF") ∧ other.dimensions (ascii "b.TiF") = ⟨3, 2⟩ := by
  intro tree other
  have hread : tree.read? (ascii "a.jpg") = some headerOnly := by decide +kernel
  have hplain : ImageFormat.isPlain headerOnly := by decide +kernel
  have hdimensions : tree.dimensions (ascii "a.jpg") = ⟨3, 2⟩ := by decide +kernel
  have hother : other.read? (ascii "b.TiF") = some (headerOnly ++ ascii "GIF89a") := by
    decide +kernel
  have hpicture : Path.isPicture (ascii "b.TiF") := by decide +kernel
  have hreadable : tree.dimensions (ascii "a.jpg") ≠ .unreadable := by
    rw [hdimensions]
    decide
  exact ⟨hread, hplain, hdimensions, hother, hpicture,
    (header_decides_dimensions (ascii "GIF89a") hread hplain hreadable hother hpicture).trans hdimensions⟩

end Tree

end Gallery
