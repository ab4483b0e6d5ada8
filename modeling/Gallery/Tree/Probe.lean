import Gallery.Image.Format
import Gallery.Tree.Basic

/-!
# Probing

The dimensions of an image file are probed by its path. Only a path with the extension of an
image is opened. What cannot be opened or read has the dimensions zero by zero, so the
caller decides what becomes of it.
-/

namespace Gallery.Tree

/-- The dimensions of the image to which a path leads. -/
def dimensions (tree : Tree) (path : Bytes) : Dimensions :=
  match Path.extension? path with
  | none => .unreadable
  | some extension =>
    if isPictureExtension extension then
      match tree.read? path with
      | none => .unreadable
      | some content => imageDimensions extension content
    else .unreadable

end Gallery.Tree
