import Gallery.Picture

/-!
# GIF headers

The dimensions are those of the logical screen and may be zero. They are accepted if the
global palette, where there is one, is complete and a block other than an extension is
reached behind it. The extensions in front of that block have to be complete and of a known
kind. Of the block itself no more is needed than the byte that announces it and one byte
behind it, and not even that one if extensions came first and the block is the trailer.
-/

namespace Gallery.Gif

/-- The signatures of the two versions. -/
def signatures : List Bytes := [ascii "GIF87a", ascii "GIF89a"]

/-- The length of the global palette: none, or three bytes for each of a power of two. -/
def paletteLength (flags : Nat) : Nat := if flags < 128 then 0 else 3 * Nat.pow 2 (flags % 8 + 1)

/-- The byte that announces an extension. -/
def extensionByte : UInt8 := 0x21

/-- The byte that ends the file. -/
def trailerByte : UInt8 := 0x3B

/-- The label of a graphic control extension. -/
def controlLabel : UInt8 := 0xF9

/-- The labels of extensions: plain text, graphic control, comment and application. -/
def extensionLabels : List UInt8 := [0x01, controlLabel, 0xFE, 0xFF]

/-- The length of the last sub-block in front of the empty one that ends an extension, and what
is behind that. A sub-block tells its length in front of it; `last` is the length of the one
before. -/
def subBlocks? (last : Nat) : Bytes → Option (Nat × Bytes)
  | [] => none
  | length :: rest =>
    if length = 0 then some (last, rest) else subBlocks? length.toNat (rest.drop length.toNat)
termination_by bytes => bytes.length
decreasing_by
  simp only [List.length_drop, List.length_cons]
  omega

/-- Sub-blocks take at least one byte. -/
theorem length_lt_of_subBlocks? {bytes behind : Bytes} {last held : Nat}
    (found : subBlocks? last bytes = some (held, behind)) : behind.length < bytes.length := by
  induction last, bytes using subBlocks?.induct with
  | case1 => simp [subBlocks?] at found
  | case2 last rest =>
    simp only [subBlocks?, ↓reduceIte, Option.some.injEq, Prod.mk.injEq] at found
    simp [← found.2]
  | case3 last length rest nonzero ih =>
    rw [subBlocks?, if_neg nonzero] at found
    have shorter := ih found
    simp only [List.length_drop] at shorter
    simp only [List.length_cons]
    omega

/-- Whether a block that is not an extension is reached. `behindExtension` tells whether an
extension came before. The last sub-block of a graphic control extension has four bytes. -/
def reachesBlock (behindExtension : Bool) : Bytes → Bool
  | [] => false
  | [kind] => behindExtension && kind = trailerByte
  | kind :: label :: rest =>
    if kind ≠ extensionByte then true
    else if !extensionLabels.contains label then false
    else match _found : subBlocks? 0 rest with
      | none => false
      | some (last, behind) => (label ≠ controlLabel || last = 4) && reachesBlock true behind
termination_by bytes => bytes.length
decreasing_by
  have := length_lt_of_subBlocks? _found
  simp only [List.length_cons]
  omega

/-- The dimensions of a GIF file. -/
def dimensions? (content : Bytes) : Option Dimensions := do
  if !signatures.contains (← slice? content 0 6) then none
  else
    let width ← little? content 6 2
    let height ← little? content 8 2
    let flags ← little? content 10 1
    if reachesBlock false (content.drop (13 + paletteLength flags)) then
      some ⟨UInt32.ofNat width, UInt32.ofNat height⟩
    else none

end Gallery.Gif
