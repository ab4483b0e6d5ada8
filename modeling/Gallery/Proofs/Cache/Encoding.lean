import Gallery.Cache.Key
import Mathlib.Algebra.Group.Nat.Defs
import Mathlib.Tactic.SplitIfs

/-!
# Keys tell versions apart

The byte string that stands for a version of a file can be read back. The time and the size take
eight bytes each at its end, and what is in front of them, but for the number of the format, is the
path. So nothing has to mark where the path ends, and a path may hold any bytes, also such as look
like a time.

Hence two versions have the same key only if the digest takes two different byte strings to one word.
-/

namespace Gallery

/-- A word has eight bytes. -/
theorem length_littleEndian64 (w : UInt64) : (littleEndian64 w).length = 8 := rfl

/-- The bytes of a word write it. -/
theorem ofLittleEndian_littleEndian64 (w : UInt64) : ofLittleEndian (littleEndian64 w) = w.toNat := by
  have hword := w.toNat_lt
  simp only [littleEndian64, ofLittleEndian, UInt64.toNat_toUInt8, UInt64.toNat_shiftRight,
    UInt64.reduceToNat, Nat.shiftRight_eq_div_pow, Nat.reduceMod, Nat.reducePow]
  omega

/-- A number in bytes is less than the number of byte strings of this length. -/
theorem ofLittleEndian_lt (bytes : Bytes) : ofLittleEndian bytes < 256 ^ bytes.length := by
  induction bytes with
  | nil => exact Nat.one_pos
  | cons b rest ih =>
    have hb := b.toNat_lt
    rw [ofLittleEndian, List.length_cons, Nat.pow_succ]
    omega

/-- Bytes of one length write different numbers. -/
theorem ofLittleEndian_inj {first second : Bytes} (hlength : first.length = second.length)
    (hsame : ofLittleEndian first = ofLittleEndian second) : first = second := by
  induction first generalizing second with
  | nil => exact (List.length_eq_zero_iff.1 hlength.symm).symm
  | cons b rest ih =>
    obtain ⟨c, others, rfl⟩ := List.exists_cons_of_length_eq_add_one hlength.symm
    have hb := b.toNat_lt
    have hc := c.toNat_lt
    rw [ofLittleEndian, ofLittleEndian] at hsame
    have hfirst : b = c := UInt8.toNat_inj.1 (by omega)
    rw [hfirst, ih (Nat.succ.inj hlength) (by omega)]

/-- The number that eight bytes write in two's complement. -/
def signed64 (bytes : Bytes) : Int64 := (UInt64.ofNat (ofLittleEndian bytes)).toInt64

/-- The bytes of a number write it, also if it is negative. -/
theorem signed64_littleEndian64 (n : Int64) : signed64 (littleEndian64 n.toUInt64) = n := by
  rw [signed64, ofLittleEndian_littleEndian64, UInt64.ofNat_toNat]
  rfl

/-- Eight bytes are those of the number that they write. -/
theorem littleEndian64_signed64 {bytes : Bytes} (hlength : bytes.length = 8) :
    littleEndian64 (signed64 bytes).toUInt64 = bytes := by
  have hfits := ofLittleEndian_lt bytes
  rw [hlength] at hfits
  have hword : (signed64 bytes).toUInt64.toNat = ofLittleEndian bytes :=
    UInt64.toNat_ofNat_of_lt' hfits
  refine ofLittleEndian_inj hlength.symm ?_
  rw [ofLittleEndian_littleEndian64, hword]

namespace FileVersion

/-- The version that a byte string stands for: the last sixteen bytes are the time and the size, and
the path is what stands between the number of the format and them. -/
def decode? : Bytes → Option FileVersion
  | [] => none
  | format :: rest =>
    let length := rest.length - 16
    if format = cacheFormat ∧ 16 ≤ rest.length then
      some ⟨rest.take length, signed64 ((rest.drop length).take 8), signed64 (rest.drop (length + 8))⟩
    else none

/-- A version is read back from the byte string that stands for it. -/
theorem decode?_encode (version : FileVersion) : decode? version.encode = some version := by
  obtain ⟨path, mtime, size⟩ := version
  have htime := length_littleEndian64 mtime.toUInt64
  have hsize := length_littleEndian64 size.toUInt64
  have hlength : (path ++ littleEndian64 mtime.toUInt64 ++ littleEndian64 size.toUInt64).length =
      path.length + 16 := by
    rw [List.length_append, List.length_append, htime, hsize]
  have hfields : (path ++ littleEndian64 mtime.toUInt64 ++ littleEndian64 size.toUInt64).drop
      path.length = littleEndian64 mtime.toUInt64 ++ littleEndian64 size.toUInt64 := by
    rw [List.append_assoc, List.drop_left]
  rw [encode, decode?, hlength, Nat.add_sub_cancel, if_pos ⟨rfl, Nat.le_add_left 16 _⟩,
    ← List.drop_drop, hfields, List.take_left' htime, List.drop_left' htime, List.append_assoc,
    List.take_left, signed64_littleEndian64, signed64_littleEndian64]

/-- No other byte string is read as a version. -/
theorem eq_encode_of_decode? {bytes : Bytes} {version : FileVersion}
    (hdecoded : decode? bytes = some version) : bytes = version.encode := by
  cases bytes with
  | nil => contradiction
  | cons format rest =>
    rw [decode?] at hdecoded
    split_ifs at hdecoded with hrest
    obtain ⟨rfl, hlength⟩ := hrest
    obtain rfl := Option.some.inj hdecoded
    have htime : ((rest.drop (rest.length - 16)).take 8).length = 8 := by
      rw [List.length_take, List.length_drop]
      omega
    have hsize : (rest.drop (rest.length - 16 + 8)).length = 8 := by
      rw [List.length_drop]
      omega
    rw [encode, littleEndian64_signed64 htime, littleEndian64_signed64 hsize, List.append_assoc,
      ← List.drop_drop, List.take_append_drop, List.take_append_drop]

/-- A byte string stands for one version only. -/
theorem encode_injective : Function.Injective encode := by
  intro first second hsame
  have hdecoded := congrArg decode? hsame
  rw [decode?_encode, decode?_encode] at hdecoded
  exact Option.some.inj hdecoded

/-- Keys are made from an unambiguous encoding. A byte string is read as a version exactly if it is
the one that stands for this version, so versions with different paths, times or sizes have different
byte strings. Two versions share a key only if they are the same, or if their byte strings differ and
the digest takes both to one word. -/
theorem encode_unambiguous :
    (∀ bytes version, decode? bytes = some version ↔ bytes = version.encode) ∧
      (∀ first second : FileVersion, first.encode = second.encode ↔
        first.path = second.path ∧ first.mtime = second.mtime ∧ first.size = second.size) ∧
      ∀ first second : FileVersion, first.key = second.key ↔
        first = second ∨ first.encode ≠ second.encode ∧
          Digest.ofBytes first.encode = Digest.ofBytes second.encode := by
  refine ⟨?_, ?_, ?_⟩
  · intro bytes version
    constructor
    · exact eq_encode_of_decode?
    · rintro rfl
      exact decode?_encode version
  · rintro ⟨path, mtime, size⟩ ⟨path', mtime', size'⟩
    constructor
    · intro hsame
      obtain ⟨rfl, rfl, rfl⟩ := FileVersion.mk.inj (encode_injective hsame)
      exact ⟨rfl, rfl, rfl⟩
    · rintro ⟨rfl, rfl, rfl⟩
      rfl
  · intro first second
    constructor
    · intro hkeys
      by_cases hsame : first = second
      · exact .inl hsame
      · exact .inr ⟨fun hbytes => hsame (encode_injective hbytes), CacheKey.mk.inj hkeys⟩
    · rintro (rfl | ⟨-, hdigests⟩)
      · rfl
      · exact congrArg CacheKey.mk hdigests

/-- A path may end in what looks like a time, and times may be negative. -/
example : decode? (encode ⟨ascii "a" ++ littleEndian64 7, -1, -2⟩) =
    some ⟨ascii "a" ++ littleEndian64 7, -1, -2⟩ := by decide

end FileVersion

end Gallery
