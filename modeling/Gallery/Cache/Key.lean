import Gallery.Cache.Digest

/-!
# Cache keys

Dimensions are remembered per version of a file: its path, its modification time and its
size. The key of a version is the digest of a byte string made of a format number, the path,
and the two numbers in eight bytes each. The two numbers have a fixed length and stand at
the end, so no two versions share a byte string, whatever bytes their paths hold.
-/

namespace Gallery

/-- A file as it was found on disk. -/
structure FileVersion where
  path : Bytes
  /-- Seconds since the epoch. -/
  mtime : Int64
  /-- Bytes on disk. -/
  size : Int64
  deriving DecidableEq, Repr

/-- The number of the format of remembered entries. -/
def cacheFormat : UInt8 := 1

/-- The byte string that stands for a version. -/
def FileVersion.encode (version : FileVersion) : Bytes :=
  cacheFormat :: (version.path ++ littleEndian64 version.mtime.toUInt64 ++
    littleEndian64 version.size.toUInt64)

/-- The key under which the dimensions of a version are remembered. -/
structure CacheKey where
  digest : UInt64
  deriving DecidableEq, Repr

/-- The key of a version. -/
def FileVersion.key (version : FileVersion) : CacheKey := ⟨Digest.ofBytes version.encode⟩

/-- The text of a key. -/
def CacheKey.text (key : CacheKey) : Bytes :=
  ascii "DimensionKey(" ++ decimal key.digest.toNat ++ ascii ")"

end Gallery
