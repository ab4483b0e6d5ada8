import Gallery.Cache.Recency
import Gallery.Scan.Discovery
import Gallery.Tree.Probe
import Gallery.Utf8

/-!
# Scanning

A scan turns a directory into a list of pictures in the order of their paths. The dimensions
of each file are taken from the cache when the same version of it was seen before, and are
probed and remembered otherwise. Dimensions that could not be read are remembered too. The
cache outlives the scan, so a file that has not changed is not read again.
-/

namespace Gallery

/-- The counts of a scan. -/
structure ScanCounts where
  /-- Files found. -/
  total : Nat
  /-- Files whose dimensions were probed. -/
  probed : Nat
  /-- Files whose dimensions were remembered. -/
  cached : Nat
  /-- Files without dimensions. -/
  broken : Nat
  /-- Pictures returned. -/
  returned : Nat
  deriving DecidableEq, Repr

/-- Why a scan failed. -/
inductive ScanFault where
  | notADirectory (root : Bytes)
  deriving DecidableEq, Repr

/-- The wording of the error. -/
def ScanFault.message : ScanFault → Bytes
  | .notADirectory root => ascii "Not a directory: " ++ Utf8.display root

/-- The dimensions remembered per version of a file. -/
abbrev KnownDimensions := Cache CacheKey Dimensions

/-- The picture of a file version with the given dimensions. -/
def FileVersion.picture (version : FileVersion) (dimensions : Dimensions) : Picture :=
  ⟨version.path, version.mtime, version.size, dimensions⟩

/-- The pictures of file versions, each with the flag whether its dimensions were remembered. -/
def Tree.pictures (tree : Tree) (cache : KnownDimensions) :
    List FileVersion → List (Picture × Bool) × KnownDimensions
  | [] => ([], cache)
  | version :: versions =>
    let ((dimensions, remembered), cache) :=
      cache.fetch version.key fun _ => tree.dimensions version.path
    let (others, cache) := tree.pictures cache versions
    ((version.picture dimensions, remembered) :: others, cache)

/-- A policy at work with its cache. -/
structure Scanner where
  policy : ScanPolicy
  cache : KnownDimensions

namespace Scanner

/-- A scanner that has not scanned anything. -/
def fresh (policy : ScanPolicy) : Scanner := ⟨policy, .empty policy.cacheCapacity⟩

/-- The pictures that a scan returns. -/
def select (policy : ScanPolicy) (pictures : List Picture) : List Picture :=
  if policy.skipBroken then pictures.filter fun picture => !picture.isBroken else pictures

/-- The counts of a scan that came to the given pictures. -/
def count (policy : ScanPolicy) (pictures : List (Picture × Bool)) : ScanCounts where
  total := pictures.length
  probed := pictures.countP fun picture => !picture.2
  cached := pictures.countP fun picture => picture.2
  broken := pictures.countP fun picture => picture.1.isBroken
  returned := (select policy (pictures.map Prod.fst)).length

/-- Scan a directory. A root that is not a directory leaves the cache alone. -/
def scan (scanner : Scanner) (tree : Tree) (root : Bytes) :
    Except ScanFault (List Picture × ScanCounts) × Scanner :=
  match tree.resolve? root with
  | none => (.error (.notADirectory root), scanner)
  | some directory =>
    if tree.isDirectory directory then
      let (pictures, cache) := tree.pictures scanner.cache
        (tree.discover scanner.policy root directory)
      (.ok (select scanner.policy (pictures.map Prod.fst), count scanner.policy pictures),
        { scanner with cache })
    else (.error (.notADirectory root), scanner)

end Scanner

/-- The policy used where nothing else is asked for. -/
def ScanPolicy.standard : ScanPolicy where
  recursive := true
  maxDepth := 0
  followLinks := false
  skipBroken := true
  cacheCapacity := standardCapacity

end Gallery
