import Gallery.Proofs.Cache.Contents
import Gallery.Proofs.Scan.Discovery
import Gallery.Scan.Scanner
import Gallery.Tree.Change
import Mathlib.Data.List.Forall2

/-!
# Scans do not show their cache

Scanners of any policies share one cache, and scans follow each other while the tree changes
between them. As long as a file version stands for one pair of dimensions and for one key,
every scan returns what a scanner of its own would return on the same tree. The cache only
decides which of the files are probed.

The invariant is that whatever the cache holds under a key was probed, at some time of the
history, for a file version of that key. It says nothing about what is displaced, so it
holds for every capacity.
-/

namespace Gallery

/-- What a scan returns. -/
abbrev ScanOutcome := Except ScanFault (List Picture × ScanCounts)

/-- A scan in a history: its policy and its root, and the tree as it is when the scan is made. -/
structure Visit where
  policy : ScanPolicy
  root : Bytes
  tree : Tree

namespace Visit

/-- The outcome of a scan that begins with a cache, and the cache after it. -/
def scan (visit : Visit) (cache : KnownDimensions) : ScanOutcome × KnownDimensions :=
  let (outcome, scanner) := Scanner.scan ⟨visit.policy, cache⟩ visit.tree visit.root
  (outcome, scanner.cache)

/-- The outcomes of scans that share a cache, made one after another. -/
def outcomes (cache : KnownDimensions) : List Visit → List ScanOutcome
  | [] => []
  | visit :: visits => (visit.scan cache).1 :: outcomes (visit.scan cache).2 visits

/-- The outcome for a scanner that has not scanned anything and shares nothing. -/
def alone (visit : Visit) : ScanOutcome :=
  ((Scanner.fresh visit.policy).scan visit.tree visit.root).1

/-- The file versions that a scan finds, in order; none if its root is not a directory. -/
def found? (visit : Visit) : Option (List FileVersion) :=
  (visit.tree.resolve? visit.root).bind fun directory =>
    if visit.tree.isDirectory directory then
      some (visit.tree.discover visit.policy visit.root directory)
    else none

/-- Whether a scan comes to some file versions in the order of their paths. Other than what it
finds, this takes no sort, so it can be evaluated. -/
def comesTo (visit : Visit) (versions : List FileVersion) : Bool :=
  match visit.tree.resolve? visit.root with
  | none => false
  | some directory =>
    visit.tree.isDirectory directory &&
      visit.tree.reached visit.policy visit.root directory = versions &&
      decide (versions.Pairwise fun first second => Path.precedes first.path second.path)

/-- The file versions that occur in a scan. -/
def versions (visit : Visit) : List FileVersion := visit.found?.getD []

/-- The file versions that occur in a history, each with what a probe of it gives at the time. -/
def sightings (visits : List Visit) : List (FileVersion × Dimensions) :=
  visits.flatMap fun visit =>
    visit.versions.map fun version => (version, visit.tree.dimensions version.path)

/-- The file versions that occur in a scan of a directory are those that it finds. -/
theorem versions_of_found?_eq_some {visit : Visit} {found : List FileVersion}
    (hfound : visit.found? = some found) : visit.versions = found := by
  rw [versions, hfound, Option.getD_some]

/-- What a scan comes to in the order of paths is what it finds. -/
theorem found?_of_comesTo {visit : Visit} {versions : List FileVersion}
    (hcomes : visit.comesTo versions) : visit.found? = some versions := by
  unfold comesTo at hcomes
  unfold found?
  cases hresolve : visit.tree.resolve? visit.root with
  | none =>
    rw [hresolve] at hcomes
    contradiction
  | some directory =>
    simp only [hresolve, Bool.and_eq_true, decide_eq_true_eq] at hcomes
    obtain ⟨⟨hdirectory, hreached⟩, hordered⟩ := hcomes
    rw [Option.bind_some, if_pos hdirectory, Tree.discover_of_ordered hreached hordered]

/-- A scan of what is not a directory fails and leaves the cache alone. -/
theorem scan_of_found?_eq_none {visit : Visit} (hfound : visit.found? = none)
    (cache : KnownDimensions) : visit.scan cache = (.error (.notADirectory visit.root), cache) := by
  unfold scan Scanner.scan
  unfold found? at hfound
  cases hresolve : visit.tree.resolve? visit.root with
  | none => rfl
  | some directory =>
    rw [hresolve, Option.bind_some] at hfound
    cases hdirectory : visit.tree.isDirectory directory with
    | false => simp only [hdirectory, Bool.false_eq_true, if_false]
    | true =>
      rw [hdirectory] at hfound
      contradiction

/-- A scan of a directory succeeds with the pictures of what it finds. -/
theorem scan_of_found?_eq_some {visit : Visit} {versions : List FileVersion}
    (hfound : visit.found? = some versions) (cache : KnownDimensions) :
    visit.scan cache =
      (.ok (Scanner.select visit.policy ((visit.tree.pictures cache versions).1.map Prod.fst),
        Scanner.count visit.policy (visit.tree.pictures cache versions).1),
        (visit.tree.pictures cache versions).2) := by
  unfold scan Scanner.scan
  unfold found? at hfound
  cases hresolve : visit.tree.resolve? visit.root with
  | none =>
    rw [hresolve] at hfound
    contradiction
  | some directory =>
    rw [hresolve, Option.bind_some] at hfound
    cases hdirectory : visit.tree.isDirectory directory with
    | false =>
      rw [hdirectory] at hfound
      contradiction
    | true =>
      rw [hdirectory, if_pos rfl] at hfound
      obtain rfl := Option.some.inj hfound
      simp only [hdirectory, if_true]

end Visit

/-- Two outcomes that differ at most in which of the files found were probed. -/
inductive SameFindings : ScanOutcome → ScanOutcome → Prop where
  | failed (fault : ScanFault) : SameFindings (.error fault) (.error fault)
  | scanned (items : List Picture) {first second : ScanCounts}
      (htotal : first.total = second.total) (hbroken : first.broken = second.broken)
      (hreturned : first.returned = second.returned)
      (hfirst : first.probed + first.cached = first.total)
      (hsecond : second.probed + second.cached = second.total) :
      SameFindings (.ok (items, first)) (.ok (items, second))

/-- Every file found is either probed or remembered. -/
theorem Scanner.probed_add_cached (policy : ScanPolicy) (pictures : List (Picture × Bool)) :
    (Scanner.count policy pictures).probed + (Scanner.count policy pictures).cached =
      (Scanner.count policy pictures).total := by
  have hsplit := List.length_eq_countP_add_countP (fun picture : Picture × Bool => picture.2)
    (l := pictures)
  simp only [Bool.not_eq_true, Bool.decide_eq_false] at hsplit
  exact (Nat.add_comm _ _).trans hsplit.symm

/-- Pictures count as broken whether they were probed or remembered. -/
theorem Scanner.broken_eq_countP (policy : ScanPolicy) (pictures : List (Picture × Bool)) :
    (Scanner.count policy pictures).broken = (pictures.map Prod.fst).countP Picture.isBroken := by
  rw [List.countP_map]
  rfl

/-- The files that were probed play no part in what a scan returns. -/
theorem sameFindings_of_map_fst_eq (policy : ScanPolicy) {first second : List (Picture × Bool)}
    (hpictures : first.map Prod.fst = second.map Prod.fst) :
    SameFindings (.ok (Scanner.select policy (first.map Prod.fst), Scanner.count policy first))
      (.ok (Scanner.select policy (second.map Prod.fst), Scanner.count policy second)) := by
  rw [hpictures]
  refine .scanned _ ?_ ?_ ?_ (Scanner.probed_add_cached policy first)
    (Scanner.probed_add_cached policy second)
  · have hlength := congrArg List.length hpictures
    rwa [List.length_map, List.length_map] at hlength
  · rw [Scanner.broken_eq_countP, Scanner.broken_eq_countP, hpictures]
  · exact congrArg (fun pictures => (Scanner.select policy pictures).length) hpictures

/-- With a cache that holds nothing but what probes give, the pictures of file versions have
the dimensions that probes give, and the cache stays so. -/
theorem Tree.pictures_of_holds (tree : Tree) {p : CacheKey → Dimensions → Prop}
    (hunique : ∀ key dimensions other, p key dimensions → p key other → dimensions = other)
    (versions : List FileVersion)
    (hversions : ∀ version ∈ versions, p version.key (tree.dimensions version.path))
    {cache : KnownDimensions} (hcache : cache.Holds p) :
    (tree.pictures cache versions).1.map Prod.fst =
        versions.map (fun version => version.picture (tree.dimensions version.path)) ∧
      (tree.pictures cache versions).2.Holds p := by
  induction versions generalizing cache with
  | nil => exact ⟨rfl, hcache⟩
  | cons version versions ih =>
    have hprobe := hversions version List.mem_cons_self
    let fetched := cache.fetch version.key fun _ => tree.dimensions version.path
    have hfetched : fetched.2.Holds p := hcache.fetch version.key _ hprobe
    have hdimensions : fetched.1.1 = tree.dimensions version.path :=
      hunique version.key _ _ (hcache.fetch_value version.key _ hprobe) hprobe
    have hlater : ∀ other ∈ versions, p other.key (tree.dimensions other.path) := by
      intro other hother
      exact hversions other (List.mem_cons_of_mem _ hother)
    obtain ⟨hothers, hafter⟩ := ih hlater hfetched
    refine ⟨?_, hafter⟩
    change version.picture fetched.1.1 :: (tree.pictures fetched.2 versions).1.map Prod.fst = _
    rw [hdimensions, hothers, List.map_cons]

namespace Visit

/-- Two probes of one file version never disagree in a history. -/
def ProbesAgree (visits : List Visit) : Prop :=
  ∀ first ∈ sightings visits, ∀ second ∈ sightings visits, first.1 = second.1 → first.2 = second.2

/-- Two file versions never share a key in a history. -/
def KeysDiffer (visits : List Visit) : Prop :=
  ∀ first ∈ sightings visits, ∀ second ∈ sightings visits,
    first.1.key = second.1.key → first.1 = second.1

/-- In a history, a probe of a file version of some key gives some dimensions. -/
def Probed (visits : List Visit) (key : CacheKey) (dimensions : Dimensions) : Prop :=
  ∃ sighting ∈ sightings visits, sighting.1.key = key ∧ sighting.2 = dimensions

variable {visits : List Visit} {visit : Visit}

/-- What a scan of the history finds is probed in it. -/
theorem probed_of_mem_versions (hvisit : visit ∈ visits)
    {version : FileVersion} (hversion : version ∈ visit.versions) :
    Probed visits version.key (visit.tree.dimensions version.path) :=
  ⟨_, List.mem_flatMap.2 ⟨visit, hvisit, List.mem_map_of_mem hversion⟩, rfl, rfl⟩

/-- Where probes agree and keys differ, a key stands for one pair of dimensions. -/
theorem Probed.unique (hprobes : ProbesAgree visits) (hkeys : KeysDiffer visits) {key : CacheKey}
    {dimensions other : Dimensions} (hdimensions : Probed visits key dimensions)
    (hother : Probed visits key other) : dimensions = other := by
  obtain ⟨first, hfirst, rfl, rfl⟩ := hdimensions
  obtain ⟨second, hsecond, hkey, rfl⟩ := hother
  exact hprobes first hfirst second hsecond (hkeys first hfirst second hsecond hkey.symm)

/-- A scan that begins with a cache of probed dimensions finds what it would find alone, and
leaves such a cache behind. -/
theorem sameFindings_scan (hprobes : ProbesAgree visits) (hkeys : KeysDiffer visits)
    (hvisit : visit ∈ visits) {cache : KnownDimensions} (hcache : cache.Holds (Probed visits)) :
    SameFindings (visit.scan cache).1 visit.alone ∧ (visit.scan cache).2.Holds (Probed visits) := by
  have halone : visit.alone = (visit.scan (.empty visit.policy.cacheCapacity)).1 := rfl
  rw [halone]
  cases hfound : visit.found? with
  | none =>
    rw [scan_of_found?_eq_none hfound, scan_of_found?_eq_none hfound]
    exact ⟨.failed _, hcache⟩
  | some versions =>
    have hversions := versions_of_found?_eq_some hfound
    have hprobed : ∀ version ∈ versions,
        Probed visits version.key (visit.tree.dimensions version.path) := by
      intro version hversion
      rw [← hversions] at hversion
      exact probed_of_mem_versions hvisit hversion
    have hunique : ∀ key dimensions other,
        Probed visits key dimensions → Probed visits key other → dimensions = other := by
      intro key dimensions other hdimensions hother
      exact hdimensions.unique hprobes hkeys hother
    obtain ⟨hshared, hafter⟩ := visit.tree.pictures_of_holds hunique versions hprobed hcache
    obtain ⟨hfresh, -⟩ := visit.tree.pictures_of_holds hunique versions hprobed
      (Cache.holds_empty visit.policy.cacheCapacity)
    rw [scan_of_found?_eq_some hfound, scan_of_found?_eq_some hfound]
    exact ⟨sameFindings_of_map_fst_eq visit.policy (hshared.trans hfresh.symm), hafter⟩

/-- The scans that remain of a history find what they would find alone. -/
theorem sameFindings_outcomes (hprobes : ProbesAgree visits) (hkeys : KeysDiffer visits)
    (remaining : List Visit) (hremaining : ∀ visit ∈ remaining, visit ∈ visits)
    {cache : KnownDimensions} (hcache : cache.Holds (Probed visits)) :
    List.Forall₂ (fun visit outcome => SameFindings outcome visit.alone) remaining
      (outcomes cache remaining) := by
  induction remaining generalizing cache with
  | nil => exact .nil
  | cons visit remaining ih =>
    obtain ⟨hsame, hafter⟩ :=
      sameFindings_scan hprobes hkeys (hremaining visit List.mem_cons_self) hcache
    have hlater : ∀ other ∈ remaining, other ∈ visits := by
      intro other hother
      exact hremaining other (List.mem_cons_of_mem _ hother)
    exact .cons hsame (ih hlater hafter)

/-- A shared cache cannot be seen in what scans return. In a history of scans of any policies
that begins with an empty cache of any capacity, with the tree changing in any way from scan to
scan, every scan fails as it would fail alone, or returns the same pictures in the same order
and the same counts of files found, broken and returned. -/
theorem outcomes_sameFindings_alone (capacity : Nat) (visits : List Visit)
    (hprobes : ProbesAgree visits) (hkeys : KeysDiffer visits) :
    List.Forall₂ (fun visit outcome => SameFindings outcome visit.alone) visits
      (outcomes (.empty capacity) visits) := by
  have hempty : (Cache.empty capacity : KnownDimensions).Holds (Probed visits) :=
    Cache.holds_empty capacity
  exact sameFindings_outcomes hprobes hkeys visits (fun _ hvisit => hvisit) hempty

/-- A directory whose only picture is replaced by another of the same size, and put back. -/
def replaced : List Visit :=
  let picture (width : UInt8) : Bytes :=
    ascii "GIF89a" ++ [width, 0, 2, 0, 0, 0, 0, 0x2C, 0, 0, 0, 0]
  let first := Tree.empty.write (ascii "g/a.gif") (picture 3) 1000000000
  let second := first.write (ascii "g/a.gif") (picture 4) 2000000000
  [⟨.standard, ascii "g", first⟩, ⟨.standard, ascii "g", second⟩, ⟨.standard, ascii "g", first⟩]

/-- With room for one file version the replaced picture is displaced and probed again, and
with room for more it is found again. -/
theorem outcomes_sameFindings_alone_replaced :
    ProbesAgree replaced ∧ KeysDiffer replaced ∧ ∀ capacity,
      List.Forall₂ (fun visit outcome => SameFindings outcome visit.alone) replaced
        (outcomes (.empty capacity) replaced) := by
  have hversions : replaced.map versions =
      [[⟨ascii "g/a.gif", 1, 18⟩], [⟨ascii "g/a.gif", 2, 18⟩], [⟨ascii "g/a.gif", 1, 18⟩]] := by
    have hcomes : List.Forall₂ (fun visit found => visit.comesTo found) replaced
        [[⟨ascii "g/a.gif", 1, 18⟩], [⟨ascii "g/a.gif", 2, 18⟩], [⟨ascii "g/a.gif", 1, 18⟩]] := by
      decide +kernel
    have hfound := hcomes.imp fun _ _ hone => versions_of_found?_eq_some (found?_of_comesTo hone)
    exact List.forall₂_eq_eq_eq ▸ List.forall₂_map_left_iff.2 hfound
  have hdimensions : replaced.map (fun visit => visit.tree.dimensions (ascii "g/a.gif")) =
      [⟨3, 2⟩, ⟨4, 2⟩, ⟨3, 2⟩] := by
    decide +kernel
  have hsightings : sightings replaced =
      [(⟨ascii "g/a.gif", 1, 18⟩, ⟨3, 2⟩), (⟨ascii "g/a.gif", 2, 18⟩, ⟨4, 2⟩),
        (⟨ascii "g/a.gif", 1, 18⟩, ⟨3, 2⟩)] := by
    simp only [replaced, List.map_cons, List.map_nil, List.cons.injEq, and_true]
      at hversions hdimensions
    obtain ⟨hfirst, hsecond, -⟩ := hversions
    obtain ⟨hbefore, hafter, -⟩ := hdimensions
    simp only [sightings, replaced, List.flatMap_cons, List.flatMap_nil, hfirst, hsecond,
      List.map_cons, List.map_nil, hbefore, hafter, List.cons_append, List.nil_append]
  have hprobes : ProbesAgree replaced := by
    rw [ProbesAgree, hsightings]
    decide +kernel
  have hkeys : KeysDiffer replaced := by
    rw [KeysDiffer, hsightings]
    decide +kernel
  refine ⟨hprobes, hkeys, ?_⟩
  intro capacity
  exact outcomes_sameFindings_alone capacity replaced hprobes hkeys

end Visit

end Gallery
