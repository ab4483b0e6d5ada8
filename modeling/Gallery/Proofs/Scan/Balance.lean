import Gallery.Proofs.Scan.Exactness
import Gallery.Proofs.Scan.Freshness

/-!
# What the counts of a scan say

A scan asks for the dimensions of every file that it finds, one after another, and what it counts is
said here of the pictures that this comes to. Each of them is counted as probed or as cached, and as
broken if one of its dimensions is zero.

To leave broken pictures out is decided when every file has been asked for. So it changes what is
returned and nothing else: not what is probed, nor what is remembered of it.
-/

namespace Gallery

/-- What asking for the dimensions of file versions one after another comes to: a picture of each,
with the flag whether its dimensions were remembered, and a cache. Dimensions that are held under
the key of a version are used, and otherwise a probe gives them and they are stored. -/
inductive Tree.Resolves (tree : Tree) :
    KnownDimensions → List FileVersion → List (Picture × Bool) → KnownDimensions → Prop where
  | finished (cache : KnownDimensions) : Resolves tree cache [] [] cache
  | cached {cache after : KnownDimensions} {version : FileVersion} {versions : List FileVersion}
      {pictures : List (Picture × Bool)} {dimensions : Dimensions}
      (hheld : cache.peek? version.key = some dimensions)
      (hothers : Resolves tree (cache.get version.key).2 versions pictures after) :
      Resolves tree cache (version :: versions) ((version.picture dimensions, true) :: pictures) after
  | probed {cache after : KnownDimensions} {version : FileVersion} {versions : List FileVersion}
      {pictures : List (Picture × Bool)} (hmissed : cache.peek? version.key = none)
      (hothers : Resolves tree (cache.put version.key (tree.dimensions version.path)) versions
        pictures after) :
      Resolves tree cache (version :: versions)
        ((version.picture (tree.dimensions version.path), false) :: pictures) after

/-- A scan resolves what it finds. -/
theorem Tree.resolves_pictures (tree : Tree) (cache : KnownDimensions)
    (versions : List FileVersion) :
    tree.Resolves cache versions (tree.pictures cache versions).1 (tree.pictures cache versions).2 := by
  induction versions generalizing cache with
  | nil => exact .finished cache
  | cons version versions ih =>
    rw [pictures]
    cases hheld : cache.peek? version.key with
    | none =>
      rw [Cache.fetch_of_peek?_eq_none hheld]
      exact .probed hheld (ih _)
    | some dimensions =>
      rw [Cache.fetch_of_peek?_eq_some hheld]
      exact .cached hheld (ih _)

namespace Scanner

variable (policy : ScanPolicy)

/-- Pictures are left out, and none is moved. -/
theorem select_sublist (pictures : List Picture) : (select policy pictures).Sublist pictures := by
  unfold select
  split
  · exact List.filter_sublist
  · exact List.Sublist.refl _

/-- Where broken pictures are left out, all others are returned. -/
theorem returned_eq (pictures : List (Picture × Bool)) : (count policy pictures).returned =
    if policy.skipBroken then (count policy pictures).total - (count policy pictures).broken
    else (count policy pictures).total := by
  have htotal : (count policy pictures).total = (pictures.map Prod.fst).length :=
    (List.length_map _).symm
  have hsplit := List.length_eq_countP_add_countP Picture.isBroken (l := pictures.map Prod.fst)
  have hreturned : (count policy pictures).returned = (select policy (pictures.map Prod.fst)).length :=
    rfl
  rw [hreturned, htotal, broken_eq_countP, select]
  split
  · rw [← List.countP_eq_length_filter]
    simp only [Bool.not_eq_true, Bool.decide_eq_false] at hsplit
    omega
  · rfl

end Scanner

namespace Visit

/-- The same scan, with broken pictures left out or kept. -/
def skipping (visit : Visit) (skip : Bool) : Visit :=
  { visit with policy := { visit.policy with skipBroken := skip } }

/-- What the counts of a scan say about its pictures and about what it returns of them. -/
structure Balanced (visit : Visit) (pictures : List (Picture × Bool)) (items : List Picture)
    (counts : ScanCounts) : Prop where
  total : counts.total = visit.versions.length
  probed : counts.probed = pictures.countP fun picture => !picture.2
  cached : counts.cached = pictures.countP fun picture => picture.2
  total_eq : counts.total = counts.probed + counts.cached
  broken : counts.broken = pictures.countP fun picture =>
    picture.1.dimensions.width = 0 ∨ picture.1.dimensions.height = 0
  returned : counts.returned = items.length
  returned_eq : counts.returned =
    if visit.policy.skipBroken then counts.total - counts.broken else counts.total
  ordered : (items.map Picture.path).Pairwise Path.Before

/-- Whether broken pictures are left out has no say in what is found. -/
theorem found?_skipping (visit : Visit) (skip : Bool) : (visit.skipping skip).found? = visit.found? :=
  rfl

/-- The versions that a scan finds are strictly ordered by their paths. -/
theorem pairwise_before_versions (visit : Visit) :
    (visit.versions.map FileVersion.path).Pairwise Path.Before := by
  unfold versions found?
  cases hresolved : visit.tree.resolve? visit.root with
  | none => exact .nil
  | some directory =>
    rw [Option.bind_some]
    cases hdirectory : visit.tree.isDirectory directory with
    | false => exact .nil
    | true => exact Tree.pairwise_before_discover visit.policy ⟨hresolved, hdirectory⟩

/-- The counts of what a scan comes to say what it finds, probes and returns. -/
theorem balanced_count (visit : Visit) (cache : KnownDimensions) :
    visit.Balanced (visit.pictures cache)
      (Scanner.select visit.policy ((visit.pictures cache).map Prod.fst))
      (Scanner.count visit.policy (visit.pictures cache)) where
  total := by
    have hpaths := congrArg List.length (visit.tree.map_path_pictures cache visit.versions)
    rwa [List.length_map, List.length_map] at hpaths
  probed := rfl
  cached := rfl
  total_eq := (Scanner.probed_add_cached visit.policy _).symm
  broken := List.countP_congr fun picture _ => by simp [Picture.isBroken]
  returned := rfl
  returned_eq := Scanner.returned_eq visit.policy _
  ordered := by
    have hpaths : ((visit.pictures cache).map Prod.fst).map Picture.path =
        visit.versions.map FileVersion.path :=
      List.map_map.trans (visit.tree.map_path_pictures cache visit.versions)
    have hordered := visit.pairwise_before_versions
    rw [← hpaths] at hordered
    exact hordered.sublist ((Scanner.select_sublist visit.policy _).map Picture.path)

/-- A scan of a directory has the pictures of what it finds, whatever it returns of them. -/
theorem scan_skipping {visit : Visit} {found : List FileVersion} (hfound : visit.found? = some found)
    (cache : KnownDimensions) (skip : Bool) :
    (visit.skipping skip).scan cache =
      (.ok (Scanner.select (visit.skipping skip).policy ((visit.pictures cache).map Prod.fst),
        Scanner.count (visit.skipping skip).policy (visit.pictures cache)),
        (visit.tree.pictures cache visit.versions).2) := by
  rw [scan_of_found?_eq_some ((visit.found?_skipping skip).trans hfound), pictures,
    versions_of_found?_eq_some hfound]
  rfl

/-- The counts of a scan balance, and whether broken pictures are left out has no say in anything but
what is returned. Where a scan succeeds, each file that it finds has one picture, which is counted as
probed or as cached, and as broken if a dimension is zero; the pictures returned stand in the strict
order of their paths, and the broken ones are missing if they are to be left out. From the same tree
and the same cache, the scan that leaves them out fails as the one that keeps them does, counts the
same, leaves the same cache behind, and returns those of its pictures that are not broken. -/
theorem scan_counts_balance (visit : Visit) (cache : KnownDimensions) :
    (∀ items counts after, visit.scan cache = (.ok (items, counts), after) →
      ∃ pictures, visit.tree.Resolves cache visit.versions pictures after ∧
        visit.Balanced pictures items counts) ∧
    ((visit.skipping true).scan cache).2 = ((visit.skipping false).scan cache).2 ∧
    (∀ fault, ((visit.skipping true).scan cache).1 = .error fault ↔
      ((visit.skipping false).scan cache).1 = .error fault) ∧
    ∀ all counts, ((visit.skipping false).scan cache).1 = .ok (all, counts) →
      ((visit.skipping true).scan cache).1 =
        .ok (all.filter fun picture => !picture.isBroken,
          { counts with returned := counts.total - counts.broken }) := by
  cases hfound : visit.found? with
  | none =>
    have hfails (skip : Bool) :
        (visit.skipping skip).scan cache = (.error (.notADirectory visit.root), cache) :=
      scan_of_found?_eq_none ((visit.found?_skipping skip).trans hfound) cache
    rw [scan_of_found?_eq_none hfound, hfails, hfails]
    exact ⟨nofun, rfl, fun _ => Iff.rfl, nofun⟩
  | some found =>
    rw [scan_skipping hfound, scan_skipping hfound]
    refine ⟨?_, rfl, fun fault => ⟨nofun, nofun⟩, ?_⟩
    · intro items counts after hscan
      rw [scan_of_found?_eq_some hfound, ← versions_of_found?_eq_some hfound] at hscan
      obtain ⟨houtcome, rfl⟩ := Prod.mk.inj hscan
      obtain ⟨rfl, rfl⟩ := Prod.mk.inj (Except.ok.inj houtcome)
      exact ⟨_, visit.tree.resolves_pictures cache visit.versions, visit.balanced_count cache⟩
    · intro all counts hkeeps
      obtain ⟨rfl, rfl⟩ := Prod.mk.inj (Except.ok.inj hkeeps)
      let counts := Scanner.count (visit.skipping false).policy (visit.pictures cache)
      have hreturned : (Scanner.count (visit.skipping true).policy (visit.pictures cache)).returned =
          counts.total - counts.broken := Scanner.returned_eq (visit.skipping true).policy _
      exact congrArg (fun returned => Except.ok (_, { counts with returned })) hreturned

/-- A directory with an image and, before it, a file that is none. -/
def mixed : Tree :=
  (Tree.empty.write (ascii "g/b.gif") (smallImage 3) 1000000000).write (ascii "g/a.gif") [] 1000000000

/-- The file that is no image is probed and counted like the other one, and is only missing from what
is returned. -/
theorem scan_counts_balance_mixed :
    let visit := scanOf false mixed
    let picture : Picture := ⟨ascii "g/b.gif", 1, 29, ⟨3, 2⟩⟩
    let other : Picture := ⟨ascii "g/a.gif", 1, 0, ⟨0, 0⟩⟩
    ((visit.skipping false).scan (.empty 1)).1 = .ok ([other, picture], ⟨2, 2, 0, 1, 2⟩) ∧
      ((visit.skipping true).scan (.empty 1)).1 = .ok ([picture], ⟨2, 2, 0, 1, 1⟩) := by
  intro visit picture other
  have hfound : (visit.skipping false).found? =
      some [⟨ascii "g/a.gif", 1, 0⟩, ⟨ascii "g/b.gif", 1, 29⟩] :=
    found?_of_comesTo (by decide +kernel)
  have hpictures : (mixed.pictures (.empty 1)
      [⟨ascii "g/a.gif", 1, 0⟩, ⟨ascii "g/b.gif", 1, 29⟩]).1 = [(other, false), (picture, false)] := by
    decide +kernel
  have hkept : ((visit.skipping false).scan (.empty 1)).1 =
      .ok ([other, picture], ⟨2, 2, 0, 1, 2⟩) := by
    rw [scan_of_found?_eq_some hfound]
    change Except.ok (Scanner.select _ ((mixed.pictures (.empty 1) _).1.map Prod.fst),
      Scanner.count _ (mixed.pictures (.empty 1) _).1) = _
    rw [hpictures]
    rfl
  obtain ⟨-, -, -, hskipped⟩ := scan_counts_balance visit (.empty 1)
  exact ⟨hkept, hskipped _ _ hkept⟩

end Visit

end Gallery
