import Gallery.Proofs.Cache.History
import Gallery.Proofs.Scan.Discovery
import Gallery.Proofs.Scan.Transparency

/-!
# Files that changed

A file that has another size or another time than the file under its path had at any earlier scan
is not in the cache: it is probed, and its picture has the dimensions that it has now. For the
cache knows a file by its version, which has the size and the time of the file that a probe opens.

A link that is not followed is the exception. Its version is that of the link itself, while a
probe opens the target. So the target may change as it likes, and the scan keeps on returning
the dimensions that it once had.
-/

namespace Gallery

/-- The size of the file that a probe under a path opens, and its time in whole seconds. -/
def Tree.opened? (tree : Tree) (path : Bytes) : Option (Nat × Int) :=
  match tree.target? path with
  | some (.file content modified) => some (content.length, modified / 1000000000)
  | _ => none

/-- Whether the size and the time of that file fit in sixty-four bits, as they do on disk. -/
def Tree.OpensFitting (tree : Tree) (path : Bytes) : Prop :=
  ∀ size seconds, tree.opened? path = some (size, seconds) → size < UInt64.size ∧ seconds < UInt64.size

/-- Natural numbers that fit are told apart in sixty-four bits. -/
theorem int64_ofNat_inj {m n : Nat} (hm : m < UInt64.size) (hn : n < UInt64.size)
    (hsame : Int64.ofNat m = Int64.ofNat n) : m = n := by
  have hbits : UInt64.ofNat m = UInt64.ofNat n := congrArg Int64.toUInt64 hsame
  have hnat := congrArg UInt64.toNat hbits
  rwa [UInt64.toNat_ofNat_of_lt' hm, UInt64.toNat_ofNat_of_lt' hn] at hnat

namespace Tree

variable {tree other : Tree} {path : Bytes}

/-- What is opened is a file. -/
theorem exists_of_opened? {size : Nat} {seconds : Int}
    (hopened : tree.opened? path = some (size, seconds)) :
    ∃ content modified, tree.target? path = some (.file content modified) ∧
      size = content.length ∧ seconds = modified / 1000000000 := by
  unfold opened? at hopened
  cases htarget : tree.target? path with
  | none =>
    rw [htarget] at hopened
    contradiction
  | some entry =>
    rw [htarget] at hopened
    cases entry with
    | file content modified =>
      obtain ⟨rfl, rfl⟩ := Prod.mk.inj (Option.some.inj hopened)
      exact ⟨content, modified, rfl, rfl, rfl⟩
    | link | directory => contradiction

/-- Versions of what a path leads to at two times are the same only if the same size and time are
found there. Times before the epoch all count as zero, so the time has to be later. -/
theorem opened?_eq_of_version_eq {size : Nat} {seconds : Int} {entry another : Entry}
    (hopened : tree.opened? path = some (size, seconds)) (hseconds : 1 ≤ seconds)
    (hfits : tree.OpensFitting path) (hothers : other.OpensFitting path)
    (hentry : tree.target? path = some entry) (hanother : other.target? path = some another)
    (hsame : entry.version path = another.version path) :
    other.opened? path = some (size, seconds) := by
  obtain ⟨hsize, htime⟩ := hfits size seconds hopened
  obtain ⟨content, modified, hfile, rfl, rfl⟩ := exists_of_opened? hopened
  obtain rfl := Option.some.inj (hentry.symm.trans hfile)
  have hsizes := congrArg FileVersion.size hsame
  have htimes := congrArg FileVersion.mtime hsame
  cases another with
  | link target modified => exact absurd hanother (target?_ne_link path target modified)
  | directory =>
    have hzero : (modified / 1000000000).toNat = 0 :=
      int64_ofNat_inj (by omega) (Nat.two_pow_pos 64) htimes
    omega
  | file content' modified' =>
    have hopened' : other.opened? path = some (content'.length, modified' / 1000000000) := by
      rw [opened?, hanother]
    obtain ⟨hsize', htime'⟩ := hothers _ _ hopened'
    have hlength : content.length = content'.length := int64_ofNat_inj hsize hsize' hsizes
    have hseconds' : (modified / 1000000000).toNat = (modified' / 1000000000).toNat :=
      int64_ofNat_inj (by omega) (by omega) htimes
    have htime : modified / 1000000000 = modified' / 1000000000 := by omega
    rw [hopened', hlength, htime]

/-- Pictures of file versions one after another. -/
theorem pictures_append (tree : Tree) (cache : KnownDimensions) (first second : List FileVersion) :
    tree.pictures cache (first ++ second) =
      ((tree.pictures cache first).1 ++ (tree.pictures (tree.pictures cache first).2 second).1,
        (tree.pictures (tree.pictures cache first).2 second).2) := by
  induction first generalizing cache with
  | nil => rfl
  | cons version first ih => simp only [List.cons_append, pictures, ih]

/-- Each version has its picture under its path. -/
theorem map_path_pictures (tree : Tree) (cache : KnownDimensions) (versions : List FileVersion) :
    (tree.pictures cache versions).1.map (fun picture => picture.1.path) =
      versions.map FileVersion.path := by
  induction versions generalizing cache with
  | nil => rfl
  | cons version versions ih => simp only [pictures, List.map_cons, ih]; rfl

/-- Pictures leave nothing behind but entries for their versions. -/
theorem holds_pictures (tree : Tree) {p : CacheKey → Dimensions → Prop}
    {versions : List FileVersion}
    (hversions : ∀ version ∈ versions, p version.key (tree.dimensions version.path))
    {cache : KnownDimensions} (hcache : cache.Holds p) :
    (tree.pictures cache versions).2.Holds p := by
  induction versions generalizing cache with
  | nil => exact hcache
  | cons version versions ih =>
    have hfetched := hcache.fetch version.key (fun _ => tree.dimensions version.path)
      (hversions version List.mem_cons_self)
    exact ih (fun other hother => hversions other (List.mem_cons_of_mem _ hother)) hfetched

end Tree

namespace Visit

/-- The cache after scans that share it. -/
def cacheAfter (cache : KnownDimensions) (visits : List Visit) : KnownDimensions :=
  visits.foldl (fun cache visit => (visit.scan cache).2) cache

/-- The pictures of the files that a scan finds, each with the flag whether it was remembered. -/
def pictures (visit : Visit) (cache : KnownDimensions) : List (Picture × Bool) :=
  (visit.tree.pictures cache visit.versions).1

/-- Whether a scan finds a link itself under a path, and not what it leads to. -/
def TakesLink (visit : Visit) (path : Bytes) : Prop :=
  path ∈ visit.versions.map FileVersion.path ∧ visit.policy.followLinks = false ∧
    ∃ target modified, visit.tree.itself? path = some (.link target modified)

/-- What a scan finds stands under its paths, if its root is a directory, and otherwise there is
nothing. -/
theorem found_versions (visit : Visit) :
    visit.tree.Found visit.policy.followLinks (Path.Continues · visit.root) visit.versions := by
  unfold versions found?
  cases hresolved : visit.tree.resolve? visit.root with
  | none => exact .nil
  | some directory =>
    rw [Option.bind_some]
    cases hdirectory : visit.tree.isDirectory directory with
    | false => exact .nil
    | true => exact Tree.found_discover visit.policy ⟨hresolved, hdirectory⟩

/-- What a scan finds is the version of what the path leads to, unless the scan takes it for a
link. -/
theorem exists_target_of_mem_versions {visit : Visit} {version : FileVersion}
    (hversion : version ∈ visit.versions) (hlink : ¬visit.TakesLink version.path) :
    ∃ entry, visit.tree.target? version.path = some entry ∧
      version = entry.version version.path := by
  obtain ⟨entry, hshows, hsame⟩ := visit.found_versions.shows version hversion
  cases hshows with
  | target htarget => exact ⟨entry, htarget, hsame⟩
  | link hfollow hitself =>
    exact absurd ⟨List.mem_map_of_mem hversion, hfollow, _, _, hitself⟩ hlink

/-- Scans leave nothing behind but entries for what they find. -/
theorem holds_cacheAfter {p : CacheKey → Dimensions → Prop} {visits : List Visit}
    (hvisits : ∀ visit ∈ visits, ∀ version ∈ visit.versions, ∀ dimensions, p version.key dimensions)
    {cache : KnownDimensions} (hcache : cache.Holds p) : (cacheAfter cache visits).Holds p := by
  induction visits generalizing cache with
  | nil => exact hcache
  | cons visit visits ih =>
    have hscan : (visit.scan cache).2.Holds p := by
      cases hfound : visit.found? with
      | none =>
        rw [scan_of_found?_eq_none hfound]
        exact hcache
      | some versions =>
        rw [scan_of_found?_eq_some hfound]
        refine visit.tree.holds_pictures ?_ hcache
        intro version hversion
        refine hvisits visit List.mem_cons_self version ?_ _
        rwa [Visit.versions, hfound, Option.getD_some]
    exact ih (fun other hother => hvisits other (List.mem_cons_of_mem _ hother)) hscan

/-- Paths that no version has are no picture's. -/
theorem filter_path_pictures_eq_nil (tree : Tree) (cache : KnownDimensions)
    {versions : List FileVersion} {path : Bytes} (hpath : path ∉ versions.map FileVersion.path) :
    (tree.pictures cache versions).1.filter (fun picture => picture.1.path = path) = [] := by
  rw [List.filter_eq_nil_iff]
  intro picture hpicture
  have hmember : picture.1.path ∈ versions.map FileVersion.path := by
    rw [← tree.map_path_pictures cache versions]
    exact List.mem_map_of_mem hpicture
  rw [decide_eq_true_eq]
  intro hsame
  exact hpath (hsame ▸ hmember)

/-- A file version whose key no earlier scan has used is probed, and its path has no other
picture. -/
theorem pictures_filter_path {visit : Visit} {version : FileVersion}
    (hversion : version ∈ visit.versions) {p : CacheKey → Dimensions → Prop}
    {cache : KnownDimensions} (hcache : cache.Holds p)
    (hnew : ∀ dimensions, ¬p version.key dimensions)
    (hkeys : ∀ other ∈ visit.versions, other.key = version.key → other = version) :
    (visit.pictures cache).filter (fun picture => picture.1.path = version.path) =
      [(version.picture (visit.tree.dimensions version.path), false)] := by
  have hdistinct := visit.found_versions.distinct
  obtain ⟨front, back, hsplit⟩ := List.append_of_mem hversion
  unfold pictures
  rw [hsplit] at hdistinct hkeys ⊢
  rw [List.map_append, List.map_cons, List.nodup_middle, List.nodup_cons,
    List.mem_append] at hdistinct
  obtain ⟨hfront, hback⟩ := not_or.1 hdistinct.1
  let held := (visit.tree.pictures cache front).2
  have hmissed : held.peek? version.key = none := by
    have hheld : held.Holds fun key dimensions =>
        p key dimensions ∨ ∃ other ∈ front, other.key = key := by
      refine visit.tree.holds_pictures (fun other hother => .inr ⟨other, hother, rfl⟩) ?_
      exact fun key dimensions hentry => .inl (hcache key dimensions hentry)
    refine hheld.peek?_eq_none ?_
    rintro dimensions (hbefore | ⟨other, hother, hkey⟩)
    · exact hnew dimensions hbefore
    · -- A version of this scan with the same key would have the same path, and paths differ.
      obtain rfl := hkeys other (List.mem_append_left _ hother) hkey
      exact hfront (List.mem_map_of_mem hother)
  have hfetched := Cache.fetch_of_peek?_eq_none hmissed fun _ => visit.tree.dimensions version.path
  rw [Tree.pictures_append, Tree.pictures, hfetched, List.filter_append,
    filter_path_pictures_eq_nil _ _ hfront, List.nil_append]
  dsimp only
  rw [List.filter_cons_of_pos (by exact decide_eq_true rfl), filter_path_pictures_eq_nil _ _ hback]

/-- A file that changed is probed again. If the file under a path has a size and a time that the
file under this path had at no earlier scan, a scan that finds the path does not answer from the
cache, and the one picture that it has for the path has the dimensions that a probe gives now.
This holds for scans of any policies and roots that share a cache of any capacity, the tree
changing in any way between them, as long as no scan takes the path for a link. -/
theorem scan_probes_what_changed (capacity : Nat) (before : List Visit) (now : Visit)
    {version : FileVersion} {size : Nat} {seconds : Int} (hkeys : KeysDiffer (before ++ [now]))
    (hversion : version ∈ now.versions)
    (hopened : now.tree.opened? version.path = some (size, seconds)) (hseconds : 1 ≤ seconds)
    (hnew : ∀ visit ∈ before, visit.tree.opened? version.path ≠ some (size, seconds))
    (hfits : ∀ visit ∈ before ++ [now], visit.tree.OpensFitting version.path)
    (hlinks : ∀ visit ∈ before ++ [now], ¬visit.TakesLink version.path) :
    let cache := cacheAfter (.empty capacity) before
    (now.scan cache).1 = .ok (Scanner.select now.policy ((now.pictures cache).map Prod.fst),
        Scanner.count now.policy (now.pictures cache)) ∧
      (now.pictures cache).filter (fun picture => picture.1.path = version.path) =
        [(version.picture (now.tree.dimensions version.path), false)] := by
  intro cache
  have hsighted {visit : Visit} (hvisit : visit ∈ before ++ [now]) {other : FileVersion}
      (hother : other ∈ visit.versions) :
      (other, visit.tree.dimensions other.path) ∈ sightings (before ++ [now]) :=
    List.mem_flatMap.2 ⟨visit, hvisit, List.mem_map_of_mem hother⟩
  have hlast : now ∈ before ++ [now] := List.mem_append_right _ (List.mem_singleton_self now)
  have hdiffer {visit : Visit} (hvisit : visit ∈ before ++ [now]) {other : FileVersion}
      (hother : other ∈ visit.versions) (hkey : other.key = version.key) : other = version :=
    hkeys _ (hsighted hvisit hother) _ (hsighted hlast hversion) hkey
  have hcache : cache.Holds fun key _ =>
      ∃ visit ∈ before, ∃ other ∈ visit.versions, other.key = key :=
    holds_cacheAfter (fun visit hvisit other hother _ => ⟨visit, hvisit, other, hother, rfl⟩)
      (Cache.holds_empty capacity)
  constructor
  · cases hfound : now.found? with
    | none =>
      rw [Visit.versions, hfound] at hversion
      contradiction
    | some versions =>
      rw [scan_of_found?_eq_some hfound, pictures, Visit.versions, hfound, Option.getD_some]
  · refine pictures_filter_path hversion hcache ?_ fun other hother => hdiffer hlast hother
    -- What left this key behind is the version that is found now, so the same file was opened.
    rintro - ⟨visit, hvisit, other, hother, hkey⟩
    have hearlier : visit ∈ before ++ [now] := List.mem_append_left _ hvisit
    obtain rfl := hdiffer hearlier hother hkey
    obtain ⟨entry, htarget, hentry⟩ :=
      exists_target_of_mem_versions hversion (hlinks now hlast)
    obtain ⟨another, hanother, hsame⟩ :=
      exists_target_of_mem_versions hother (hlinks visit hearlier)
    exact hnew visit hvisit (Tree.opened?_eq_of_version_eq hopened hseconds (hfits now hlast)
      (hfits visit hearlier) htarget hanother (hentry.symm.trans hsame))

/-- A small image of two lines. -/
def smallImage (width : UInt8) : Bytes :=
  ascii "GIF89a" ++ [width, 0, 2, 0, 0, 0, 0] ++ [0x2C, 0, 0, 0, 0, width, 0, 2, 0, 0] ++
    [2, 2, 0x4C, 1, 0, 0x3B]

/-- A directory with a link to an image outside of it. -/
def linkedTree : Tree :=
  (Tree.empty.write (ascii "x") (smallImage 3) 1000000000).makeLink (ascii "g/a.gif")
    (ascii "../x") 5000000000

/-- The same after another image was written to where the link leads. -/
def rewrittenTree : Tree := linkedTree.write (ascii "x") (smallImage 4) 2000000000

/-- A scan of the directory. -/
def scanOf (followLinks : Bool) (tree : Tree) : Visit :=
  ⟨{ ScanPolicy.standard with followLinks }, ascii "g", tree⟩

/-- The link leads to one file after the other, and a probe opens what it leads to. -/
theorem opened?_linkedTree :
    linkedTree.opened? (ascii "g/a.gif") = some (29, 1) ∧
      rewrittenTree.opened? (ascii "g/a.gif") = some (29, 2) := by
  decide +kernel

/-- The two files differ in their width. -/
theorem dimensions_linkedTree :
    linkedTree.dimensions (ascii "g/a.gif") = ⟨3, 2⟩ ∧
      rewrittenTree.dimensions (ascii "g/a.gif") = ⟨4, 2⟩ := by
  decide +kernel

/-- What two scans of the directory see, if each finds one version under the path of the link. -/
theorem sightings_scanOf {followLinks : Bool} {first second : FileVersion}
    (hfirst : (scanOf followLinks linkedTree).versions = [first])
    (hsecond : (scanOf followLinks rewrittenTree).versions = [second])
    (hpaths : first.path = ascii "g/a.gif" ∧ second.path = ascii "g/a.gif") :
    sightings [scanOf followLinks linkedTree, scanOf followLinks rewrittenTree] =
      [(first, ⟨3, 2⟩), (second, ⟨4, 2⟩)] := by
  obtain ⟨hbefore, hnow⟩ := dimensions_linkedTree
  change (scanOf followLinks linkedTree).versions.map (fun version => (version,
      linkedTree.dimensions version.path)) ++
    ((scanOf followLinks rewrittenTree).versions.map (fun version => (version,
      rewrittenTree.dimensions version.path)) ++ []) = _
  rw [hfirst, hsecond, List.map_singleton, List.map_singleton, hpaths.1, hpaths.2, hbefore, hnow]
  rfl

/-- A scan that follows the link finds the version of its target, and probes it again. -/
theorem scan_probes_what_changed_followed :
    let before := [scanOf true linkedTree]
    let now := scanOf true rewrittenTree
    KeysDiffer (before ++ [now]) ∧ now.versions = [⟨ascii "g/a.gif", 2, 29⟩] ∧
      (now.pictures (cacheAfter (.empty 1) before)).filter
          (fun picture => picture.1.path = ascii "g/a.gif") =
        [(⟨ascii "g/a.gif", 2, 29, ⟨4, 2⟩⟩, false)] := by
  intro before now
  obtain ⟨hopenedBefore, hopenedNow⟩ := opened?_linkedTree
  have hbefore : (scanOf true linkedTree).versions = [⟨ascii "g/a.gif", 1, 29⟩] :=
    versions_of_found?_eq_some (found?_of_comesTo (by decide +kernel))
  have hnow : (scanOf true rewrittenTree).versions = [⟨ascii "g/a.gif", 2, 29⟩] :=
    versions_of_found?_eq_some (found?_of_comesTo (by decide +kernel))
  have hkeys : KeysDiffer (before ++ [now]) := by
    change KeysDiffer [scanOf true linkedTree, scanOf true rewrittenTree]
    rw [KeysDiffer, sightings_scanOf hbefore hnow ⟨rfl, rfl⟩]
    decide +kernel
  have hversion : ⟨ascii "g/a.gif", 2, 29⟩ ∈ now.versions := by
    rw [hnow]
    exact List.mem_singleton_self _
  have hnew : ∀ visit ∈ before, visit.tree.opened? (ascii "g/a.gif") ≠ some (29, 2) := by
    intro visit hvisit
    obtain rfl := List.mem_singleton.1 hvisit
    change linkedTree.opened? _ ≠ _
    rw [hopenedBefore]
    decide
  have hfits : ∀ visit ∈ before ++ [now], visit.tree.OpensFitting (ascii "g/a.gif") := by
    intro visit hvisit size seconds hopened
    obtain rfl | rfl := List.mem_pair.1 hvisit
    · obtain ⟨rfl, rfl⟩ := Prod.mk.inj (Option.some.inj (hopenedBefore.symm.trans hopened))
      decide
    · obtain ⟨rfl, rfl⟩ := Prod.mk.inj (Option.some.inj (hopenedNow.symm.trans hopened))
      decide
  have hlinks : ∀ visit ∈ before ++ [now], ¬visit.TakesLink (ascii "g/a.gif") := by
    rintro visit hvisit ⟨-, hfollow, -⟩
    obtain rfl | rfl := List.mem_pair.1 hvisit <;> contradiction
  obtain ⟨-, hpictures⟩ := scan_probes_what_changed 1 before now hkeys hversion hopenedNow
    (by decide) hnew hfits hlinks
  refine ⟨hkeys, hnow, ?_⟩
  rw [hpictures]
  exact congrArg (fun dimensions => [(FileVersion.picture ⟨ascii "g/a.gif", 2, 29⟩ dimensions,
    false)]) dimensions_linkedTree.2

/-- A scan that does not follow the link finds the version of the link, which has not changed. It
answers with the dimensions of a file that is gone. -/
theorem scan_keeps_what_changed_behind_link :
    let before := [scanOf false linkedTree]
    let now := scanOf false rewrittenTree
    KeysDiffer (before ++ [now]) ∧ now.versions = [⟨ascii "g/a.gif", 5, 4⟩] ∧
      linkedTree.opened? (ascii "g/a.gif") = some (29, 1) ∧
      rewrittenTree.opened? (ascii "g/a.gif") = some (29, 2) ∧
      rewrittenTree.dimensions (ascii "g/a.gif") = ⟨4, 2⟩ ∧
      (now.scan (cacheAfter (.empty standardCapacity) before)).1 =
        .ok ([⟨ascii "g/a.gif", 5, 4, ⟨3, 2⟩⟩], ⟨1, 0, 1, 0, 1⟩) := by
  intro before now
  obtain ⟨hdimensionsBefore, hdimensionsNow⟩ := dimensions_linkedTree
  let link : FileVersion := ⟨ascii "g/a.gif", 5, 4⟩
  let unused : KnownDimensions := .empty standardCapacity
  have hfoundBefore : (scanOf false linkedTree).found? = some [link] :=
    found?_of_comesTo (by decide +kernel)
  have hfoundNow : (scanOf false rewrittenTree).found? = some [link] :=
    found?_of_comesTo (by decide +kernel)
  have hbefore : (scanOf false linkedTree).versions = [link] := by
    rw [versions, hfoundBefore, Option.getD_some]
  have hnow : (scanOf false rewrittenTree).versions = [link] := by
    rw [versions, hfoundNow, Option.getD_some]
  have hkeys : KeysDiffer (before ++ [now]) := by
    change KeysDiffer [scanOf false linkedTree, scanOf false rewrittenTree]
    rw [KeysDiffer, sightings_scanOf hbefore hnow ⟨rfl, rfl⟩]
    decide +kernel
  have hcache : cacheAfter unused before = unused.put link.key ⟨3, 2⟩ := by
    change ((scanOf false linkedTree).scan unused).2 = _
    rw [scan_of_found?_eq_some hfoundBefore]
    change (unused.put link.key (linkedTree.dimensions link.path)) = _
    rw [hdimensionsBefore]
  have hheld : (unused.put link.key ⟨3, 2⟩).peek? link.key = some ⟨3, 2⟩ :=
    Cache.peek?_put_self _ _ _ (by decide)
  refine ⟨hkeys, hnow, opened?_linkedTree.1, opened?_linkedTree.2, hdimensionsNow, ?_⟩
  rw [hcache, scan_of_found?_eq_some hfoundNow, Tree.pictures, Cache.fetch_of_peek?_eq_some hheld]
  rfl

end Visit

end Gallery
