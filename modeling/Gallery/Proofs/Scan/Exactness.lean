import Gallery.Proofs.Scan.Transparency
import Gallery.Proofs.Scan.Walk
import Gallery.Proofs.Tree.Listing

/-!
# Discovery is exact

What discovery finds below a root is what walks find there, down to the depth that the policy
sets, among the names that have the extension of an image. The paths are strictly ordered, so each
is found once.

How directories list their entries decides the order in which discovery comes to them, and nothing
else. As the paths are ordered strictly there is one list of what is found, and with it the scan
asks its cache for the same keys in the same order.
-/

namespace Gallery

open Gallery.Path (joinAll Before)

/-- Whether entries at a depth below the root are looked at. -/
def ScanPolicy.Reaches (policy : ScanPolicy) (depth : Nat) : Prop :=
  (policy.recursive = false → depth ≤ 1) ∧
    (policy.recursive = true → policy.maxDepth ≠ 0 → depth ≤ policy.maxDepth)

/-- Up to a depth that is never passed, a policy looks at what its limit allows. -/
theorem ScanPolicy.le_depthLimit?_iff (policy : ScanPolicy) {depth bound : Nat}
    (hbound : depth ≤ bound) : depth ≤ policy.depthLimit?.getD bound ↔ policy.Reaches depth := by
  unfold depthLimit? Reaches
  cases policy.recursive with
  | false => simp
  | true => by_cases hdepth : policy.maxDepth = 0 <;> simp [hdepth, hbound]

namespace Tree

/-- Whether a file version is one that walks find below a root, as far as a policy goes and under a
name with the extension of an image. -/
def InScope (tree : Tree) (policy : ScanPolicy) (root : Bytes) (version : FileVersion) : Prop :=
  ∃ names name entry, tree.Finds policy.followLinks root (names ++ [name]) entry ∧
    policy.Reaches (names.length + 1) ∧ name.HasPictureExtension ∧
    version = entry.version (joinAll root (names ++ [name]))

variable {tree other : Tree} {policy : ScanPolicy} {root : Bytes} {directory : Location}

/-- A root that is no link is not found itself. -/
theorem pictureAtRoot_of_itself?_ne_link (follow : Bool)
    (hreal : ∀ target modified, tree.itself? root ≠ some (.link target modified)) :
    tree.pictureAtRoot follow root = [] := by
  unfold pictureAtRoot
  cases hitself : tree.itself? root with
  | none => rfl
  | some entry =>
    cases entry with
    | file | directory => rfl
    | link target modified => exact absurd hitself (hreal target modified)

/-- Below a root discovery finds what walks find, as far as the policy goes. -/
theorem mem_discover_iff (hroot : tree.LeadsTo root directory)
    (hreal : ∀ target modified, tree.itself? root ≠ some (.link target modified))
    (version : FileVersion) :
    version ∈ tree.discover policy root directory ↔ tree.InScope policy root version := by
  have hdepth {names : List Name} {name : Name} {entry : Entry}
      (hshown : tree.Finds policy.followLinks root (names ++ [name]) entry) :
      (names ++ [name]).length ≤ policy.depthLimit?.getD tree.depthBound ↔
        policy.Reaches (names.length + 1) := by
    rw [policy.le_depthLimit?_iff hshown.length_le_depthBound, List.length_append,
      List.length_singleton]
  have hbelow := mem_picturesBelow_iff (policy.depthLimit?.getD tree.depthBound) version
    (.root hroot : tree.Enters policy.followLinks root [] [directory])
  rw [discover, pictureAtRoot_of_itself?_ne_link _ hreal, List.nil_append, List.mem_mergeSort]
  refine hbelow.trans ⟨?_, ?_⟩
  · rintro ⟨more, shown, -, hlength, hshown, hversion⟩
    rw [List.nil_append] at hshown hversion
    obtain ⟨hpicture, hversion⟩ := mem_pictureAt.1 hversion
    obtain ⟨names, name, rfl⟩ := hshown.exists_concat
    rw [Path.joinAll_concat, Path.isPicture_join] at hpicture
    exact ⟨names, name, shown, hshown, (hdepth hshown).1 hlength, hpicture, hversion⟩
  · rintro ⟨names, name, entry, hshown, hreaches, hpicture, hversion⟩
    rw [← Path.isPicture_join (joinAll root names), ← Path.joinAll_concat] at hpicture
    exact ⟨names ++ [name], entry, List.append_ne_nil_of_right_ne_nil _ (List.cons_ne_nil _ _),
      (hdepth hshown).2 hreaches, hshown, mem_pictureAt.2 ⟨hpicture, hversion⟩⟩

/-- What discovery finds has the path of the root, with the names joined that lead to it. Only a root
that is itself found has none. -/
theorem exists_names_of_mem_discover (hroot : tree.LeadsTo root directory) {version : FileVersion}
    (hversion : version ∈ tree.discover policy root directory) :
    ∃ names, version.path = joinAll root names := by
  rw [discover, List.mem_mergeSort, List.mem_append] at hversion
  rcases hversion with hitself | hbelow
  · exact ⟨[], (found_pictureAtRoot policy.followLinks root).inside version hitself⟩
  · obtain ⟨names, shown, -, -, -, hpicture⟩ := (mem_picturesBelow_iff _ version (.root hroot)).1 hbelow
    exact ⟨names, congrArg FileVersion.path (mem_pictureAt.1 hpicture).2⟩

variable (policy) in
/-- The paths that discovery finds below a root are strictly ordered. -/
theorem pairwise_before_discover (hroot : tree.LeadsTo root directory) :
    ((tree.discover policy root directory).map FileVersion.path).Pairwise Before := by
  have hdistinct := List.pairwise_map.1 (found_discover policy hroot).distinct
  have hordered : (tree.discover policy root directory).Pairwise
      fun first second => Path.precedes first.path second.path := by
    apply List.pairwise_mergeSort
    · intro first second third
      exact Path.precedes_trans
    · intro first second
      exact Path.precedes_total first.path second.path
  rw [List.pairwise_map]
  refine (hordered.and hdistinct).imp_of_mem ?_
  intro first second hfirst hsecond hboth
  obtain ⟨names, hpath⟩ := exists_names_of_mem_discover hroot hfirst
  obtain ⟨others, hother⟩ := exists_names_of_mem_discover hroot hsecond
  refine Path.before_of_precedes hboth.1 fun hcomponents => hboth.2 ?_
  rw [hpath, hother] at hcomponents ⊢
  exact congrArg (joinAll root) (Path.joinAll_injective hcomponents)

/-- Files with the same dimensions give the same pictures, and the same is remembered of them. -/
theorem pictures_congr (hdimensions : other.dimensions = tree.dimensions) :
    other.pictures = tree.pictures := by
  funext cache versions
  induction versions generalizing cache with
  | nil => rfl
  | cons version versions ih => simp only [pictures, hdimensions, ih]

section

variable (hother : other.Relists tree)

include hother

/-- Discovery comes to the same below a directory, whatever the order of its entries. -/
theorem Relists.picturesBelow_perm (follow : Bool) (depth : Nat) (ancestors : List Location)
    (directory : Location) (path : Bytes) :
    (other.picturesBelow follow depth ancestors directory path).Perm
      (tree.picturesBelow follow depth ancestors directory path) := by
  induction depth generalizing ancestors directory path with
  | zero => exact .refl _
  | succ depth ih =>
    rw [picturesBelow_succ, picturesBelow_succ]
    refine (hother.entries.filterMap _).flatMap ?_
    rintro ⟨name, entry⟩ -
    cases entry with
    | file content modified => exact .refl _
    | directory => exact ih _ _ _
    | link target modified =>
      simp only [picturesUnder, hother.resolve?_eq, hother.find?_eq]
      split
      · exact .refl _
      · split
        · exact .refl _
        · split
          · exact .refl _
          · split
            · exact .refl _
            · exact ih _ _ _
          · exact .refl _

variable (policy) (hroot : tree.LeadsTo root directory)

include hroot

/-- Discovery finds the same below a root, whatever the order of entries. -/
theorem Relists.discover_eq :
    other.discover policy root directory = tree.discover policy root directory := by
  have hotherRoot : other.LeadsTo root directory :=
    ⟨by rw [hother.resolve?_eq, hroot.resolved], by rw [hother.isDirectory_eq, hroot.isDirectory]⟩
  have hperm : (other.discover policy root directory).Perm (tree.discover policy root directory) := by
    have hbound : other.depthBound = tree.depthBound := by
      rw [depthBound, depthBound, hother.entries.length_eq]
    have hroots : other.pictureAtRoot policy.followLinks root =
        tree.pictureAtRoot policy.followLinks root := by
      rw [pictureAtRoot, pictureAtRoot, hother.itself?_eq]
    rw [discover, discover, hbound, hroots]
    refine (List.mergeSort_perm _ _).trans (.trans ?_ (List.mergeSort_perm _ _).symm)
    exact (hother.picturesBelow_perm _ _ _ _ _).append_left _
  have hhere := List.pairwise_map.1 (pairwise_before_discover policy hroot)
  have hthere := List.pairwise_map.1 (pairwise_before_discover policy hotherRoot)
  refine hperm.eq_of_pairwise ?_ hthere hhere
  intro first second _ _ hbefore hafter
  exact absurd hafter hbefore.asymm

/-- A scan returns and remembers the same, whatever the order of entries. -/
theorem Relists.scan_eq (cache : KnownDimensions) :
    Scanner.scan ⟨policy, cache⟩ other root = Scanner.scan ⟨policy, cache⟩ tree root := by
  have hdiscover := hother.discover_eq policy hroot
  simp only [Scanner.scan, hother.resolve?_eq, hroot.resolved, hother.isDirectory_eq, hdiscover,
    pictures_congr hother.dimensions_eq]

end

/-- Discovery is exact. Below a root that is a directory and no link itself, it finds what walks
find as far as the policy goes, each file under the path by which it was come to and once, in the
strict order of paths. The order in which directories list their entries shows neither in what is
found, nor in what a scan returns, counts and remembers. -/
theorem discover_exact_in_any_order (policy : ScanPolicy) (hroot : tree.LeadsTo root directory)
    (hreal : ∀ target modified, tree.itself? root ≠ some (.link target modified)) :
    (∀ version, version ∈ tree.discover policy root directory ↔
      tree.InScope policy root version) ∧
    ((tree.discover policy root directory).map FileVersion.path).Pairwise Before ∧
    ∀ other : Tree, other.Relists tree →
      other.discover policy root directory = tree.discover policy root directory ∧
      ∀ cache, Scanner.scan ⟨policy, cache⟩ other root = Scanner.scan ⟨policy, cache⟩ tree root :=
  ⟨mem_discover_iff hroot hreal, pairwise_before_discover policy hroot, fun _ hother =>
    ⟨hother.discover_eq policy hroot, hother.scan_eq policy hroot⟩⟩

/-- A directory with a link to itself further down, a link out of it, and a link to nothing. -/
def looped : Tree :=
  let links := (Tree.empty.makeLink (ascii "g/c.png") (ascii "nothing") 0).makeLink (ascii "g/b")
    (ascii "/work/h") 0
  ((links.makeLink (ascii "g/a/loop") (ascii "..") 0).write (ascii "g/a/x.GIF") [] 1000000000).write
    (ascii "h/y.jpg") [1] 0

/-- The policy that follows links everywhere. -/
def following : ScanPolicy := { ScanPolicy.standard with followLinks := true }

/-- Where links are followed, the walk from the top finds what is behind the link out of the
directory, and passes the two others over. -/
theorem discover_exact_in_any_order_looped :
    looped.LeadsTo (ascii "/work/g") [start, ⟨ascii "g", by decide⟩] ∧
    (∀ target modified, looped.itself? (ascii "/work/g") ≠ some (.link target modified)) ∧
    ∀ version, looped.InScope following (ascii "/work/g") version ↔
      version ∈ [⟨ascii "/work/g/a/x.GIF", 1, 0⟩, ⟨ascii "/work/g/b/y.jpg", 0, 1⟩] := by
  have hroot : looped.LeadsTo (ascii "/work/g") [start, ⟨ascii "g", by decide⟩] :=
    ⟨by decide +kernel, by decide +kernel⟩
  have hitself : looped.itself? (ascii "/work/g") = some .directory := by decide +kernel
  have hreal : ∀ target modified,
      looped.itself? (ascii "/work/g") ≠ some (.link target modified) := by
    rw [hitself]
    exact nofun
  have hfound : looped.discover following (ascii "/work/g") [start, ⟨ascii "g", by decide⟩] =
      [⟨ascii "/work/g/a/x.GIF", 1, 0⟩, ⟨ascii "/work/g/b/y.jpg", 0, 1⟩] :=
    discover_of_ordered (by decide +kernel) (by decide +kernel)
  refine ⟨hroot, hreal, fun version => ?_⟩
  rw [← hfound]
  exact ((discover_exact_in_any_order following hroot hreal).1 version).symm

end Tree

end Gallery
