import Gallery.Proofs.Tree.Resolution
import Gallery.Scan.Discovery

/-!
# What discovery finds

A walk keeps the path of every directory that it is in, and that path leads to the directory. So
a file version that is found under a path is the version of what the path leads to, of the
target of a link just as of a file. There is one exception: a link that is not followed is taken
for itself, and then the version is that of the link.

Paths are told apart by their components. Everything below an entry has the components of the
path of that entry in front, and entries of one directory differ in the last of them. So no path
is found twice, although following links may lead to one place along many ways.
-/

namespace Gallery

namespace Path

/-- Whether one path is another or continues it. -/
def Continues (path base : Bytes) : Prop := components base <+: components path

variable {path base : Bytes} {name other : Name}

/-- What continues the path of an entry continues that of its directory. -/
theorem Continues.of_join (hpath : Continues path (join base name)) : Continues path base := by
  rw [Continues, components_join] at hpath
  exact (List.prefix_append _ _).trans hpath

/-- No path continues those of two entries of a directory. -/
theorem Continues.name_eq (hname : Continues path (join base name))
    (hother : Continues path (join base other)) : name = other := by
  rw [Continues, components_join] at hname hother
  have hlength : (components base ++ [Move.enter name]).length =
      (components base ++ [Move.enter other]).length := by
    rw [List.length_append, List.length_append]
    rfl
  have hprefix := List.prefix_of_prefix_length_le hname hother (Nat.le_of_eq hlength)
  have hsame := hprefix.eq_of_length hlength
  exact Move.enter.inj (List.cons.inj (List.append_cancel_left hsame)).1

/-- The path of a directory does not continue that of an entry. -/
theorem not_continues_join : ¬Continues base (join base name) := by
  intro hbase
  rw [Continues, components_join] at hbase
  have hlength := hbase.length_le
  rw [List.length_append, List.length_singleton] at hlength
  omega

end Path

open Gallery.Path (Continues)

namespace Tree

/-- What stands under a path for discovery. -/
inductive Shows (tree : Tree) (follow : Bool) (path : Bytes) : Entry → Prop where
  /-- What the path leads to. -/
  | target {entry : Entry} (htarget : tree.target? path = some entry) : Shows tree follow path entry
  /-- A link at its end, if links are not followed. -/
  | link {target : Bytes} {modified : Int} (hfollow : follow = false)
      (hitself : tree.itself? path = some (.link target modified)) :
      Shows tree follow path (.link target modified)

/-- Whether a path leads to a directory. -/
structure LeadsTo (tree : Tree) (path : Bytes) (directory : Location) : Prop where
  resolved : tree.resolve? path = some directory
  isDirectory : tree.isDirectory directory

variable {tree : Tree} {follow : Bool} {directory : Location} {path : Bytes}

/-- Only a path with the extension of an image has an image file. -/
theorem mem_pictureAt {entry : Entry} {version : FileVersion} :
    version ∈ pictureAt path entry ↔ Path.isPicture path ∧ version = entry.version path := by
  unfold pictureAt
  cases Path.isPicture path <;> simp

/-- The image files at or below one entry of a directory. -/
def picturesUnder (tree : Tree) (follow : Bool) (depth : Nat) (ancestors : List Location)
    (directory : Location) (path : Bytes) : Name × Entry → List FileVersion
  | (name, .directory) =>
    tree.picturesBelow follow depth ((directory ++ [name]) :: ancestors) (directory ++ [name])
      (Path.join path name)
  | (name, .file content modified) => pictureAt (Path.join path name) (.file content modified)
  | (name, .link target modified) =>
    if !follow then pictureAt (Path.join path name) (.link target modified)
    else match tree.resolve? (Path.join path name) with
      | none => []
      | some target =>
        match tree.find? target with
        | none => []
        | some .directory =>
          if ancestors.contains target then []
          else tree.picturesBelow follow depth (target :: ancestors) target (Path.join path name)
        | some entry => pictureAt (Path.join path name) entry

/-- The image files below a directory are those at or below its entries. -/
theorem picturesBelow_succ (depth : Nat) (ancestors : List Location) :
    tree.picturesBelow follow (depth + 1) ancestors directory path =
      (tree.children directory).flatMap
        (tree.picturesUnder follow depth ancestors directory path) := by
  rw [picturesBelow]
  congr 1
  funext child
  obtain ⟨name, entry⟩ := child
  cases entry <;> rfl

/-- At or below an entry there is nothing, or what stands under its path, or what is below the
directory to which its path leads. -/
theorem picturesUnder_cases (follow : Bool) (depth : Nat) (ancestors : List Location)
    (hpath : tree.LeadsTo path directory) {child : Name × Entry}
    (hchild : child ∈ tree.children directory) :
    tree.picturesUnder follow depth ancestors directory path child = [] ∨
    (∃ shown, tree.Shows follow (Path.join path child.1) shown ∧
      tree.picturesUnder follow depth ancestors directory path child =
        pictureAt (Path.join path child.1) shown) ∨
    ∃ within target, tree.LeadsTo (Path.join path child.1) target ∧
      tree.picturesUnder follow depth ancestors directory path child =
        tree.picturesBelow follow depth within target (Path.join path child.1) := by
  obtain ⟨name, entry⟩ := child
  have hentry := find?_of_mem_children hchild
  have hresolved := resolve?_join hpath.resolved hpath.isDirectory hentry
  have hitself := itself?_join hpath.resolved hpath.isDirectory hentry
  cases entry with
  | file content modified =>
    refine .inr (.inl ⟨.file content modified, .target ?_, rfl⟩)
    rw [target?, hresolved nofun, Option.bind_some, hentry]
  | directory =>
    exact .inr (.inr ⟨_, _, ⟨hresolved nofun, by rw [isDirectory, hentry]; rfl⟩, rfl⟩)
  | link target modified =>
    cases hfollow : follow with
    | false => exact .inr (.inl ⟨_, .link rfl hitself, rfl⟩)
    | true =>
      simp only [picturesUnder, Bool.not_true, Bool.false_eq_true, if_false]
      cases hplace : tree.resolve? (Path.join path name) with
      | none => exact .inl rfl
      | some place =>
        dsimp only
        cases hfind : tree.find? place with
        | none => exact .inl rfl
        | some entry =>
          have htarget : tree.target? (Path.join path name) = some entry := by
            rw [target?, hplace, Option.bind_some, hfind]
          cases entry with
          | file | link => exact .inr (.inl ⟨_, .target htarget, rfl⟩)
          | directory =>
            dsimp only
            by_cases hwithin : ancestors.contains place
            · exact .inl (if_pos hwithin)
            · have hleads : tree.LeadsTo (Path.join path name) place :=
                ⟨hplace, by rw [isDirectory, hfind]; rfl⟩
              exact .inr (.inr ⟨_, place, hleads, if_neg hwithin⟩)

/-- File versions that are what stands under their paths, with paths that differ and are in some
range. -/
structure Found (tree : Tree) (follow : Bool) (range : Bytes → Prop) (versions : List FileVersion) :
    Prop where
  shows : ∀ version ∈ versions,
    ∃ entry, tree.Shows follow version.path entry ∧ version = entry.version version.path
  inside : ∀ version ∈ versions, range version.path
  distinct : (versions.map FileVersion.path).Nodup

namespace Found

variable {range wider : Bytes → Prop} {versions : List FileVersion}

/-- Nothing is wrong with nothing. -/
theorem nil : tree.Found follow range [] := ⟨nofun, nofun, List.nodup_nil⟩

/-- A range may be taken wider. -/
theorem mono (hversions : tree.Found follow range versions)
    (hwider : ∀ path, range path → wider path) : tree.Found follow wider versions where
  shows := hversions.shows
  inside version hversion := hwider _ (hversions.inside version hversion)
  distinct := hversions.distinct

/-- What stands under a path is found under it. -/
theorem pictureAt {shown : Entry} (hshown : tree.Shows follow path shown) :
    tree.Found follow (· = path) (pictureAt path shown) where
  shows version hversion := by
    obtain ⟨-, rfl⟩ := mem_pictureAt.1 hversion
    exact ⟨shown, hshown, rfl⟩
  inside version hversion := by
    obtain ⟨-, rfl⟩ := mem_pictureAt.1 hversion
    rfl
  distinct := by
    unfold Tree.pictureAt
    split
    · exact List.nodup_singleton _
    · exact List.nodup_nil

/-- What is found in ranges that do not meet is found together. -/
theorem append {others : List FileVersion} (hversions : tree.Found follow range versions)
    (hothers : tree.Found follow wider others) (hapart : ∀ path, range path → ¬wider path) :
    tree.Found follow (fun path => range path ∨ wider path) (versions ++ others) where
  shows version hversion := by
    obtain hfirst | hsecond := List.mem_append.1 hversion
    · exact hversions.shows version hfirst
    · exact hothers.shows version hsecond
  inside version hversion := by
    obtain hfirst | hsecond := List.mem_append.1 hversion
    · exact .inl (hversions.inside version hfirst)
    · exact .inr (hothers.inside version hsecond)
  distinct := by
    rw [List.map_append]
    refine hversions.distinct.append hothers.distinct ?_
    intro path hfirst hsecond
    obtain ⟨version, hversion, rfl⟩ := List.mem_map.1 hfirst
    obtain ⟨other, hother, hsame⟩ := List.mem_map.1 hsecond
    exact hapart _ (hversions.inside version hversion) (hsame ▸ hothers.inside other hother)

/-- The order does not matter. -/
theorem perm {others : List FileVersion} (hversions : tree.Found follow range versions)
    (hperm : others.Perm versions) : tree.Found follow range others where
  shows version hversion := hversions.shows version (hperm.mem_iff.1 hversion)
  inside version hversion := hversions.inside version (hperm.mem_iff.1 hversion)
  distinct := (hperm.map FileVersion.path).nodup_iff.2 hversions.distinct

/-- What is found at or below the entries of a directory is found together. -/
theorem flatMap {children : List (Name × Entry)} (hnames : (children.map Prod.fst).Nodup)
    {under : Name × Entry → List FileVersion} (hunder : ∀ child ∈ children,
      tree.Found follow (Continues · (Path.join path child.1)) (under child)) :
    tree.Found follow
      (fun found => ∃ name ∈ children.map Prod.fst, Continues found (Path.join path name))
      (children.flatMap under) := by
  induction children with
  | nil => exact .nil
  | cons child children ih =>
    rw [List.map_cons, List.nodup_cons] at hnames
    have hfirst := hunder child List.mem_cons_self
    have hothers := ih hnames.2 fun other hother => hunder other (List.mem_cons_of_mem _ hother)
    have hapart : ∀ found, Continues found (Path.join path child.1) →
        ¬∃ name ∈ children.map Prod.fst, Continues found (Path.join path name) := by
      rintro found hchild ⟨name, hname, hother⟩
      exact hnames.1 (hchild.name_eq hother ▸ hname)
    rw [List.flatMap_cons]
    refine (hfirst.append hothers hapart).mono ?_
    rintro found (hchild | ⟨name, hname, hother⟩)
    · exact ⟨child.1, List.mem_cons_self, hchild⟩
    · exact ⟨name, List.mem_cons_of_mem _ hname, hother⟩

end Found

/-- A walk below a directory finds what stands under paths of its entries and under what continues
these, and finds no path twice. -/
theorem found_picturesBelow (follow : Bool) (depth : Nat) (ancestors : List Location)
    (hpath : tree.LeadsTo path directory) :
    tree.Found follow (fun found => ∃ name, Continues found (Path.join path name))
      (tree.picturesBelow follow depth ancestors directory path) := by
  induction depth generalizing ancestors directory path with
  | zero => exact .nil
  | succ depth ih =>
    have hunder : ∀ child ∈ tree.children directory,
        tree.Found follow (Continues · (Path.join path child.1))
          (tree.picturesUnder follow depth ancestors directory path child) := by
      intro child hchild
      obtain hnone | ⟨shown, hshown, hhere⟩ | ⟨within, target, hleads, hbelow⟩ :=
        picturesUnder_cases follow depth ancestors hpath hchild
      · rw [hnone]
        exact .nil
      · rw [hhere]
        exact (Found.pictureAt hshown).mono fun found hfound => hfound ▸ List.prefix_refl _
      · rw [hbelow]
        exact (ih within hleads).mono fun found ⟨_, hfound⟩ => hfound.of_join
    rw [picturesBelow_succ]
    refine (Found.flatMap (tree.nodup_names_children directory) hunder).mono ?_
    rintro found ⟨name, -, hfound⟩
    exact ⟨name, hfound⟩

/-- A root that is found itself is a link that is not followed. -/
theorem found_pictureAtRoot (follow : Bool) (root : Bytes) :
    tree.Found follow (· = root) (tree.pictureAtRoot follow root) := by
  unfold pictureAtRoot
  cases hitself : tree.itself? root with
  | none => exact .nil
  | some entry =>
    cases entry with
    | file | directory => exact .nil
    | link target modified =>
      cases hfollow : follow with
      | true => exact .nil
      | false => exact .pictureAt (.link rfl hitself)

/-- A scan finds what stands under the paths that continue its root, and finds no path twice. -/
theorem found_discover (policy : ScanPolicy) {root : Bytes} (hroot : tree.LeadsTo root directory) :
    tree.Found policy.followLinks (Continues · root) (tree.discover policy root directory) := by
  have hbelow := found_picturesBelow policy.followLinks
    (policy.depthLimit?.getD tree.depthBound) [directory] hroot
  have hapart : ∀ found, found = root →
      ¬∃ name, Continues found (Path.join root name) := by
    rintro found rfl ⟨name, hname⟩
    exact Path.not_continues_join hname
  have hall := (found_pictureAtRoot policy.followLinks root).append hbelow hapart
  refine (hall.perm (List.mergeSort_perm _ _)).mono ?_
  rintro found (rfl | ⟨name, hname⟩)
  · exact List.prefix_refl _
  · exact hname.of_join

/-- The image files that a scan of a directory comes to, in the order in which it does. -/
def reached (tree : Tree) (policy : ScanPolicy) (root : Bytes) (directory : Location) :
    List FileVersion :=
  tree.pictureAtRoot policy.followLinks root ++
    tree.picturesBelow policy.followLinks (policy.depthLimit?.getD tree.depthBound) [directory]
      directory root

/-- If it comes to them in the order of their paths, there is nothing to sort. -/
theorem discover_of_ordered {policy : ScanPolicy} {root : Bytes} {versions : List FileVersion}
    (hreached : tree.reached policy root directory = versions)
    (hordered : versions.Pairwise fun first second => Path.precedes first.path second.path) :
    tree.discover policy root directory = versions := by
  subst hreached
  exact List.mergeSort_of_pairwise hordered

end Tree

end Gallery
