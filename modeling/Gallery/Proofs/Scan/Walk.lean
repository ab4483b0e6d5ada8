import Gallery.Proofs.Path.Joined
import Gallery.Proofs.Scan.Discovery
import Mathlib.Data.Finset.Card

/-!
# Walks below a root

A walk enters names one after another from a root, and is in one directory after another. What it
finds at the end is a file, or a link that is not followed, or the file to which a link leads
that is. The names decide the directories that the walk is in, so what discovery finds below one
of them can be told from the names that lead there.

Discovery stops at a depth that no walk reaches. A link that is followed leads to a directory that
the walk is not in, so the directories that it is in become more; and between two links the walk
only goes down, through directories that stand above each other in the tree.
-/

namespace Gallery.Tree

open Gallery.Path (joinAll joinAll_concat)

/-- The directory that a walk enters by what stands at a place: the place itself, or where a link
leads that is followed, unless the walk is in that directory. `path` is the path by which the walk
comes to the place, and `inside` are the directories that it is in. -/
inductive Descends (tree : Tree) (follow : Bool) (path : Bytes) (inside : List Location)
    (place : Location) : Location → Prop where
  | directory (hentry : tree.find? place = some .directory) :
      Descends tree follow path inside place place
  | link {directory : Location} {target : Bytes} {modified : Int} (hfollow : follow = true)
      (hentry : tree.find? place = some (.link target modified))
      (hleads : tree.LeadsTo path directory) (hloop : directory ∉ inside) :
      Descends tree follow path inside place directory

/-- What a walk meets at a place that it does not enter: a file, a link that is not followed, or the
file to which a link leads that is followed. -/
inductive Meets (tree : Tree) (follow : Bool) (path : Bytes) (place : Location) : Entry → Prop where
  | file {content : Bytes} {modified : Int}
      (hentry : tree.find? place = some (.file content modified)) :
      Meets tree follow path place (.file content modified)
  | link {target : Bytes} {modified : Int} (hfollow : follow = false)
      (hentry : tree.find? place = some (.link target modified)) :
      Meets tree follow path place (.link target modified)
  | followed {target content : Bytes} {modified changed : Int} (hfollow : follow = true)
      (hentry : tree.find? place = some (.link target modified))
      (htarget : tree.target? path = some (.file content changed)) :
      Meets tree follow path place (.file content changed)

/-- The directories that a walk is in when it has entered some names from a root, the last of them
first. -/
inductive Enters (tree : Tree) (follow : Bool) (root : Bytes) :
    List Name → List Location → Prop where
  | root {directory : Location} (hroot : tree.LeadsTo root directory) :
      Enters tree follow root [] [directory]
  | enter {names : List Name} {name : Name} {directory next : Location} {above : List Location}
      (habove : Enters tree follow root names (directory :: above))
      (hnext : tree.Descends follow (joinAll root (names ++ [name])) (directory :: above)
        (directory ++ [name]) next) :
      Enters tree follow root (names ++ [name]) (next :: directory :: above)

/-- What a walk finds when it has entered some names from a root and meets what stands under the
last one. -/
inductive Finds (tree : Tree) (follow : Bool) (root : Bytes) : List Name → Entry → Prop where
  | meet {names : List Name} {name : Name} {directory : Location} {above : List Location}
      {shown : Entry} (habove : tree.Enters follow root names (directory :: above))
      (hshown : tree.Meets follow (joinAll root (names ++ [name])) (directory ++ [name]) shown) :
      Finds tree follow root (names ++ [name]) shown

variable {tree : Tree} {follow : Bool} {root path : Bytes} {names more : List Name} {name : Name}
  {directory place next : Location} {above inside stack other : List Location} {shown : Entry}
  {version : FileVersion}

/-! ## One entry -/

/-- A walk enters something that stands at the place. -/
theorem Descends.exists_entry (hnext : tree.Descends follow path inside place next) :
    ∃ entry, tree.find? place = some entry := by
  cases hnext <;> exact ⟨_, ‹_›⟩

/-- A walk meets something that stands at the place. -/
theorem Meets.exists_entry (hshown : tree.Meets follow path place shown) :
    ∃ entry, tree.find? place = some entry := by
  cases hshown <;> exact ⟨_, ‹_›⟩

/-- A walk enters one directory by a place. -/
theorem Descends.unique (hnext : tree.Descends follow path inside place next) {others : Location}
    (hother : tree.Descends follow path inside place others) : next = others := by
  cases hnext with
  | directory hentry =>
    cases hother with
    | directory => rfl
    | link _ hlink => exact absurd (hentry.symm.trans hlink) nofun
  | link _ hentry hleads =>
    cases hother with
    | directory hdirectory => exact absurd (hentry.symm.trans hdirectory) nofun
    | link _ _ hother => exact Option.some.inj (hleads.resolved.symm.trans hother.resolved)

section Entry

variable {depth : Nat} {entry : Entry}

/-- What a walk meets at an entry is found there. -/
theorem mem_picturesUnder_of_meets (hentry : tree.find? (directory ++ [name]) = some entry)
    (hshown : tree.Meets follow (Path.join path name) (directory ++ [name]) shown)
    (hversion : version ∈ pictureAt (Path.join path name) shown) :
    version ∈ tree.picturesUnder follow depth inside directory path (name, entry) := by
  cases hshown with
  | file hfile =>
    obtain rfl := Option.some.inj (hentry.symm.trans hfile)
    exact hversion
  | link hfollow hlink =>
    obtain rfl := Option.some.inj (hentry.symm.trans hlink)
    rw [picturesUnder, hfollow]
    exact hversion
  | followed hfollow hlink htarget =>
    obtain rfl := Option.some.inj (hentry.symm.trans hlink)
    obtain ⟨goal, hplace, hfind⟩ := Option.bind_eq_some_iff.1 htarget
    simpa [picturesUnder, hfollow, hplace, hfind] using hversion

/-- What is below the directory that a walk enters by an entry is found there. -/
theorem mem_picturesUnder_of_descends (hentry : tree.find? (directory ++ [name]) = some entry)
    (hnext : tree.Descends follow (Path.join path name) inside (directory ++ [name]) next)
    (hversion :
      version ∈ tree.picturesBelow follow depth (next :: inside) next (Path.join path name)) :
    version ∈ tree.picturesUnder follow depth inside directory path (name, entry) := by
  cases hnext with
  | directory hdirectory =>
    obtain rfl := Option.some.inj (hentry.symm.trans hdirectory)
    exact hversion
  | link hfollow hlink hleads hloop =>
    obtain rfl := Option.some.inj (hentry.symm.trans hlink)
    have hfind := of_decide_eq_true hleads.isDirectory
    simpa [picturesUnder, hfollow, hleads.resolved, hfind, hloop] using hversion

/-- At a link that is followed, a walk meets what is found there or enters where it is found. -/
theorem meets_or_descends_of_followed {target : Bytes} {modified : Int}
    (hlink : tree.find? (directory ++ [name]) = some (.link target modified))
    (hversion : version ∈
      tree.picturesUnder true depth inside directory path (name, .link target modified)) :
    (∃ shown, tree.Meets true (Path.join path name) (directory ++ [name]) shown ∧
      version ∈ pictureAt (Path.join path name) shown) ∨
    ∃ next, tree.Descends true (Path.join path name) inside (directory ++ [name]) next ∧
      version ∈ tree.picturesBelow true depth (next :: inside) next (Path.join path name) := by
  simp only [picturesUnder, Bool.not_true, Bool.false_eq_true, if_false] at hversion
  cases hplace : tree.resolve? (Path.join path name) with
  | none => simp [hplace] at hversion
  | some goal =>
    simp only [hplace] at hversion
    cases hfind : tree.find? goal with
    | none => simp [hfind] at hversion
    | some entry =>
      have htarget : tree.target? (Path.join path name) = some entry := by
        rw [target?, hplace, Option.bind_some, hfind]
      simp only [hfind] at hversion
      cases entry with
      | file content changed => exact .inl ⟨_, .followed rfl hlink htarget, hversion⟩
      | link target changed => exact absurd htarget (target?_ne_link _ target changed)
      | directory =>
        have hleads : tree.LeadsTo (Path.join path name) goal :=
          ⟨hplace, by rw [isDirectory, hfind]; rfl⟩
        by_cases hloop : goal ∈ inside
        · simp [hloop] at hversion
        · rw [if_neg (by simpa using hloop)] at hversion
          exact .inr ⟨goal, .link rfl hlink hleads hloop, hversion⟩

/-- At or below an entry discovery finds what a walk meets there and what is below the directory
that it enters. -/
theorem mem_picturesUnder_iff (hentry : tree.find? (directory ++ [name]) = some entry) :
    version ∈ tree.picturesUnder follow depth inside directory path (name, entry) ↔
      (∃ shown, tree.Meets follow (Path.join path name) (directory ++ [name]) shown ∧
        version ∈ pictureAt (Path.join path name) shown) ∨
      ∃ next, tree.Descends follow (Path.join path name) inside (directory ++ [name]) next ∧
        version ∈ tree.picturesBelow follow depth (next :: inside) next (Path.join path name) := by
  constructor
  · intro hversion
    cases entry with
    | file content modified => exact .inl ⟨_, .file hentry, hversion⟩
    | directory => exact .inr ⟨_, .directory hentry, hversion⟩
    | link target modified =>
      cases follow with
      | false => exact .inl ⟨_, .link rfl hentry, hversion⟩
      | true => exact meets_or_descends_of_followed hentry hversion
  · rintro (⟨shown, hshown, hversion⟩ | ⟨next, hnext, hversion⟩)
    · exact mem_picturesUnder_of_meets hentry hshown hversion
    · exact mem_picturesUnder_of_descends hentry hnext hversion

end Entry

/-! ## Names -/

/-- The names that a walk has entered decide the directories that it is in. -/
theorem Enters.unique (hstack : tree.Enters follow root names stack)
    (hother : tree.Enters follow root names other) : stack = other := by
  induction hstack generalizing other with
  | root hroot =>
    generalize hnames : ([] : List Name) = entered at hother
    cases hother with
    | root hother => rw [Option.some.inj (hroot.resolved.symm.trans hother.resolved)]
    | enter => exact absurd hnames.symm (List.append_ne_nil_of_right_ne_nil _ nofun)
  | @enter names name directory next above habove hnext ih =>
    generalize hnames : names ++ [name] = entered at hother
    cases hother with
    | root => exact absurd hnames (List.append_ne_nil_of_right_ne_nil _ nofun)
    | enter hbefore hother =>
      obtain ⟨rfl, hname⟩ := List.append_inj' hnames rfl
      obtain rfl := List.singleton_inj.1 hname
      obtain ⟨rfl, rfl⟩ := List.cons.inj (ih hbefore)
      rw [hnext.unique hother]

/-- A walk that has entered some names entered the first of them before. -/
theorem Enters.of_append (hstack : tree.Enters follow root (names ++ more) stack) :
    ∃ directory above, tree.Enters follow root names (directory :: above) := by
  induction more using List.reverseRecOn generalizing stack with
  | nil =>
    rw [List.append_nil] at hstack
    cases hstack with
    | root hroot => exact ⟨_, _, .root hroot⟩
    | enter habove hnext => exact ⟨_, _, .enter habove hnext⟩
  | append_singleton more name ih =>
    generalize hnames : names ++ (more ++ [name]) = entered at hstack
    rw [← List.append_assoc] at hnames
    cases hstack with
    | root => exact absurd hnames (List.append_ne_nil_of_right_ne_nil _ nofun)
    | enter habove =>
      obtain ⟨rfl, -⟩ := List.append_inj' hnames rfl
      exact ih habove

/-- What a walk finds has a last name. -/
theorem Finds.exists_concat (hshown : tree.Finds follow root names shown) :
    ∃ front last, names = front ++ [last] := by
  cases hshown with
  | meet => exact ⟨_, _, rfl⟩

/-- What a walk finds it meets in the directory that it is in. -/
theorem Finds.meets (hshown : tree.Finds follow root (names ++ [name]) shown)
    (habove : tree.Enters follow root names (directory :: above)) :
    tree.Meets follow (joinAll root (names ++ [name])) (directory ++ [name]) shown := by
  generalize hnames : names ++ [name] = entered at hshown
  cases hshown with
  | meet hbefore hmeets =>
    obtain ⟨rfl, hname⟩ := List.append_inj' hnames rfl
    obtain rfl := List.singleton_inj.1 hname
    obtain ⟨rfl, rfl⟩ := List.cons.inj (habove.unique hbefore)
    exact hmeets

/-- What a walk finds below an entry is in a directory that it enters there. -/
theorem Finds.descends (hshown : tree.Finds follow root (names ++ [name] ++ more) shown)
    (hmore : more ≠ []) (habove : tree.Enters follow root names (directory :: above)) :
    ∃ next, tree.Descends follow (joinAll root (names ++ [name])) (directory :: above)
      (directory ++ [name]) next := by
  obtain ⟨front, last, rfl⟩ := List.eq_nil_or_concat' more |>.resolve_left hmore
  generalize hnames : names ++ [name] ++ (front ++ [last]) = entered at hshown
  cases hshown with
  | meet hbefore =>
    rw [← List.append_assoc] at hnames
    obtain ⟨rfl, -⟩ := List.append_inj' hnames rfl
    obtain ⟨place, within, hentered⟩ := hbefore.of_append
    generalize hall : names ++ [name] = entered at hentered
    cases hentered with
    | root => exact absurd hall (List.append_ne_nil_of_right_ne_nil _ nofun)
    | enter hthere hnext =>
      obtain ⟨rfl, hname⟩ := List.append_inj' hall rfl
      obtain rfl := List.singleton_inj.1 hname
      obtain ⟨rfl, rfl⟩ := List.cons.inj (habove.unique hthere)
      exact ⟨place, hnext⟩

/-- Below a directory that a walk is in, discovery finds the images that the walk finds when it
enters further names, no more of them than the depth. -/
theorem mem_picturesBelow_iff (depth : Nat) (version : FileVersion)
    (habove : tree.Enters follow root names (directory :: above)) :
    version ∈ tree.picturesBelow follow depth (directory :: above) directory (joinAll root names) ↔
      ∃ more shown, more ≠ [] ∧ more.length ≤ depth ∧ tree.Finds follow root (names ++ more) shown ∧
        version ∈ pictureAt (joinAll root (names ++ more)) shown := by
  induction depth generalizing names directory above with
  | zero =>
    constructor
    · exact nofun
    · rintro ⟨more, shown, hmore, hdepth, -⟩
      exact absurd (List.length_eq_zero_iff.1 (Nat.le_zero.1 hdepth)) hmore
  | succ depth ih =>
    rw [picturesBelow_succ, List.mem_flatMap]
    constructor
    · rintro ⟨⟨name, entry⟩, hchild, hversion⟩
      rw [mem_picturesUnder_iff (mem_children_iff.1 hchild), ← joinAll_concat] at hversion
      obtain ⟨shown, hshown, hversion⟩ | ⟨next, hnext, hversion⟩ := hversion
      · exact ⟨[name], shown, List.cons_ne_nil _ _, Nat.succ_le_succ (Nat.zero_le _),
          .meet habove hshown, hversion⟩
      · obtain ⟨more, shown, -, hdepth, hshown, hversion⟩ := (ih (.enter habove hnext)).1 hversion
        rw [← List.append_cons] at hshown hversion
        exact ⟨name :: more, shown, List.cons_ne_nil _ _, Nat.succ_le_succ hdepth, hshown, hversion⟩
    · rintro ⟨more, shown, hmore, hdepth, hshown, hversion⟩
      cases more with
      | nil => contradiction
      | cons name more =>
        rw [List.append_cons] at hshown hversion
        by_cases hlast : more = []
        · subst hlast
          rw [List.append_nil] at hshown hversion
          have hmeets := hshown.meets habove
          obtain ⟨entry, hentry⟩ := hmeets.exists_entry
          refine ⟨(name, entry), mem_children_iff.2 hentry, ?_⟩
          rw [mem_picturesUnder_iff hentry, ← joinAll_concat]
          exact .inl ⟨shown, hmeets, hversion⟩
        · obtain ⟨next, hnext⟩ := hshown.descends hlast habove
          obtain ⟨entry, hentry⟩ := hnext.exists_entry
          have hbelow := (ih (.enter habove hnext)).2
            ⟨more, shown, hlast, Nat.le_of_succ_le_succ hdepth, hshown, hversion⟩
          refine ⟨(name, entry), mem_children_iff.2 hentry, ?_⟩
          rw [mem_picturesUnder_iff hentry, ← joinAll_concat]
          exact .inr ⟨next, hnext, hbelow⟩

/-! ## Their number -/

/-- Where a path leads to a directory, a directory stands at every place above. -/
theorem LeadsTo.isDirectory_above (hpath : tree.LeadsTo path directory)
    (hplace : place <+: directory) : tree.isDirectory place := by
  by_cases hsame : place = directory
  · rw [hsame]
    exact hpath.isDirectory
  · exact kept_belowDirectories.resolve? hpath.resolved place hplace hsame

/-- A directory with directories above it is no deeper than the tree has entries. -/
theorem length_le_of_isDirectory_above
    (hdirectory : ∀ place, place <+: directory → tree.isDirectory place) :
    directory.length ≤ tree.entries.length := by
  let places := (List.range directory.length).map fun count => directory.take (count + 1)
  have hdistinct : places.Nodup := by
    refine List.nodup_range.map_on fun first hfirst second hsecond htake => ?_
    rw [List.mem_range] at hfirst hsecond
    have hlength := congrArg List.length htake
    simp only [List.length_take] at hlength
    omega
  have hentries : places ⊆ tree.entries.map Prod.fst := by
    intro place hplace
    obtain ⟨count, hcount, rfl⟩ := List.mem_map.1 hplace
    have hbelow : directory.take (count + 1) ≠ [] := by
      rw [Ne, List.take_eq_nil_iff]
      rintro (hzero | rfl)
      · omega
      · simp at hcount
    have hhere := of_decide_eq_true (hdirectory _ (directory.take_prefix (count + 1)))
    exact List.mem_map_of_mem (mem_entries_of_find? hbelow hhere)
  simpa [places] using (hdistinct.subperm hentries).length_le

/-- A directory stands at every place above those that a walk is in. -/
theorem Enters.isDirectory_above (hstack : tree.Enters follow root names stack) :
    ∀ directory ∈ stack, ∀ place, place <+: directory → tree.isDirectory place := by
  induction hstack with
  | root hroot =>
    intro directory hdirectory place hplace
    obtain rfl := List.mem_singleton.1 hdirectory
    exact hroot.isDirectory_above hplace
  | enter habove hnext ih =>
    intro directory hdirectory place hplace
    obtain rfl | hbefore := List.mem_cons.1 hdirectory
    · cases hnext with
      | directory hentry =>
        obtain rfl | hhigher := List.prefix_concat_iff.1 hplace
        · exact decide_eq_true hentry
        · exact ih _ List.mem_cons_self place hhigher
      | link _ _ hleads => exact hleads.isDirectory_above hplace
    · exact ih directory hbefore place hplace

/-- A walk is in no more directories than there are. -/
theorem Enters.card_le (hstack : tree.Enters follow root names stack) :
    stack.toFinset.card ≤ tree.entries.length + 1 := by
  have hplaces : stack.toFinset ⊆ ([] :: tree.entries.map Prod.fst).toFinset := by
    intro directory hdirectory
    rw [List.mem_toFinset] at hdirectory ⊢
    by_cases htop : directory = []
    · exact htop ▸ List.mem_cons_self
    · have hhere := hstack.isDirectory_above directory hdirectory directory (List.prefix_refl _)
      have hentry := mem_entries_of_find? htop (of_decide_eq_true hhere)
      exact List.mem_cons_of_mem _ (List.mem_map_of_mem hentry)
  calc stack.toFinset.card
      ≤ ([] :: tree.entries.map Prod.fst).toFinset.card := Finset.card_le_card hplaces
    _ ≤ ([] :: tree.entries.map Prod.fst).length := List.toFinset_card_le _
    _ = tree.entries.length + 1 := by rw [List.length_cons, List.length_map]

/-- Every directory that a walk enters either is deeper in the tree than the last, or is one more
directory that it is in. -/
theorem Enters.length_add_le (hstack : tree.Enters follow root names (directory :: above)) :
    names.length + (tree.entries.length + 1) ≤
      (directory :: above).toFinset.card * (tree.entries.length + 1) + directory.length := by
  generalize hall : directory :: above = stack at hstack
  induction hstack generalizing directory above with
  | root =>
    obtain ⟨rfl, rfl⟩ := List.cons.inj hall
    simp
  | @enter names name last next within habove hnext ih =>
    obtain ⟨rfl, rfl⟩ := List.cons.inj hall
    have hbefore := ih rfl
    rw [List.length_append, List.length_singleton]
    cases hnext with
    | directory =>
      have hcard : (last :: within).toFinset.card ≤
          ((last ++ [name]) :: last :: within).toFinset.card := by
        refine Finset.card_le_card fun place hplace => ?_
        rw [List.mem_toFinset] at hplace ⊢
        exact List.mem_cons_of_mem _ hplace
      have hmul := Nat.mul_le_mul_right (tree.entries.length + 1) hcard
      rw [List.length_append, List.length_singleton]
      omega
    | link _ _ _ hloop =>
      have hdeep := length_le_of_isDirectory_above
        (habove.isDirectory_above last List.mem_cons_self)
      have hcard : (directory :: last :: within).toFinset.card =
          (last :: within).toFinset.card + 1 := by
        rw [List.toFinset_cons, Finset.card_insert_of_notMem]
        rwa [List.mem_toFinset]
      rw [hcard, Nat.add_mul, Nat.one_mul]
      omega

/-- No walk finds anything at a greater depth than discovery goes to. -/
theorem Finds.length_le_depthBound (hshown : tree.Finds follow root names shown) :
    names.length ≤ tree.depthBound := by
  cases hshown with
  | meet habove =>
    have hlength := habove.length_add_le
    have hcard := Nat.mul_le_mul_right (tree.entries.length + 1) habove.card_le
    have hdeep := length_le_of_isDirectory_above
      (habove.isDirectory_above _ List.mem_cons_self)
    rw [List.length_append, List.length_singleton, depthBound]
    omega

end Gallery.Tree
