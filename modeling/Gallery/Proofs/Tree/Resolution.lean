import Gallery.Lookup
import Gallery.Path.Components
import Gallery.Tree.Basic
import Mathlib.Data.List.Nodup

/-!
# Paths through a tree

A path of an entry leads to the entry: where the path of a directory leads to the directory,
joining the name of an entry to it leads to the place of that entry, through no more links than
before. Only a link at the very end makes a difference. It is left for its target, or it is
taken for itself, as is asked for.

The walk knows nothing of paths that are joined, but takes moves one by one. So this rests on
what a walk does when it has further moves to go. That a walk which follows links never ends at
one is seen from the same moves, together with everything above the places that it comes to.
-/

namespace Gallery.Tree

variable (tree : Tree)

/-- A path that begins with a slash is walked from the top, whatever the working directory. -/
theorem arrive_of_slash (follow : Bool) {path : Bytes} (hslash : path.head? = some slash) :
    tree.arrive follow path = tree.walkTo follow linkLimit [] (Path.moves path) := by
  have hnonempty : path ≠ [] := by
    rintro rfl
    contradiction
  obtain ⟨others, hmoves⟩ : ∃ others, Path.moves path = .top :: others := by
    rw [Path.moves, if_pos hslash]
    exact ⟨_, rfl⟩
  have hstep (location : Location) (habove : location <+: tree.workingDirectory) :
      tree.advance follow location (.top :: others) = tree.advance follow [] others := by
    rw [advance, tree.isDirectory_of_prefix habove]
    rfl
  rw [arrive, if_neg hnonempty, hmoves, walkTo.eq_def, walkTo.eq_def tree follow linkLimit [],
    hstep _ (List.prefix_refl _), hstep [] List.nil_prefix]

/-- The top is its own parent. -/
example : empty.resolve? (ascii "../../..") = some [] ∧
    empty.resolve? (ascii "/../work/.") = some [start] := by decide

/-- A walk with further moves to go leaves a link at the end of the first ones for its target,
and goes on from where they lead. -/
theorem advance_append (follow : Bool) (location : Location) (first : List Move)
    {second : List Move} (hsecond : second ≠ []) :
    tree.advance follow location (first ++ second) =
      match tree.advance true location first with
      | .found location => tree.advance follow location second
      | .redirected location moves => .redirected location (moves ++ second)
      | _ => .nowhere := by
  induction first generalizing location with
  | nil => rfl
  | cons move first ih =>
    have hmore : (first ++ second).isEmpty = false := by simp [hsecond]
    simp only [List.cons_append, advance]
    cases tree.isDirectory location with
    | false => rfl
    | true =>
      simp only [if_true]
      cases move with
      | top => exact ih []
      | here => exact ih location
      | up => exact ih location.dropLast
      | enter name =>
        dsimp only
        cases tree.find? (location ++ [name]) with
        | none => cases first <;> simp [hsecond]
        | some entry =>
          cases entry with
          | file content modified => exact ih (location ++ [name])
          | directory => exact ih (location ++ [name])
          | link target modified => simp [hmore]

/-- The same along links: what is left of the way is walked from where the first moves lead. -/
theorem walkTo_append (follow : Bool) (links : Nat) {location arrived last : Location}
    {first second : List Move} (hsecond : second ≠ [])
    (hfirst : tree.walkTo true links location first = .found arrived)
    (hlast : tree.advance follow arrived second = .found last) :
    tree.walkTo follow links location (first ++ second) = .found last := by
  -- A link on the way puts the moves of its target in front of those that are left, in both walks.
  fun_induction walkTo tree true links location first with
  | case1 => contradiction
  | case2 location first reached moves hadvance links ih =>
    rw [walkTo, advance_append tree follow location first hsecond, hadvance]
    exact ih hfirst
  | case3 links location first =>
    rw [walkTo.eq_def, advance_append tree follow location first hsecond, hfirst]
    simp only [hlast]

/-- A slash at the end of a path asks for a directory and changes nothing else. -/
theorem walkTo_concat_here (links : Nat) {location arrived : Location} {moves : List Move}
    (harrived : tree.walkTo true links location (moves ++ [.here]) = .found arrived) :
    tree.walkTo true links location moves = .found arrived := by
  have hstay (location : Location) : tree.advance true location [.here] =
      if tree.isDirectory location then .found location else .nowhere := rfl
  fun_induction walkTo tree true links location moves with
  | case1 location moves reached others hadvance =>
    rw [walkTo, advance_append tree true location moves (List.cons_ne_nil _ _),
      hadvance] at harrived
    contradiction
  | case2 location moves reached others hadvance links ih =>
    rw [walkTo, advance_append tree true location moves (List.cons_ne_nil _ _),
      hadvance] at harrived
    exact ih harrived
  | case3 links location moves hnot =>
    rw [walkTo.eq_def, advance_append tree true location moves (List.cons_ne_nil _ _)] at harrived
    cases hadvance : tree.advance true location moves with
    | found reached =>
      rw [hadvance] at harrived
      simp only [hstay] at harrived
      cases hdirectory : tree.isDirectory reached with
      | true => simpa [hdirectory] using harrived
      | false => simp [hdirectory] at harrived
    | redirected reached others => exact absurd hadvance (hnot reached others)
    | absent | nowhere =>
      rw [hadvance] at harrived
      contradiction

/-- Resolving a path is walking its moves. -/
theorem walkTo_of_resolve? {path : Bytes} {location : Location}
    (hpath : tree.resolve? path = some location) :
    path ≠ [] ∧
      tree.walkTo true linkLimit tree.workingDirectory (Path.moves path) = .found location := by
  unfold resolve? arrive at hpath
  by_cases hempty : path = []
  · rw [if_pos hempty] at hpath
    contradiction
  · rw [if_neg hempty] at hpath
    refine ⟨hempty, ?_⟩
    cases harrived : tree.walkTo true linkLimit tree.workingDirectory (Path.moves path) with
    | found reached =>
      rw [harrived] at hpath
      rw [Option.some.inj hpath]
    | absent | redirected | nowhere =>
      rw [harrived] at hpath
      contradiction

/-- The path of an entry leads to the entry, unless it is a link that is to be followed. -/
theorem arrive_join {path : Bytes} {directory : Location} (follow : Bool) {name : Name}
    {entry : Entry} (hpath : tree.resolve? path = some directory)
    (hdirectory : tree.isDirectory directory)
    (hentry : tree.find? (directory ++ [name]) = some entry)
    (hstops : follow = true → ∀ target modified, entry ≠ .link target modified) :
    tree.arrive follow (Path.join path name) = .found (directory ++ [name]) := by
  obtain ⟨hnonempty, hwalk⟩ := tree.walkTo_of_resolve? hpath
  -- Joining drops the slash at the end of the directory, if there is one.
  have hfront : tree.walkTo true linkLimit tree.workingDirectory (Path.frontMoves path) =
      .found directory := by
    have hmoves : Path.moves path = Path.frontMoves path ++
      (if path.getLast? = some slash then [.here] else []) := rfl
    rw [hmoves] at hwalk
    by_cases hslash : path.getLast? = some slash
    · rw [if_pos hslash] at hwalk
      exact tree.walkTo_concat_here linkLimit hwalk
    · rwa [if_neg hslash, List.append_nil] at hwalk
  have hlast : tree.advance follow directory [.enter name] = .found (directory ++ [name]) := by
    rw [advance, hdirectory]
    simp only [if_true, hentry]
    cases entry with
    | file content modified => rfl
    | directory => rfl
    | link target modified =>
      cases follow with
      | false => rfl
      | true => exact absurd rfl (hstops rfl target modified)
  have hjoin : Path.join path name ≠ [] := by
    unfold Path.join
    split <;> simp [hnonempty]
  rw [arrive, if_neg hjoin, Path.moves_join name hnonempty]
  exact tree.walkTo_append follow linkLimit (List.cons_ne_nil _ _) hfront hlast

variable {tree} {path : Bytes} {directory : Location} {name : Name}

/-- The path of an entry that is no link resolves to the entry. -/
theorem resolve?_join {entry : Entry} (hpath : tree.resolve? path = some directory)
    (hdirectory : tree.isDirectory directory)
    (hentry : tree.find? (directory ++ [name]) = some entry)
    (hplain : ∀ target modified, entry ≠ .link target modified) :
    tree.resolve? (Path.join path name) = some (directory ++ [name]) := by
  rw [resolve?, tree.arrive_join true hpath hdirectory hentry fun _ => hplain]

/-- The path of a link, when it is not left for its target, leads to the link. -/
theorem itself?_join {entry : Entry} (hpath : tree.resolve? path = some directory)
    (hdirectory : tree.isDirectory directory)
    (hentry : tree.find? (directory ++ [name]) = some entry) :
    tree.itself? (Path.join path name) = some entry := by
  rw [itself?, tree.arrive_join false hpath hdirectory hentry (fun hfollow => nomatch hfollow)]
  exact hentry

/-! ## Where links are followed -/

variable (tree) in
/-- Whether what holds of a place is kept by a walk: where walks start, that is at the top and in
the working directory, going up, and entering what is no link. -/
structure Kept (holds : Location → Prop) : Prop where
  start : ∀ location, location <+: tree.workingDirectory → holds location
  up : ∀ location, holds location → holds location.dropLast
  enter : ∀ location name entry, holds location → tree.isDirectory location →
    tree.find? (location ++ [name]) = some entry →
    (∀ target modified, entry ≠ .link target modified) → holds (location ++ [name])

/-- What a walk that follows links keeps, holds where it ends and where it is redirected. -/
theorem Kept.advance {holds : Location → Prop} (hkept : tree.Kept holds) {location : Location}
    (hlocation : holds location) (moves : List Move) {reached : Location}
    (hreached : tree.advance true location moves = .found reached ∨
      ∃ others, tree.advance true location moves = .redirected reached others) :
    holds reached := by
  induction moves generalizing location with
  | nil =>
    obtain hfound | ⟨others, hredirected⟩ := hreached
    · exact Arrival.found.inj hfound ▸ hlocation
    · contradiction
  | cons move moves ih =>
    simp only [Tree.advance] at hreached
    cases hdirectory : tree.isDirectory location with
    | false => simp [hdirectory] at hreached
    | true =>
      simp only [hdirectory, if_true] at hreached
      cases move with
      | top => exact ih (hkept.start [] List.nil_prefix) hreached
      | here => exact ih hlocation hreached
      | up => exact ih (hkept.up location hlocation) hreached
      | enter name =>
        cases hentry : tree.find? (location ++ [name]) with
        | none =>
          simp only [hentry] at hreached
          cases moves <;> simp at hreached
        | some entry =>
          have hbelow := hkept.enter location name entry hlocation hdirectory hentry
          cases entry with
          | file content modified =>
            simp only [hentry] at hreached
            exact ih (hbelow nofun) hreached
          | directory =>
            simp only [hentry] at hreached
            exact ih (hbelow nofun) hreached
          | link target modified =>
            simp only [hentry, Bool.not_true, Bool.and_false, Bool.false_eq_true,
              if_false] at hreached
            obtain hfound | ⟨others, hredirected⟩ := hreached
            · contradiction
            · exact (Arrival.redirected.inj hredirected).1 ▸ hlocation

/-- The same along links. -/
theorem Kept.walkTo {holds : Location → Prop} (hkept : tree.Kept holds) {links : Nat}
    {location reached : Location} {moves : List Move} (hlocation : holds location)
    (hreached : tree.walkTo true links location moves = .found reached) : holds reached := by
  fun_induction Tree.walkTo tree true links location moves with
  | case1 => contradiction
  | case2 location moves next others hadvance links ih =>
    exact ih (hkept.advance hlocation moves (.inr ⟨others, hadvance⟩)) hreached
  | case3 links location moves => exact hkept.advance hlocation moves (.inl hreached)

/-- What a walk keeps holds at the end of every path that is resolved. -/
theorem Kept.resolve? {holds : Location → Prop} (hkept : tree.Kept holds) {location : Location}
    (hpath : tree.resolve? path = some location) : holds location :=
  hkept.walkTo (hkept.start _ (List.prefix_refl _)) (tree.walkTo_of_resolve? hpath).2

variable (tree) in
/-- Whether no link stands at a place, nor above it. A walk may go up from a place, so what is
above it belongs to the invariant. -/
def ClearOfLinks (location : Location) : Prop :=
  ∀ place, place <+: location → ∀ target modified, tree.find? place ≠ some (.link target modified)

/-- A walk that follows links stays clear of them. -/
theorem kept_clearOfLinks : tree.Kept tree.ClearOfLinks where
  start location habove place hplace target modified hlink := by
    have hdirectory := of_decide_eq_true (tree.isDirectory_of_prefix (hplace.trans habove))
    exact absurd (hdirectory.symm.trans hlink) nofun
  up location hlocation place hplace :=
    hlocation place (hplace.trans location.dropLast_prefix)
  enter location name entry hlocation _ hentry hplain place hplace target modified hlink := by
    obtain rfl | habove := List.prefix_concat_iff.1 hplace
    · exact hplain target modified (Option.some.inj (hentry.symm.trans hlink))
    · exact hlocation place habove target modified hlink

variable (tree) in
/-- Whether directories stand everywhere above a place. -/
def BelowDirectories (location : Location) : Prop :=
  ∀ place, place <+: location → place ≠ location → tree.isDirectory place

/-- A walk that follows links stays below directories. -/
theorem kept_belowDirectories : tree.Kept tree.BelowDirectories where
  start location habove place hplace _ := tree.isDirectory_of_prefix (hplace.trans habove)
  up location hlocation place hplace hother := by
    refine hlocation place (hplace.trans location.dropLast_prefix) fun hsame => hother ?_
    exact hplace.eq_of_length_le (hsame ▸ location.dropLast_prefix.length_le)
  enter location name entry hlocation hdirectory _ _ place hplace hother := by
    obtain rfl | habove := List.prefix_concat_iff.1 hplace
    · contradiction
    · by_cases hsame : place = location
      · rwa [hsame]
      · exact hlocation place habove hsame

/-- No link stands at the end of a path that is resolved. -/
theorem target?_ne_link (path target : Bytes) (modified : Int) :
    tree.target? path ≠ some (.link target modified) := by
  intro hlink
  obtain ⟨location, hpath, hfind⟩ := Option.bind_eq_some_iff.1 hlink
  have hclear := kept_clearOfLinks.resolve? hpath
  exact hclear location (List.prefix_refl location) target modified hfind

/-! ## The entries of a directory -/

/-- What a directory lists for an entry: its last name, if it stands in the directory. -/
theorem listed_eq_some_iff {location : Location} {entry listed : Entry} :
    (if location.dropLast = directory then location.getLast?.map fun name => (name, entry)
      else none) = some (name, listed) ↔ location = directory ++ [name] ∧ entry = listed := by
  constructor
  · intro hlisted
    by_cases hdirectory : location.dropLast = directory
    · rw [if_pos hdirectory, Option.map_eq_some_iff] at hlisted
      obtain ⟨last, hlast, hsame⟩ := hlisted
      obtain ⟨rfl, rfl⟩ := Prod.mk.inj hsame
      rw [← hdirectory, List.dropLast_append_getLast? last hlast]
      exact ⟨rfl, rfl⟩
    · rw [if_neg hdirectory] at hlisted
      contradiction
  · rintro ⟨rfl, rfl⟩
    simp

/-- An entry that is listed stands at its place. -/
theorem find?_of_mem_children {entry : Entry} (hchild : (name, entry) ∈ tree.children directory) :
    tree.find? (directory ++ [name]) = some entry := by
  obtain ⟨⟨location, other⟩, hentry, hlisted⟩ := List.mem_filterMap.1 hchild
  obtain ⟨rfl, rfl⟩ := listed_eq_some_iff.1 hlisted
  rw [find?, if_neg (List.append_ne_nil_of_right_ne_nil _ (List.cons_ne_nil _ _))]
  exact lookup_of_mem tree.distinct hentry

/-- What stands anywhere but at the top is an entry. -/
theorem mem_entries_of_find? {location : Location} {entry : Entry} (hbelow : location ≠ [])
    (hentry : tree.find? location = some entry) : (location, entry) ∈ tree.entries := by
  rw [find?, if_neg hbelow] at hentry
  exact mem_of_lookup_eq_some hentry

/-- A directory lists what stands in it. -/
theorem mem_children_iff {entry : Entry} :
    (name, entry) ∈ tree.children directory ↔ tree.find? (directory ++ [name]) = some entry := by
  refine ⟨find?_of_mem_children, fun hentry => ?_⟩
  have hbelow : directory ++ [name] ≠ [] :=
    List.append_ne_nil_of_right_ne_nil _ (List.cons_ne_nil _ _)
  exact List.mem_filterMap.2
    ⟨_, mem_entries_of_find? hbelow hentry, listed_eq_some_iff.2 ⟨rfl, rfl⟩⟩

variable (tree directory) in
/-- A directory lists no name twice. -/
theorem nodup_names_children : ((tree.children directory).map Prod.fst).Nodup := by
  have hentries := tree.distinct
  rw [List.Nodup, List.pairwise_map] at hentries ⊢
  refine hentries.filterMap _ ?_
  rintro ⟨first, entry⟩ ⟨second, other⟩ hne ⟨name, listed⟩ hfirst ⟨name', listed'⟩ hsecond hsame
  obtain ⟨rfl, -⟩ := listed_eq_some_iff.1 hfirst
  obtain ⟨rfl, -⟩ := listed_eq_some_iff.1 hsecond
  dsimp only at hsame
  exact hne (congrArg (fun name => directory ++ [name]) hsame)

end Gallery.Tree
