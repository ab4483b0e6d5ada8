import Gallery.Proofs.Cache.Keys
import Gallery.Proofs.Scan.Freshness

/-!
# Scanning again

A scan asks the cache for every file version that it finds, in the order of their paths, and each of
these requests is a use of a key, whether it is answered or not. So a scan leaves the versions that
it found last in front, as many as fit, and in front of everything that was held before.

Hence a scan that finds the same again comes to one of two extremes. If all its versions fit they
are all held, and none is probed. If they do not all fit then every version has been displaced when
its turn comes, by those after it in the scan before and those before it in this one, and all of
them are probed.
-/

namespace Gallery

namespace Cache

variable {κ ν : Type} [DecidableEq κ] {cache after : Cache κ ν} {key : κ}

/-- Where all keys fit together, a use displaces none. -/
theorem Use.keys_of_card_le (huse : Use cache key after) (hdistinct : cache.keys.Nodup)
    {room : Finset κ} (hroom : room.card ≤ cache.capacity) (hheld : ∀ other ∈ cache.keys, other ∈ room)
    (hkey : key ∈ room) : after.keys = moveToFront key cache.keys := by
  have hsubset : (moveToFront key cache.keys).toFinset ⊆ room := by
    intro other hother
    rcases mem_moveToFront.1 (List.mem_toFinset.1 hother) with rfl | hother
    · exact hkey
    · exact hheld other hother
  have hlength := Finset.card_le_card hsubset
  rw [List.toFinset_card_of_nodup (nodup_moveToFront hdistinct key)] at hlength
  rw [huse.keys, List.take_of_length_le (hlength.trans hroom)]

end Cache

namespace Tree

variable {cache : KnownDimensions} {versions : List FileVersion}

/-- The cache after the dimensions of a file version were asked for. -/
def request (tree : Tree) (cache : KnownDimensions) (version : FileVersion) : KnownDimensions :=
  (cache.fetch version.key fun _ => tree.dimensions version.path).2

/-- For each file version, whether its dimensions are remembered when its turn comes. -/
def remembered (tree : Tree) (cache : KnownDimensions) (versions : List FileVersion) : List Bool :=
  (tree.pictures cache versions).1.map Prod.snd

/-- To ask for a version is to use its key. -/
theorem use_request (tree : Tree) (hcache : cache.WellFormed) (version : FileVersion) :
    Cache.Use cache version.key (tree.request cache version) :=
  hcache.use_fetch version.key _

/-- The first version is remembered if its key is held, and the others when they are asked for. -/
theorem remembered_cons (tree : Tree) (cache : KnownDimensions) (version : FileVersion)
    (versions : List FileVersion) :
    tree.remembered cache (version :: versions) =
      decide (version.key ∈ cache.keys) :: tree.remembered (tree.request cache version) versions := by
  rw [← cache.fetch_remembered version.key fun _ => tree.dimensions version.path]
  rfl

/-- The first version is asked for first. -/
theorem pictures_cons_snd (tree : Tree) (cache : KnownDimensions) (version : FileVersion)
    (versions : List FileVersion) :
    (tree.pictures cache (version :: versions)).2 =
      (tree.pictures (tree.request cache version) versions).2 := rfl

/-- The last version is asked for last. -/
theorem pictures_concat_snd (tree : Tree) (cache : KnownDimensions) (versions : List FileVersion)
    (version : FileVersion) :
    (tree.pictures cache (versions ++ [version])).2 =
      tree.request (tree.pictures cache versions).2 version := by
  rw [pictures_append]
  rfl

/-- Pictures leave a well-formed cache behind. -/
theorem wellFormed_pictures (tree : Tree) (hcache : cache.WellFormed) (versions : List FileVersion) :
    (tree.pictures cache versions).2.WellFormed := by
  induction versions generalizing cache with
  | nil => exact hcache
  | cons version versions ih =>
    rw [pictures_cons_snd]
    exact ih (hcache.use (tree.use_request hcache version))

/-- Pictures do not change how many entries fit. -/
theorem capacity_pictures (tree : Tree) (hcache : cache.WellFormed) (versions : List FileVersion) :
    (tree.pictures cache versions).2.capacity = cache.capacity := by
  induction versions generalizing cache with
  | nil => rfl
  | cons version versions ih =>
    have huse := tree.use_request hcache version
    rw [pictures_cons_snd, ih (hcache.use huse), huse.capacity]

/-- The keys of file versions come in front, the last one first, and behind them as many of the keys
that were held before as still fit. -/
theorem keys_pictures (tree : Tree) (hcache : cache.WellFormed)
    (hdistinct : (versions.map FileVersion.key).Nodup) :
    (tree.pictures cache versions).2.keys =
      ((versions.map FileVersion.key).reverse ++
        cache.keys.filter (· ∉ versions.map FileVersion.key)).take cache.capacity := by
  induction versions using List.reverseRecOn with
  | nil =>
    rw [List.map_nil, List.reverse_nil, List.nil_append, List.filter_eq_self.2 (by simp),
      List.take_of_length_le hcache.fits]
    rfl
  | append_singleton versions version ih =>
    rw [List.map_append, List.map_singleton, List.nodup_append] at hdistinct
    obtain ⟨hbefore, -, hnew⟩ := hdistinct
    have hversion : version.key ∉ versions.map FileVersion.key := fun hmem =>
      hnew _ hmem _ (List.mem_singleton_self _) rfl
    have hall : ((versions.map FileVersion.key).reverse ++
        cache.keys.filter (· ∉ versions.map FileVersion.key)).Nodup := by
      refine (List.nodup_reverse.2 hbefore).append (hcache.distinct.filter _) ?_
      intro key hkey hheld
      simpa [List.mem_reverse.1 hkey] using (List.mem_filter.1 hheld).2
    have hkept : (versions.map FileVersion.key).reverse.filter (· ≠ version.key) =
        (versions.map FileVersion.key).reverse := by
      rw [List.filter_eq_self]
      intro key hkey
      simpa using ne_of_mem_of_not_mem (List.mem_reverse.1 hkey) hversion
    have hothers : (cache.keys.filter (· ∉ versions.map FileVersion.key)).filter (· ≠ version.key) =
        cache.keys.filter (· ∉ versions.map FileVersion.key ++ [version.key]) := by
      rw [List.filter_filter]
      exact List.filter_congr fun key _ => by simp [and_comm]
    have huse := tree.use_request (tree.wellFormed_pictures hcache versions) version
    rw [pictures_concat_snd, huse.keys, capacity_pictures tree hcache, ih hbefore, Cache.moveToFront,
      Cache.take_cons_filter_take hall, List.filter_append, hkept, hothers, List.map_append,
      List.map_singleton, List.reverse_concat, List.cons_append]

/-- Where the keys of file versions fit together with those that are held, a version is remembered if
its key was held at the beginning, and all keys are held in the end. -/
theorem remembered_of_card_le (tree : Tree) (hcache : cache.WellFormed)
    (hdistinct : (versions.map FileVersion.key).Nodup) {room : Finset CacheKey}
    (hroom : room.card ≤ cache.capacity) (hheld : ∀ key ∈ cache.keys, key ∈ room)
    (hversions : ∀ version ∈ versions, version.key ∈ room) :
    tree.remembered cache versions = versions.map (fun version => decide (version.key ∈ cache.keys)) ∧
      ∀ key, key ∈ (tree.pictures cache versions).2.keys ↔
        key ∈ cache.keys ∨ key ∈ versions.map FileVersion.key := by
  induction versions generalizing cache with
  | nil => exact ⟨rfl, fun key => by simp [pictures]⟩
  | cons version versions ih =>
    rw [List.map_cons, List.nodup_cons] at hdistinct
    have huse := tree.use_request hcache version
    have hkey := hversions version List.mem_cons_self
    have hkeys : (tree.request cache version).keys = Cache.moveToFront version.key cache.keys :=
      huse.keys_of_card_le hcache.distinct hroom hheld hkey
    have hnext : ∀ key ∈ (tree.request cache version).keys, key ∈ room := by
      intro key hmem
      rw [hkeys, Cache.mem_moveToFront] at hmem
      rcases hmem with rfl | hmem
      · exact hkey
      · exact hheld key hmem
    obtain ⟨hothers, hafter⟩ := ih (hcache.use huse) hdistinct.2 (by rwa [huse.capacity]) hnext
      fun other hother => hversions other (List.mem_cons_of_mem _ hother)
    constructor
    · rw [remembered_cons, hothers, List.map_cons]
      congr 1
      refine List.map_congr_left fun other hother => ?_
      have hapart : other.key ≠ version.key := fun hsame =>
        hdistinct.1 (hsame ▸ List.mem_map_of_mem hother)
      simp [hkeys, Cache.mem_moveToFront, hapart]
    · intro key
      rw [pictures_cons_snd, hafter, hkeys, Cache.mem_moveToFront, List.map_cons, List.mem_cons]
      tauto

/-- Where more versions were used than fit, none of them is remembered when its turn comes again. Those
that have had their turn, `done`, are in front by now, and in front of the others as they were left. -/
theorem remembered_of_lt_length (tree : Tree) (hcache : cache.WellFormed) (done : List CacheKey)
    (hdistinct : (done ++ versions.map FileVersion.key).Nodup)
    (hlength : cache.capacity < (done ++ versions.map FileVersion.key).length)
    (hkeys : cache.keys = (done.reverse ++ (versions.map FileVersion.key).reverse).take cache.capacity) :
    tree.remembered cache versions = versions.map fun _ => false := by
  induction versions generalizing cache done with
  | nil => rfl
  | cons version versions ih =>
    let others := done.reverse ++ (versions.map FileVersion.key).reverse
    -- In the order of use the version is the very last, and so it has been displaced.
    have hheld : cache.keys = others.take cache.capacity := by
      have hfits : cache.capacity ≤ others.length := by
        simp only [others, List.length_append, List.length_reverse, List.map_cons,
          List.length_cons] at hlength ⊢
        omega
      rw [hkeys, List.map_cons, List.reverse_cons, ← List.append_assoc,
        List.take_append_of_le_length hfits]
    have horder : (version.key :: others).Nodup := by
      have hperm : others.Perm (done ++ versions.map FileVersion.key) :=
        (List.reverse_perm _).append (List.reverse_perm _)
      exact (hperm.cons _).nodup_iff.2 (List.nodup_middle.1 hdistinct)
    have hmissed : version.key ∉ cache.keys := by
      rw [hheld]
      exact fun hmem => (List.nodup_cons.1 horder).1 (List.mem_of_mem_take hmem)
    have huse := tree.use_request hcache version
    have hnext : (tree.request cache version).keys =
        ((done ++ [version.key]).reverse ++ (versions.map FileVersion.key).reverse).take
          cache.capacity := by
      rw [huse.keys, hheld, Cache.moveToFront, Cache.take_cons_filter_take horder.of_cons,
        ← Cache.moveToFront, Cache.moveToFront_of_notMem (List.nodup_cons.1 horder).1,
        List.reverse_concat, List.cons_append]
    rw [List.map_cons, List.append_cons] at hdistinct hlength
    rw [remembered_cons, decide_eq_false hmissed, List.map_cons,
      ih (hcache.use huse) _ hdistinct (by rwa [huse.capacity]) (by rwa [huse.capacity])]

end Tree

/-- What is remembered of the versions that a scan finds makes up its counts. -/
theorem Scanner.count_of_remembered (policy : ScanPolicy) {tree : Tree} {cache : KnownDimensions}
    {versions : List FileVersion} {held : FileVersion → Bool}
    (hremembered : tree.remembered cache versions = versions.map held) :
    (count policy (tree.pictures cache versions).1).cached = versions.countP held ∧
      (count policy (tree.pictures cache versions).1).probed =
        versions.countP fun version => !held version := by
  have hcount (p : Bool → Bool) : (tree.pictures cache versions).1.countP (fun picture => p picture.2) =
      versions.countP fun version => p (held version) := by
    have hmapped := congrArg (List.countP p) hremembered
    rwa [Tree.remembered, List.countP_map, List.countP_map] at hmapped
  exact ⟨hcount id, hcount not⟩

namespace Visit

variable {visits : List Visit} {visit other : Visit} {cache : KnownDimensions}

/-- Where keys differ in a history, versions with the same key are the same. -/
theorem KeysDiffer.eq_of_key_eq (hkeys : KeysDiffer visits) (hvisit : visit ∈ visits)
    (hother : other ∈ visits) {version : FileVersion} (hversion : version ∈ visit.versions)
    {second : FileVersion} (hsecond : second ∈ other.versions) (hkey : version.key = second.key) :
    version = second :=
  hkeys _ (List.mem_flatMap.2 ⟨visit, hvisit, List.mem_map_of_mem hversion⟩) _
    (List.mem_flatMap.2 ⟨other, hother, List.mem_map_of_mem hsecond⟩) hkey

/-- Keys differ in a history if they differ among all versions that it may find. -/
theorem keysDiffer_of_subset {all : List FileVersion} (hall : ∀ visit ∈ visits, visit.versions ⊆ all)
    (hkeys : ∀ version ∈ all, ∀ other ∈ all, version.key = other.key → version = other) :
    KeysDiffer visits := by
  have hmem (sighting : FileVersion × Dimensions) (hsighting : sighting ∈ sightings visits) :
      sighting.1 ∈ all := by
    obtain ⟨visit, hvisit, hsighting⟩ := List.mem_flatMap.1 hsighting
    obtain ⟨version, hversion, rfl⟩ := List.mem_map.1 hsighting
    exact hall visit hvisit hversion
  exact fun first hfirst second hsecond => hkeys _ (hmem first hfirst) _ (hmem second hsecond)

/-- Where keys differ, no scan asks for a key twice. -/
theorem KeysDiffer.nodup_keys (hkeys : KeysDiffer visits) (hvisit : visit ∈ visits) :
    (visit.versions.map FileVersion.key).Nodup := by
  have hdistinct : visit.versions.Nodup := .of_map _ visit.found_versions.distinct
  exact hdistinct.map_on fun _ hfirst _ hsecond hkey =>
    hkeys.eq_of_key_eq hvisit hvisit hfirst hsecond hkey

/-- A scan leaves the cache that the pictures of its versions leave. -/
theorem scan_snd (visit : Visit) (cache : KnownDimensions) :
    (visit.scan cache).2 = (visit.tree.pictures cache visit.versions).2 := by
  cases hfound : visit.found? with
  | none =>
    rw [scan_of_found?_eq_none hfound, versions, hfound]
    rfl
  | some versions =>
    rw [scan_of_found?_eq_some hfound, versions_of_found?_eq_some hfound]

/-- The last scan is made last. -/
theorem cacheAfter_concat (cache : KnownDimensions) (visits : List Visit) (visit : Visit) :
    cacheAfter cache (visits ++ [visit]) = (visit.scan (cacheAfter cache visits)).2 :=
  List.foldl_concat _ cache visit visits

/-- A scan leaves a well-formed cache behind. -/
theorem wellFormed_scan (visit : Visit) (hcache : cache.WellFormed) :
    (visit.scan cache).2.WellFormed := by
  rw [scan_snd]
  exact visit.tree.wellFormed_pictures hcache visit.versions

/-- A scan does not change how many entries fit. -/
theorem capacity_scan (visit : Visit) (hcache : cache.WellFormed) :
    (visit.scan cache).2.capacity = cache.capacity := by
  rw [scan_snd]
  exact visit.tree.capacity_pictures hcache visit.versions

/-- Scans leave a well-formed cache behind, with the same room. -/
theorem wellFormed_cacheAfter (hcache : cache.WellFormed) (visits : List Visit) :
    (cacheAfter cache visits).WellFormed ∧ (cacheAfter cache visits).capacity = cache.capacity := by
  induction visits using List.reverseRecOn with
  | nil => exact ⟨hcache, rfl⟩
  | append_singleton visits visit ih =>
    rw [cacheAfter_concat]
    exact ⟨visit.wellFormed_scan ih.1, (visit.capacity_scan ih.1).trans ih.2⟩

/-- A scan of a directory succeeds, and what is remembered makes up its counts. -/
theorem exists_scan_eq_ok {found : List FileVersion} (hfound : visit.found? = some found)
    {held : FileVersion → Bool} (hremembered : visit.tree.remembered cache found = found.map held) :
    ∃ items counts, (visit.scan cache).1 = .ok (items, counts) ∧
      counts.cached = found.countP held ∧ counts.probed = found.countP fun version => !held version := by
  rw [scan_of_found?_eq_some hfound]
  exact ⟨_, _, rfl, Scanner.count_of_remembered visit.policy hremembered⟩

/-- Where all versions of a scan fit into an empty cache, their keys are what it holds afterwards. -/
theorem mem_keys_scan_iff (hkeys : KeysDiffer visits) (hvisit : visit ∈ visits)
    (hcache : cache.WellFormed) (hempty : cache.keys = [])
    (hcount : visit.versions.toFinset.card ≤ cache.capacity) (key : CacheKey) :
    key ∈ (visit.scan cache).2.keys ↔ key ∈ visit.versions.map FileVersion.key := by
  obtain ⟨-, hafter⟩ := visit.tree.remembered_of_card_le hcache (hkeys.nodup_keys hvisit)
    (Finset.card_image_le.trans hcount) (by rw [hempty]; exact nofun)
    fun version hversion => Finset.mem_image_of_mem _ (List.mem_toFinset.2 hversion)
  rw [scan_snd, hafter, hempty]
  exact or_iff_right List.not_mem_nil

/-- Where all versions of two scans fit, the second one remembers those that the first one found. -/
theorem remembered_after_scan {first second : Visit} (hkeys : KeysDiffer [first, second])
    (hcache : cache.WellFormed) (hempty : cache.keys = [])
    (hcount : (first.versions ++ second.versions).toFinset.card ≤ cache.capacity) :
    second.tree.remembered (first.scan cache).2 second.versions =
      second.versions.map fun version => decide (version ∈ first.versions) := by
  have hfirst : first ∈ [first, second] := List.mem_cons_self
  have hsecond : second ∈ [first, second] := List.mem_cons_of_mem _ (List.mem_singleton_self _)
  have hfewer : first.versions.toFinset.card ≤ cache.capacity := by
    refine le_trans (Finset.card_le_card fun version hversion => ?_) hcount
    exact List.mem_toFinset.2 (List.mem_append_left _ (List.mem_toFinset.1 hversion))
  have hheld (key : CacheKey) := mem_keys_scan_iff hkeys hfirst hcache hempty hfewer key
  let room := (first.versions ++ second.versions).toFinset.image FileVersion.key
  have hmem (version : FileVersion) (hversion : version ∈ first.versions ++ second.versions) :
      version.key ∈ room := Finset.mem_image_of_mem _ (List.mem_toFinset.2 hversion)
  have hroom : room.card ≤ (first.scan cache).2.capacity := by
    rw [first.capacity_scan hcache]
    exact Finset.card_image_le.trans hcount
  have hearlier : ∀ key ∈ (first.scan cache).2.keys, key ∈ room := by
    intro key hkey
    obtain ⟨version, hversion, rfl⟩ := List.mem_map.1 ((hheld key).1 hkey)
    exact hmem version (List.mem_append_left _ hversion)
  obtain ⟨hremembered, -⟩ := second.tree.remembered_of_card_le (first.wellFormed_scan hcache)
    (hkeys.nodup_keys hsecond) hroom hearlier
    fun version hversion => hmem version (List.mem_append_right _ hversion)
  refine hremembered.trans (List.map_congr_left fun version hversion => decide_eq_decide.2 ?_)
  rw [hheld]
  refine ⟨fun hkey => ?_, List.mem_map_of_mem⟩
  obtain ⟨other, hother, hsame⟩ := List.mem_map.1 hkey
  exact hkeys.eq_of_key_eq hfirst hsecond hother hversion hsame ▸ hother

/-- A scan that finds the same again remembers all of it if all of it fits, and nothing otherwise. -/
theorem remembered_again (hkeys : KeysDiffer [visit]) (hcache : cache.WellFormed) :
    visit.tree.remembered (visit.scan cache).2 visit.versions =
      visit.versions.map fun _ => decide (visit.versions.length ≤ cache.capacity) := by
  have hdistinct := hkeys.nodup_keys (List.mem_singleton_self visit)
  have hheld := visit.tree.keys_pictures hcache hdistinct
  have hafter := visit.wellFormed_scan hcache
  have hcapacity := visit.capacity_scan hcache
  have hlength : (visit.versions.map FileVersion.key).reverse.length = visit.versions.length := by
    rw [List.length_reverse, List.length_map]
  rw [← scan_snd, ← hcapacity] at hheld
  rw [← hcapacity]
  rcases Nat.lt_or_ge (visit.scan cache).2.capacity visit.versions.length with hover | hfits
  · rw [List.take_append_of_le_length (by omega)] at hheld
    rw [decide_eq_false (Nat.not_le.2 hover)]
    rw [← hlength, List.length_reverse] at hover
    exact visit.tree.remembered_of_lt_length hafter [] hdistinct hover hheld
  · have hall : ∀ version ∈ visit.versions, version.key ∈ (visit.scan cache).2.keys := by
      intro version hversion
      rw [hheld, List.take_append, List.take_of_length_le (by omega)]
      exact List.mem_append_left _ (List.mem_reverse.2 (List.mem_map_of_mem hversion))
    obtain ⟨hremembered, -⟩ := visit.tree.remembered_of_card_le hafter hdistinct
      ((List.toFinset_card_le _).trans hafter.fits) (fun key => List.mem_toFinset.2)
      fun version hversion => List.mem_toFinset.2 (hall version hversion)
    rw [hremembered, decide_eq_true hfits]
    exact List.map_congr_left fun version hversion => decide_eq_true (hall version hversion)

/-- What a scan reads again. If all versions of two scans fit, of which the first begins with an empty
cache, then the second one takes from the cache exactly those that the first one found, and probes
the others, however the tree changed in between. And if the same is scanned over and over, then from
the second time on all is taken from the cache if it fits, and otherwise all is probed, whatever was
done to the cache before. -/
theorem rescan_probes_what_did_not_fit (capacity : Nat) :
    (∀ (first second : Visit) (found : List FileVersion), KeysDiffer [first, second] →
      second.found? = some found → (first.versions ++ found).toFinset.card ≤ max capacity 1 →
      ∃ items counts, (second.scan (first.scan (.empty capacity)).2).1 = .ok (items, counts) ∧
        counts.cached = found.countP (fun version => version ∈ first.versions) ∧
        counts.probed = found.countP fun version => version ∉ first.versions) ∧
    ∀ (operations : List (Cache.Operation CacheKey Dimensions)) (visit : Visit)
      (found : List FileVersion), KeysDiffer [visit] → visit.found? = some found → ∀ n : Nat,
      let cache := cacheAfter ((Cache.empty capacity).performAll operations).2
        (List.replicate (n + 1) visit)
      ∃ items counts, (visit.scan cache).1 = .ok (items, counts) ∧
        (found.length ≤ max capacity 1 → counts.cached = found.length ∧ counts.probed = 0) ∧
        (max capacity 1 < found.length → counts.cached = 0 ∧ counts.probed = found.length) := by
  constructor
  · intro first second found hkeys hfound hcount
    have hversions := versions_of_found?_eq_some hfound
    have hempty : (Cache.empty capacity : KnownDimensions).WellFormed :=
      Cache.wellFormed_performAll capacity []
    rw [← hversions] at hcount ⊢
    rw [← hversions] at hfound
    have hremembered := remembered_after_scan hkeys hempty rfl hcount
    obtain ⟨items, counts, hscan, hcached, hprobed⟩ := exists_scan_eq_ok hfound hremembered
    refine ⟨items, counts, hscan, hcached, ?_⟩
    simpa only [decide_not] using hprobed
  · intro operations visit found hkeys hfound n cache
    have hversions := versions_of_found?_eq_some hfound
    obtain ⟨hbefore, hcapacity⟩ := wellFormed_cacheAfter
      (Cache.wellFormed_performAll capacity operations) (List.replicate n visit)
    rw [Cache.capacity_performAll] at hcapacity
    change _ = max capacity 1 at hcapacity
    have hlast : cache = (visit.scan (cacheAfter ((Cache.empty capacity).performAll operations).2
        (List.replicate n visit))).2 := by
      rw [← cacheAfter_concat, ← List.replicate_succ']
    have hremembered := remembered_again hkeys hbefore
    rw [← hlast, hcapacity, hversions] at hremembered
    obtain ⟨items, counts, hscan, hcached, hprobed⟩ := exists_scan_eq_ok hfound hremembered
    refine ⟨items, counts, hscan, ?_, ?_⟩
    · intro hfits
      simpa [hfits] using And.intro hcached hprobed
    · intro hover
      simpa [Nat.not_le.2 hover] using And.intro hcached hprobed

/-- A directory with a picture that cannot be read. -/
def single : Tree := Tree.empty.write (ascii "g/b.gif") [] 1000000000

/-- The same with another one before it. -/
def pair : Tree := single.write (ascii "g/a.gif") [] 1000000000

/-- With room for two, the picture that was there before is taken from the cache although the other
one comes first. With room for one, both are probed whenever the directory is scanned. -/
theorem rescan_probes_what_did_not_fit_pair :
    KeysDiffer [scanOf false single, scanOf false pair] ∧
      (∃ items counts,
        ((scanOf false pair).scan ((scanOf false single).scan (.empty 2)).2).1 =
          .ok (items, counts) ∧ counts.cached = 1 ∧ counts.probed = 1) ∧
      ∀ n : Nat, ∃ items counts,
        ((scanOf false pair).scan
          (cacheAfter (.empty 1) (List.replicate (n + 1) (scanOf false pair)))).1 =
            .ok (items, counts) ∧ counts.cached = 0 ∧ counts.probed = 2 := by
  let first : FileVersion := ⟨ascii "g/a.gif", 1, 0⟩
  let second : FileVersion := ⟨ascii "g/b.gif", 1, 0⟩
  have hsingle : (scanOf false single).found? = some [second] :=
    found?_of_comesTo (by decide +kernel)
  have hpair : (scanOf false pair).found? = some [first, second] :=
    found?_of_comesTo (by decide +kernel)
  have hbefore := versions_of_found?_eq_some hsingle
  have hnow := versions_of_found?_eq_some hpair
  have hkeys (visits : List Visit)
      (hvisits : ∀ visit ∈ visits, visit.versions ⊆ [first, second]) : KeysDiffer visits :=
    keysDiffer_of_subset hvisits (by decide +kernel)
  have hboth : KeysDiffer [scanOf false single, scanOf false pair] :=
    hkeys _ (by simp [hbefore, hnow])
  have hlast : KeysDiffer [scanOf false pair] := hkeys _ (by simp [hnow])
  refine ⟨hboth, ?_, ?_⟩
  · obtain ⟨items, counts, hscan, hcached, hprobed⟩ :=
      (rescan_probes_what_did_not_fit 2).1 _ _ _ hboth hpair (by rw [hbefore]; decide)
    rw [hbefore] at hcached hprobed
    exact ⟨items, counts, hscan, hcached, hprobed⟩
  · intro n
    obtain ⟨items, counts, hscan, -, hover⟩ :=
      (rescan_probes_what_did_not_fit 1).2 [] _ _ hlast hpair n
    obtain ⟨hcached, hprobed⟩ := hover (by decide)
    exact ⟨items, counts, hscan, hcached, hprobed⟩

end Visit

end Gallery
