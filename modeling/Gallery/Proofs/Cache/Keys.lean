import Gallery.Proofs.Cache.Eviction

/-!
# The keys of a cache

Which keys a cache holds, and in which order, does not depend on its values. A use puts its key in
front and keeps as many of the others as fit, be it a lookup that finds the key, a store, or a
fetch. Everything else leaves the keys alone or forgets them all.

A cache that holds no key twice, and no more keys than fit, stays one.
-/

namespace Gallery.Cache

variable {κ ν : Type}

/-- The keys that are held, the one used last in front. -/
def keys (cache : Cache κ ν) : List κ := cache.entries.map Prod.fst

/-- What every cache is that began empty. -/
structure WellFormed (cache : Cache κ ν) : Prop where
  distinct : cache.keys.Nodup
  fits : cache.keys.length ≤ cache.capacity

variable [DecidableEq κ]

/-- Keys with one of them moved to the front, or put there if it is new. -/
def moveToFront (key : κ) (keys : List κ) : List κ := key :: keys.filter (· ≠ key)

section Lists

variable {key other : κ} {keys : List κ}

/-- A key is moved, and none is lost. -/
theorem mem_moveToFront : other ∈ moveToFront key keys ↔ other = key ∨ other ∈ keys := by
  by_cases hsame : other = key <;> simp [moveToFront, hsame]

/-- A key is not there twice after it was moved. -/
theorem nodup_moveToFront (hkeys : keys.Nodup) (key : κ) : (moveToFront key keys).Nodup :=
  List.nodup_cons.2 ⟨by simp, hkeys.filter _⟩

/-- A new key is put in front of all others. -/
theorem moveToFront_of_notMem (hkey : key ∉ keys) : moveToFront key keys = key :: keys := by
  rw [moveToFront, List.filter_eq_self.2]
  intro other hother
  simpa using ne_of_mem_of_not_mem hother hkey

/-- Moving a key makes the keys no fewer. -/
theorem length_le_moveToFront (hkeys : keys.Nodup) (key : κ) :
    keys.length ≤ (moveToFront key keys).length :=
  (hkeys.subperm fun _ hother => mem_moveToFront.2 (.inr hother)).length_le

/-- Moving a key that is there makes the keys no more. -/
theorem length_moveToFront_of_mem (hkeys : keys.Nodup) (hkey : key ∈ keys) :
    (moveToFront key keys).length = keys.length := by
  refine Nat.le_antisymm ?_ (length_le_moveToFront hkeys key)
  refine ((nodup_moveToFront hkeys key).subperm fun other hother => ?_).length_le
  rcases mem_moveToFront.1 hother with rfl | hother
  · exact hkey
  · exact hother

end Lists

/-! ## Uses -/

/-- What a use of a key makes of a cache: the key comes first, and as many others stay as fit. -/
structure Use (cache : Cache κ ν) (key : κ) (after : Cache κ ν) : Prop where
  capacity : after.capacity = cache.capacity
  keys : after.keys = (moveToFront key cache.keys).take cache.capacity

variable {cache after : Cache κ ν} {key : κ}

/-- A use leaves a well-formed cache behind. -/
theorem WellFormed.use (hcache : cache.WellFormed) (huse : Use cache key after) :
    after.WellFormed where
  distinct := by
    rw [huse.keys]
    exact (List.take_sublist _ _).nodup (nodup_moveToFront hcache.distinct key)
  fits := by
    rw [huse.keys, huse.capacity]
    exact List.length_take_le _ _

/-- A store is a use. -/
theorem use_put (cache : Cache κ ν) (key : κ) (value : ν) : Use cache key (cache.put key value) where
  capacity := rfl
  keys := by
    rw [keys, put, List.map_take, List.map_cons, map_fst_without]
    rfl

/-- A lookup of a key that is not held changes nothing. -/
theorem get_of_notMem (hkey : key ∉ cache.keys) : cache.get key = (none, cache) :=
  get_of_peek?_eq_none (peek?_eq_none_iff.2 hkey)

/-- A key that is held has a value. -/
theorem exists_peek?_eq_some (hkey : key ∈ cache.keys) : ∃ value, cache.peek? key = some value := by
  cases hfound : cache.peek? key with
  | none => exact absurd hkey (peek?_eq_none_iff.1 hfound)
  | some value => exact ⟨value, rfl⟩

/-- A lookup of a key that is held is a use. Nothing has to make room for it. -/
theorem WellFormed.use_get (hcache : cache.WellFormed) (hkey : key ∈ cache.keys) :
    Use cache key (cache.get key).2 := by
  obtain ⟨value, hfound⟩ := exists_peek?_eq_some hkey
  have hlength := length_moveToFront_of_mem hcache.distinct hkey
  rw [get_of_peek?_eq_some hfound]
  refine ⟨rfl, ?_⟩
  rw [List.take_of_length_le (hlength.trans_le hcache.fits), keys, List.map_cons, map_fst_without]
  rfl

/-- A lookup leaves a well-formed cache behind, whether it finds its key or not. -/
theorem WellFormed.get (hcache : cache.WellFormed) (key : κ) : (cache.get key).2.WellFormed := by
  by_cases hkey : key ∈ cache.keys
  · exact hcache.use (hcache.use_get hkey)
  · rw [get_of_notMem hkey]
    exact hcache

/-- A fetch tells whether its key was held. -/
theorem fetch_remembered (cache : Cache κ ν) (key : κ) (probe : Unit → ν) :
    (cache.fetch key probe).1.2 = decide (key ∈ cache.keys) := by
  by_cases hkey : key ∈ cache.keys
  · obtain ⟨value, hfound⟩ := exists_peek?_eq_some hkey
    rw [fetch_of_peek?_eq_some hfound, decide_eq_true hkey]
  · rw [fetch_of_peek?_eq_none (peek?_eq_none_iff.2 hkey), decide_eq_false hkey]

/-- A fetch is a use, whether it finds its key or not. -/
theorem WellFormed.use_fetch (hcache : cache.WellFormed) (key : κ) (probe : Unit → ν) :
    Use cache key (cache.fetch key probe).2 := by
  by_cases hkey : key ∈ cache.keys
  · obtain ⟨value, hfound⟩ := exists_peek?_eq_some hkey
    rw [fetch_of_peek?_eq_some hfound]
    exact hcache.use_get hkey
  · rw [fetch_of_peek?_eq_none (peek?_eq_none_iff.2 hkey)]
    exact use_put cache key (probe ())

/-! ## Histories -/

/-- A cache after a lookup. -/
theorem perform_get_snd (cache : Cache κ ν) (key : κ) :
    (cache.perform (.get key)).2 = (cache.get key).2 := by
  cases hfound : cache.peek? key with
  | none => simp only [perform, get_of_peek?_eq_none hfound]
  | some value => simp only [perform, get_of_peek?_eq_some hfound]

/-- A cache after a fetch. -/
theorem perform_fetch_snd (cache : Cache κ ν) (key : κ) (probe : Unit → ν) :
    (cache.perform (.fetch key probe)).2 = (cache.fetch key probe).2 := by
  cases hfound : cache.peek? key with
  | none => simp only [perform, fetch_of_peek?_eq_none hfound]
  | some value => simp only [perform, fetch_of_peek?_eq_some hfound]

/-- Every operation leaves a well-formed cache behind. -/
theorem WellFormed.perform (hcache : cache.WellFormed) (operation : Operation κ ν) :
    (cache.perform operation).2.WellFormed := by
  cases operation with
  | get key =>
    rw [perform_get_snd]
    exact hcache.get key
  | put key value => exact hcache.use (use_put cache key value)
  | fetch key probe =>
    rw [perform_fetch_snd]
    exact hcache.use (hcache.use_fetch key probe)
  | clear => exact ⟨List.nodup_nil, Nat.zero_le _⟩

/-- A cache that holds what was used last is well-formed. -/
theorem Recalls.wellFormed {events : List (Event κ ν)} (hcache : cache.Recalls events) :
    cache.WellFormed := by
  have hkeys : cache.keys = (recency events).take cache.capacity := hcache.keys
  refine ⟨?_, ?_⟩ <;> rw [hkeys]
  · exact (List.take_sublist _ _).nodup (nodup_recency events)
  · exact List.length_take_le _ _

/-- Whatever is done to a cache that begins empty, it is well-formed. -/
theorem wellFormed_performAll (capacity : Nat) (operations : List (Operation κ ν)) :
    ((empty capacity : Cache κ ν).performAll operations).2.WellFormed :=
  (recalls_performAll capacity operations).wellFormed

end Gallery.Cache
