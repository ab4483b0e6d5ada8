import Gallery.Proofs.Cache.Keys

/-!
# How much a cache holds

How many entries a cache holds is told by what was stored since it was cleared: as many as there
are different keys among that, up to what fits. Lookups and fetches that find their key add
nothing, for such a key was stored before, and it has not been cleared away since.

A cache that is full stays full until it is cleared, since a use makes the keys no fewer.
-/

namespace Gallery.Cache

variable {κ ν : Type}

/-- The key under which a value was stored. -/
def Event.storedKey? : Event κ ν → Option κ
  | .stored key _ => some key
  | _ => none

/-- The keys under which values were stored since the cache was cleared, in this order. A key is
there as often as it was stored. -/
def storedKeys (events : List (Event κ ν)) : List κ :=
  (events.rtakeWhile fun event => !event.isClear).filterMap Event.storedKey?

/-- Whether an operation forgets everything. -/
def Operation.isClear : Operation κ ν → Bool
  | .clear => true
  | _ => false

variable {cache after : Cache κ ν} {events : List (Event κ ν)} {event : Event κ ν} {key : κ}

/-- One more event. -/
theorem storedKeys_concat (event : Event κ ν) :
    storedKeys (events ++ [event]) =
      if event.isClear then [] else storedKeys events ++ event.storedKey?.toList := by
  rw [storedKeys, filterMap_rtakeWhile_concat]
  cases event.isClear <;> rfl

/-- The keys are as many as the entries. -/
theorem length_keys (cache : Cache κ ν) : cache.keys.length = cache.size := List.length_map ..

/-- An empty cache is one without entries. -/
theorem isEmpty_iff_size (cache : Cache κ ν) : cache.isEmpty ↔ cache.size = 0 :=
  List.isEmpty_iff_length_eq_zero

variable [DecidableEq κ]

/-! ## What was used was stored -/

/-- If what was used was stored, it still is after one more event, for a key that is found is among
those used before. -/
theorem Recalls.mem_recency_concat_iff (hcache : cache.Recalls events)
    (hused : ∀ key, key ∈ recency events ↔ key ∈ storedKeys events)
    (hstep : Step cache event after) (key : κ) :
    key ∈ recency (events ++ [event]) ↔ key ∈ storedKeys (events ++ [event]) := by
  rw [recency_concat, storedKeys_concat]
  cases hstep with
  | @found found value hfound =>
    -- The key is already counted, and a use only moves it.
    have hheld : found ∈ recency events := by
      have hkey := mem_keys_of_peek? hfound
      rw [hcache.keys] at hkey
      exact List.mem_of_mem_take hkey
    have hmoved : key ∈ moveToFront found (recency events) ↔ key ∈ storedKeys events := by
      rw [mem_moveToFront, ← hused]
      exact or_iff_right_of_imp fun hsame => hsame ▸ hheld
    simpa [Event.isClear, Event.usedKey?, Event.storedKey?, moveToFront] using hmoved
  | missed => simpa [Event.isClear, Event.usedKey?, Event.storedKey?] using hused key
  | stored stored value =>
    have hmoved : key ∈ moveToFront stored (recency events) ↔ key ∈ storedKeys events ++ [stored] := by
      rw [mem_moveToFront, hused, List.mem_append, List.mem_singleton, or_comm]
    simpa [Event.isClear, Event.usedKey?, Event.storedKey?, moveToFront] using hmoved
  | cleared => rfl

/-- In every history the keys used since the last clear are those stored since. -/
theorem mem_recency_performAll_iff (capacity : Nat) (operations : List (Operation κ ν)) (key : κ) :
    key ∈ recency ((empty capacity : Cache κ ν).performAll operations).1 ↔
      key ∈ storedKeys ((empty capacity : Cache κ ν).performAll operations).1 := by
  induction operations using List.reverseRecOn generalizing key with
  | nil => rfl
  | append_singleton operations operation ih =>
    rw [performAll_concat]
    exact (recalls_performAll capacity operations).mem_recency_concat_iff ih
      (step_perform _ operation) key

/-- So there are as many of the ones as of the others. -/
theorem length_recency_performAll (capacity : Nat) (operations : List (Operation κ ν)) :
    (recency ((empty capacity : Cache κ ν).performAll operations).1).length =
      (storedKeys ((empty capacity : Cache κ ν).performAll operations).1).toFinset.card := by
  rw [← List.toFinset_card_of_nodup (nodup_recency _)]
  congr 1
  ext key
  rw [List.mem_toFinset, List.mem_toFinset]
  exact mem_recency_performAll_iff capacity operations key

/-- The keys that are held are the last ones used, and they are as many as fit. -/
theorem size_performAll (capacity : Nat) (operations : List (Operation κ ν)) :
    ((empty capacity : Cache κ ν).performAll operations).2.size =
      min (max capacity 1)
        (storedKeys ((empty capacity : Cache κ ν).performAll operations).1).toFinset.card := by
  have hkeys : Cache.keys _ = _ := (recalls_performAll (κ := κ) (ν := ν) capacity operations).keys
  rw [← length_keys, hkeys, List.length_take, capacity_performAll, length_recency_performAll]
  rfl

/-! ## Full caches -/

/-- A use leaves a full cache full. -/
theorem WellFormed.size_use_of_full (hcache : cache.WellFormed) (hfull : cache.size = cache.capacity)
    (huse : Use cache key after) : after.size = after.capacity := by
  have hlength := length_le_moveToFront hcache.distinct key
  rw [length_keys, hfull] at hlength
  rw [← length_keys, huse.keys, huse.capacity, List.length_take]
  exact Nat.min_eq_left hlength

/-- Only a clear makes room in a full cache. -/
theorem WellFormed.size_perform_of_full (hcache : cache.WellFormed)
    (hfull : cache.size = cache.capacity) {operation : Operation κ ν}
    (hkept : operation.isClear = false) :
    (cache.perform operation).2.size = (cache.perform operation).2.capacity := by
  cases operation with
  | get key =>
    rw [perform_get_snd]
    by_cases hkey : key ∈ cache.keys
    · exact hcache.size_use_of_full hfull (hcache.use_get hkey)
    · rw [get_of_notMem hkey]
      exact hfull
  | put key value => exact hcache.size_use_of_full hfull (use_put cache key value)
  | fetch key probe =>
    rw [perform_fetch_snd]
    exact hcache.size_use_of_full hfull (hcache.use_fetch key probe)
  | clear => contradiction

/-- A full cache stays full until it is cleared. -/
theorem WellFormed.size_performAll_of_full (hcache : cache.WellFormed)
    (hfull : cache.size = cache.capacity) {operations : List (Operation κ ν)}
    (hkept : ∀ operation ∈ operations, operation.isClear = false) :
    (cache.performAll operations).2.size = cache.capacity := by
  induction operations generalizing cache with
  | nil => exact hfull
  | cons operation operations ih =>
    obtain ⟨hfirst, hothers⟩ := List.forall_mem_cons.1 hkept
    have hcapacity := (step_perform cache operation).capacity_eq
    rw [← hcapacity]
    exact ih (hcache.perform operation) (hcache.size_perform_of_full hfull hfirst) hothers

/-- The size of a cache. After any operations on an empty cache of any capacity, and so at every
moment of a history, it holds as many entries as there are different keys among those stored since
the last clear, up to what fits, and none of them twice. So it is empty exactly if nothing was stored
since, it never holds more than fits, and once it is full it stays so until it is cleared. -/
theorem size_eq_min_card_storedKeys (capacity : Nat) (operations : List (Operation κ ν)) :
    ∃ events cache, (empty capacity : Cache κ ν).performAll operations = (events, cache) ∧
      cache.size = min (max capacity 1) (storedKeys events).toFinset.card ∧
      (cache.isEmpty ↔ storedKeys events = []) ∧
      cache.keys.Nodup ∧ cache.size ≤ max capacity 1 ∧
      ∀ further : List (Operation κ ν), (∀ operation ∈ further, operation.isClear = false) →
        cache.size = max capacity 1 → (cache.performAll further).2.size = max capacity 1 := by
  have hcache := wellFormed_performAll (κ := κ) (ν := ν) capacity operations
  have hsize := size_performAll (κ := κ) (ν := ν) capacity operations
  have hcapacity : ((empty capacity : Cache κ ν).performAll operations).2.capacity =
      max capacity 1 := capacity_performAll _ operations
  refine ⟨_, _, rfl, hsize, ?_, hcache.distinct, ?_, ?_⟩
  · rw [isEmpty_iff_size, hsize, Nat.min_eq_zero_iff, Finset.card_eq_zero, List.toFinset_eq_empty_iff]
    exact or_iff_right (by omega)
  · rw [hsize]
    exact Nat.min_le_left _ _
  · intro further hkept hfull
    rw [← hcapacity] at hfull ⊢
    exact hcache.size_performAll_of_full hfull hkept

/-- A cache for no entries is one for a single entry. -/
example : ((empty 0 : Cache Nat Nat).performAll [.put 1 10, .put 2 20]).2.keys = [2] := by decide

end Gallery.Cache
