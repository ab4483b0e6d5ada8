import Gallery.Proofs.Cache.Contents
import Gallery.Proofs.Cache.History

/-!
# What is forgotten first

The keys used since a cache was cleared can be put in the order of their last use. In front of
a key stand exactly the keys that were used after its last use, so its place in that order is
the number of those keys. The cache holds the keys in the first places, as many as fit, and
this is the invariant: a use moves its key to the front and pushes back only the keys that
were in front of it, and what falls out at the end never comes back without being used.
-/

namespace Gallery.Cache

variable {κ ν : Type} [DecidableEq κ]

/-- The keys used since the cache was cleared, each once, the one used last in front. -/
def recency (events : List (Event κ ν)) : List κ :=
  events.foldl (fun keys event =>
    if event.isClear then []
    else match event.usedKey? with
      | none => keys
      | some key => key :: keys.filter (· ≠ key)) []

variable {cache after : Cache κ ν} {events : List (Event κ ν)} {event : Event κ ν} {key : κ}

/-- A use moves its key to the front, and a clear starts the order anew. -/
theorem recency_concat (event : Event κ ν) :
    recency (events ++ [event]) =
      if event.isClear then []
      else match event.usedKey? with
        | none => recency events
        | some key => key :: (recency events).filter (· ≠ key) := by
  rw [recency, List.foldl_append]
  rfl

/-- No key stands in the order twice. -/
theorem nodup_recency (events : List (Event κ ν)) : (recency events).Nodup := by
  induction events using List.reverseRecOn with
  | nil => exact List.nodup_nil
  | append_singleton events event ih =>
    rw [recency_concat]
    cases event with
    | cleared => exact List.nodup_nil
    | missed key => exact ih
    | found key | stored key value =>
      exact List.nodup_cons.2 ⟨by simp, ih.filter _⟩

/-- A key that was stored since the clear has been used since. -/
theorem mem_recency_of_lastStored? {value : ν} (hstored : lastStored? events key = some value) :
    key ∈ recency events := by
  induction events using List.reverseRecOn with
  | nil => contradiction
  | append_singleton events event ih =>
    rw [lastStored?_concat] at hstored
    rw [recency_concat]
    cases event with
    | cleared => contradiction
    | missed other => exact ih hstored
    | found other =>
      by_cases hsame : key = other
      · exact hsame ▸ List.mem_cons_self
      · exact List.mem_cons_of_mem _ (List.mem_filter.2 ⟨ih hstored, by simpa using hsame⟩)
    | stored other stored =>
      by_cases hsame : key = other
      · exact hsame ▸ List.mem_cons_self
      · have hbefore : lastStored? events key = some value := by
          simpa [Event.isClear, Event.storedUnder?, Ne.symm hsame] using hstored
        exact List.mem_cons_of_mem _ (List.mem_filter.2 ⟨ih hbefore, by simpa using hsame⟩)

/-- In front of a key stand the keys that were used after it. -/
theorem exists_recency_eq (hkey : key ∈ recency events) :
    ∃ front back, recency events = front ++ key :: back ∧ key ∉ front ∧
      ∀ other, other ∈ front ↔ other ∈ usedAfter events key := by
  induction events using List.reverseRecOn with
  | nil => contradiction
  | append_singleton events event ih =>
    rw [usedAfter_concat]
    rw [recency_concat] at hkey ⊢
    have huse (used : κ) (hkey : key ∈ used :: (recency events).filter (· ≠ used)) :
        ∃ front back, used :: (recency events).filter (· ≠ used) = front ++ key :: back ∧
          key ∉ front ∧ ∀ other, other ∈ front ↔
            other ∈ if some used = some key then [] else usedAfter events key ++ [used] := by
      by_cases hsame : key = used
      · subst hsame
        exact ⟨[], _, rfl, List.not_mem_nil, by simp⟩
      · have hbefore : key ∈ recency events :=
          (List.mem_filter.1 ((List.mem_cons.1 hkey).resolve_left hsame)).1
        obtain ⟨front, back, horder, hfront, hused⟩ := ih hbefore
        refine ⟨used :: front.filter (· ≠ used), back.filter (· ≠ used), ?_, ?_, ?_⟩
        · simp [horder, hsame]
        · simp [hsame, hfront]
        · intro other
          simp only [List.mem_cons, List.mem_filter, hused, Option.some.injEq, Ne.symm hsame,
            if_false, List.mem_append, List.not_mem_nil, or_false]
          by_cases hother : other = used <;> simp [hother]
    cases event with
    | cleared => contradiction
    | missed other =>
      obtain ⟨front, back, horder, hfront, hused⟩ := ih hkey
      exact ⟨front, back, horder, hfront, by simpa [Event.usedKey?] using hused⟩
    | found used => exact huse used hkey
    | stored used value => exact huse used hkey

/-- The place of a key is the number of keys used after it. -/
theorem idxOf_recency (hkey : key ∈ recency events) :
    (recency events).idxOf key = (usedAfter events key).toFinset.card := by
  obtain ⟨front, back, horder, hfront, hused⟩ := exists_recency_eq hkey
  have hnodup : front.Nodup := by
    have hall := nodup_recency events
    rw [horder] at hall
    exact hall.of_append_left
  have hset : (usedAfter events key).toFinset = front.toFinset := by
    ext other
    rw [List.mem_toFinset, List.mem_toFinset, hused]
  rw [horder, List.idxOf_append_of_notMem hfront, List.idxOf_cons_self, Nat.add_zero, hset,
    List.toFinset_card_of_nodup hnodup]

/-- Taking a key out of what fits leaves the same first keys as taking it out of all. -/
theorem take_filter_take {keys : List κ} (hkeys : keys.Nodup) (key : κ) (count : Nat) :
    ((keys.take (count + 1)).filter (· ≠ key)).take count =
      (keys.filter (· ≠ key)).take count := by
  induction keys generalizing count with
  | nil => rfl
  | cons first keys ih =>
    obtain ⟨hfirst, hrest⟩ := List.nodup_cons.1 hkeys
    by_cases hsame : first = key
    · subst hsame
      have hall (others : List κ) (hothers : first ∉ others) :
          others.filter (· ≠ first) = others := by
        rw [List.filter_eq_self]
        intro other hother
        simpa using ne_of_mem_of_not_mem hother hothers
      simp only [List.take_succ_cons, List.filter_cons, ne_eq, not_true_eq_false, decide_false,
        Bool.false_eq_true, if_false]
      rw [hall keys hfirst, hall _ fun h => hfirst (List.mem_of_mem_take h), List.take_take,
        Nat.min_self]
    · cases count with
      | zero => simp
      | succ count => simpa [hsame] using ih hrest count

/-- A key that is not found has no entry. -/
theorem peek?_eq_none_iff : cache.peek? key = none ↔ key ∉ cache.entries.map Prod.fst := by
  rw [peek?, List.lookup_eq_none_iff]
  constructor
  · intro hentries hkey
    obtain ⟨entry, hentry, rfl⟩ := List.mem_map.1 hkey
    simpa using hentries entry hentry
  · intro hkey entry hentry
    rw [bne_iff_ne]
    rintro rfl
    exact hkey (List.mem_map_of_mem hentry)

/-- A key that is found has an entry. -/
theorem mem_keys_of_peek? {value : ν} (hfound : cache.peek? key = some value) :
    key ∈ cache.entries.map Prod.fst := by
  refine Classical.byContradiction fun hkey => ?_
  rw [peek?_eq_none_iff.2 hkey] at hfound
  contradiction

/-- A cache holds the keys used last, as many as fit, each with what was stored last. -/
structure Recalls (cache : Cache κ ν) (events : List (Event κ ν)) : Prop where
  keys : cache.entries.map Prod.fst = (recency events).take cache.capacity
  values : cache.Holds fun key value => lastStored? events key = some value

/-- An empty cache has nothing to recall. -/
theorem recalls_empty (capacity : Nat) : (empty capacity : Cache κ ν).Recalls [] :=
  ⟨(List.take_nil ..).symm, holds_empty capacity⟩

/-- The keys of all other entries. -/
theorem map_fst_without (cache : Cache κ ν) (key : κ) :
    (cache.without key).map Prod.fst = (cache.entries.map Prod.fst).filter (· ≠ key) := by
  rw [without, List.filter_map]
  rfl

/-- A key put in front of what fits leaves what fits of the new order. -/
theorem take_cons_filter_take {keys : List κ} (hkeys : keys.Nodup) (key : κ) (count : Nat) :
    (key :: (keys.take count).filter (· ≠ key)).take count =
      (key :: keys.filter (· ≠ key)).take count := by
  cases count with
  | zero => rfl
  | succ count => rw [List.take_succ_cons, List.take_succ_cons, take_filter_take hkeys]

/-- A lookup that finds its key pushes nothing out, since the key had a place before. -/
theorem Recalls.found (hcache : cache.Recalls events) {value : ν}
    (hfound : cache.peek? key = some value) :
    Recalls { cache with entries := (key, value) :: cache.without key }
      (events ++ [.found key]) := by
  obtain ⟨hkeys, hvalues⟩ := hcache
  have hheld : key ∈ (recency events).take cache.capacity := by
    rw [← hkeys]
    exact mem_keys_of_peek? hfound
  have hfits : (key :: ((recency events).take cache.capacity).filter (· ≠ key)).length ≤
      cache.capacity := by
    have hless : (((recency events).take cache.capacity).filter (· ≠ key)).length <
        ((recency events).take cache.capacity).length :=
      List.length_filter_lt_length_iff_exists.2 ⟨key, hheld, by simp⟩
    exact Nat.lt_of_lt_of_le hless (List.length_take_le ..)
  constructor
  · rw [recency_concat, List.map_cons, map_fst_without, hkeys, ← List.take_of_length_le hfits,
      take_cons_filter_take (nodup_recency events)]
    rfl
  · have hused := hvalues.get key
    rw [get_of_peek?_eq_some hfound] at hused
    intro other otherValue hentry
    rw [lastStored?_concat]
    exact hused other otherValue hentry

/-- A store puts its key in front, and with it the value. -/
theorem Recalls.stored (hcache : cache.Recalls events) (key : κ) (value : ν) :
    (cache.put key value).Recalls (events ++ [.stored key value]) := by
  obtain ⟨hkeys, hvalues⟩ := hcache
  constructor
  · rw [recency_concat, put, List.map_take, List.map_cons, map_fst_without, hkeys,
      take_cons_filter_take (nodup_recency events)]
    rfl
  · intro other otherValue hentry
    rw [lastStored?_concat]
    rcases List.mem_cons.1 (List.mem_of_mem_take hentry) with heq | hold
    · obtain ⟨rfl, rfl⟩ := Prod.mk.inj heq
      simp [Event.isClear, Event.storedUnder?]
    · obtain ⟨hmem, hother⟩ := List.mem_filter.1 hold
      have hother : key ≠ other := Ne.symm (by simpa using hother)
      simpa [Event.isClear, Event.storedUnder?, hother] using hvalues other otherValue hmem

/-- Every event keeps the invariant. -/
theorem Recalls.step (hcache : cache.Recalls events) (hstep : Step cache event after) :
    after.Recalls (events ++ [event]) := by
  cases hstep with
  | found hfound => exact hcache.found hfound
  | missed =>
    constructor
    · rw [recency_concat]
      exact hcache.keys
    · intro other otherValue hentry
      rw [lastStored?_concat]
      exact hcache.values other otherValue hentry
  | stored key value => exact hcache.stored key value
  | cleared =>
    constructor
    · rw [recency_concat]
      exact (List.take_nil ..).symm
    · intro other otherValue hentry
      exact absurd hentry List.not_mem_nil

/-- A key is held while fewer others than fit have been used after it. -/
theorem Recalls.peek?_eq_some_iff (hcache : cache.Recalls events) (key : κ) (value : ν) :
    cache.peek? key = some value ↔
      lastStored? events key = some value ∧
        (usedAfter events key).toFinset.card < cache.capacity := by
  constructor
  · intro hfound
    have hstored := hcache.values.of_peek? hfound
    have hheld : key ∈ (recency events).take cache.capacity := by
      rw [← hcache.keys]
      exact mem_keys_of_peek? hfound
    rw [← idxOf_recency (mem_recency_of_lastStored? hstored)]
    exact ⟨hstored, (List.mem_take_iff_idxOf_lt (List.mem_of_mem_take hheld)).1 hheld⟩
  · rintro ⟨hstored, hcount⟩
    have hused := mem_recency_of_lastStored? hstored
    rw [← idxOf_recency hused, ← List.mem_take_iff_idxOf_lt hused, ← hcache.keys] at hcount
    cases hfound : cache.peek? key with
    | none => exact absurd hcount (peek?_eq_none_iff.1 hfound)
    | some other =>
      have hother := hcache.values.of_peek? hfound
      exact congrArg some (Option.some.inj (hother.symm.trans hstored))

/-- No event changes how many entries fit. -/
theorem Step.capacity_eq (hstep : Step cache event after) : after.capacity = cache.capacity := by
  cases hstep <;> rfl

/-- No operations change how many entries fit. -/
theorem capacity_performAll (cache : Cache κ ν) (operations : List (Operation κ ν)) :
    (cache.performAll operations).2.capacity = cache.capacity := by
  induction operations using List.reverseRecOn with
  | nil => rfl
  | append_singleton operations operation ih =>
    rw [performAll_concat]
    exact (step_perform _ operation).capacity_eq.trans ih

/-- The invariant holds after every history. -/
theorem recalls_performAll (capacity : Nat) (operations : List (Operation κ ν)) :
    ((empty capacity : Cache κ ν).performAll operations).2.Recalls
      ((empty capacity : Cache κ ν).performAll operations).1 := by
  induction operations using List.reverseRecOn with
  | nil => exact recalls_empty capacity
  | append_singleton operations operation ih =>
    rw [performAll_concat]
    exact ih.step (step_perform _ operation)

/-- A cache is exactly what was used last. After any operations on an empty cache of any
capacity, a lookup of a key gives a value if and only if that value was the last to be stored
under the key since the last clear, and fewer different keys than fit were used after the last
use of the key. A fetch asks its probe exactly where a lookup gives nothing: there it gives and
stores what the probe gives, and everywhere else no probe makes a difference. -/
theorem get_eq_some_iff_recently_used (capacity : Nat) (operations : List (Operation κ ν))
    (key : κ) :
    ∃ events cache, (empty capacity : Cache κ ν).performAll operations = (events, cache) ∧
      (∀ value, (cache.get key).1 = some value ↔
        lastStored? events key = some value ∧
          (usedAfter events key).toFinset.card < max capacity 1) ∧
      (∀ value, (cache.get key).1 = some value →
        ∀ probe, cache.fetch key probe = ((value, true), (cache.get key).2)) ∧
      ((cache.get key).1 = none →
        ∀ probe, cache.fetch key probe = ((probe (), false), cache.put key (probe ()))) := by
  have hrecalls := recalls_performAll (κ := κ) (ν := ν) capacity operations
  have hcapacity := capacity_performAll (empty capacity : Cache κ ν) operations
  refine ⟨_, _, rfl, ?_, ?_, ?_⟩
  · intro value
    rw [get_fst, hrecalls.peek?_eq_some_iff, hcapacity]
    rfl
  · intro value hfound probe
    rw [get_fst] at hfound
    exact fetch_of_peek?_eq_some hfound probe
  · intro hmissed probe
    rw [get_fst] at hmissed
    exact fetch_of_peek?_eq_none hmissed probe

end Gallery.Cache
