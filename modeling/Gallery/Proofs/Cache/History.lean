import Gallery.Cache.Recency
import Mathlib.Data.Finset.Card
import Mathlib.Data.List.DropRight

/-!
# Histories of a cache

What has been done to a cache is a list of operations, and what came of them is a list of
events: a lookup finds its key or misses it, and a fetch that misses stores what its probe
gives. The events alone say which keys were used, what was stored under each of them since
the cache was cleared, and in which order the keys were used last.

A cache that begins empty holds the keys that come first in that order, as many as fit, each
with what was stored under it last. This is the invariant of every history.
-/

namespace Gallery.Cache

variable {κ ν : Type}

/-- What can be done to a cache. -/
inductive Operation (κ ν : Type) where
  | get (key : κ)
  | put (key : κ) (value : ν)
  | fetch (key : κ) (probe : Unit → ν)
  | clear

/-- What came of an operation. -/
inductive Event (κ ν : Type) where
  | found (key : κ)
  | missed (key : κ)
  | stored (key : κ) (value : ν)
  | cleared

namespace Event

/-- The key that was used. A key that was missed was not. -/
def usedKey? : Event κ ν → Option κ
  | .found key => some key
  | .stored key _ => some key
  | _ => none

/-- Whether the cache was cleared. -/
def isClear : Event κ ν → Bool
  | .cleared => true
  | _ => false

variable [DecidableEq κ]

/-- The value that was stored under a key. -/
def storedUnder? (key : κ) : Event κ ν → Option ν
  | .stored other value => if other = key then some value else none
  | _ => none

end Event

variable [DecidableEq κ]

/-- What comes of an operation, and the cache after it. -/
def perform (cache : Cache κ ν) : Operation κ ν → Event κ ν × Cache κ ν
  | .get key =>
    match cache.get key with
    | (some _, cache) => (.found key, cache)
    | (none, cache) => (.missed key, cache)
  | .put key value => (.stored key value, cache.put key value)
  | .fetch key probe =>
    match cache.fetch key probe with
    | ((_, true), cache) => (.found key, cache)
    | ((value, false), cache) => (.stored key value, cache)
  | .clear => (.cleared, cache.clear)

/-- What comes of operations in order, and the cache after them. -/
def performAll (cache : Cache κ ν) : List (Operation κ ν) → List (Event κ ν) × Cache κ ν
  | [] => ([], cache)
  | operation :: operations =>
    let (event, cache) := cache.perform operation
    let (events, cache) := cache.performAll operations
    (event :: events, cache)

/-- What an event means for the cache in which it happens. -/
inductive Step : Cache κ ν → Event κ ν → Cache κ ν → Prop where
  | found {cache : Cache κ ν} {key : κ} {value : ν} (hfound : cache.peek? key = some value) :
      Step cache (.found key) { cache with entries := (key, value) :: cache.without key }
  | missed {cache : Cache κ ν} {key : κ} (hmissed : cache.peek? key = none) :
      Step cache (.missed key) cache
  | stored (cache : Cache κ ν) (key : κ) (value : ν) :
      Step cache (.stored key value) (cache.put key value)
  | cleared (cache : Cache κ ν) : Step cache .cleared cache.clear

/-- A lookup of a key that is held moves it to the front. -/
theorem get_of_peek?_eq_some {cache : Cache κ ν} {key : κ} {value : ν}
    (hfound : cache.peek? key = some value) :
    cache.get key = (some value, { cache with entries := (key, value) :: cache.without key }) := by
  rw [get, hfound]

/-- A lookup of a key that is not held changes nothing. -/
theorem get_of_peek?_eq_none {cache : Cache κ ν} {key : κ} (hmissed : cache.peek? key = none) :
    cache.get key = (none, cache) := by
  rw [get, hmissed]

/-- A lookup gives what is held. -/
theorem get_fst (cache : Cache κ ν) (key : κ) : (cache.get key).1 = cache.peek? key := by
  cases hfound : cache.peek? key with
  | none => rw [get_of_peek?_eq_none hfound]
  | some value => rw [get_of_peek?_eq_some hfound]

/-- A fetch of a key that is held is a lookup, whatever the probe would give. -/
theorem fetch_of_peek?_eq_some {cache : Cache κ ν} {key : κ} {value : ν}
    (hfound : cache.peek? key = some value) (probe : Unit → ν) :
    cache.fetch key probe = ((value, true), (cache.get key).2) := by
  rw [fetch, get_of_peek?_eq_some hfound]

/-- A fetch of a key that is not held gives and stores what the probe gives. -/
theorem fetch_of_peek?_eq_none {cache : Cache κ ν} {key : κ} (hmissed : cache.peek? key = none)
    (probe : Unit → ν) :
    cache.fetch key probe = ((probe (), false), cache.put key (probe ())) := by
  rw [fetch, get_of_peek?_eq_none hmissed]

/-- Every operation comes to one of the four events. -/
theorem step_perform (cache : Cache κ ν) (operation : Operation κ ν) :
    Step cache (cache.perform operation).1 (cache.perform operation).2 := by
  cases operation with
  | get key =>
    cases hfound : cache.peek? key with
    | none =>
      simp only [perform, get_of_peek?_eq_none hfound]
      exact .missed hfound
    | some value =>
      simp only [perform, get_of_peek?_eq_some hfound]
      exact .found hfound
  | put key value => exact .stored cache key value
  | fetch key probe =>
    cases hfound : cache.peek? key with
    | none =>
      simp only [perform, fetch_of_peek?_eq_none hfound]
      exact .stored cache key (probe ())
    | some value =>
      simp only [perform, fetch_of_peek?_eq_some hfound, get_of_peek?_eq_some hfound]
      exact .found hfound
  | clear => exact .cleared cache

/-- Operations come to events one after another. -/
theorem performAll_concat (cache : Cache κ ν) (operations : List (Operation κ ν))
    (operation : Operation κ ν) :
    cache.performAll (operations ++ [operation]) =
      ((cache.performAll operations).1 ++ [((cache.performAll operations).2.perform operation).1],
        ((cache.performAll operations).2.perform operation).2) := by
  induction operations generalizing cache with
  | nil => rfl
  | cons first operations ih => simp only [List.cons_append, performAll, ih]

/-! ## What the events tell -/

section Events

variable (events : List (Event κ ν)) (key : κ)

/-- The value that was stored last under a key since the cache was cleared. -/
def lastStored? : Option ν :=
  ((events.rtakeWhile fun event => !event.isClear).filterMap (Event.storedUnder? key)).getLast?

/-- The keys that were used after the last use of a key, some of them more than once. -/
def usedAfter : List κ :=
  (events.rtakeWhile fun event => event.usedKey? ≠ some key).filterMap Event.usedKey?

end Events

variable {events : List (Event κ ν)} {key : κ}

/-- What the last events tell, up to one that ends them, with one more event. -/
theorem filterMap_rtakeWhile_concat {α β : Type} (goesOn : α → Bool) (tell : α → Option β)
    (events : List α) (event : α) :
    ((events ++ [event]).rtakeWhile goesOn).filterMap tell =
      if goesOn event then (events.rtakeWhile goesOn).filterMap tell ++ (tell event).toList
      else [] := by
  cases hevent : goesOn event with
  | true =>
    rw [List.rtakeWhile_concat_pos _ _ _ hevent, List.filterMap_append, if_pos rfl]
    cases htold : tell event <;> simp [htold]
  | false => rw [List.rtakeWhile_concat_neg _ _ _ (by simp [hevent])]; rfl

/-- One more event. -/
theorem lastStored?_concat (event : Event κ ν) :
    lastStored? (events ++ [event]) key =
      if event.isClear then none else (event.storedUnder? key).or (lastStored? events key) := by
  rw [lastStored?, filterMap_rtakeWhile_concat]
  cases event.isClear with
  | true => rfl
  | false => cases hstored : event.storedUnder? key <;> simp [lastStored?]

theorem usedAfter_concat (event : Event κ ν) :
    usedAfter (events ++ [event]) key =
      if event.usedKey? = some key then [] else usedAfter events key ++ event.usedKey?.toList := by
  rw [usedAfter, filterMap_rtakeWhile_concat]
  by_cases hkey : event.usedKey? = some key <;> simp [hkey, usedAfter]

end Gallery.Cache
