import Gallery.Lookup

/-!
# A cache that forgets what was used least recently

A cache holds at most a fixed number of entries, ordered by their last use. Looking an entry
up and storing one both count as a use. A new key that finds the cache full displaces the
entry that has gone unused for longest. A lookup that fails changes nothing.
-/

namespace Gallery

/-- A bounded map from keys to values. -/
structure Cache (κ ν : Type) where
  /-- How many entries fit; at least one. -/
  capacity : Nat
  /-- The entries, the one used last in front. -/
  entries : List (κ × ν)

namespace Cache

variable {κ ν : Type}

/-- An empty cache for the given number of entries; none is taken for one. -/
def empty (capacity : Nat) : Cache κ ν := ⟨max capacity 1, []⟩

/-- How many entries are held. -/
def size (cache : Cache κ ν) : Nat := cache.entries.length

/-- Whether nothing is held. -/
def isEmpty (cache : Cache κ ν) : Bool := cache.entries.isEmpty

/-- The cache without its entries. -/
def clear (cache : Cache κ ν) : Cache κ ν := { cache with entries := [] }

@[simp] theorem size_empty (capacity : Nat) : (empty capacity : Cache κ ν).size = 0 := rfl

@[simp] theorem size_clear (cache : Cache κ ν) : cache.clear.size = 0 := rfl

variable [DecidableEq κ]

/-- The value of a key, without using it. -/
def peek? (cache : Cache κ ν) (key : κ) : Option ν := cache.entries.lookup key

/-- The entries of all other keys. -/
def without (cache : Cache κ ν) (key : κ) : List (κ × ν) :=
  cache.entries.filter fun entry => entry.1 ≠ key

/-- The value of a key, which counts as a use of it. -/
def get (cache : Cache κ ν) (key : κ) : Option ν × Cache κ ν :=
  match cache.peek? key with
  | none => (none, cache)
  | some value => (some value, { cache with entries := (key, value) :: cache.without key })

/-- Store a value, which counts as a use. It takes the place of the value that was held under
the key, and where there was none, of the last entry if the cache is full. -/
def put (cache : Cache κ ν) (key : κ) (value : ν) : Cache κ ν :=
  { cache with entries := ((key, value) :: cache.without key).take cache.capacity }

/-- The value of a key, taken from the cache if it is there and probed and stored otherwise;
the flag tells whether it was there. -/
def fetch (cache : Cache κ ν) (key : κ) (probe : Unit → ν) : (ν × Bool) × Cache κ ν :=
  match cache.get key with
  | (some value, cache) => ((value, true), cache)
  | (none, cache) =>
    let value := probe ()
    ((value, false), cache.put key value)

@[simp] theorem peek?_clear (cache : Cache κ ν) (key : κ) : cache.clear.peek? key = none := rfl

/-- A store never holds more than fits. -/
theorem size_put_le (cache : Cache κ ν) (key : κ) (value : ν) :
    (cache.put key value).size ≤ cache.capacity := by
  simp only [size, put, List.length_take]
  exact Nat.min_le_left ..

/-- What is stored is held. -/
theorem peek?_put_self (cache : Cache κ ν) (key : κ) (value : ν) (room : 0 < cache.capacity) :
    (cache.put key value).peek? key = some value := by
  obtain ⟨capacity, entries⟩ := cache
  cases capacity with
  | zero => exact absurd room (Nat.lt_irrefl 0)
  | succ capacity => simp [put, peek?]

/-- A use changes no value. -/
theorem peek?_get (cache : Cache κ ν) (key other : κ) :
    (cache.get key).2.peek? other = cache.peek? other := by
  unfold get
  cases found : cache.peek? key with
  | none => rfl
  | some value =>
    by_cases same : other = key
    · subst same
      simpa [peek?] using found.symm
    · have kept : (cache.without key).lookup other = cache.entries.lookup other :=
        lookup_filter_of_pos (fun held => held ≠ key) (by simpa using same)
      have apart : (other == key) = false := beq_false_of_ne same
      simp [peek?, List.lookup_cons, apart, kept]

end Cache

/-- How many entries are remembered where nothing else is asked for. -/
def standardCapacity : Nat := 4096

end Gallery
