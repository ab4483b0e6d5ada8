import Gallery.Cache.Recency

/-!
# What a cache holds

A cache never makes up an entry. What it holds after a use was held before or has just been
stored, whichever entries were displaced on the way. So a relation between keys and values
that every stored pair satisfies is satisfied by everything that is ever found.
-/

namespace Gallery.Cache

variable {κ ν : Type} [DecidableEq κ]

/-- Every entry of a cache satisfies a relation. -/
def Holds (cache : Cache κ ν) (p : κ → ν → Prop) : Prop :=
  ∀ key value, (key, value) ∈ cache.entries → p key value

variable {cache : Cache κ ν} {p : κ → ν → Prop}

omit [DecidableEq κ] in
/-- An empty cache has no entry that could fail. -/
theorem holds_empty (capacity : Nat) : (empty capacity : Cache κ ν).Holds p := by
  intro key value hentry
  exact absurd hentry List.not_mem_nil

/-- What is found satisfies the relation. -/
theorem Holds.of_peek? (hcache : cache.Holds p) {key : κ} {value : ν}
    (hfound : cache.peek? key = some value) : p key value := by
  obtain ⟨front, back, hentries, -⟩ := List.lookup_eq_some_iff.1 hfound
  apply hcache key value
  rw [hentries]
  exact List.mem_append_right front List.mem_cons_self

/-- A key whose values all fail the relation is not found. -/
theorem Holds.peek?_eq_none (hcache : cache.Holds p) {key : κ} (hkey : ∀ value, ¬p key value) :
    cache.peek? key = none := by
  cases hfound : cache.peek? key with
  | none => rfl
  | some value => exact absurd (hcache.of_peek? hfound) (hkey value)

/-- A use only moves an entry. -/
theorem Holds.get (hcache : cache.Holds p) (key : κ) : (cache.get key).2.Holds p := by
  unfold Cache.get
  cases hfound : cache.peek? key with
  | none => exact hcache
  | some value =>
    intro other otherValue hentry
    rcases List.mem_cons.1 hentry with heq | hold
    · obtain ⟨rfl, rfl⟩ := Prod.mk.inj heq
      exact hcache.of_peek? hfound
    · exact hcache other otherValue (List.mem_filter.1 hold).1

/-- A store adds the stored entry and no other. -/
theorem Holds.put (hcache : cache.Holds p) {key : κ} {value : ν} (hvalue : p key value) :
    (cache.put key value).Holds p := by
  intro other otherValue hentry
  rcases List.mem_cons.1 (List.mem_of_mem_take hentry) with heq | hold
  · obtain ⟨rfl, rfl⟩ := Prod.mk.inj heq
    exact hvalue
  · exact hcache other otherValue (List.mem_filter.1 hold).1

/-- If the probe satisfies the relation, so does what is fetched, found or probed. -/
theorem Holds.fetch_value (hcache : cache.Holds p) (key : κ) (probe : Unit → ν)
    (hprobe : p key (probe ())) : p key (cache.fetch key probe).1.1 := by
  unfold Cache.fetch Cache.get
  cases hfound : cache.peek? key with
  | none => exact hprobe
  | some value => exact hcache.of_peek? hfound

/-- If the probe satisfies the relation, a fetch keeps it. -/
theorem Holds.fetch (hcache : cache.Holds p) (key : κ) (probe : Unit → ν)
    (hprobe : p key (probe ())) : (cache.fetch key probe).2.Holds p := by
  have hget := hcache.get key
  unfold Cache.fetch
  cases hfound : cache.get key with
  | mk found used =>
    rw [hfound] at hget
    cases found with
    | none => exact hget.put hprobe
    | some value => exact hget

end Gallery.Cache
