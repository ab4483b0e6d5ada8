import Gallery.Proofs.Cache.Keys

/-!
# Room for more

Two caches with room for different numbers of entries go through the same operations. The one with
more room holds whatever the other one holds, and in the same order, although a key that it alone
still holds is moved to its front when the other one misses it. So no operation finds its key in
the smaller cache and misses it in the larger one.

That the keys of the one are among those of the other does not carry the induction: a store into a
full cache must not displace what a smaller cache with room left would keep. But a cache with room
left has not displaced anything since it was cleared, so then both hold the same.
-/

namespace Gallery.Cache

variable {κ ν : Type} [DecidableEq κ]

/-- Two caches of which the larger one holds no less than the smaller one. -/
structure Nested (small large : Cache κ ν) : Prop where
  capacity_le : small.capacity ≤ large.capacity
  sublist : small.keys.Sublist large.keys
  full_or_same : small.keys.length = small.capacity ∨ small.keys = large.keys

section Lists

variable {few many : List κ} {count more : Nat}

omit [DecidableEq κ] in
/-- Without the last of them, fewer keys are still among more. -/
theorem take_sublist_take (hsublist : few.Sublist many) (hfew : few.length = count + 1)
    (hmany : many.length ≤ more + 1) : (few.take count).Sublist (many.take more) := by
  have hreverse := hsublist.reverse.tail
  rw [List.tail_reverse, List.tail_reverse, List.reverse_sublist] at hreverse
  have hfewer : few.take count = few.dropLast := by rw [List.dropLast_eq_take, hfew, Nat.add_sub_cancel]
  rw [hfewer]
  refine hreverse.trans ?_
  rw [List.dropLast_eq_take]
  exact List.take_sublist_take_left (by omega)

/-- Where the fewer keys are as many as fit, moving a key to the front keeps them among the more. -/
theorem take_moveToFront_sublist (hcount : count ≤ more) (hsublist : few.Sublist many)
    (hfew : few.length = count) (hmany : many.length ≤ more) (hdistinct : many.Nodup) (key : κ) :
    ((moveToFront key few).take count).Sublist ((moveToFront key many).take more) := by
  by_cases hkey : key ∈ many
  · have hlength := length_moveToFront_of_mem hdistinct hkey
    rw [List.take_of_length_le (hlength.trans_le hmany)]
    exact (List.take_sublist _ _).trans ((hsublist.filter _).cons_cons key)
  · rw [moveToFront_of_notMem hkey, moveToFront_of_notMem fun hmem => hkey (hsublist.subset hmem)]
    cases count with
    | zero => exact List.nil_sublist _
    | succ count =>
      cases more with
      | zero => exact absurd hcount (Nat.not_succ_le_zero count)
      | succ more => exact (take_sublist_take hsublist hfew hmany).cons_cons key

end Lists

variable {small large smaller larger : Cache κ ν} {key : κ}

/-- A use of a key in both caches. -/
theorem Nested.use (hnested : Nested small large) (hsmall : small.WellFormed)
    (hlarge : large.WellFormed) (huse : Use small key smaller) (hother : Use large key larger) :
    Nested smaller larger := by
  obtain ⟨hcapacity, hsublist, hfull | hsame⟩ := hnested
  · -- A full cache stays full, as a use makes the keys no fewer.
    have hlength := length_le_moveToFront hsmall.distinct key
    refine ⟨?_, ?_, .inl ?_⟩
    · rwa [huse.capacity, hother.capacity]
    · rw [huse.keys, hother.keys]
      exact take_moveToFront_sublist hcapacity hsublist hfull hlarge.fits hlarge.distinct key
    · rw [huse.keys, huse.capacity, List.length_take]
      omega
  · refine ⟨?_, ?_, ?_⟩
    · rwa [huse.capacity, hother.capacity]
    · rw [huse.keys, hother.keys, hsame]
      exact List.take_sublist_take_left hcapacity
    · rw [huse.keys, huse.capacity, hother.keys, hsame, List.length_take]
      rcases Nat.le_total small.capacity (moveToFront key large.keys).length with hover | hfits
      · exact .inl (Nat.min_eq_left hover)
      · refine .inr ?_
        rw [List.take_of_length_le hfits, List.take_of_length_le (hfits.trans hcapacity)]

/-- A use of a key that the larger cache alone holds. -/
theorem Nested.use_of_notMem (hnested : Nested small large) (hlarge : large.WellFormed)
    (hkey : key ∉ small.keys) (hheld : key ∈ large.keys) (hother : Use large key larger) :
    Nested small larger := by
  have hlength := length_moveToFront_of_mem hlarge.distinct hheld
  refine ⟨?_, ?_, .inl ?_⟩
  · rw [hother.capacity]
    exact hnested.capacity_le
  · have hmoved : (moveToFront key small.keys).Sublist (moveToFront key large.keys) :=
      (hnested.sublist.filter _).cons_cons key
    rw [moveToFront_of_notMem hkey] at hmoved
    rw [hother.keys, List.take_of_length_le (hlength.trans_le hlarge.fits)]
    exact (List.sublist_cons_self _ _).trans hmoved
  · refine hnested.full_or_same.resolve_right ?_
    intro hsame
    exact hkey (hsame ▸ hheld)

/-- Every operation on both caches leaves the larger one with no less than the smaller one. -/
theorem Nested.perform (hnested : Nested small large) (hsmall : small.WellFormed)
    (hlarge : large.WellFormed) (operation : Operation κ ν) :
    Nested (small.perform operation).2 (large.perform operation).2 := by
  cases operation with
  | get key =>
    rw [perform_get_snd, perform_get_snd]
    by_cases hkey : key ∈ small.keys
    · exact hnested.use hsmall hlarge (hsmall.use_get hkey)
        (hlarge.use_get (hnested.sublist.subset hkey))
    · -- A miss changes nothing in the smaller cache, but the larger one may still move the key.
      rw [get_of_notMem hkey]
      by_cases hheld : key ∈ large.keys
      · exact hnested.use_of_notMem hlarge hkey hheld (hlarge.use_get hheld)
      · rw [get_of_notMem hheld]
        exact hnested
  | put key value => exact hnested.use hsmall hlarge (use_put small key value) (use_put large key value)
  | fetch key probe =>
    rw [perform_fetch_snd, perform_fetch_snd]
    exact hnested.use hsmall hlarge (hsmall.use_fetch key probe) (hlarge.use_fetch key probe)
  | clear => exact ⟨hnested.capacity_le, .slnil, .inr rfl⟩

/-- Caches that begin empty are nested after any operations. -/
theorem nested_performAll {few more : Nat} (hroom : few ≤ more) (operations : List (Operation κ ν)) :
    Nested ((empty few : Cache κ ν).performAll operations).2
      ((empty more : Cache κ ν).performAll operations).2 := by
  induction operations using List.reverseRecOn with
  | nil => exact ⟨max_le_max_right 1 hroom, .slnil, .inr rfl⟩
  | append_singleton operations operation ih =>
    rw [performAll_concat, performAll_concat]
    exact ih.perform (wellFormed_performAll few operations) (wellFormed_performAll more operations)
      operation

/-! ## What is found -/

/-- Whether an operation stores nothing under a key but its value of a function. -/
def Operation.Supplies (f : κ → ν) : Operation κ ν → Prop
  | .put key value => value = f key
  | .fetch key probe => probe () = f key
  | _ => True

/-- An operation that stores only values of a function leaves a cache with nothing else. -/
theorem Holds.perform {cache : Cache κ ν} {f : κ → ν}
    (hcache : cache.Holds fun key value => value = f key) {operation : Operation κ ν}
    (hvalues : operation.Supplies f) :
    (cache.perform operation).2.Holds fun key value => value = f key := by
  cases operation with
  | get key =>
    rw [perform_get_snd]
    exact hcache.get key
  | put key value => exact hcache.put hvalues
  | fetch key probe =>
    rw [perform_fetch_snd]
    exact hcache.fetch key probe hvalues
  | clear => exact holds_empty 0

/-- Where only values of a function are stored, a cache holds nothing else. -/
theorem holds_performAll {f : κ → ν} (capacity : Nat) {operations : List (Operation κ ν)}
    (hvalues : ∀ operation ∈ operations, operation.Supplies f) :
    ((empty capacity : Cache κ ν).performAll operations).2.Holds fun key value => value = f key := by
  induction operations using List.reverseRecOn with
  | nil => exact holds_empty capacity
  | append_singleton operations operation ih =>
    rw [List.forall_mem_append, List.forall_mem_singleton] at hvalues
    rw [performAll_concat]
    exact (ih hvalues.1).perform hvalues.2

/-- A lookup gives something exactly where the key is held. -/
theorem isSome_get_iff (cache : Cache κ ν) (key : κ) : (cache.get key).1.isSome ↔ key ∈ cache.keys := by
  rw [get_fst, Option.isSome_iff_ne_none, ne_eq, peek?_eq_none_iff, not_not]
  rfl

/-- A fetch that finds its key gives what a lookup gives. -/
theorem fetch_fst_eq_iff (cache : Cache κ ν) (key : κ) (probe : Unit → ν) (value : ν) :
    (cache.fetch key probe).1 = (value, true) ↔ (cache.get key).1 = some value := by
  rw [get_fst]
  cases hfound : cache.peek? key with
  | none => simp [fetch_of_peek?_eq_none hfound]
  | some held => simp [fetch_of_peek?_eq_some hfound]

/-- More capacity never hurts. After any operations, and so at every moment of a history, a cache
with more room holds every key that one with less room holds, in the same order of use. A lookup or
a fetch that finds its key in the smaller one finds it in the larger one. If moreover all that was
stored and probed was the value of a function of the key, both find the same. -/
theorem more_capacity_never_hurts {few more : Nat} (hroom : few ≤ more)
    (operations : List (Operation κ ν)) :
    let small := ((empty few : Cache κ ν).performAll operations).2
    let large := ((empty more : Cache κ ν).performAll operations).2
    small.keys.Sublist large.keys ∧
      (∀ key, (small.get key).1.isSome → (large.get key).1.isSome) ∧
      (∀ key probe, (small.fetch key probe).1.2 = true → (large.fetch key probe).1.2 = true) ∧
      ∀ f : κ → ν, (∀ operation ∈ operations, operation.Supplies f) →
        (∀ key value, (small.get key).1 = some value → (large.get key).1 = some value) ∧
        ∀ key probe value, (small.fetch key probe).1 = (value, true) →
          (large.fetch key probe).1 = (value, true) := by
  intro small large
  have hsublist : small.keys.Sublist large.keys := (nested_performAll hroom operations).sublist
  refine ⟨hsublist, ?_, ?_, ?_⟩
  · intro key hfound
    rw [isSome_get_iff] at hfound ⊢
    exact hsublist.subset hfound
  · intro key probe hfound
    rw [fetch_remembered, decide_eq_true_eq] at hfound ⊢
    exact hsublist.subset hfound
  · intro f hvalues
    have hget (key : κ) (value : ν) (hfound : (small.get key).1 = some value) :
        (large.get key).1 = some value := by
      have hheld : key ∈ small.keys := by
        rw [← isSome_get_iff, hfound]
        rfl
      obtain ⟨other, hother⟩ := exists_peek?_eq_some (hsublist.subset hheld)
      rw [get_fst] at hfound ⊢
      have hvalue : value = f key := (holds_performAll few hvalues).of_peek? hfound
      have hsame : other = f key := (holds_performAll more hvalues).of_peek? hother
      rw [hother, hvalue, hsame]
    refine ⟨hget, ?_⟩
    intro key probe value hfound
    rw [fetch_fst_eq_iff] at hfound ⊢
    exact hget key value hfound

/-- Three stores, a lookup that only a cache with room for three can answer, and a fourth store. -/
def promoting : List (Operation Nat Nat) :=
  [.put 1 10, .put 2 20, .put 3 30, .get 1, .put 4 40]

/-- The lookup moves its key between two others in the larger cache, which keep their order. -/
theorem more_capacity_never_hurts_promoting :
    let small := ((empty 2 : Cache Nat Nat).performAll promoting).2
    let large := ((empty 3 : Cache Nat Nat).performAll promoting).2
    small.keys = [4, 3] ∧ large.keys = [4, 1, 3] ∧ small.keys.Sublist large.keys ∧
      ∀ key value, (small.get key).1 = some value → (large.get key).1 = some value := by
  intro small large
  have hvalues : ∀ operation ∈ promoting, operation.Supplies (10 * ·) := by
    simp [promoting, Operation.Supplies]
  obtain ⟨hsublist, -, -, hsame⟩ := more_capacity_never_hurts (by decide : 2 ≤ 3) promoting
  exact ⟨by decide, by decide, hsublist, (hsame (10 * ·) hvalues).1⟩

end Gallery.Cache
