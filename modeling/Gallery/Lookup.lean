/-!
# Association lists

What becomes of the values in an association list when its entries are filtered by their
keys: a key that passes keeps its value, and every other key loses it. Where no key occurs twice,
looking up a key finds its entry, in whatever order the entries stand.
-/

namespace Gallery

variable {κ ν : Type} [BEq κ] [LawfulBEq κ]

/-- Filtering by keys keeps the value of every key that passes. -/
theorem lookup_filter_of_pos (keep : κ → Bool) {entries : List (κ × ν)} {key : κ}
    (passes : keep key) :
    (entries.filter fun entry => keep entry.1).lookup key = entries.lookup key := by
  induction entries with
  | nil => rfl
  | cons entry entries ih =>
    obtain ⟨other, value⟩ := entry
    cases same : key == other with
    | true =>
      obtain rfl := eq_of_beq same
      simp [passes]
    | false => cases kept : keep other <;> simp [kept, List.lookup_cons, same, ih]

/-- Filtering by keys forgets every key that does not pass. -/
theorem lookup_filter_of_neg (keep : κ → Bool) {entries : List (κ × ν)} {key : κ}
    (fails : keep key = false) :
    (entries.filter fun entry => keep entry.1).lookup key = none := by
  refine List.lookup_eq_none_iff.2 fun entry member => ?_
  have kept := (List.mem_filter.1 member).2
  simp only [bne_iff_ne, ne_eq]
  rintro rfl
  simp [fails] at kept

/-- Where no key occurs twice, an entry gives the value of its key. -/
theorem lookup_of_mem {entries : List (κ × ν)} (hdistinct : (entries.map Prod.fst).Nodup) {key : κ}
    {value : ν} (hentry : (key, value) ∈ entries) : entries.lookup key = some value := by
  obtain ⟨front, back, rfl⟩ := List.append_of_mem hentry
  rw [List.map_append, List.map_cons, List.nodup_append] at hdistinct
  refine List.lookup_eq_some_iff.2 ⟨front, back, rfl, ?_⟩
  intro other hother
  have hne : other.1 ≠ key :=
    hdistinct.2.2 other.1 (List.mem_map_of_mem hother) key List.mem_cons_self
  simpa using hne.symm

/-- The value of a key is that of an entry. -/
theorem mem_of_lookup_eq_some {entries : List (κ × ν)} {key : κ} {value : ν}
    (hlookup : entries.lookup key = some value) : (key, value) ∈ entries := by
  obtain ⟨front, back, hentries, -⟩ := List.lookup_eq_some_iff.1 hlookup
  rw [hentries]
  exact List.mem_append_right front List.mem_cons_self

/-- Where no key occurs twice, the order of the entries does not matter. -/
theorem lookup_of_perm {entries others : List (κ × ν)} (hperm : others.Perm entries)
    (hdistinct : (entries.map Prod.fst).Nodup) (key : κ) :
    others.lookup key = entries.lookup key := by
  have hothers : (others.map Prod.fst).Nodup := (hperm.map Prod.fst).nodup_iff.2 hdistinct
  refine Option.ext fun value => ⟨fun hlookup => ?_, fun hlookup => ?_⟩
  · exact lookup_of_mem hdistinct (hperm.mem_iff.1 (mem_of_lookup_eq_some hlookup))
  · exact lookup_of_mem hothers (hperm.mem_iff.2 (mem_of_lookup_eq_some hlookup))

end Gallery
