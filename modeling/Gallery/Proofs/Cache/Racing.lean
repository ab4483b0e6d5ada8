import Gallery.Proofs.Cache.Capacity

/-!
# Fetches that race

A fetch uses the cache twice, once to look its key up and once more to store what it then had to
probe. The cache is locked during each use, but not during the probe. So between the lookup of a
fetch and its store any number of others may look up, probe and store the same key, displace it,
or clear the cache.

Here the fetches take these steps one by one, in any order, and the other operations come in
between. Whether a fetch finds its key is settled at its lookup, and the rest of it does not rely on
what the cache holds by then. What has to be known of a fetch that is not over is the value that it
is going to store, and this is the value of its key like every value that is held. So the
invariant takes in both, and each step keeps it. What a fetch tells about its lookup is a matter of the
past and not of the state; it is proved by following the course back to the lookup.
-/

namespace Gallery.Cache

/-- Where a fetch stands. -/
inductive Phase (ν : Type) where
  | waiting
  /-- The key was not found, and there is no value yet. -/
  | missed
  /-- The value of the probe is not stored yet. -/
  | probed (value : ν)
  /-- The fetch is over; the flag tells whether the key was found. -/
  | answered (value : ν) (found : Bool)

namespace Phase

variable {ν : Type}

/-- The phase after the lookup. -/
def ofLookup : Option ν → Phase ν
  | none => .missed
  | some value => .answered value true

/-- The value of the key, as far as the fetch has one. -/
def value? : Phase ν → Option ν
  | .probed value => some value
  | .answered value _ => some value
  | _ => none

/-- Whether the key was found, once it was looked up. -/
def found? : Phase ν → Option Bool
  | .waiting => none
  | .answered _ found => some found
  | _ => some false

/-- Only a fetch that waits knows nothing of the key. -/
theorem found?_eq_none_iff {phase : Phase ν} : phase.found? = none ↔ phase = .waiting := by
  cases phase <;> simp [found?]

/-- A lookup gives a fetch the value that it finds, and no other. -/
@[simp] theorem value?_ofLookup (result : Option ν) : (ofLookup result).value? = result := by
  cases result <;> rfl

/-- A fetch knows what came of its lookup. -/
@[simp] theorem found?_ofLookup (result : Option ν) :
    (ofLookup result).found? = some result.isSome := by
  cases result <;> rfl

end Phase

/-- A cache, and the fetches that share it. -/
structure Race (ι κ ν : Type) where
  cache : Cache κ ν
  phase : ι → Phase ν

namespace Race

variable {ι κ ν : Type}

/-- Fetches that have not begun, on an empty cache. -/
def start (capacity : Nat) : Race ι κ ν := ⟨empty capacity, fun _ => .waiting⟩

/-- What can happen at once: a step of one of the fetches, or another operation on the cache. -/
inductive Move (ι κ ν : Type) where
  | lookup (caller : ι)
  | probe (caller : ι) (value : ν)
  | store (caller : ι)
  | other (operation : Operation κ ν)

namespace Move

/-- The fetch that takes the step. -/
def caller? : Move ι κ ν → Option ι
  | .lookup caller => some caller
  | .probe caller _ => some caller
  | .store caller => some caller
  | .other _ => none

/-- Whether no key is probed for, or given, another value than that of a function. -/
def Supplies [DecidableEq κ] (key : ι → κ) (f : κ → ν) : Move ι κ ν → Prop
  | .probe caller value => value = f (key caller)
  | .other operation => operation.Supplies f
  | _ => True

end Move

variable [DecidableEq ι]

/-- The race after a step of a fetch. -/
def step (race : Race ι κ ν) (caller : ι) (cache : Cache κ ν) (phase : Phase ν) : Race ι κ ν :=
  ⟨cache, Function.update race.phase caller phase⟩

section

variable {race : Race ι κ ν} {caller other : ι} {cache : Cache κ ν} {phase : Phase ν}

@[simp] theorem phase_step_self : (race.step caller cache phase).phase caller = phase :=
  Function.update_self ..

theorem phase_step_of_ne (hother : other ≠ caller) :
    (race.step caller cache phase).phase other = race.phase other :=
  Function.update_of_ne hother ..

/-- A step that tells its fetch nothing new tells nothing to any fetch. -/
theorem found?_step (hphase : phase.found? = (race.phase caller).found?) (other : ι) :
    ((race.step caller cache phase).phase other).found? = (race.phase other).found? := by
  by_cases hsame : other = caller
  · subst hsame
    rw [phase_step_self, hphase]
  · rw [phase_step_of_ne hsame]

end

variable [DecidableEq κ]

/-- The moves that are possible, and what they lead to. Each fetch has its key. -/
inductive Step (key : ι → κ) : Race ι κ ν → Move ι κ ν → Race ι κ ν → Prop where
  | lookup {race : Race ι κ ν} {caller : ι} (hphase : race.phase caller = .waiting) :
      Step key race (.lookup caller) (race.step caller (race.cache.get (key caller)).2
        (.ofLookup (race.cache.get (key caller)).1))
  | probe {race : Race ι κ ν} {caller : ι} (value : ν) (hphase : race.phase caller = .missed) :
      Step key race (.probe caller value) (race.step caller race.cache (.probed value))
  | store {race : Race ι κ ν} {caller : ι} {value : ν} (hphase : race.phase caller = .probed value) :
      Step key race (.store caller)
        (race.step caller (race.cache.put (key caller) value) (.answered value false))
  | other {race : Race ι κ ν} (operation : Operation κ ν) :
      Step key race (.other operation) { race with cache := (race.cache.perform operation).2 }

/-- Moves that follow one another. -/
inductive Course (key : ι → κ) : Race ι κ ν → List (Move ι κ ν) → Race ι κ ν → Prop where
  | nil (race : Race ι κ ν) : Course key race [] race
  | cons {race next last : Race ι κ ν} {move : Move ι κ ν} {moves : List (Move ι κ ν)}
      (hstep : Step key race move next) (hrest : Course key next moves last) :
      Course key race (move :: moves) last

/-- The only lookup of a fetch among some moves, and what it found. -/
def LooksUp (key : ι → κ) (race : Race ι κ ν) (moves : List (Move ι κ ν)) (last : Race ι κ ν)
    (caller : ι) (found : Bool) : Prop :=
  ∃ before between after, moves = before ++ .lookup caller :: after ∧
    .lookup caller ∉ before ∧ .lookup caller ∉ after ∧
    Course key race before between ∧ Course key between (.lookup caller :: after) last ∧
    (found = true ↔ key caller ∈ between.cache.keys)

variable {key : ι → κ} {f : κ → ν} {capacity : Nat} {race next last : Race ι κ ν}
variable {move : Move ι κ ν} {moves : List (Move ι κ ν)} {caller : ι} {cache : Cache κ ν}
variable {phase : Phase ν}

/-! ## Values -/

/-- What is held and what fetches have are the values of a function of the key, and the cache is
one that began empty. -/
structure Agrees (key : ι → κ) (f : κ → ν) (capacity : Nat) (race : Race ι κ ν) : Prop where
  wellFormed : race.cache.WellFormed
  fits : race.cache.capacity = max capacity 1
  held : race.cache.Holds fun key value => value = f key
  carried : ∀ caller value, (race.phase caller).value? = some value → value = f (key caller)

omit [DecidableEq κ] in
/-- A step of a fetch concerns no other fetch. -/
theorem Agrees.carried_step (hrace : Agrees key f capacity race)
    (hphase : ∀ value, phase.value? = some value → value = f (key caller)) (other : ι) (value : ν)
    (hvalue : ((race.step caller cache phase).phase other).value? = some value) :
    value = f (key other) := by
  by_cases hsame : other = caller
  · subst hsame
    rw [phase_step_self] at hvalue
    exact hphase value hvalue
  · rw [phase_step_of_ne hsame] at hvalue
    exact hrace.carried other value hvalue

/-- Every move leaves values of the function only. -/
theorem Agrees.step (hrace : Agrees key f capacity race) (hstep : Step key race move next)
    (hmove : move.Supplies key f) : Agrees key f capacity next := by
  have hcapacity (operation : Operation κ ν) :
      (race.cache.perform operation).2.capacity = max capacity 1 :=
    (step_perform race.cache operation).capacity_eq.trans hrace.fits
  cases hstep with
  | @lookup caller hphase =>
    refine ⟨hrace.wellFormed.get _, ?_, hrace.held.get _, hrace.carried_step ?_⟩
    · rw [step, ← perform_get_snd]
      exact hcapacity (.get (key caller))
    · intro value hvalue
      rw [Phase.value?_ofLookup, get_fst] at hvalue
      exact hrace.held.of_peek? hvalue
  | probe value hphase =>
    refine ⟨hrace.wellFormed, hrace.fits, hrace.held, hrace.carried_step ?_⟩
    intro other hother
    exact (Option.some.inj hother).symm.trans hmove
  | @store caller value hphase =>
    have hvalue : value = f (key caller) := hrace.carried caller value (by rw [hphase]; rfl)
    refine ⟨hrace.wellFormed.use (use_put ..), hrace.fits, hrace.held.put hvalue,
      hrace.carried_step ?_⟩
    intro other hother
    exact (Option.some.inj hother).symm.trans hvalue
  | other operation =>
    exact ⟨hrace.wellFormed.perform operation, hcapacity operation, hrace.held.perform hmove,
      hrace.carried⟩

/-- A whole course leaves values of the function only. -/
theorem Agrees.course (hrace : Agrees key f capacity race) (hcourse : Course key race moves last)
    (hmoves : ∀ move ∈ moves, move.Supplies key f) : Agrees key f capacity last := by
  induction hcourse with
  | nil => exact hrace
  | cons hstep _ ih =>
    rw [List.forall_mem_cons] at hmoves
    exact ih (hrace.step hstep hmoves.1) hmoves.2

omit [DecidableEq ι] [DecidableEq κ] in
/-- Before anything has happened there are no values. -/
theorem agrees_start (key : ι → κ) (f : κ → ν) (capacity : Nat) :
    Agrees key f capacity (start capacity) :=
  ⟨⟨List.nodup_nil, Nat.zero_le _⟩, rfl, holds_empty capacity, nofun⟩

/-! ## Lookups -/

/-- Only a lookup makes a difference to what its fetch knows of the key. -/
theorem Step.found?_cases (hstep : Step key race move next) (caller : ι) :
    (move ≠ .lookup caller ∧ (next.phase caller).found? = (race.phase caller).found?) ∨
      (move = .lookup caller ∧ race.phase caller = .waiting ∧
        (next.phase caller).found? = some (decide (key caller ∈ race.cache.keys))) := by
  cases hstep with
  | @lookup actor hphase =>
    by_cases hsame : caller = actor
    · subst hsame
      have hheld : (race.cache.get (key caller)).1.isSome =
          decide (key caller ∈ race.cache.keys) := by
        rw [Bool.eq_iff_iff, decide_eq_true_iff]
        exact isSome_get_iff race.cache (key caller)
      exact .inr ⟨rfl, hphase, by rw [phase_step_self, Phase.found?_ofLookup, hheld]⟩
    · refine .inl ⟨?_, by rw [phase_step_of_ne hsame]⟩
      rintro ⟨⟩
      exact hsame rfl
  | probe value hphase =>
    refine .inl ⟨nofun, found?_step ?_ caller⟩
    rw [hphase]
    rfl
  | store hphase =>
    refine .inl ⟨nofun, found?_step ?_ caller⟩
    rw [hphase]
    rfl
  | other operation => exact .inl ⟨nofun, rfl⟩

/-- A fetch looks up once: what it knows of the key by then, it knows to the end. -/
theorem Course.found?_eq (hcourse : Course key race moves last) {found : Bool}
    (hfound : (race.phase caller).found? = some found) :
    (last.phase caller).found? = some found ∧ .lookup caller ∉ moves := by
  induction hcourse with
  | nil => exact ⟨hfound, List.not_mem_nil⟩
  | cons hstep _ ih =>
    obtain ⟨hmove, hkept⟩ | ⟨-, hwaiting, -⟩ := hstep.found?_cases caller
    · obtain ⟨hlast, hothers⟩ := ih (hkept.trans hfound)
      exact ⟨hlast, List.not_mem_cons_of_ne_of_not_mem hmove.symm hothers⟩
    · rw [hwaiting] at hfound
      contradiction

/-- A fetch that has begun meanwhile has looked its key up. -/
theorem Course.looksUp (hcourse : Course key race moves last)
    (hphase : race.phase caller = .waiting) {found : Bool}
    (hfound : (last.phase caller).found? = some found) :
    LooksUp key race moves last caller found := by
  induction hcourse with
  | nil =>
    rw [hphase] at hfound
    contradiction
  | @cons race next last move moves hstep hrest ih =>
    obtain ⟨hmove, hkept⟩ | ⟨rfl, -, hlookup⟩ := hstep.found?_cases caller
    · have hwaiting : next.phase caller = .waiting := by
        rw [← Phase.found?_eq_none_iff, hkept, hphase]
        rfl
      obtain ⟨before, between, after, rfl, hbefore, hafter, hreached, hgone, hfound⟩ :=
        ih hwaiting hfound
      exact ⟨move :: before, between, after, rfl,
        List.not_mem_cons_of_ne_of_not_mem hmove.symm hbefore, hafter, .cons hstep hreached, hgone,
        hfound⟩
    · obtain ⟨hlast, hothers⟩ := hrest.found?_eq hlookup
      refine ⟨[], race, moves, rfl, List.not_mem_nil, hothers, .nil race, .cons hstep hrest, ?_⟩
      rw [Option.some.inj (hfound.symm.trans hlast), decide_eq_true_iff]

/-! ## Fetches -/

variable (key) in
/-- A fetch that nobody interrupts is the fetch of the cache. -/
theorem exists_course_of_fetch (hphase : race.phase caller = .waiting) (probe : Unit → ν) :
    ∃ own, (∀ move ∈ own, move.caller? = some caller) ∧
      Course key race own (race.step caller (race.cache.fetch (key caller) probe).2
        (.answered (race.cache.fetch (key caller) probe).1.1
          (race.cache.fetch (key caller) probe).1.2)) := by
  have hlookup : Step key race (.lookup caller) (race.step caller (race.cache.get (key caller)).2
      (.ofLookup (race.cache.get (key caller)).1)) := .lookup hphase
  cases hfound : race.cache.peek? (key caller) with
  | some value =>
    rw [get_of_peek?_eq_some hfound] at hlookup
    rw [fetch_of_peek?_eq_some hfound, get_of_peek?_eq_some hfound]
    exact ⟨[.lookup caller], by simp [Move.caller?], .cons hlookup (.nil _)⟩
  | none =>
    rw [get_of_peek?_eq_none hfound] at hlookup
    rw [fetch_of_peek?_eq_none hfound]
    let missed := race.step caller race.cache (.ofLookup none)
    let probed := missed.step caller race.cache (.probed (probe ()))
    have hprobe : Step key missed (.probe caller (probe ())) probed :=
      .probe (probe ()) phase_step_self
    have hstore : Step key probed (.store caller) (probed.step caller
        (race.cache.put (key caller) (probe ())) (.answered (probe ()) false)) :=
      .store phase_step_self
    refine ⟨[.lookup caller, .probe caller (probe ()), .store caller], by simp [Move.caller?], ?_⟩
    have hlast := Course.cons hlookup (.cons hprobe (.cons hstore (.nil _)))
    simpa only [step, probed, missed, Function.update_idem] using hlast

/-- Racing fetches agree. Fetches take their steps one by one, among those of others and among other
operations, in whatever order, and every probe and every store gives the value of a function of the
key. Then at every moment all that is held are values of that function, no key is held twice, and no
more entries than fit. A fetch that is over has answered with the value of its key, and it says that
the key was found exactly if it was held at the lookup of this fetch, whatever was displaced,
cleared or stored since. A fetch that has not begun can run to its end at any time, and if nobody
interrupts it does what a fetch of the cache does. -/
theorem racing_fetches_agree (key : ι → κ) (f : κ → ν) (capacity : Nat) {moves : List (Move ι κ ν)}
    {race : Race ι κ ν} (hcourse : Course key (start capacity) moves race)
    (hmoves : ∀ move ∈ moves, move.Supplies key f) :
    (∀ held value, (held, value) ∈ race.cache.entries → value = f held) ∧
      race.cache.keys.Nodup ∧ race.cache.size ≤ max capacity 1 ∧
      (∀ caller value found, race.phase caller = .answered value found →
        value = f (key caller) ∧ LooksUp key (start capacity) moves race caller found) ∧
      ∀ caller, race.phase caller = .waiting → ∀ probe, ∃ own,
        (∀ move ∈ own, move.caller? = some caller) ∧
        Course key race own (race.step caller (race.cache.fetch (key caller) probe).2
          (.answered (race.cache.fetch (key caller) probe).1.1
            (race.cache.fetch (key caller) probe).1.2)) := by
  have hagrees := (agrees_start key f capacity).course hcourse hmoves
  refine ⟨hagrees.held, hagrees.wellFormed.distinct, ?_, ?_, ?_⟩
  · have hfits := hagrees.wellFormed.fits
    rw [keys, List.length_map, hagrees.fits] at hfits
    exact hfits
  · intro caller value found hphase
    refine ⟨hagrees.carried caller value (by rw [hphase]; rfl), hcourse.looksUp rfl ?_⟩
    rw [hphase]
    rfl
  · intro caller hphase probe
    exact exists_course_of_fetch key hphase probe

/-- Three fetches of one key share room for one entry. Two of them miss the key; the third finds what
the first has stored, and this is displaced before the second stores it again. -/
def overtaken : List (Move (Fin 3) Nat Nat) :=
  [.lookup 0, .lookup 1, .probe 0 70, .store 0, .lookup 2, .other (.put 8 80), .probe 1 70, .store 1]

/-- Only the third fetch has found the key, and all three have the same value. -/
theorem racing_fetches_agree_overtaken :
    (∀ move ∈ overtaken, move.Supplies (fun _ => 7) (10 * ·)) ∧
    ∃ race, Course (fun _ => 7) (start 1) overtaken race ∧
      race.phase 1 = .answered 70 false ∧ race.phase 2 = .answered 70 true ∧
      LooksUp (fun _ => 7) (start 1) overtaken race 1 false ∧
      LooksUp (fun _ => 7) (start 1) overtaken race 2 true ∧
      race.cache.keys = [7] ∧ race.cache.size ≤ 1 := by
  have hmoves : ∀ move ∈ overtaken, move.Supplies (fun _ => 7) (10 * ·) := by
    simp [overtaken, Move.Supplies, Operation.Supplies]
  obtain ⟨race, hcourse, hsecond, hthird, hkeys⟩ : ∃ race,
      Course (fun _ => 7) (start 1) overtaken race ∧ race.phase 1 = .answered 70 false ∧
        race.phase 2 = .answered 70 true ∧ race.cache.keys = [7] :=
    ⟨_, .cons (.lookup rfl) (.cons (.lookup rfl) (.cons (.probe 70 rfl) (.cons (.store rfl)
      (.cons (.lookup rfl) (.cons (.other _) (.cons (.probe 70 rfl) (.cons (.store rfl)
        (.nil _)))))))), rfl, rfl, rfl⟩
  obtain ⟨-, -, hsize, hanswers, -⟩ := racing_fetches_agree (fun _ => 7) (10 * ·) 1 hcourse hmoves
  exact ⟨hmoves, race, hcourse, hsecond, hthird, (hanswers 1 70 false hsecond).2,
    (hanswers 2 70 true hthird).2, hkeys, hsize⟩

end Race

end Gallery.Cache
