import Gallery.Bytes

/-!
# What more bytes cannot change

A reader of a file is settled if bytes behind the file do not change what it has found there. It may
find something where it found nothing before, as a field that was cut off is completed, but it never
goes back on an answer. A test persists if it is still passed.

A reader is settled if it is put together from settled ones, so long as it is never the failure of a
part that makes it succeed. Looking up bytes at an offset is settled, and most else here is made of
that. The notions do not speak of files alone, but of everything that bytes can be put behind.
-/

namespace Gallery

variable {σ τ α β : Type} [HAppend σ Bytes σ]

/-- Whether a property is not lost when more bytes follow. -/
def Lasting (property : σ → Prop) : Prop :=
  ∀ ⦃input⦄, property input → ∀ more : Bytes, property (input ++ more)

/-- Whether a reader keeps to what it has found when more bytes follow. -/
def Settled (read : σ → Option α) : Prop := ∀ ⦃value⦄, Lasting fun input => read input = some value

/-- Whether a test that is passed is still passed when more bytes follow. -/
def Persists (test : σ → Bool) : Prop := Lasting fun input => test input = true

/-- Of two functions with lasting results one may be chosen by what more bytes do not change. -/
theorem Lasting.ite {choice : σ → Prop} [∀ input, Decidable (choice input)] {first second : σ → τ}
    {result : τ} (hchoice : ∀ input (more : Bytes), choice (input ++ more) = choice input)
    (hfirst : Lasting fun input => first input = result)
    (hsecond : Lasting fun input => second input = result) :
    Lasting fun input => (if choice input then first input else second input) = result := by
  intro input hresult more
  have hmore := hchoice input more
  by_cases hinput : choice input
  · rw [if_pos hinput] at hresult
    rw [if_pos (hmore.symm ▸ hinput)]
    exact hfirst hresult more
  · rw [if_neg hinput] at hresult
    rw [if_neg (hmore.symm ▸ hinput)]
    exact hsecond hresult more

/-! ## Readers -/

/-- A reader to which more bytes are all the same is settled. -/
theorem Settled.of_unchanged {read : σ → Option α}
    (hsame : ∀ input (more : Bytes), read (input ++ more) = read input) : Settled read := by
  intro value input hfound more
  rw [hsame, hfound]

/-- So is what needs no input. -/
theorem settled_const (found : Option α) : Settled fun _ : σ => found :=
  .of_unchanged fun _ _ => rfl

/-- A settled reader may be followed by another one that depends on what was found. -/
theorem Settled.bind {first : σ → Option α} {second : α → σ → Option β} (hfirst : Settled first)
    (hsecond : ∀ value, Settled (second value)) :
    Settled fun input => first input >>= fun value => second value input := by
  intro result input hfound more
  obtain ⟨value, hvalue, hresult⟩ := Option.bind_eq_some_iff.1 hfound
  exact Option.bind_eq_some_iff.2 ⟨value, hfirst hvalue more, hsecond value hresult more⟩

/-- What was found may be turned into something else. -/
theorem Settled.map {read : σ → Option α} (hread : Settled read) (f : α → β) :
    Settled fun input => (read input).map f := by
  intro result input hfound more
  obtain ⟨value, hvalue, rfl⟩ := Option.map_eq_some_iff.1 hfound
  exact Option.map_eq_some_iff.2 ⟨value, hread hvalue more, rfl⟩

/-- Of two settled readers one may be chosen by what more bytes do not change. -/
theorem Settled.ite {choice : σ → Prop} [∀ input, Decidable (choice input)]
    {first second : σ → Option α} (hchoice : ∀ input (more : Bytes), choice (input ++ more) = choice input)
    (hfirst : Settled first) (hsecond : Settled second) :
    Settled fun input => if choice input then first input else second input := by
  intro value
  exact .ite hchoice (@hfirst value) (@hsecond value)

/-- A settled reader may be made to depend on a test that persists. -/
theorem Settled.guard {test : σ → Bool} {read : σ → Option α} (htest : Persists test)
    (hread : Settled read) : Settled fun input => if test input then read input else none := by
  intro value input hfound more
  obtain ⟨hpassed, hvalue⟩ := Option.ite_none_right_eq_some.1 hfound
  exact Option.ite_none_right_eq_some.2 ⟨htest hpassed more, hread hvalue more⟩

/-! ## Tests -/

/-- A test to which more bytes are all the same persists. -/
theorem Persists.of_unchanged {test : σ → Bool}
    (hsame : ∀ input (more : Bytes), test (input ++ more) = test input) : Persists test := by
  intro input hpassed more
  rw [hsame, hpassed]

/-- Two tests may both be asked for. -/
theorem Persists.and {first second : σ → Bool} (hfirst : Persists first) (hsecond : Persists second) :
    Persists fun input => first input && second input := by
  intro input hpassed more
  rw [Bool.and_eq_true] at hpassed ⊢
  exact ⟨hfirst hpassed.1 more, hsecond hpassed.2 more⟩

/-- One of two tests may be asked for. -/
theorem Persists.or {first second : σ → Bool} (hfirst : Persists first) (hsecond : Persists second) :
    Persists fun input => first input || second input := by
  intro input hpassed more
  rw [Bool.or_eq_true] at hpassed ⊢
  exact hpassed.imp (hfirst · more) (hsecond · more)

/-- What a settled reader finds may be tested. -/
theorem Settled.any {read : σ → Option α} {test : α → σ → Bool} (hread : Settled read)
    (htest : ∀ value, Persists (test value)) :
    Persists fun input => (read input).any fun value => test value input := by
  intro input hpassed more
  rw [Option.any_eq_true] at hpassed ⊢
  obtain ⟨value, hvalue, hvaluePassed⟩ := hpassed
  exact ⟨value, hread hvalue more, htest value hvaluePassed more⟩

/-! ## Bytes at an offset -/

/-- A run of bytes is there if the file is long enough. -/
theorem slice?_eq_some_iff {bytes piece : Bytes} {offset length : Nat} :
    slice? bytes offset length = some piece ↔
      offset + length ≤ bytes.length ∧ (bytes.drop offset).take length = piece := by
  rw [slice?, Option.ite_none_right_eq_some, Option.some.injEq]

/-- A run of bytes that is there stays there. -/
theorem settled_slice? (offset length : Nat) :
    Settled fun bytes : Bytes => slice? bytes offset length := by
  intro piece bytes hfound more
  rw [slice?_eq_some_iff] at hfound ⊢
  obtain ⟨hlength, hpiece⟩ := hfound
  refine ⟨?_, ?_⟩
  · rw [List.length_append]
    omega
  · rw [List.drop_append_of_le_length (by omega), List.take_append_of_le_length]
    · exact hpiece
    · rw [List.length_drop]
      omega

/-- So does a number that is written there. -/
theorem settled_little? (offset length : Nat) :
    Settled fun bytes : Bytes => little? bytes offset length :=
  (settled_slice? offset length).map ofLittleEndian

/-- What a run of bytes at the start leaves of a file goes on with what follows the file. -/
theorem drop_append_of_slice? {bytes piece : Bytes} {length : Nat}
    (hpiece : slice? bytes 0 length = some piece) (more : Bytes) :
    (bytes ++ more).drop length = bytes.drop length ++ more := by
  rw [List.drop_append_of_le_length]
  have hfits := (slice?_eq_some_iff.1 hpiece).1
  omega

/-- A test of what stands behind an offset persists, if it is not passed where nothing does. -/
theorem Persists.drop {test : Bytes → Bool} (htest : Persists test) (hnil : test [] = false)
    (offset : Nat) : Persists fun bytes : Bytes => test (bytes.drop offset) := by
  intro bytes hpassed more
  dsimp only at hpassed ⊢
  rcases Nat.le_total offset bytes.length with hinside | hbehind
  · rw [List.drop_append_of_le_length hinside]
    exact htest hpassed more
  · rw [List.drop_eq_nil_of_le hbehind, hnil] at hpassed
    contradiction

end Gallery
