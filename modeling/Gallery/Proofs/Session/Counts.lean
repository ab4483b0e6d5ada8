import Gallery.Proofs.Session.Passes

/-!
# What a session counts

Every turn shows one pass or none, and this is what is counted: the passes of a session that was
not cut short are those of its turns, and all other turns are failures. A receiver that fails
makes no difference to the failures, since a turn at which it fails has a layout.

The passes are listed here with their rows and totals. The calls of a session are the calls of
its passes, one after another.
-/

namespace Gallery

/-- A pass as it is shown: its totals and its rows. -/
structure Pass where
  summary : Summary
  rows : List (Row Float)

/-- The calls of a pass. -/
def Pass.calls (pass : Pass) : List Call :=
  passCalls pass.summary.containerWidth pass.rows pass.summary

namespace Session

/-- The pass that shows pictures in a container, if they have a layout. -/
def passesFor (session : Session) (items : List Picture) (width : Float) : List Pass :=
  match session.layout.arrange items width with
  | .error _ => []
  | .ok rows =>
    [⟨⟨width, rows.length, items.length, Row.totalHeight session.rowGap rows⟩, rows⟩]

/-- The pass at the last of some turns. -/
def passesAfter (session : Session) (turns : List Turn) : List Pass :=
  match turns.getLast?.bind Turn.width? with
  | none => []
  | some width => session.passesFor (session.itemsAfter turns) width

/-- The passes at some turns, one after another. -/
def passes (session : Session) (turns : List Turn) : List Pass :=
  turns.inits.flatMap session.passesAfter

variable {session : Session}

/-- The calls for pictures are those of their pass. -/
theorem callsFor_eq_flatMap (items : List Picture) (width : Float) :
    session.callsFor items width = (session.passesFor items width).flatMap Pass.calls := by
  unfold callsFor passesFor
  cases session.layout.arrange items width with
  | error fault => rfl
  | ok rows => simp [Pass.calls]

/-- The calls at a turn are those of its pass. -/
theorem callsAfter_eq_flatMap (turns : List Turn) :
    session.callsAfter turns = (session.passesAfter turns).flatMap Pass.calls := by
  unfold callsAfter passesAfter
  cases turns.getLast?.bind Turn.width? with
  | none => rfl
  | some width => exact callsFor_eq_flatMap _ width

/-- A session makes the calls of its passes. -/
theorem calls_eq_flatMap (turns : List Turn) :
    session.calls turns = (session.passes turns).flatMap Pass.calls := by
  rw [calls, passes, List.flatMap_assoc]
  apply List.flatMap_congr
  intro part _
  exact callsAfter_eq_flatMap part

/-- The pass of the first turn is shown first. -/
theorem passes_cons (turn : Turn) (turns : List Turn) :
    session.passes (turn :: turns) = session.passesAfter [turn] ++
      { session with items := session.itemsAfter [turn] }.passes turns := by
  refine flatMap_inits_cons rfl rfl (fun turns hturns => ?_) turns
  have hlast : (turn :: turns).getLast? = turns.getLast? := by
    cases turns with
    | nil => contradiction
    | cons next rest => exact List.getLast?_cons_cons
  rw [passesAfter, passesAfter, hlast, itemsAfter_cons]
  rfl

/-- A resize is a turn that needs no scan. -/
theorem turns_resized (root : Bytes) (scanner : Scanner) (tree : Tree) (widths : List Float) :
    turns root scanner (widths.map fun width => (tree, .resize width)) =
      widths.map .resized := by
  induction widths with
  | nil => rfl
  | cons width widths ih => exact congrArg (Turn.resized width :: ·) ih

/-- Resizes show the same pictures again. -/
theorem passes_resized (session : Session) (widths : List Float) :
    session.passes (widths.map .resized) = widths.flatMap (session.passesFor session.items) := by
  induction widths with
  | nil => rfl
  | cons width widths ih =>
    rw [List.map_cons, passes_cons, List.flatMap_cons]
    exact congrArg (session.passesFor session.items width ++ ·) ih

/-- A load and then resizes show what was found. -/
theorem passes_loaded (session : Session) (items : List Picture) (width : Float)
    (widths : List Float) : session.passes (.loaded width items :: widths.map .resized) =
      (width :: widths).flatMap (session.passesFor items) := by
  rw [passes_cons, List.flatMap_cons]
  exact congrArg (session.passesFor items width ++ ·) (passes_resized { session with items } widths)

/-- A turn shows at most one pass. -/
theorem passesAfter_cases (turns : List Turn) :
    session.passesAfter turns = [] ∨ ∃ pass, session.passesAfter turns = [pass] := by
  unfold passesAfter passesFor
  cases turns.getLast?.bind Turn.width? with
  | none => exact .inl rfl
  | some width =>
    dsimp only
    cases session.layout.arrange (session.itemsAfter turns) width with
    | error fault => exact .inl rfl
    | ok rows => exact .inr ⟨_, rfl⟩

/-- A turn at which nothing is cut short counts for its pass, or as a failure. -/
theorem after_callsAfter_ok {ε : Type} (counts : SessionCounts) (turns : List Turn) :
    let after := counts.after (session.callsAfter turns) (.ok () : Except ε Unit)
    after.passes = counts.passes + (session.passesAfter turns).length ∧
      after.passes + after.failures = counts.passes + counts.failures + 1 := by
  rw [callsAfter_eq_flatMap]
  obtain hnone | ⟨pass, hpass⟩ := session.passesAfter_cases turns
  · rw [hnone]
    exact ⟨rfl, (Nat.add_assoc _ _ _).symm⟩
  · rw [hpass]
    exact ⟨rfl, Nat.succ_add _ _⟩

end Session

namespace Run

variable {σ ε : Type}

/-- A session that was not cut short has counted the passes of its turns, and every other turn as
a failure. -/
theorem counts_takeAll (receiver : Receiver σ ε) (queue : List (Tree × Trigger)) (run : Run σ)
    {rest : List (Tree × Trigger)} {last : Run σ}
    (htake : run.takeAll receiver queue = (.ok (), rest, last)) :
    let turns := Session.turns run.session.root run.session.scanner queue
    last.counts.passes = run.counts.passes + (run.session.passes turns).length ∧
      last.counts.passes + last.counts.failures =
        run.counts.passes + run.counts.failures + turns.length := by
  intro turns
  induction queue generalizing run with
  | nil =>
    obtain rfl : run = last := congrArg (fun result => result.2.2) htake
    exact ⟨rfl, rfl⟩
  | cons next queue ih =>
    obtain ⟨tree, trigger⟩ := next
    cases hturn : Session.turn run.session.root run.session.scanner tree trigger with
    | none =>
      obtain rfl := Session.eq_shutdown_of_turn hturn
      obtain rfl : run.taken = last := congrArg (fun result => result.2.2) htake
      have hturns : turns = [] := by simp only [turns, Session.turns, hturn]
      rw [hturns]
      exact ⟨rfl, rfl⟩
    | some result =>
      obtain ⟨turn, scanner⟩ := result
      have hturns : turns = turn :: Session.turns run.session.root scanner queue := by
        simp only [turns, Session.turns, hturn]
      rw [takeAll, react_of_turn receiver hturn] at htake
      cases hfeed : receiver.feed run.state (run.session.callsAfter [turn]) with
      | mk outcome state =>
        rw [hfeed] at htake
        cases outcome with
        | error fault => cases congrArg Prod.fst htake
        | ok done =>
          obtain rfl : done = () := rfl
          -- The scanner has no part in what is shown.
          have hlater : ({ run.session with scanner, items := run.session.itemsAfter [turn] } :
              Session).passes (Session.turns run.session.root scanner queue) =
            { run.session with items := run.session.itemsAfter [turn] }.passes
              (Session.turns run.session.root scanner queue) := rfl
          obtain ⟨hpasses, hsum⟩ := ih _ htake
          obtain ⟨hpass, hcounted⟩ :=
            @Session.after_callsAfter_ok run.session ε run.taken.counts [turn]
          rw [hlater] at hpasses
          rw [hturns, Session.passes_cons, List.length_append, List.length_cons]
          have htaken : run.taken.counts.passes = run.counts.passes ∧
            run.taken.counts.failures = run.counts.failures := ⟨rfl, rfl⟩
          dsimp only at hpasses hsum
          omega

/-- A session makes the calls of its passes, up to the first that fails, and if none does it has
counted them. -/
theorem takeAll_passes (receiver : Receiver σ ε) (queue : List (Tree × Trigger)) (run : Run σ) :
    let turns := Session.turns run.session.root run.session.scanner queue
    let answer := receiver.feed run.state ((run.session.passes turns).flatMap Pass.calls)
    ∃ rest last, run.takeAll receiver queue = (answer.1, rest, last) ∧ last.state = answer.2 ∧
      (answer.1 = .ok () →
        last.counts.passes = run.counts.passes + (run.session.passes turns).length ∧
        last.counts.passes + last.counts.failures =
          run.counts.passes + run.counts.failures + turns.length) := by
  intro turns answer
  obtain ⟨rest, last, htake, hstate, -⟩ := takeAll_eq receiver queue run
  rw [Session.calls_eq_flatMap] at htake hstate
  exact ⟨rest, last, htake, hstate, fun hok => counts_takeAll receiver queue run (hok ▸ htake)⟩

end Run

end Gallery
