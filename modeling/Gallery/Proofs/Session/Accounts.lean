import Gallery.Proofs.Session.Counts
import Gallery.Proofs.Session.FailStop

/-!
# Sessions account for their triggers

A session that was not cut short has counted every trigger it took, and each of them once: as a pass, as
a failure, or as the shutdown that ended it. What it took and what it left are decided by the
queue alone. A pass is what the receiver was told from its start to its finish, and a failure is a load
of what is not a directory or a turn whose pictures have no layout.

The counts go up at four places, and none of these knows of the others. So they are compared here with
what the queue, the calls and the turns say, of which none has a counter. A turn has a pass, or
is a load that failed, or lacks a layout, and never two of these; from this everything about failures
follows by induction on the turns.
-/

namespace Gallery

/-- Whether a trigger ends the session. -/
def Trigger.isShutdown : Trigger → Bool
  | .shutdown => true
  | _ => false

/-- Whether a call starts a pass. -/
def Call.isStart : Call → Bool
  | .start _ => true
  | _ => false

/-- Whether a call finishes a pass. -/
def Call.isFinish : Call → Bool
  | .finish _ => true
  | _ => false

namespace Turn

/-- The trigger that was taken. -/
def trigger : Turn → Trigger
  | .loaded width _ => .load width
  | .notLoaded width => .load width
  | .resized width => .resize width

/-- Whether a turn is a load that failed. -/
def isLost : Turn → Bool
  | .notLoaded _ => true
  | _ => false

end Turn

namespace Session

/-- The triggers of a queue up to and including the first shutdown, or all if there is none. -/
def takenFrom (queue : List (Tree × Trigger)) : List (Tree × Trigger) :=
  queue.take (queue.findIdx (·.2.isShutdown) + 1)

/-- Whether there is no layout of the pictures that are to be shown at the last of some turns. -/
def lacksLayout (session : Session) (turns : List Turn) : Bool :=
  match turns.getLast?.bind Turn.width? with
  | none => false
  | some width => !(session.layout.arrange (session.itemsAfter turns) width).isOk

/-- The counts of a session account for the triggers that it took and for the calls that it made. -/
structure Accounts (session : Session) (taken : List (Tree × Trigger)) (calls : List Call)
    (counts : SessionCounts) : Prop where
  triggers : counts.triggers = taken.length
  starts : counts.passes = calls.countP Call.isStart
  finishes : counts.passes = calls.countP Call.isFinish
  /-- The turns are the triggers taken but for the shutdown. -/
  turns : (turns session.root session.scanner taken).map Turn.trigger =
    (taken.map (·.2)).filter fun trigger => !trigger.isShutdown
  failures : counts.failures =
    (Session.turns session.root session.scanner taken).countP Turn.isLost +
      (Session.turns session.root session.scanner taken).inits.countP session.lacksLayout
  balance : counts.triggers =
    counts.passes + counts.failures + if taken.any (·.2.isShutdown) then 1 else 0

section Queue

variable (root : Bytes) (scanner : Scanner)

/-- A shutdown is the last trigger to be taken. -/
theorem takenFrom_shutdown (tree : Tree) (queue : List (Tree × Trigger)) :
    takenFrom ((tree, .shutdown) :: queue) = [(tree, .shutdown)] := by
  simp [takenFrom, List.findIdx_cons, Trigger.isShutdown]

/-- Behind any other trigger more are taken. -/
theorem takenFrom_cons {trigger : Trigger} (htrigger : trigger.isShutdown = false) (tree : Tree)
    (queue : List (Tree × Trigger)) :
    takenFrom ((tree, trigger) :: queue) = (tree, trigger) :: takenFrom queue := by
  simp [takenFrom, List.findIdx_cons, htrigger]

/-- A trigger that has a turn is no shutdown, and the turn is its own. -/
theorem trigger_of_turn {tree : Tree} {trigger : Trigger} {turn : Turn} {next : Scanner}
    (hturn : Session.turn root scanner tree trigger = some (turn, next)) :
    turn.trigger = trigger ∧ trigger.isShutdown = false := by
  cases trigger with
  | shutdown => simp [Session.turn] at hturn
  | resize width =>
    simp only [Session.turn, Option.some.injEq, Prod.mk.injEq] at hturn
    simp [← hturn.1, Turn.trigger, Trigger.isShutdown]
  | load width =>
    rw [Session.turn] at hturn
    split at hturn <;> simp only [Option.some.injEq, Prod.mk.injEq] at hturn <;>
      simp [← hturn.1, Turn.trigger, Trigger.isShutdown]

/-- The triggers that are not taken have no turns. -/
theorem turns_takenFrom (queue : List (Tree × Trigger)) :
    turns root scanner (takenFrom queue) = turns root scanner queue := by
  induction queue generalizing scanner with
  | nil => rfl
  | cons next queue ih =>
    obtain ⟨tree, trigger⟩ := next
    cases hturn : turn root scanner tree trigger with
    | none =>
      obtain rfl := eq_shutdown_of_turn hturn
      simp [takenFrom_shutdown, turns, turn]
    | some result =>
      obtain ⟨-, hgoesOn⟩ := trigger_of_turn root scanner hturn
      simp [takenFrom_cons hgoesOn, turns, hturn, ih]

/-- Every trigger that is taken has its turn, except the shutdown. -/
theorem map_trigger_turns (queue : List (Tree × Trigger)) :
    (turns root scanner queue).map Turn.trigger =
      ((takenFrom queue).map (·.2)).filter fun trigger => !trigger.isShutdown := by
  induction queue generalizing scanner with
  | nil => rfl
  | cons next queue ih =>
    obtain ⟨tree, trigger⟩ := next
    cases hturn : turn root scanner tree trigger with
    | none =>
      obtain rfl := eq_shutdown_of_turn hturn
      simp [takenFrom_shutdown, turns, turn, Trigger.isShutdown]
    | some result =>
      obtain ⟨htrigger, hgoesOn⟩ := trigger_of_turn root scanner hturn
      simp [takenFrom_cons hgoesOn, turns, hturn, ih, htrigger, hgoesOn]

/-- No more than one shutdown is taken. -/
theorem countP_isShutdown_takenFrom (queue : List (Tree × Trigger)) :
    (takenFrom queue).countP (·.2.isShutdown) =
      if (takenFrom queue).any (·.2.isShutdown) then 1 else 0 := by
  induction queue with
  | nil => rfl
  | cons next queue ih =>
    obtain ⟨tree, trigger⟩ := next
    cases hshutdown : trigger.isShutdown with
    | true =>
      cases trigger with
      | shutdown => simp [takenFrom_shutdown, Trigger.isShutdown]
      | load width => simp [Trigger.isShutdown] at hshutdown
      | resize width => simp [Trigger.isShutdown] at hshutdown
    | false =>
      rw [takenFrom_cons hshutdown, List.countP_cons, List.any_cons, ih, hshutdown, Bool.false_or]
      rfl

/-- There are as many turns as triggers taken, less the shutdown. -/
theorem length_takenFrom (queue : List (Tree × Trigger)) :
    (takenFrom queue).length = (turns root scanner queue).length +
      if (takenFrom queue).any (·.2.isShutdown) then 1 else 0 := by
  have hturns := congrArg List.length (map_trigger_turns root scanner queue)
  have hsplit := List.length_eq_countP_add_countP (·.2.isShutdown) (l := takenFrom queue)
  rw [List.length_map, ← List.countP_eq_length_filter, List.countP_map] at hturns
  rw [← countP_isShutdown_takenFrom, hsplit, hturns, Nat.add_comm]
  congr 1
  apply List.countP_congr
  simp

end Queue

section Turns

variable (session : Session)

/-- A turn has a pass, or is a load that failed, or lacks a layout. -/
theorem length_passesAfter (turns : List Turn) (turn : Turn) :
    (session.passesAfter (turns ++ [turn])).length + (if turn.isLost then 1 else 0) +
      (if session.lacksLayout (turns ++ [turn]) then 1 else 0) = 1 := by
  cases turn with
  | notLoaded width => simp [passesAfter, lacksLayout, Turn.width?, Turn.isLost]
  | loaded width items =>
    cases harrange : session.layout.arrange (session.itemsAfter (turns ++ [.loaded width items])) width <;>
      simp [passesAfter, passesFor, lacksLayout, Turn.width?, Turn.isLost, harrange, Except.isOk,
        Except.toBool]
  | resized width =>
    cases harrange : session.layout.arrange (session.itemsAfter (turns ++ [.resized width])) width <;>
      simp [passesAfter, passesFor, lacksLayout, Turn.width?, Turn.isLost, harrange, Except.isOk,
        Except.toBool]

/-- So the turns without a pass are those two kinds of failures. -/
theorem length_turns (turns : List Turn) :
    turns.length = (session.passes turns).length +
      (turns.countP Turn.isLost + turns.inits.countP session.lacksLayout) := by
  induction turns using List.reverseRecOn with
  | nil => rfl
  | append_singleton turns turn ih =>
    have hlast := session.length_passesAfter turns turn
    have hpasses : session.passes (turns ++ [turn]) =
        session.passes turns ++ session.passesAfter (turns ++ [turn]) := by
      simp [passes, List.inits_append]
    have hprefixes : (turns ++ [turn]).inits = turns.inits ++ [turns ++ [turn]] := by
      simp [List.inits_append]
    rw [hpasses, hprefixes, List.length_append, List.length_append, List.countP_append,
      List.countP_append, List.countP_singleton, List.countP_singleton, List.length_singleton]
    omega

/-- Each pass is started once and finished once. -/
theorem countP_calls (passes : List Pass) :
    (passes.flatMap Pass.calls).countP Call.isStart = passes.length ∧
      (passes.flatMap Pass.calls).countP Call.isFinish = passes.length := by
  induction passes with
  | nil => exact ⟨rfl, rfl⟩
  | cons pass passes ih =>
    have hrows (p : Call → Bool) (hp : ∀ row, p (.row row) = false) :
        (pass.rows.map Call.row).countP p = 0 := by
      simp [List.countP_eq_zero, hp]
    have hstarts := hrows Call.isStart fun _ => rfl
    have hfinishes := hrows Call.isFinish fun _ => rfl
    simp [Pass.calls, passCalls, List.countP_cons, hstarts, hfinishes, ih, Call.isStart,
      Call.isFinish]

end Turns

end Session

namespace Run

variable {σ ε : Type}

/-- A trigger is counted as it is taken, and none is taken behind a shutdown. -/
theorem takeAll_of_ok (receiver : Receiver σ ε) (queue : List (Tree × Trigger)) (run : Run σ)
    {rest : List (Tree × Trigger)} {last : Run σ}
    (htake : run.takeAll receiver queue = (.ok (), rest, last)) :
    queue = Session.takenFrom queue ++ rest ∧
      last.counts.triggers = run.counts.triggers + (Session.takenFrom queue).length := by
  induction queue generalizing run with
  | nil => simp_all [takeAll, Session.takenFrom]
  | cons next queue ih =>
    obtain ⟨tree, trigger⟩ := next
    cases hturn : Session.turn run.session.root run.session.scanner tree trigger with
    | none =>
      obtain rfl := Session.eq_shutdown_of_turn hturn
      rw [Session.takenFrom_shutdown]
      simp only [takeAll, react, Prod.mk.injEq, true_and] at htake
      simp [← htake.1, ← htake.2, taken]
    | some result =>
      obtain ⟨turn, scanner⟩ := result
      obtain ⟨-, hgoesOn⟩ := Session.trigger_of_turn _ _ hturn
      rw [Session.takenFrom_cons hgoesOn]
      cases hcalls : (receiver.feed run.state (run.session.callsAfter [turn])).1 with
      | error fault =>
        obtain ⟨final, hrefused, -⟩ := takeAll_of_refused receiver hturn hcalls queue
        simp [hrefused] at htake
      | ok =>
        rw [takeAll_of_accepted receiver hturn hcalls] at htake
        obtain ⟨hqueue, htriggers⟩ := ih _ htake
        have htaken : (run.taken.counts.after (run.session.callsAfter [turn])
            (.ok () : Except ε Unit)).triggers = run.counts.triggers + 1 := by
          unfold SessionCounts.after
          split <;> rfl
        rw [htriggers, htaken, List.length_cons]
        exact ⟨congrArg _ hqueue, by omega⟩

/-- A run that was not cut short is the same if its receiver writes down the calls, which are those of
its passes. -/
theorem takeAll_logged (receiver : Receiver σ ε) (queue : List (Tree × Trigger)) (session : Session)
    (state : σ) {rest : List (Tree × Trigger)} {last : Run σ}
    (htake : takeAll receiver ⟨session, .zero, state⟩ queue = (.ok (), rest, last)) :
    ∃ final, takeAll receiver.logged ⟨session, .zero, (state, [])⟩ queue = (.ok (), rest, final) ∧
      final.counts = last.counts ∧ final.state = (last.state, (session.passes
        (Session.turns session.root session.scanner queue)).flatMap Pass.calls) := by
  have htold : session.told queue = (session.passes
      (Session.turns session.root session.scanner queue)).flatMap Pass.calls := by
    rw [Session.told_eq_calls, Session.calls_eq_flatMap]
  obtain ⟨left, found, hfeed, -⟩ := takeAll_eq receiver queue ⟨session, .zero, state⟩
  rw [htake, ← Session.told_eq_calls] at hfeed
  have haccepts : (receiver.feed state (session.told queue)).1 = .ok () :=
    (congrArg Prod.fst hfeed).symm
  have hlogged := Receiver.feed_logged_of_ok [] haccepts
  obtain ⟨others, one, final, hone, hfinal, -, hcounts⟩ :=
    takeAll_agrees receiver receiver.logged queue session .zero state (state, []) haccepts
      (congrArg Prod.fst hlogged)
  have hstate := state_takeAll receiver queue ⟨session, .zero, state⟩
  have hlog := state_takeAll receiver.logged queue ⟨session, .zero, (state, [])⟩
  rw [htake] at hone hstate
  rw [hfinal, hlogged] at hlog
  simp only [Prod.mk.injEq, true_and] at hone
  obtain ⟨rfl, rfl⟩ := hone
  refine ⟨final, hfinal, hcounts.symm, hlog.trans ?_⟩
  rw [hstate, ← htold, List.nil_append]

end Run

namespace Session

variable {σ ε : Type}

/-- The counts of a session that was not cut short account for everything. It has taken the triggers up
to and including the first shutdown, or all if there is none, and left the others as they are. Its
receiver was told as many starts, and as many finishes, as there are passes; the failures are the
loads among the triggers whose scan failed and the triggers whose layout failed; and every trigger
that was taken is a pass, a failure or the shutdown. -/
theorem run_accounts_for_every_trigger (session : Session) (receiver : Receiver σ ε) (state : σ)
    (queue : List (Tree × Trigger)) {counts : SessionCounts} {rest : List (Tree × Trigger)}
    {last : Run σ} (hrun : session.run receiver state queue = (.ok counts, rest, last)) :
    queue = takenFrom queue ++ rest ∧
      ∃ calls final, session.run receiver.logged (state, []) queue = (.ok counts, rest, final) ∧
        final.state = (last.state, calls) ∧ session.Accounts (takenFrom queue) calls counts := by
  obtain ⟨htake, rfl⟩ := takeAll_of_run_eq_ok hrun
  obtain ⟨hqueue, htriggers⟩ := Run.takeAll_of_ok receiver queue ⟨session, .zero, state⟩ htake
  obtain ⟨final, hlogged, hcounts, hstate⟩ := Run.takeAll_logged receiver queue session state htake
  obtain ⟨hpasses, hsum⟩ := Run.counts_takeAll receiver queue ⟨session, .zero, state⟩ htake
  obtain ⟨hstarts, hfinishes⟩ :=
    countP_calls (session.passes (turns session.root session.scanner queue))
  have hlength := session.length_turns (turns session.root session.scanner queue)
  have htaken := length_takenFrom session.root session.scanner queue
  simp only [SessionCounts.zero, Nat.zero_add] at htriggers hpasses hsum
  refine ⟨hqueue, _, final, ?_, hstate, ?_⟩
  · rw [run, hlogged, ← hcounts]
  · constructor
    case triggers => exact htriggers
    case starts => rw [hpasses, hstarts]
    case finishes => rw [hpasses, hfinishes]
    case turns => rw [turns_takenFrom, map_trigger_turns]
    case failures =>
      rw [turns_takenFrom]
      omega
    case balance => omega

/-- A session with a picture that has no height, in a directory that is gone. -/
def flattened : Session := { opened with items := [⟨ascii "g/a.gif", 1, 18, ⟨3, 0⟩⟩] }

/-- A layout fails, then a load; a container without rows can still be shown, and the last resize is
not taken. -/
def troubled : List (Tree × Trigger) :=
  [(.empty, .resize 640), (.empty, .load 320), (.empty, .resize (0.0 / 0.0)), (.empty, .shutdown),
    (.empty, .resize 100)]

/-- Four triggers are taken: one is a pass, two are failures, and one is the shutdown. -/
theorem run_accounts_for_every_trigger_troubled :
    ∃ rest last, flattened.run (Receiver.recorder Empty) [] troubled = (.ok ⟨4, 1, 2⟩, rest, last) ∧
      troubled = takenFrom troubled ++ rest ∧ rest.length = 1 ∧
      ∃ calls final,
        flattened.run (Receiver.recorder Empty).logged ([], []) troubled = (.ok ⟨4, 1, 2⟩, rest, final) ∧
        final.state = (last.state, calls) ∧
        flattened.Accounts (takenFrom troubled) calls ⟨4, 1, 2⟩ := by
  have hcounts : (flattened.run (Receiver.recorder Empty) [] troubled).1.toOption =
      some ⟨4, 1, 2⟩ := by decide +kernel
  have hrest : (flattened.run (Receiver.recorder Empty) [] troubled).2.1.length = 1 := by
    decide +kernel
  cases hrun : flattened.run (Receiver.recorder Empty) [] troubled with
  | mk outcome others =>
    obtain ⟨rest, last⟩ := others
    rw [hrun] at hcounts hrest
    cases outcome with
    | error fault => contradiction
    | ok counts =>
      obtain rfl := Option.some.inj hcounts
      obtain ⟨hqueue, haccounts⟩ :=
        run_accounts_for_every_trigger flattened (Receiver.recorder Empty) [] troubled hrun
      exact ⟨rest, last, rfl, hqueue, hrest, haccounts⟩

end Session

end Gallery
