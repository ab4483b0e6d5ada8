import Gallery.Proofs.Session.Passes

/-!
# Receivers that fail

A session ends with the first call that its receiver refuses. Up to that call it has made the calls
that it would have made to a receiver that never fails, and it does not take another trigger. The
load of the trigger at hand has taken place by then, so its pictures are kept. A load or a layout
that fails on the way is not a failure of this kind and stops nothing.

The two runs that are compared share no state. They are related through the calls: the calls of a
queue are known without a receiver, those of its first triggers come first, and a receiver that
accepts calls accepts the first of them. A receiver that fails nowhere leaves no other trace than
its own state, so two such runs differ in nothing else.
-/

namespace Gallery

namespace Receiver

variable {σ ε : Type} (receiver : Receiver σ ε) (state : σ)

/-- The receiver that also writes down what it is told, the call that it refuses included. -/
def logged : Receiver (σ × List Call) ε where
  receive state call :=
    ((receiver.receive state.1 call).1, (receiver.receive state.1 call).2, state.2 ++ [call])

/-- Whether a receiver that is told some calls accepts the first `count` of them and refuses the
next, if there is a next one. -/
structure RefusesAfter (count : Nat) (calls : List Call) (fault : ε) : Prop where
  accepts : (receiver.feed state (calls.take count)).1 = .ok ()
  refuses : count < calls.length → (receiver.feed state (calls.take (count + 1))).1 = .error fault

/-- A single call is received. -/
theorem feed_singleton (call : Call) :
    receiver.feed state [call] = receiver.receive state call := by
  rw [feed]
  cases receiver.receive state call with
  | mk outcome next => cases outcome <;> rfl

variable {receiver state}

/-- Behind calls that are accepted the others are made in the state that these lead to. -/
theorem feed_append_of_ok {first : List Call} (hfirst : (receiver.feed state first).1 = .ok ())
    (second : List Call) :
    receiver.feed state (first ++ second) =
      receiver.feed (receiver.feed state first).2 second := by
  have hfeed : receiver.feed state first = (.ok (), (receiver.feed state first).2) :=
    Prod.ext hfirst rfl
  rw [feed_append, hfeed]

/-- Behind a call that is refused no others are made. -/
theorem feed_append_of_error {first : List Call} {fault : ε}
    (hfirst : (receiver.feed state first).1 = .error fault) (second : List Call) :
    receiver.feed state (first ++ second) = receiver.feed state first := by
  have hfeed : receiver.feed state first = (.error fault, (receiver.feed state first).2) :=
    Prod.ext hfirst rfl
  rw [feed_append, hfeed]

/-- The first of some calls that are accepted are accepted. -/
theorem feed_eq_ok_of_isPrefix {first calls : List Call} (hfirst : first <+: calls)
    (hcalls : (receiver.feed state calls).1 = .ok ()) : (receiver.feed state first).1 = .ok () := by
  obtain ⟨second, rfl⟩ := hfirst
  cases hfeed : (receiver.feed state first).1 with
  | ok => rfl
  | error fault => rw [← hcalls, feed_append_of_error hfeed, hfeed]

/-- Calls that are accepted end in front of the one that is refused. -/
theorem RefusesAfter.length_le {count : Nat} {first calls : List Call} {fault : ε}
    (hcalls : receiver.RefusesAfter state count calls fault) (hcount : count < calls.length)
    (hfirst : first <+: calls) (haccepted : (receiver.feed state first).1 = .ok ()) :
    first.length ≤ count := by
  by_contra hlonger
  have hrefused : calls.take (count + 1) <+: first := by
    refine List.prefix_of_prefix_length_le (List.take_prefix _ _) hfirst ?_
    exact (List.length_take_le _ _).trans (Nat.lt_of_not_le hlonger)
  have hok := feed_eq_ok_of_isPrefix hrefused haccepted
  rw [hcalls.refuses hcount] at hok
  contradiction

/-- Calls of which one is refused do not end in front of it. -/
theorem RefusesAfter.lt_length {count : Nat} {first calls : List Call} {fault other : ε}
    (hcalls : receiver.RefusesAfter state count calls fault) (hfirst : first <+: calls)
    (hrefused : (receiver.feed state first).1 = .error other) : count < first.length := by
  by_contra hshorter
  have haccepted : first <+: calls.take count :=
    List.prefix_take_iff.2 ⟨hfirst, Nat.le_of_not_lt hshorter⟩
  have hok := feed_eq_ok_of_isPrefix haccepted hcalls.accepts
  rw [hrefused] at hok
  contradiction

/-- A call is received and written down, whatever the answer. -/
theorem receive_logged (log : List Call) (call : Call) :
    receiver.logged.receive (state, log) call =
      ((receiver.receive state call).1, (receiver.receive state call).2, log ++ [call]) := rfl

/-- Writing down the calls makes no difference to what is answered. -/
theorem feed_logged_fst (log calls : List Call) :
    (receiver.logged.feed (state, log) calls).1 = (receiver.feed state calls).1 := by
  induction calls generalizing state log with
  | nil => rfl
  | cons call calls ih =>
    rw [feed, feed, receive_logged]
    cases receiver.receive state call with
    | mk outcome next =>
      cases outcome with
      | ok => exact ih (log ++ [call])
      | error fault => rfl

/-- Calls that are accepted are written down behind those before them. -/
theorem feed_logged_of_ok (log : List Call) {calls : List Call}
    (hcalls : (receiver.feed state calls).1 = .ok ()) :
    receiver.logged.feed (state, log) calls =
      (.ok (), (receiver.feed state calls).2, log ++ calls) := by
  induction calls generalizing state log with
  | nil => rw [List.append_nil]; rfl
  | cons call calls ih =>
    have hcall : (receiver.feed state [call]).1 = .ok () :=
      feed_eq_ok_of_isPrefix (List.prefix_append [call] calls) hcalls
    have hlogged : receiver.logged.feed (state, log) [call] =
        ((receiver.feed state [call]).1, (receiver.feed state [call]).2, log ++ [call]) := by
      rw [feed_singleton, feed_singleton, receive_logged]
    rw [← List.singleton_append, feed_append_of_ok hcall] at hcalls ⊢
    rw [feed_append_of_ok (by rw [hlogged, hcall]), hlogged, ih (log ++ [call]) hcalls,
      List.append_assoc]

/-- The call that is refused is the last to be written down. -/
theorem feed_logged_of_refusesAfter (log : List Call) {count : Nat} {calls : List Call} {fault : ε}
    (hcalls : receiver.RefusesAfter state count calls fault) (hcount : count < calls.length) :
    receiver.logged.feed (state, log) calls =
      (.error fault, (receiver.feed state (calls.take (count + 1))).2,
        log ++ calls.take (count + 1)) := by
  have htake : calls.take (count + 1) = calls.take count ++ [calls[count]] :=
    List.take_succ_eq_append_getElem hcount
  have hlogged : receiver.logged.feed (state, log) (calls.take (count + 1)) =
      (.error fault, (receiver.feed state (calls.take (count + 1))).2,
        log ++ calls.take (count + 1)) := by
    have hfirst := feed_logged_of_ok log hcalls.accepts
    have hrefuses := hcalls.refuses hcount
    rw [htake, feed_append_of_ok hcalls.accepts, feed_singleton] at hrefuses ⊢
    rw [feed_append_of_ok (by rw [hfirst]), hfirst, feed_singleton, receive_logged, hrefuses,
      List.append_assoc]
  conv_lhs => rw [← List.take_append_drop (count + 1) calls]
  rw [feed_append_of_error (by rw [hlogged]), hlogged]

end Receiver

namespace Session

variable {session : Session}

/-- The turns of the first triggers come first. -/
theorem isPrefix_turns_append (root : Bytes) (scanner : Scanner)
    (first second : List (Tree × Trigger)) :
    turns root scanner first <+: turns root scanner (first ++ second) := by
  induction first generalizing scanner with
  | nil => exact List.nil_prefix
  | cons next first ih =>
    obtain ⟨tree, trigger⟩ := next
    rw [List.cons_append, turns, turns]
    cases turn root scanner tree trigger with
    | none => exact List.nil_prefix
    | some result => exact (List.prefix_cons_inj _).2 (ih result.2)

/-- The calls of the first turns are made first. -/
theorem isPrefix_calls {first turns : List Turn} (hfirst : first <+: turns) :
    session.calls first <+: session.calls turns := by
  induction turns generalizing session first with
  | nil => rw [List.prefix_nil.1 hfirst]
  | cons turn turns ih =>
    cases first with
    | nil => exact List.nil_prefix
    | cons next first =>
      obtain ⟨rfl, hothers⟩ := List.cons_prefix_cons.1 hfirst
      rw [calls_cons, calls_cons]
      exact (List.prefix_append_right_inj _).2 (ih hothers)

/-- The calls that a session makes to a receiver that never fails. -/
def told (session : Session) (queue : List (Tree × Trigger)) : List Call :=
  (session.run (Receiver.recorder Empty) [] queue).2.2.state

/-- These are the calls of its turns. -/
theorem told_eq_calls (session : Session) (queue : List (Tree × Trigger)) :
    session.told queue = session.calls (turns session.root session.scanner queue) := by
  obtain ⟨rest, last, htake, hstate, -⟩ :=
    Run.takeAll_eq (Receiver.recorder Empty) queue ⟨session, .zero, []⟩
  rw [Receiver.feed_recorder, List.nil_append] at htake hstate
  rw [told, run, htake]
  exact hstate

/-- The calls for the first triggers are made first. -/
theorem isPrefix_told_append (session : Session) (first second : List (Tree × Trigger)) :
    session.told first <+: session.told (first ++ second) := by
  rw [told_eq_calls, told_eq_calls]
  exact isPrefix_calls (isPrefix_turns_append _ _ first second)

/-- A turn is told first, and the others are told by a session that has taken it. -/
theorem told_of_turn {tree : Tree} {trigger : Trigger} {turn : Turn} {scanner : Scanner}
    (hturn : Session.turn session.root session.scanner tree trigger = some (turn, scanner))
    (queue : List (Tree × Trigger)) :
    session.told ((tree, trigger) :: queue) = session.callsAfter [turn] ++
      { session with scanner, items := session.itemsAfter [turn] }.told queue := by
  rw [told_eq_calls, told_eq_calls, turns, hturn]
  exact calls_cons turn _

end Session

namespace Run

variable {σ τ ε δ : Type}

/-- A run leaves its receiver in the state to which the calls lead. -/
theorem state_takeAll (receiver : Receiver σ ε) (queue : List (Tree × Trigger)) (run : Run σ) :
    (run.takeAll receiver queue).2.2.state =
      (receiver.feed run.state (run.session.told queue)).2 := by
  obtain ⟨rest, last, htake, hstate, -⟩ := takeAll_eq receiver queue run
  rw [htake, Session.told_eq_calls]
  exact hstate

/-- Where the calls of a turn are accepted the run goes on, with what the scan came to. -/
theorem takeAll_of_accepted (receiver : Receiver σ ε) {run : Run σ} {tree : Tree}
    {trigger : Trigger} {turn : Turn} {scanner : Scanner}
    (hturn : Session.turn run.session.root run.session.scanner tree trigger = some (turn, scanner))
    (hcalls : (receiver.feed run.state (run.session.callsAfter [turn])).1 = .ok ())
    (queue : List (Tree × Trigger)) :
    run.takeAll receiver ((tree, trigger) :: queue) =
      takeAll receiver
        ⟨{ run.session with scanner, items := run.session.itemsAfter [turn] },
          run.taken.counts.after (run.session.callsAfter [turn]) (.ok () : Except ε Unit),
          (receiver.feed run.state (run.session.callsAfter [turn])).2⟩ queue := by
  rw [takeAll, react_of_turn receiver hturn, hcalls]
  rfl

/-- Where one of them is refused the run ends, also with what the scan came to. -/
theorem takeAll_of_refused (receiver : Receiver σ ε) {run : Run σ} {tree : Tree}
    {trigger : Trigger} {turn : Turn} {scanner : Scanner} {fault : ε}
    (hturn : Session.turn run.session.root run.session.scanner tree trigger = some (turn, scanner))
    (hcalls : (receiver.feed run.state (run.session.callsAfter [turn])).1 = .error fault)
    (queue : List (Tree × Trigger)) :
    ∃ last, run.takeAll receiver ((tree, trigger) :: queue) = (.error fault, queue, last) ∧
      last.session.items = run.session.itemsAfter [turn] := by
  rw [takeAll, react_of_turn receiver hturn, hcalls]
  exact ⟨_, rfl, rfl⟩

/-- Two runs of a session whose receivers fail nowhere differ only in the states of these. -/
theorem takeAll_agrees (receiver : Receiver σ ε) (other : Receiver τ δ)
    (queue : List (Tree × Trigger)) (session : Session) (counts : SessionCounts) (state : σ)
    (otherState : τ) (hreceiver : (receiver.feed state (session.told queue)).1 = .ok ())
    (hother : (other.feed otherState (session.told queue)).1 = .ok ()) :
    ∃ rest last final, takeAll receiver ⟨session, counts, state⟩ queue = (.ok (), rest, last) ∧
      takeAll other ⟨session, counts, otherState⟩ queue = (.ok (), rest, final) ∧
      last.session = final.session ∧ last.counts = final.counts := by
  induction queue generalizing session counts state otherState with
  | nil => exact ⟨[], _, _, rfl, rfl, rfl, rfl⟩
  | cons next queue ih =>
    obtain ⟨tree, trigger⟩ := next
    cases hturn : Session.turn session.root session.scanner tree trigger with
    | none =>
      obtain rfl := Session.eq_shutdown_of_turn hturn
      exact ⟨queue, _, _, rfl, rfl, rfl, rfl⟩
    | some result =>
      obtain ⟨turn, scanner⟩ := result
      rw [Session.told_of_turn hturn] at hreceiver hother
      have hfirst := Receiver.feed_eq_ok_of_isPrefix (List.prefix_append _ _) hreceiver
      have hotherFirst := Receiver.feed_eq_ok_of_isPrefix (List.prefix_append _ _) hother
      rw [Receiver.feed_append_of_ok hfirst] at hreceiver
      rw [Receiver.feed_append_of_ok hotherFirst] at hother
      have htake :=
        @takeAll_of_accepted _ _ receiver ⟨session, counts, state⟩ _ _ _ _ hturn hfirst queue
      have hotherTake :=
        @takeAll_of_accepted _ _ other ⟨session, counts, otherState⟩ _ _ _ _ hturn hotherFirst
          queue
      rw [htake, hotherTake]
      exact ih { session with scanner, items := session.itemsAfter [turn] } _ _ _ hreceiver hother

/-- Where a receiver fails, the run ends at the trigger at hand: the calls for the triggers before it
were accepted, and with those for this trigger some call was not. -/
theorem takeAll_of_feed_error (receiver : Receiver σ ε) (queue : List (Tree × Trigger))
    (run : Run σ) {fault : ε}
    (hfails : (receiver.feed run.state (run.session.told queue)).1 = .error fault) :
    ∃ before next rest last, queue = before ++ next :: rest ∧
      run.takeAll receiver queue = (.error fault, rest, last) ∧
      (receiver.feed run.state (run.session.told before)).1 = .ok () ∧
      (receiver.feed run.state (run.session.told (before ++ [next]))).1 = .error fault ∧
      last.session.items = run.session.itemsAfter
        (Session.turns run.session.root run.session.scanner (before ++ [next])) := by
  induction queue generalizing run with
  | nil => exact absurd hfails nofun
  | cons next queue ih =>
    obtain ⟨tree, trigger⟩ := next
    cases hturn : Session.turn run.session.root run.session.scanner tree trigger with
    | none =>
      obtain rfl := Session.eq_shutdown_of_turn hturn
      exact absurd hfails nofun
    | some result =>
      obtain ⟨turn, scanner⟩ := result
      have htold := Session.told_of_turn hturn
      have hturns (others : List (Tree × Trigger)) :
          Session.turns run.session.root run.session.scanner ((tree, trigger) :: others) =
            turn :: Session.turns run.session.root scanner others := by rw [Session.turns, hturn]
      rw [htold] at hfails
      cases hfeed : (receiver.feed run.state (run.session.callsAfter [turn])).1 with
      | ok =>
        rw [Receiver.feed_append_of_ok hfeed] at hfails
        obtain ⟨before, next, rest, last, rfl, htake, hbefore, hnext, hitems⟩ :=
          ih ⟨{ run.session with scanner, items := run.session.itemsAfter [turn] },
            run.taken.counts.after (run.session.callsAfter [turn]) (.ok () : Except ε Unit),
            (receiver.feed run.state (run.session.callsAfter [turn])).2⟩ hfails
        refine ⟨(tree, trigger) :: before, next, rest, last, rfl, ?_, ?_, ?_, ?_⟩
        · exact (takeAll_of_accepted receiver hturn hfeed _).trans htake
        · rw [htold, Receiver.feed_append_of_ok hfeed]
          exact hbefore
        · rw [List.cons_append, htold, Receiver.feed_append_of_ok hfeed]
          exact hnext
        · rw [List.cons_append, hturns, Session.itemsAfter_cons]
          exact hitems
      | error first =>
        rw [Receiver.feed_append_of_error hfeed, hfeed] at hfails
        obtain rfl := Except.error.inj hfails
        obtain ⟨last, htake, hitems⟩ := takeAll_of_refused receiver hturn hfeed queue
        refine ⟨[], (tree, trigger), queue, last, rfl, htake, rfl, ?_, ?_⟩
        · rw [List.nil_append, htold, Receiver.feed_append_of_error hfeed, hfeed]
        · rw [List.nil_append, hturns, Session.turns, hitems]

end Run

namespace Session

variable {σ ε : Type}

/-- A run stops at the first call that its receiver refuses. The error is returned, and the calls
made are those of the same run up to the refused one, that is the first `count + 1` that a
receiver which never fails is told. No trigger is taken behind the one at hand, which is the
one that the run needs to make more than `count` calls, and the pictures are those of the last
load that succeeded up to and including this trigger. A receiver which is not told that many
calls makes no difference: the counts, the queue that is left and the session are those of the run
that never fails, and so are the calls. -/
theorem run_stops_at_first_refusal (session : Session) (receiver : Receiver σ ε) (state : σ)
    (queue : List (Tree × Trigger)) (count : Nat) (fault : ε)
    (hreceiver : receiver.RefusesAfter state count (session.told queue) fault) :
    (count < (session.told queue).length →
      ∃ before next rest last, queue = before ++ next :: rest ∧
        session.run receiver.logged (state, []) queue = (.error fault, rest, last) ∧
        last.state.2 = (session.told queue).take (count + 1) ∧
        (session.told before).length ≤ count ∧
        count < (session.told (before ++ [next])).length ∧
        last.session.items =
          session.itemsAfter (turns session.root session.scanner (before ++ [next]))) ∧
    ((session.told queue).length ≤ count →
      ∃ counts rest last final,
        session.run receiver.logged (state, []) queue = (.ok counts, rest, last) ∧
        session.run (Receiver.recorder Empty) [] queue = (.ok counts, rest, final) ∧
        last.session = final.session ∧ last.state.2 = final.state) := by
  constructor
  · intro hcount
    have hlogged := Receiver.feed_logged_of_refusesAfter [] hreceiver hcount
    obtain ⟨before, next, rest, last, rfl, htake, hbefore, hnext, hitems⟩ :=
      Run.takeAll_of_feed_error receiver.logged queue ⟨session, .zero, (state, [])⟩
        (congrArg Prod.fst hlogged)
    have hstate := Run.state_takeAll receiver.logged (before ++ next :: rest)
      ⟨session, .zero, (state, [])⟩
    rw [htake, hlogged] at hstate
    rw [Receiver.feed_logged_fst] at hbefore hnext
    have hnextPrefix :
        session.told (before ++ [next]) <+: session.told (before ++ next :: rest) := by
      rw [List.append_cons before next rest]
      exact session.isPrefix_told_append (before ++ [next]) rest
    refine ⟨before, next, rest, last, rfl, ?_, congrArg Prod.snd hstate, ?_, ?_, hitems⟩
    · rw [run, htake]
    · exact hreceiver.length_le hcount (session.isPrefix_told_append before _) hbefore
    · exact hreceiver.lt_length hnextPrefix hnext
  · intro hcount
    have haccepts := hreceiver.accepts
    rw [List.take_of_length_le hcount] at haccepts
    have hlogged := Receiver.feed_logged_of_ok [] haccepts
    obtain ⟨rest, last, final, htake, hrecorded, hsession, hcounts⟩ :=
      Run.takeAll_agrees receiver.logged (Receiver.recorder Empty) queue session .zero
        (state, []) [] (congrArg Prod.fst hlogged) (by rw [Receiver.feed_recorder])
    have hstate := Run.state_takeAll receiver.logged queue ⟨session, .zero, (state, [])⟩
    have hfinal := Run.state_takeAll (Receiver.recorder Empty) queue ⟨session, .zero, []⟩
    rw [htake, hlogged] at hstate
    rw [hrecorded, Receiver.feed_recorder] at hfinal
    refine ⟨last.counts, rest, last, final, ?_, ?_, hsession, ?_⟩
    · rw [run, htake]
    · rw [run, hrecorded, hcounts]
    · exact (congrArg Prod.snd hstate).trans hfinal.symm

end Session

namespace Receiver

/-- The receiver that accepts as many calls as its state says, whatever they are. -/
def accepting : Receiver Nat Unit where
  receive
    | 0, _ => (.error (), 0)
    | left + 1, _ => (.ok (), left)

/-- It accepts no more calls than it was made for. -/
theorem feed_accepting (left : Nat) (calls : List Call) :
    (accepting.feed left calls).1 = if calls.length ≤ left then .ok () else .error () := by
  induction calls generalizing left with
  | nil => rfl
  | cons call calls ih =>
    cases left with
    | zero => rfl
    | succ left =>
      rw [List.length_cons, if_congr Nat.add_le_add_iff_right rfl rfl]
      exact ih left

/-- It refuses the next call. -/
theorem refusesAfter_accepting (count : Nat) (calls : List Call) :
    accepting.RefusesAfter count count calls () where
  accepts := by rw [feed_accepting, if_pos (List.length_take_le _ _)]
  refuses := by
    intro hcount
    rw [feed_accepting, List.length_take_of_le hcount, if_neg (Nat.not_succ_le_self count)]

end Receiver

namespace Session

/-- A session with a picture, in a directory that is gone. -/
def abandoned : Session := { opened with items := [⟨ascii "g/a.gif", 1, 18, ⟨3, 2⟩⟩] }

/-- Three resizes, and between the first two a load that fails. -/
def interrupted : List (Tree × Trigger) :=
  [(.empty, .resize 640), (.empty, .load 320), (.empty, .resize 200), (.empty, .resize 100)]

/-- A receiver that accepts four calls stops the run in the middle of the second pass: the load that
failed did not, and the third resize stays in the queue. -/
theorem run_stops_at_first_refusal_midway :
    Receiver.accepting.RefusesAfter 4 4 (abandoned.told interrupted) () ∧
    ∃ before next rest last, interrupted = before ++ next :: rest ∧ rest.length = 1 ∧
      abandoned.run Receiver.accepting.logged (4, []) interrupted = (.error (), rest, last) ∧
      last.state.2 = (abandoned.told interrupted).take 5 ∧ last.state.2.length = 5 ∧
      last.session.items = abandoned.items := by
  have hreceiver := Receiver.refusesAfter_accepting 4 (abandoned.told interrupted)
  have hcount : (abandoned.told interrupted).length = 9 := by decide +kernel
  obtain ⟨hstops, -⟩ :=
    run_stops_at_first_refusal abandoned Receiver.accepting 4 interrupted 4 () hreceiver
  obtain ⟨before, next, rest, last, hqueue, hrun, hcalls, -⟩ := hstops (by omega)
  have hrest : (abandoned.run Receiver.accepting.logged (4, []) interrupted).2.1.length = 1 := by
    decide +kernel
  have hitems : (abandoned.run Receiver.accepting.logged (4, []) interrupted).2.2.session.items =
      abandoned.items := by decide +kernel
  rw [hrun] at hrest hitems
  refine ⟨hreceiver, before, next, rest, last, hqueue, hrest, hrun, hcalls, ?_, hitems⟩
  rw [hcalls, List.length_take_of_le (by omega)]

end Session

end Gallery
