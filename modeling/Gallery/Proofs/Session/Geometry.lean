import Gallery.Proofs.Layout.Faults
import Gallery.Proofs.Session.FailStop

/-!
# Pictures that have no layout

Whether pictures have a layout is decided before anything of it is shown: first by the container,
which may be one that shows no rows whatever the pictures are, and then by the pictures. A session
that finds no layout makes no call. The other way round a session that makes no call has found no
layout, since a pass begins and ends even where it shows no row.

A call leaves a trace with every receiver that writes down what it is told, also when it refuses.
So whether calls are made at all is seen from such a receiver, and nothing has to be assumed of what
it answers.
-/

namespace Gallery

variable {σ ε : Type}

namespace Receiver

variable (receiver : Receiver σ ε) (state : σ)

/-- The first call is written down, and what is written down stays. -/
theorem isPrefix_feed_logged (log : List Call) (call : Call) (calls : List Call) :
    log ++ [call] <+: (receiver.logged.feed (state, log) (call :: calls)).2.2 := by
  induction calls generalizing state log call with
  | nil =>
    rw [feed_singleton, receive_logged]
  | cons next calls ih =>
    rw [feed, receive_logged]
    cases receiver.receive state call with
    | mk outcome after =>
      cases outcome with
      | ok => exact (List.prefix_append _ [next]).trans (ih after (log ++ [call]) next)
      | error fault => exact List.prefix_rfl

/-- Nothing is written down only if there was no call. -/
theorem feed_logged_eq_self_iff (log calls : List Call) :
    (receiver.logged.feed (state, log) calls).2.2 = log ↔ calls = [] := by
  constructor
  · intro hlog
    cases calls with
    | nil => rfl
    | cons call calls =>
      have hlength := (receiver.isPrefix_feed_logged state log call calls).length_le
      rw [hlog, List.length_append] at hlength
      exact absurd hlength (Nat.not_succ_le_self log.length)
  · rintro rfl
    rfl

end Receiver

namespace Session

variable {session : Session} {items : List Picture} {width : Float}

/-- Pictures are shown without a call only if they have no layout. -/
theorem callsFor_eq_nil_iff :
    session.callsFor items width = [] ↔ ∃ fault, session.layout.arrange items width = .error fault := by
  rw [callsFor]
  cases session.layout.arrange items width <;> simp [passCalls]

/-- A receiver is left in the state to which the calls for the pictures lead. -/
theorem state_present (receiver : Receiver σ ε) (state : σ) :
    (session.present receiver width state).2 =
      (receiver.feed state (session.callsFor session.items width)).2 := by
  have hcounted := Run.presentCounted_eq receiver width ⟨session, .zero, state⟩
  have hstate : (Run.presentCounted receiver width ⟨session, .zero, state⟩).2.state =
      (session.present receiver width state).2 := by
    rw [Run.presentCounted]
    cases session.present receiver width state with
    | mk outcome next =>
      cases outcome with
      | ok => rfl
      | error fault => cases fault <;> rfl
  rw [← hstate, hcounted]

end Session

namespace Run

variable {run : Run σ} {width : Float} {fault : GeometryFault}

/-- So it is by a resize. -/
theorem state_react_resize (receiver : Receiver σ ε) (tree : Tree) :
    (run.react receiver tree (.resize width)).2.state =
      (receiver.feed run.state (run.session.callsFor run.session.items width)).2 :=
  congrArg (fun result => result.2.state) (goesOn_presentCounted receiver width run.taken)

/-- A resize at which there is no layout is counted as a failure, and the session goes on. -/
theorem react_resize_of_error (receiver : Receiver σ ε) (tree : Tree)
    (harrange : run.session.layout.arrange run.session.items width = .error fault) :
    run.react receiver tree (.resize width) = (.ok true, run.taken.failed) := by
  have hpresent : run.taken.presentCounted receiver width = (.ok (), run.taken.failed) := by
    simp only [presentCounted, Session.present, taken, harrange]
  rw [react, hpresent]

end Run

namespace Session

/-- A layout fails on the first picture without height, and only in a container that is finite and
has a width. In any other container, and of no pictures, there are no rows, even if some picture has
no height. A failure names the least position of a picture without height together with the path and
the dimensions of that picture, and extents fail as layouts do. A session makes no call to its
receiver in exactly this case; showing the pictures then returns the failure, and a resize counts it
and goes on. -/
theorem layout_fails_on_first_flat (session : Session) (width : Float) :
    let arranged := session.layout.arrange session.items width
    let extents := session.layout.extents session.items width
    (session.items = [] ∨ ¬IsProper width → arranged = .ok [] ∧ extents = .ok []) ∧
    ((∃ fault, arranged = .error fault) ↔
      IsProper width ∧ ∃ item ∈ session.items, item.dimensions.height = 0) ∧
    (∀ fault, (arranged = .error fault ↔ IsProper width ∧ fault.NamesFirst session.items) ∧
      (extents = .error fault ↔ IsProper width ∧ fault.NamesFirst session.items)) ∧
    ∀ (receiver : Receiver σ ε) (tree : Tree) (counts : SessionCounts) (state : σ),
      (∀ fault, arranged = .error fault →
        session.present receiver width state = (.error (.geometry fault), state) ∧
        Run.react receiver tree (.resize width) ⟨session, counts, state⟩ =
          (.ok true, ⟨session, ⟨counts.triggers + 1, counts.passes, counts.failures + 1⟩, state⟩)) ∧
      ∀ log, ((session.present receiver.logged width (state, log)).2.2 = log ↔
          ∃ fault, arranged = .error fault) ∧
        ((Run.react receiver.logged tree (.resize width)
            ⟨session, counts, (state, log)⟩).2.state.2 = log ↔
          ∃ fault, arranged = .error fault) := by
  intro arranged extents
  refine ⟨?_, ?_, ?_, ?_⟩
  · intro hnone
    have harranged : arranged = .ok [] := by
      obtain hitems | hwidth := hnone
      · simp only [arranged, Layout.arrange, hitems, List.isEmpty_nil, Bool.true_or, if_true]
      · rw [← isUsable_iff_isProper, Bool.not_eq_true] at hwidth
        exact Layout.arrange_of_not_isUsable hwidth
    exact ⟨harranged, congrArg (Except.map (List.map Row.toExtent)) harranged⟩
  · rw [← isUsable_iff_isProper]
    exact Layout.exists_arrange_eq_error_iff
  · intro fault
    rw [← isUsable_iff_isProper]
    exact ⟨Layout.arrange_eq_error_iff, Layout.extents_eq_error_iff.trans Layout.arrange_eq_error_iff⟩
  · intro receiver tree counts state
    constructor
    · intro fault harranged
      have harrange : session.layout.arrange session.items width = .error fault := harranged
      refine ⟨?_, Run.react_resize_of_error receiver tree harrange⟩
      rw [present, harrange]
    · intro log
      rw [state_present, Run.state_react_resize, Receiver.feed_logged_eq_self_iff,
        callsFor_eq_nil_iff]
      exact ⟨Iff.rfl, Iff.rfl⟩

end Session

end Gallery
