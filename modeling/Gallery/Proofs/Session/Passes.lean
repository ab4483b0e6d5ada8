import Gallery.Session
import Gallery.Proofs.Layout.Coverage
import Gallery.Proofs.Scan.Transparency
import Mathlib.Data.List.Infix

/-!
# What a session shows

A session shows a pass at every trigger that is not a shutdown, not a load that failed, and
not without a layout. What a pass shows is decided by two things: the pictures of the last load
that succeeded, and the width of the trigger. Neither the widths and passes before it nor
anything that failed plays a part.

So the calls of a whole session are stated here from its turns alone, that is from the triggers
and from what the scans came to, each turn looking back on all turns up to it. The session, on
the other hand, carries its pictures, its counts and the state of its receiver along; that it
makes exactly these calls, up to the first that fails, is one induction over the queue.
-/

namespace Gallery

namespace Receiver

variable {σ ε : Type}

/-- Whether a receiver in a state accepts everything it can be told from then on. -/
def NeverFails (receiver : Receiver σ ε) (state : σ) : Prop :=
  ∀ calls, (receiver.feed state calls).1 = .ok ()

/-- The receiver that writes down what it is told. -/
def recorder (ε : Type) : Receiver (List Call) ε := ⟨fun calls call => (.ok (), calls ++ [call])⟩

/-- A recorder has written down everything. -/
theorem feed_recorder (ε : Type) (before calls : List Call) :
    (recorder ε).feed before calls = (.ok (), before ++ calls) := by
  induction calls generalizing before with
  | nil => rw [List.append_nil]; rfl
  | cons call calls ih =>
    rw [feed]
    exact (ih (before ++ [call])).trans (by rw [List.append_assoc]; rfl)

/-- Further calls are made if none failed so far. -/
theorem feed_append (receiver : Receiver σ ε) (state : σ) (first second : List Call) :
    receiver.feed state (first ++ second) =
      match receiver.feed state first with
      | (.ok (), state) => receiver.feed state second
      | (.error fault, state) => (.error fault, state) := by
  induction first generalizing state with
  | nil => rfl
  | cons call first ih =>
    rw [List.cons_append, feed, feed]
    cases receiver.receive state call with
    | mk outcome state =>
      cases outcome with
      | ok => exact ih state
      | error fault => rfl

end Receiver

/-- A trigger that was taken, with what its scan came to. -/
inductive Turn where
  | loaded (width : Float) (items : List Picture)
  /-- A load of what is not a directory. -/
  | notLoaded (width : Float)
  | resized (width : Float)

namespace Turn

/-- The pictures that were found. -/
def items? : Turn → Option (List Picture)
  | .loaded _ items => some items
  | _ => none

/-- The width of the container, unless there is nothing to be shown in it. -/
def width? : Turn → Option Float
  | .loaded width _ => some width
  | .notLoaded _ => none
  | .resized width => some width

end Turn

/-- The counts once the calls of a turn have come to an outcome. A turn without calls is a failure;
one with calls is a pass if they were all made, and otherwise it is counted as neither. -/
def SessionCounts.after {ε : Type} (counts : SessionCounts) (calls : List Call)
    (outcome : Except ε Unit) : SessionCounts :=
  if calls.isEmpty then { counts with failures := counts.failures + 1 }
  else match outcome with
    | .ok () => { counts with passes := counts.passes + 1 }
    | .error _ => counts

namespace Session

/-- The turn of a trigger, and the scanner after it. A shutdown is no turn. -/
def turn (root : Bytes) (scanner : Scanner) (tree : Tree) : Trigger → Option (Turn × Scanner)
  | .shutdown => none
  | .resize width => some (.resized width, scanner)
  | .load width =>
    match scanner.scan tree root with
    | (.ok (items, _), scanner) => some (.loaded width items, scanner)
    | (.error _, scanner) => some (.notLoaded width, scanner)

/-- The turns of a queue before the first shutdown. Nothing but the scans decides them. -/
def turns (root : Bytes) (scanner : Scanner) : List (Tree × Trigger) → List Turn
  | [] => []
  | (tree, trigger) :: queue =>
    match turn root scanner tree trigger with
    | none => []
    | some (turn, scanner) => turn :: turns root scanner queue

/-- The pictures of the last load that succeeded, and before there is one those that a session
begins with. -/
def itemsAfter (session : Session) (turns : List Turn) : List Picture :=
  (turns.filterMap Turn.items?).getLast?.getD session.items

/-- The calls that show pictures in a container: those of one pass if there is a layout, and
none otherwise. -/
def callsFor (session : Session) (items : List Picture) (width : Float) : List Call :=
  match session.layout.arrange items width with
  | .error _ => []
  | .ok rows =>
    passCalls width rows ⟨width, rows.length, items.length, Row.totalHeight session.rowGap rows⟩

/-- The calls at the last of some turns. -/
def callsAfter (session : Session) (turns : List Turn) : List Call :=
  match turns.getLast?.bind Turn.width? with
  | none => []
  | some width => session.callsFor (session.itemsAfter turns) width

/-- The calls at some turns, one after another. -/
def calls (session : Session) (turns : List Turn) : List Call :=
  turns.inits.flatMap session.callsAfter

/-- Only a shutdown is no turn. -/
theorem eq_shutdown_of_turn {root : Bytes} {scanner : Scanner} {tree : Tree} {trigger : Trigger}
    (hturn : turn root scanner tree trigger = none) : trigger = .shutdown := by
  cases trigger with
  | shutdown => rfl
  | resize width => contradiction
  | load width =>
    rw [turn] at hturn
    split at hturn <;> contradiction

variable {session : Session}

/-- The pictures of the first turn are those that the others begin with. -/
theorem itemsAfter_cons (turn : Turn) (turns : List Turn) :
    session.itemsAfter (turn :: turns) =
      { session with items := session.itemsAfter [turn] }.itemsAfter turns := by
  cases hitems : turn.items? with
  | none => simp [itemsAfter, hitems]
  | some items => simp [itemsAfter, hitems, List.getLast?_cons]

/-- What is shown later depends on the turns so far only through their pictures. -/
theorem callsAfter_cons (turn : Turn) {turns : List Turn} (hturns : turns ≠ []) :
    session.callsAfter (turn :: turns) =
      { session with items := session.itemsAfter [turn] }.callsAfter turns := by
  have hlast : (turn :: turns).getLast? = turns.getLast? := by
    cases turns with
    | nil => contradiction
    | cons next rest => exact List.getLast?_cons_cons
  rw [callsAfter, callsAfter, hlast, itemsAfter_cons]
  rfl

/-- What the prefixes of some turns come to one after another begins with the first turn, and goes
on with the others if they look back on it only through `later`. -/
theorem flatMap_inits_cons {β : Type} {each later : List Turn → List β} {turn : Turn}
    (hnone : each [] = []) (hnothing : later [] = [])
    (hlater : ∀ turns, turns ≠ [] → each (turn :: turns) = later turns) (turns : List Turn) :
    (turn :: turns).inits.flatMap each = each [turn] ++ turns.inits.flatMap later := by
  rw [List.inits_cons, List.flatMap_cons, hnone, List.nil_append, List.flatMap_map]
  cases turns with
  | nil => simp [hnothing]
  | cons next turns =>
    rw [List.inits_cons, List.flatMap_cons, List.flatMap_cons, hnothing, List.nil_append]
    congr 1
    apply List.flatMap_congr
    intro part hpart
    obtain ⟨rest, _, rfl⟩ := List.mem_map.1 hpart
    exact hlater _ (List.cons_ne_nil next rest)

/-- The calls of the first turn are made first. -/
theorem calls_cons (turn : Turn) (turns : List Turn) :
    session.calls (turn :: turns) = session.callsAfter [turn] ++
      { session with items := session.itemsAfter [turn] }.calls turns :=
  flatMap_inits_cons rfl rfl (fun _ hturns => callsAfter_cons turn hturns) turns

end Session

namespace Run

variable {σ ε : Type}

/-- Whatever comes of a layout, the receiver is told the calls for it. -/
theorem presentCounted_eq (receiver : Receiver σ ε) (width : Float) (run : Run σ) :
    run.presentCounted receiver width =
      ((receiver.feed run.state (run.session.callsFor run.session.items width)).1,
        ⟨run.session, run.counts.after (run.session.callsFor run.session.items width)
          (receiver.feed run.state (run.session.callsFor run.session.items width)).1,
          (receiver.feed run.state (run.session.callsFor run.session.items width)).2⟩) := by
  unfold presentCounted Session.present Session.callsFor
  cases harrange : run.session.layout.arrange run.session.items width with
  | error fault => rfl
  | ok rows =>
    have hsummary : run.session.summary width rows = ⟨width, rows.length,
      run.session.items.length, Row.totalHeight run.session.rowGap rows⟩ := rfl
    simp only [hsummary]
    cases receiver.feed run.state (passCalls width rows _) with
    | mk outcome state => cases outcome <;> rfl

/-- After a layout the session goes on, unless its receiver failed. -/
theorem goesOn_presentCounted (receiver : Receiver σ ε) (width : Float) (run : Run σ) :
    (match run.presentCounted receiver width with
      | (.ok (), run) => (.ok true, run)
      | (.error fault, run) => (.error fault, run)) =
      ((receiver.feed run.state (run.session.callsFor run.session.items width)).1.map fun _ => true,
        ⟨run.session, run.counts.after (run.session.callsFor run.session.items width)
          (receiver.feed run.state (run.session.callsFor run.session.items width)).1,
          (receiver.feed run.state (run.session.callsFor run.session.items width)).2⟩) := by
  rw [presentCounted_eq receiver width run]
  cases receiver.feed run.state (run.session.callsFor run.session.items width) with
  | mk outcome state => cases outcome <;> rfl

/-- At a turn the session takes over what its scan came to, and makes the calls of the turn. -/
theorem react_of_turn (receiver : Receiver σ ε) {run : Run σ} {tree : Tree} {trigger : Trigger}
    {turn : Turn} {scanner : Scanner}
    (hturn : Session.turn run.session.root run.session.scanner tree trigger =
      some (turn, scanner)) :
    run.react receiver tree trigger =
      ((receiver.feed run.state (run.session.callsAfter [turn])).1.map fun _ => true,
        ⟨{ run.session with scanner, items := run.session.itemsAfter [turn] },
          run.taken.counts.after (run.session.callsAfter [turn])
            (receiver.feed run.state (run.session.callsAfter [turn])).1,
          (receiver.feed run.state (run.session.callsAfter [turn])).2⟩) := by
  cases trigger with
  | shutdown => contradiction
  | resize width =>
    obtain ⟨rfl, rfl⟩ := Prod.mk.inj (Option.some.inj hturn)
    exact goesOn_presentCounted receiver width run.taken
  | load width =>
    rw [Session.turn] at hturn
    cases hscan : run.session.scanner.scan tree run.session.root with
    | mk outcome found =>
      rw [hscan] at hturn
      cases outcome with
      | error fault =>
        obtain ⟨rfl, rfl⟩ := Prod.mk.inj (Option.some.inj hturn)
        simp only [react, taken, Session.load, hscan]
        rfl
      | ok result =>
        obtain ⟨rfl, rfl⟩ := Prod.mk.inj (Option.some.inj hturn)
        simp only [react, taken, Session.load, hscan]
        exact goesOn_presentCounted receiver width
          { run.taken with
            session := { run.session with scanner := found, items := result.1 } }

/-- A load that fails keeps the pictures and reaches no receiver. -/
theorem react_of_load_error (receiver : Receiver σ ε) {run : Run σ} {tree : Tree} (width : Float)
    {fault : ScanFault}
    (hscan : (run.session.scanner.scan tree run.session.root).1 = .error fault) :
    ∃ next, run.react receiver tree (.load width) = (.ok true, next) ∧
      next.session.items = run.session.items ∧ next.state = run.state := by
  cases hresult : run.session.scanner.scan tree run.session.root with
  | mk outcome found =>
    rw [hresult] at hscan
    obtain rfl := hscan
    simp only [react, taken, Session.load, hresult]
    exact ⟨_, rfl, rfl, rfl⟩

/-- A load of pictures that have no layout keeps them and reaches no receiver. -/
theorem react_of_layout_error (receiver : Receiver σ ε) {run : Run σ} {tree : Tree} {width : Float}
    {items : List Picture} {counts : ScanCounts} {fault : GeometryFault}
    (hscan : (run.session.scanner.scan tree run.session.root).1 = .ok (items, counts))
    (harrange : run.session.layout.arrange items width = .error fault) :
    ∃ next, run.react receiver tree (.load width) = (.ok true, next) ∧
      next.session.items = items ∧ next.state = run.state := by
  cases hresult : run.session.scanner.scan tree run.session.root with
  | mk outcome found =>
    rw [hresult] at hscan
    obtain rfl := hscan
    simp only [react, taken, Session.load, hresult, presentCounted, Session.present, harrange]
    exact ⟨_, rfl, rfl, rfl⟩

/-- A session makes the calls of its turns, up to the first that fails. If none does, it is
left with the pictures of its turns. -/
theorem takeAll_eq (receiver : Receiver σ ε) (queue : List (Tree × Trigger)) (run : Run σ) :
    ∃ rest last,
      run.takeAll receiver queue = ((receiver.feed run.state (run.session.calls
        (Session.turns run.session.root run.session.scanner queue))).1, rest, last) ∧
      last.state = (receiver.feed run.state (run.session.calls
        (Session.turns run.session.root run.session.scanner queue))).2 ∧
      ((receiver.feed run.state (run.session.calls
        (Session.turns run.session.root run.session.scanner queue))).1 = .ok () →
        last.session.items = run.session.itemsAfter
          (Session.turns run.session.root run.session.scanner queue)) := by
  induction queue generalizing run with
  | nil => exact ⟨[], run, rfl, rfl, fun _ => rfl⟩
  | cons next queue ih =>
    obtain ⟨tree, trigger⟩ := next
    cases hturn : Session.turn run.session.root run.session.scanner tree trigger with
    | none =>
      obtain rfl := Session.eq_shutdown_of_turn hturn
      rw [takeAll, Session.turns, hturn]
      exact ⟨queue, run.taken, rfl, rfl, fun _ => rfl⟩
    | some result =>
      obtain ⟨turn, scanner⟩ := result
      have hturns : Session.turns run.session.root run.session.scanner ((tree, trigger) :: queue) =
          turn :: Session.turns run.session.root scanner queue := by rw [Session.turns, hturn]
      have hreact := react_of_turn receiver hturn
      rw [hturns, Session.calls_cons, Receiver.feed_append,
        Session.itemsAfter_cons turn (Session.turns run.session.root scanner queue), takeAll, hreact]
      cases receiver.feed run.state (run.session.callsAfter [turn]) with
      | mk outcome state =>
        cases outcome with
        | error fault => exact ⟨queue, _, rfl, rfl, fun hok => nomatch hok⟩
        | ok =>
          exact ih ⟨{ run.session with scanner, items := run.session.itemsAfter [turn] },
            run.taken.counts.after (run.session.callsAfter [turn]) (.ok () : Except ε Unit), state⟩

end Run

namespace Session

variable {σ ε : Type}

/-- A session that was not cut short has taken its triggers without a failure of its receiver. -/
theorem takeAll_of_run_eq_ok {session : Session} {receiver : Receiver σ ε} {state : σ}
    {queue rest : List (Tree × Trigger)} {counts : SessionCounts} {last : Run σ}
    (hrun : session.run receiver state queue = (.ok counts, rest, last)) :
    Run.takeAll receiver ⟨session, .zero, state⟩ queue = (.ok (), rest, last) ∧
      last.counts = counts := by
  rw [run] at hrun
  cases htake : Run.takeAll receiver ⟨session, .zero, state⟩ queue with
  | mk outcome others =>
    obtain ⟨left, final⟩ := others
    rw [htake] at hrun
    cases outcome with
    | error fault => exact absurd (congrArg Prod.fst hrun) nofun
    | ok =>
      obtain ⟨rfl, rfl, rfl⟩ : final.counts = counts ∧ left = rest ∧ final = last := by
        simpa using hrun
      exact ⟨rfl, rfl⟩

/-- What is shown depends only on the last load that succeeded and on the width. A receiver
that never fails is told the calls of the turns of a queue and nothing else: a pass for every
load and resize before the first shutdown at which there is a layout of the pictures of the last
load that succeeded, up to and including this one. A pass of a width at which rows can be shown
shows as many items as there are pictures. A load that fails changes neither the pictures nor
the receiver, and one that succeeds where the layout fails changes only the pictures. -/
theorem run_shows_last_load (session : Session) (receiver : Receiver σ ε) (state : σ)
    (hreceiver : receiver.NeverFails state) (queue : List (Tree × Trigger)) :
    (∃ counts rest last, session.run receiver state queue = (.ok counts, rest, last) ∧
      (.ok (), last.state) =
        receiver.feed state (session.calls (turns session.root session.scanner queue)) ∧
      last.session.items = session.itemsAfter (turns session.root session.scanner queue)) ∧
    (∀ items width rows, session.layout.arrange items width = .ok rows →
      Layout.isUsable width = true → (rows.map (·.items.length)).sum = items.length) ∧
    (∀ (run : Run σ) (tree : Tree) (width : Float) (fault : ScanFault),
      (run.session.scanner.scan tree run.session.root).1 = .error fault →
      ∃ next, run.react receiver tree (.load width) = (.ok true, next) ∧
        next.session.items = run.session.items ∧ next.state = run.state) ∧
    (∀ (run : Run σ) (tree : Tree) (width : Float) (items : List Picture) (counts : ScanCounts)
      (fault : GeometryFault),
      (run.session.scanner.scan tree run.session.root).1 = .ok (items, counts) →
      run.session.layout.arrange items width = .error fault →
      ∃ next, run.react receiver tree (.load width) = (.ok true, next) ∧
        next.session.items = items ∧ next.state = run.state) := by
  refine ⟨?_, ?_, ?_, ?_⟩
  · obtain ⟨rest, last, htake, hstate, hitems⟩ := Run.takeAll_eq receiver queue ⟨session, .zero, state⟩
    have haccepts := hreceiver (session.calls (turns session.root session.scanner queue))
    refine ⟨last.counts, rest, last, ?_, Prod.ext haccepts.symm hstate, hitems haccepts⟩
    rw [run, htake, haccepts]
  · intro items width rows harrange hwidth
    exact Layout.sum_length_items_arrange harrange hwidth
  · intro run tree width fault hscan
    exact Run.react_of_load_error receiver width hscan
  · intro run tree width items counts fault hscan harrange
    exact Run.react_of_layout_error receiver hscan harrange

/-- A directory with one picture. -/
def pictured : Tree := Tree.empty.write (ascii "g/a.gif")
  (ascii "GIF89a" ++ [3, 0, 2, 0, 0, 0, 0, 0x2C, 0, 0, 0, 0]) 1000000000

/-- The directory is taken away after the first load, and put back before the shutdown. -/
def eventful : List (Tree × Trigger) :=
  [(pictured, .load 640), (.empty, .load 320), (.empty, .resize 200), (pictured, .shutdown),
    (pictured, .resize 800)]

/-- A session in the directory. -/
def opened : Session := fresh (ascii "g") (.fresh .standard) .standard 0

/-- The resize after the load that fails still shows the picture, and nothing is shown after the
shutdown: two passes of one row each. -/
theorem run_shows_last_load_eventful :
    (Receiver.recorder Empty).NeverFails [] ∧
    ∃ counts rest last, opened.run (Receiver.recorder Empty) [] eventful = (.ok counts, rest, last) ∧
      last.state = opened.calls
        [.loaded 640 [⟨ascii "g/a.gif", 1, 18, ⟨3, 2⟩⟩], .notLoaded 320, .resized 200] ∧
      last.state.length = 6 ∧ last.session.items = [⟨ascii "g/a.gif", 1, 18, ⟨3, 2⟩⟩] := by
  have hreceiver : (Receiver.recorder Empty).NeverFails [] := by
    intro calls
    rw [Receiver.feed_recorder]
  have hfound : (⟨.standard, ascii "g", pictured⟩ : Visit).found? =
      some [⟨ascii "g/a.gif", 1, 18⟩] := Visit.found?_of_comesTo (by decide +kernel)
  have hdimensions : pictured.dimensions (ascii "g/a.gif") = ⟨3, 2⟩ := by decide +kernel
  have hpictures : (pictured.pictures (.empty 4096) [⟨ascii "g/a.gif", 1, 18⟩]).1 =
      [(⟨ascii "g/a.gif", 1, 18, ⟨3, 2⟩⟩, false)] := by
    rw [← hdimensions]
    rfl
  obtain ⟨scanner, hscan⟩ : ∃ scanner, opened.scanner.scan pictured opened.root =
      (.ok ([⟨ascii "g/a.gif", 1, 18, ⟨3, 2⟩⟩], ⟨1, 1, 0, 0, 1⟩), scanner) := by
    have hvisit := congrArg Prod.fst (Visit.scan_of_found?_eq_some hfound (.empty 4096))
    rw [hpictures] at hvisit
    exact ⟨_, Prod.ext hvisit rfl⟩
  have hgone : scanner.scan .empty opened.root = (.error (.notADirectory (ascii "g")), scanner) := by
    rfl
  have hturns : turns opened.root opened.scanner eventful =
      [.loaded 640 [⟨ascii "g/a.gif", 1, 18, ⟨3, 2⟩⟩], .notLoaded 320, .resized 200] := by
    simp only [eventful, turns, turn, hscan, hgone]
  obtain ⟨⟨counts, rest, last, hrun, hstate, hitems⟩, -⟩ :=
    run_shows_last_load opened (Receiver.recorder Empty) [] hreceiver eventful
  rw [hturns] at hstate hitems
  rw [Receiver.feed_recorder, List.nil_append] at hstate
  obtain ⟨-, hstate⟩ := Prod.mk.inj hstate
  refine ⟨hreceiver, counts, rest, last, hrun, hstate, ?_, hitems⟩
  rw [hstate]
  rfl

end Session

end Gallery
