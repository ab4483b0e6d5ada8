import Gallery.Proofs.Layout.Faults
import Gallery.Proofs.Session.Counts

/-!
# Sessions without broken pictures

A scanner that leaves out broken pictures is all that a layout needs: whatever files there are,
and whatever a shared cache says of them, a session of such a scanner always has a layout of its
pictures. Only a load of what is not a directory is a failure, and every other turn is a pass as
far as the receiver accepts it.

The scanner calls a picture broken if either of its dimensions is zero, and the layout fails
only on a height of zero. So pictures that are kept pass the check of the layout, and the
invariant is that a session has no others. It is a matter of one trigger, whatever trigger that
is, so it does not need a run: triggers are handled here one by one, also after a shutdown and
after a failure of the receiver, while other scanners do what they like to the cache.
-/

namespace Gallery

/-- A trigger as it is handled: with the tree at that time, and with what other scanners did to
the cache since the trigger before. -/
structure Moment where
  tree : Tree
  trigger : Trigger
  meanwhile : KnownDimensions → KnownDimensions

namespace Moment

/-- A trigger of a queue, with a cache that nobody else uses. -/
def ofQueue (next : Tree × Trigger) : Moment := ⟨next.1, next.2, id⟩

/-- Whether a trigger loads what is not a directory. -/
def isLost (root : Bytes) (moment : Moment) : Bool :=
  match moment.trigger with
  | .load _ => moment.tree.target? root ≠ some .directory
  | _ => false

/-- Whether a trigger is a resize, or a load of a directory, for the given width. -/
def Shows (root : Bytes) (moment : Moment) (width : Float) : Prop :=
  moment.trigger = .resize width ∨
    moment.trigger = .load width ∧ moment.tree.target? root = some .directory

end Moment

namespace Scanner

/-- A scan succeeds on directories, and changes nothing of a scanner but its cache. -/
theorem scan_cases (scanner : Scanner) (tree : Tree) (root : Bytes) :
    (tree.target? root ≠ some .directory ∧
      scanner.scan tree root = (.error (.notADirectory root), scanner)) ∨
    (tree.target? root = some .directory ∧ ∃ pictures cache counts,
      scanner.scan tree root =
        (.ok (select scanner.policy pictures, counts), { scanner with cache })) := by
  unfold scan Tree.target?
  cases tree.resolve? root with
  | none => exact .inl ⟨nofun, rfl⟩
  | some directory =>
    rw [Option.bind_some]
    by_cases hdirectory : tree.find? directory = some .directory
    · have his : tree.isDirectory directory = true := decide_eq_true hdirectory
      simp only [his, if_true]
      exact .inr ⟨hdirectory, _, _, _, rfl⟩
    · have hnot : tree.isDirectory directory = false := decide_eq_false hdirectory
      exact .inl ⟨hdirectory, by simp only [hnot, Bool.false_eq_true, if_false]⟩

/-- What is selected by a policy that leaves out broken pictures is not broken. -/
theorem isBroken_of_mem_select {policy : ScanPolicy} (hskips : policy.skipBroken = true)
    {pictures : List Picture} {item : Picture} (hitem : item ∈ select policy pictures) :
    item.isBroken = false := by
  rw [select, if_pos hskips, List.mem_filter] at hitem
  simpa using hitem.2

end Scanner

/-- A picture that is not broken has a width and a height. -/
theorem Picture.isBroken_eq_false_iff (picture : Picture) :
    picture.isBroken = false ↔ picture.dimensions.width ≠ 0 ∧ picture.dimensions.height ≠ 0 := by
  simp [isBroken]

namespace Session

/-- A session of a scanner that leaves out broken pictures, none of whose pictures is broken. -/
structure Unbroken (session : Session) : Prop where
  skips : session.scanner.policy.skipBroken = true
  whole : ∀ item ∈ session.items, item.isBroken = false

variable {session : Session}

/-- Pictures that are not broken have a layout in every container. -/
theorem Unbroken.exists_arrange (hsession : session.Unbroken) (width : Float) :
    ∃ rows, session.layout.arrange session.items width = .ok rows := by
  refine Layout.exists_arrange_eq_ok (fun item hitem => ?_) width
  exact ((item.isBroken_eq_false_iff).1 (hsession.whole item hitem)).2

/-- After a turn, a session without broken pictures still has none. -/
theorem Unbroken.turn (hsession : session.Unbroken) {tree : Tree} {trigger : Trigger}
    {turn : Turn} {scanner : Scanner}
    (hturn : Session.turn session.root session.scanner tree trigger = some (turn, scanner)) :
    Unbroken { session with scanner, items := session.itemsAfter [turn] } := by
  cases trigger with
  | shutdown => contradiction
  | resize width =>
    obtain ⟨rfl, rfl⟩ := Prod.mk.inj (Option.some.inj hturn)
    exact hsession
  | load width =>
    rw [Session.turn] at hturn
    obtain ⟨-, hscan⟩ | ⟨-, pictures, cache, counts, hscan⟩ :=
      session.scanner.scan_cases tree session.root
    · rw [hscan] at hturn
      obtain ⟨rfl, rfl⟩ := Prod.mk.inj (Option.some.inj hturn)
      exact hsession
    · rw [hscan] at hturn
      obtain ⟨rfl, rfl⟩ := Prod.mk.inj (Option.some.inj hturn)
      exact ⟨hsession.skips, fun item hitem => Scanner.isBroken_of_mem_select hsession.skips hitem⟩

end Session

namespace Run

variable {σ ε : Type}

/-- A run as the next trigger finds it. -/
def found (run : Run σ) (meanwhile : KnownDimensions → KnownDimensions) : Run σ :=
  let scanner := run.session.scanner
  { run with
    session := { run.session with scanner := { scanner with cache := meanwhile scanner.cache } } }

/-- Handle a trigger. -/
def handle (receiver : Receiver σ ε) (run : Run σ) (moment : Moment) : Except ε Bool × Run σ :=
  (run.found moment.meanwhile).react receiver moment.tree moment.trigger

/-- Handle triggers in order, whatever comes of them. -/
def handleAll (receiver : Receiver σ ε) (run : Run σ) (moments : List Moment) : Run σ :=
  moments.foldl (fun run moment => (run.handle receiver moment).2) run

/-- What a turn with a pass comes to: the receiver is told the rows of a layout of the pictures and
their totals. The pass counts if everything was accepted, and there is no failure. -/
structure Shown (receiver : Receiver σ ε) (run : Run σ) (width : Float) (answer : Except ε Bool)
    (next : Run σ) (rows : List (Row Float)) : Prop where
  arranged : next.session.layout.arrange next.session.items width = .ok rows
  told : (answer, next.state) =
    let (outcome, state) :=
      receiver.feed run.state (passCalls width rows (next.session.summary width rows))
    (outcome.map fun _ => true, state)
  passes : ∀ goesOn, answer = .ok goesOn → next.counts.passes = run.counts.passes + 1
  failures : next.counts.failures = run.counts.failures

section

variable {receiver : Receiver σ ε} {run : Run σ} {tree : Tree} {trigger : Trigger}

/-- A turn with a width of a session without broken pictures has a pass. -/
theorem shown_of_turn {turn : Turn} {scanner : Scanner} {width : Float}
    (hsession : run.session.Unbroken)
    (hturn : Session.turn run.session.root run.session.scanner tree trigger = some (turn, scanner))
    (hwidth : turn.width? = some width) :
    ∃ rows, Shown receiver run width (run.react receiver tree trigger).1
      (run.react receiver tree trigger).2 rows := by
  obtain ⟨rows, harrange⟩ := (hsession.turn hturn).exists_arrange width
  have hcalls : run.session.callsAfter [turn] = passCalls width rows
      ⟨width, rows.length, (run.session.itemsAfter [turn]).length,
        Row.totalHeight run.session.rowGap rows⟩ := by
    rw [Session.callsAfter, List.getLast?_singleton, Option.bind_some, hwidth]
    dsimp only
    rw [Session.callsFor, harrange]
  refine ⟨rows, ?_⟩
  rw [react_of_turn receiver hturn, hcalls]
  cases hfeed : receiver.feed run.state (passCalls width rows _) with
  | mk outcome state =>
    refine ⟨harrange, ?_, ?_, ?_⟩
    · simp only [Session.summary, hfeed]
    · intro goesOn hanswer
      cases outcome with
      | ok => rfl
      | error fault => contradiction
    · cases outcome <;> rfl

variable (receiver tree trigger) in
/-- Whatever a trigger is, a session without broken pictures is left with none. -/
theorem unbroken_react (hsession : run.session.Unbroken) :
    (run.react receiver tree trigger).2.session.Unbroken ∧
      (run.react receiver tree trigger).2.session.root = run.session.root := by
  cases hturn : Session.turn run.session.root run.session.scanner tree trigger with
  | none =>
    obtain rfl := Session.eq_shutdown_of_turn hturn
    exact ⟨hsession, rfl⟩
  | some result =>
    rw [react_of_turn receiver hturn]
    exact ⟨hsession.turn hturn, rfl⟩

variable (receiver tree) in
/-- A trigger that shows pictures has a pass. -/
theorem shown_react (hsession : run.session.Unbroken) {width : Float}
    (hshows : trigger = .resize width ∨
      trigger = .load width ∧ tree.target? run.session.root = some .directory) :
    ∃ rows, Shown receiver run width (run.react receiver tree trigger).1
      (run.react receiver tree trigger).2 rows := by
  obtain rfl | ⟨rfl, hdirectory⟩ := hshows
  · exact shown_of_turn hsession rfl rfl
  · obtain ⟨hnot, -⟩ | ⟨-, pictures, cache, counts, hscan⟩ :=
      run.session.scanner.scan_cases tree run.session.root
    · contradiction
    · have hturn : Session.turn run.session.root run.session.scanner tree (.load width) =
          some (.loaded width (Scanner.select run.session.scanner.policy pictures),
            { run.session.scanner with cache }) := by
        rw [Session.turn, hscan]
      exact shown_of_turn hsession hturn rfl

variable (receiver tree trigger) in
/-- A load of what is not a directory is the only failure. -/
theorem failures_react (hsession : run.session.Unbroken)
    (meanwhile : KnownDimensions → KnownDimensions) :
    (run.react receiver tree trigger).2.counts.failures = run.counts.failures +
      if Moment.isLost run.session.root ⟨tree, trigger, meanwhile⟩ then 1 else 0 := by
  cases trigger with
  | shutdown => rfl
  | resize width =>
    obtain ⟨rows, hshown⟩ := shown_react receiver tree hsession
      (.inl (rfl : Trigger.resize width = .resize width))
    exact hshown.failures
  | load width =>
    by_cases hdirectory : tree.target? run.session.root = some .directory
    · obtain ⟨rows, hshown⟩ := shown_react receiver tree hsession
        (.inr ⟨(rfl : Trigger.load width = .load width), hdirectory⟩)
      simp [Moment.isLost, hdirectory, hshown.failures]
    · obtain ⟨-, hscan⟩ | ⟨his, -⟩ := run.session.scanner.scan_cases tree run.session.root
      · simp [Moment.isLost, hdirectory, react, Session.load, taken, failed, hscan]
      · contradiction

end

/-- Handling triggers leaves a session without broken pictures with none. -/
theorem unbroken_handleAll (receiver : Receiver σ ε) (run : Run σ) (moments : List Moment)
    (hsession : run.session.Unbroken) :
    (run.handleAll receiver moments).session.Unbroken ∧
      (run.handleAll receiver moments).session.root = run.session.root ∧
      (run.handleAll receiver moments).counts.failures =
        run.counts.failures + moments.countP (Moment.isLost run.session.root) := by
  induction moments generalizing run with
  | nil => exact ⟨hsession, rfl, rfl⟩
  | cons moment moments ih =>
    have hfound : (run.found moment.meanwhile).session.Unbroken := ⟨hsession.skips, hsession.whole⟩
    obtain ⟨hnext, hroot⟩ := unbroken_react receiver moment.tree moment.trigger hfound
    have hfailures := failures_react receiver moment.tree moment.trigger hfound moment.meanwhile
    obtain ⟨hlast, hlastRoot, hlastFailures⟩ := ih _ hnext
    refine ⟨hlast, hlastRoot.trans hroot, ?_⟩
    change (handleAll receiver (run.handle receiver moment).2 moments).counts.failures = _
    rw [List.countP_cons, ← Nat.add_assoc, Nat.add_right_comm]
    rw [hroot] at hlastFailures
    exact hlastFailures.trans (congrArg (· + _) hfailures)

/-- A run over a queue handles the triggers that it takes. -/
theorem takeAll_eq_handleAll (receiver : Receiver σ ε) (queue : List (Tree × Trigger))
    (run : Run σ) : ∃ taken, queue = taken ++ (run.takeAll receiver queue).2.1 ∧
      (run.takeAll receiver queue).2.2 = run.handleAll receiver (taken.map Moment.ofQueue) := by
  induction queue generalizing run with
  | nil => exact ⟨[], rfl, rfl⟩
  | cons next queue ih =>
    obtain ⟨tree, trigger⟩ := next
    have hstep : (run.handle receiver (.ofQueue (tree, trigger))) =
      run.react receiver tree trigger := rfl
    rw [takeAll]
    cases hreact : run.react receiver tree trigger with
    | mk answer after =>
      have hafter (taken : List (Tree × Trigger)) :
          run.handleAll receiver (((tree, trigger) :: taken).map Moment.ofQueue) =
            after.handleAll receiver (taken.map Moment.ofQueue) := by
        rw [List.map_cons, handleAll, List.foldl_cons, hstep, hreact]
        rfl
      cases answer with
      | error fault => exact ⟨[(tree, trigger)], rfl, (hafter []).symm⟩
      | ok goesOn =>
        cases goesOn with
        | false => exact ⟨[(tree, trigger)], rfl, (hafter []).symm⟩
        | true =>
          obtain ⟨taken, hqueue, hlast⟩ := ih after
          refine ⟨(tree, trigger) :: taken, ?_, ?_⟩
          · exact congrArg ((tree, trigger) :: ·) hqueue
          · rw [hafter]
            exact hlast

end Run

namespace Session

variable {σ ε : Type}

/-- A scanner that leaves out broken pictures never lets a layout fail. In a session that begins
without pictures, whatever triggers were handled, on whatever trees, and whatever a shared cache
held at any time, every picture has a width and a height, and the pictures have a layout in every
container. So every load of a directory and every resize has a pass, which counts as far as the
receiver accepts it, and the failures are the loads of what is not a directory. -/
theorem layout_never_fails_without_broken (session : Session) (receiver : Receiver σ ε) (state : σ)
    (hskips : session.scanner.policy.skipBroken = true) (hitems : session.items = []) :
    (∀ moments : List Moment,
      let run := Run.handleAll receiver ⟨session, .zero, state⟩ moments
      (∀ item ∈ run.session.items, item.dimensions.width ≠ 0 ∧ item.dimensions.height ≠ 0) ∧
      (∀ width fault, run.session.layout.arrange run.session.items width ≠ .error fault) ∧
      (∀ (moment : Moment) (width : Float), moment.Shows session.root width →
        ∃ rows, Run.Shown receiver run width (run.handle receiver moment).1
          (run.handle receiver moment).2 rows) ∧
      run.counts.failures = moments.countP (Moment.isLost session.root)) ∧
    ∀ queue counts rest last, session.run receiver state queue = (.ok counts, rest, last) →
      ∃ taken, queue = taken ++ rest ∧
        counts.failures = (taken.map Moment.ofQueue).countP (Moment.isLost session.root) := by
  have hsession : session.Unbroken := ⟨hskips, by simp [hitems]⟩
  constructor
  · intro moments run
    obtain ⟨hunbroken, hroot, hfailures⟩ :=
      Run.unbroken_handleAll receiver ⟨session, .zero, state⟩ moments hsession
    refine ⟨?_, ?_, ?_, hfailures.trans (Nat.zero_add _)⟩
    · intro item hitem
      exact item.isBroken_eq_false_iff.1 (hunbroken.whole item hitem)
    · intro width fault harrange
      obtain ⟨rows, hrows⟩ := hunbroken.exists_arrange width
      exact absurd (hrows.symm.trans harrange) nofun
    · intro moment width hshows
      have hfound : (run.found moment.meanwhile).session.Unbroken :=
        ⟨hunbroken.skips, hunbroken.whole⟩
      rw [← hroot] at hshows
      obtain ⟨rows, hshown⟩ := Run.shown_react receiver moment.tree hfound hshows
      exact ⟨rows, hshown.arranged, hshown.told, hshown.passes, hshown.failures⟩
  · intro queue counts rest last hrun
    obtain ⟨taken, hqueue, hlast⟩ := Run.takeAll_eq_handleAll receiver queue ⟨session, .zero, state⟩
    obtain ⟨-, -, hfailures⟩ := Run.unbroken_handleAll receiver ⟨session, .zero, state⟩
      (taken.map Moment.ofQueue) hsession
    obtain ⟨htake, rfl⟩ := takeAll_of_run_eq_ok hrun
    rw [htake] at hqueue hlast
    refine ⟨taken, hqueue, ?_⟩
    rw [← hlast] at hfailures
    exact hfailures.trans (Nat.zero_add _)

/-- A session in a directory with one picture, which the cache takes for a picture without height. -/
def misled : Session :=
  let known : KnownDimensions := .empty 1
  .fresh (ascii "g") ⟨.standard, known.put (FileVersion.key ⟨ascii "g/a.gif", 1, 18⟩) ⟨3, 0⟩⟩
    .standard 0

/-- The picture is loaded, the directory is taken away, and what is left is laid out again. -/
theorem layout_never_fails_without_broken_misled :
    misled.scanner.policy.skipBroken = true ∧ misled.items = [] ∧
    let run := Run.handleAll (Receiver.recorder Empty) ⟨misled, .zero, []⟩
      [⟨pictured, .load 640, id⟩, ⟨.empty, .load 320, Cache.clear⟩, ⟨.empty, .resize 200, id⟩]
    (∀ item ∈ run.session.items, item.dimensions.width ≠ 0 ∧ item.dimensions.height ≠ 0) ∧
      run.counts.failures = 1 := by
  obtain ⟨hhandled, -⟩ := layout_never_fails_without_broken misled (Receiver.recorder Empty) [] rfl rfl
  obtain ⟨hwhole, -, -, hfailures⟩ := hhandled
    [⟨pictured, .load 640, id⟩, ⟨.empty, .load 320, Cache.clear⟩, ⟨.empty, .resize 200, id⟩]
  refine ⟨rfl, rfl, hwhole, hfailures.trans ?_⟩
  decide +kernel

end Session

end Gallery
