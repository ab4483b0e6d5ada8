import Gallery.Proofs.Output.Document

/-!
# Writers that fill up

A writer with room for a limited number of bytes ends up with the first bytes of what a writer
without limit would hold, whatever the format is, whatever is called and however often a call
fails. The first call that fails for lack of room is the first that an unlimited writer needs more
bytes for.

From this call on the two runs have little in common: a document sink that could not write its
rows still keeps them, and the other one has forgotten its own. That does not matter, since
nothing can be written to a full writer any more and nothing that was written is ever taken back.
Until then the two runs are the same but for the limit.
-/

namespace Gallery

/-- Whether an outcome is a failure for lack of room. -/
def lacksRoom (outcome : Except OutputFault Unit) : Bool :=
  match outcome with
  | .ok () => false
  | .error fault => fault.obstacle = .limitReached

/-- The same occasion on a writer with another limit. -/
def Occasion.within (occasion : Occasion) (limit : Option Nat) : Occasion := { occasion with limit }

namespace Sink

/-- The same sink on a writer with another limit. -/
def within (sink : Sink) (limit : Option Nat) : Sink :=
  { sink with writer := { sink.writer with limit } }

/-- The outcome of a call on the writer as the call finds it, and the sink after it. -/
def respond (sink : Sink) (occasion : Occasion) : Except OutputFault Unit × Sink :=
  { sink with writer := occasion.finds sink.writer }.accept occasion.call

/-- What each of some calls comes to, whatever became of those before it: its outcome, and what
the writer holds after it. -/
def course (sink : Sink) : List Occasion → List (Except OutputFault Unit × Bytes)
  | [] => []
  | occasion :: occasions =>
    let (outcome, next) := sink.respond occasion
    (outcome, next.writer.held) :: next.course occasions

/-- A step takes back nothing that was written. -/
theorem held_prefix_perform (sink : Sink) (action : Action) :
    sink.writer.held <+: (sink.perform action).2.writer.held := by
  cases action with
  | write activity bytes => exact sink.writer.held_prefix_write bytes
  | fail fault => exact List.prefix_rfl
  | keep row => exact List.prefix_rfl
  | forget => exact List.prefix_rfl
  | flush activity => exact List.prefix_rfl

/-- Steps take back nothing that was written. -/
theorem held_prefix_performAll (sink : Sink) (actions : List Action) :
    sink.writer.held <+: (sink.performAll actions).2.writer.held := by
  induction actions generalizing sink with
  | nil => exact List.prefix_rfl
  | cons action actions ih =>
    have hfirst := sink.held_prefix_perform action
    rw [performAll]
    cases hperform : sink.perform action with
    | mk outcome next =>
      rw [hperform] at hfirst
      cases outcome with
      | ok => exact hfirst.trans (ih next)
      | error fault => exact hfirst

/-- A step leaves a full writer as it is. -/
theorem writer_perform_of_full {sink : Sink} {limit : Nat} (hlimit : sink.writer.limit = some limit)
    (hfull : limit ≤ sink.writer.held.length) (action : Action) :
    (sink.perform action).2.writer = sink.writer := by
  cases action with
  | write activity bytes => exact Writer.write_of_full hlimit hfull bytes
  | fail fault => rfl
  | keep row => rfl
  | forget => rfl
  | flush activity => rfl

/-- Steps leave a full writer as it is. -/
theorem writer_performAll_of_full {sink : Sink} {limit : Nat}
    (hlimit : sink.writer.limit = some limit) (hfull : limit ≤ sink.writer.held.length)
    (actions : List Action) : (sink.performAll actions).2.writer = sink.writer := by
  induction actions generalizing sink with
  | nil => rfl
  | cons action actions ih =>
    have hfirst := writer_perform_of_full hlimit hfull action
    rw [performAll]
    cases hperform : sink.perform action with
    | mk outcome next =>
      rw [hperform] at hfirst
      rw [← hfirst] at hlimit hfull ⊢
      cases outcome with
      | ok => exact ih hlimit hfull
      | error fault => rfl

/-- A sink whose writer is full, beside one whose writer took all the bytes and more than fit. -/
structure RanOut (limit : Nat) (bounded free : Sink) : Prop where
  exceeds : limit < free.writer.held.length
  held_eq : bounded.writer.held = free.writer.held.take limit

/-- What the same steps come to on a writer with a limit and on one without. Either nothing shows
the limit, or the former fails for lack of room. -/
inductive Truncates (limit : Nat) :
    (bounded free : Except OutputFault Unit × Sink) → Prop where
  | fits {outcome : Except OutputFault Unit} {next : Sink} (houtcome : lacksRoom outcome = false)
      (hroom : next.writer.held.length ≤ limit) :
      Truncates limit (outcome, next.within (some limit)) (outcome, next.within none)
  | ranOut {bounded free : Except OutputFault Unit × Sink}
      (houtcome : lacksRoom bounded.1 = true) (hrest : RanOut limit bounded.2 free.2) :
      Truncates limit bounded free

/-- Once the writer is full, whatever follows on the other one makes no difference. -/
theorem RanOut.of_isPrefix {limit : Nat} {bounded free next : Sink}
    (hout : RanOut limit bounded free) (hgrows : free.writer.held <+: next.writer.held) :
    RanOut limit bounded next := by
  obtain ⟨others, hheld⟩ := hgrows
  have hexceeds := hout.exceeds
  constructor
  · rw [← hheld, List.length_append]
    omega
  · rw [hout.held_eq, ← hheld, List.take_append_of_le_length (Nat.le_of_lt hexceeds)]

/-- Steps are taken alike until the first that needs more room than there is. -/
theorem performAll_truncates {sink : Sink} {limit : Nat} (hroom : sink.writer.held.length ≤ limit)
    {actions : List Action}
    (hactions : ∀ fault, Action.fail fault ∈ actions → fault.obstacle ≠ .limitReached) :
    Truncates limit ((sink.within (some limit)).performAll actions)
      ((sink.within none).performAll actions) := by
  induction actions generalizing sink with
  | nil => exact .fits rfl hroom
  | cons action actions ih =>
    have hothers := fun fault hfault => hactions fault (List.mem_cons_of_mem action hfault)
    cases action with
    | write activity bytes =>
      have hfree : (sink.within none).writer.accepts bytes := by
        rw [Writer.accepts_eq]
        rfl
      have hbounded : (sink.within (some limit)).writer.accepts bytes =
          decide (bytes.length ≤ limit - sink.writer.held.length) := by
        rw [Writer.accepts_eq]
        rfl
      rw [performAll_write, performAll_write, if_pos hfree, Writer.write_of_accepts hfree]
      by_cases hfits : bytes.length ≤ limit - sink.writer.held.length
      · have haccepts := hbounded.trans (decide_eq_true hfits)
        rw [if_pos haccepts, Writer.write_of_accepts haccepts]
        have hnext : (sink.writer.held ++ bytes).length ≤ limit := by
          rw [List.length_append]
          omega
        exact @ih { sink with writer := { sink.writer with held := sink.writer.held ++ bytes } }
          hnext hothers
      · rw [if_neg (Bool.eq_false_iff.1 (hbounded.trans (decide_eq_false hfits)))]
        refine .ranOut rfl (RanOut.of_isPrefix ⟨?_, ?_⟩ (held_prefix_performAll _ actions))
        · change limit < (sink.writer.held ++ bytes).length
          rw [List.length_append]
          omega
        · exact @Writer.held_write_of_le (sink.within (some limit)).writer limit rfl hroom bytes
    | fail fault =>
      have houtcome : lacksRoom (.error fault) = false :=
        decide_eq_false (hactions fault List.mem_cons_self)
      exact @Truncates.fits limit (.error fault) sink houtcome hroom
    | keep row => exact @ih { sink with kept := sink.kept ++ [row] } hroom hothers
    | forget => exact @ih { sink with kept := [] } hroom hothers
    | flush activity =>
      have hflush (limit : Option Nat) : (sink.within limit).writer.refusesFlush =
        sink.writer.refusesFlush := rfl
      rw [performAll, performAll, perform, perform, hflush, hflush]
      cases sink.writer.refusesFlush with
      | true => exact .fits rfl hroom
      | false => exact ih hroom hothers

/-- A call is answered alike unless it needs more room than there is. -/
theorem respond_truncates {sink : Sink} {limit : Nat} (hroom : sink.writer.held.length ≤ limit)
    (occasion : Occasion) :
    Truncates limit (sink.respond (occasion.within (some limit)))
      (sink.respond (occasion.within none)) := by
  refine @performAll_truncates { sink with writer := occasion.finds sink.writer } limit hroom _ ?_
  intro fault hfault
  rw [OutputFormat.obstacle_of_fail_mem hfault]
  exact nofun

/-- Once the writer is full, calls add nothing to it, and take nothing back from the other one. -/
theorem RanOut.respond {limit : Nat} {bounded free : Sink} (hout : RanOut limit bounded free)
    (occasion : Occasion) :
    RanOut limit (bounded.respond (occasion.within (some limit))).2
      (free.respond (occasion.within none)).2 := by
  have hfull : limit ≤ bounded.writer.held.length := by
    rw [hout.held_eq, List.length_take]
    exact Nat.le_min.2 ⟨Nat.le_refl limit, Nat.le_of_lt hout.exceeds⟩
  have hsame := @writer_performAll_of_full
    { bounded with writer := (occasion.within (some limit)).finds bounded.writer } limit rfl hfull
    (bounded.format.actions bounded.kept occasion.call)
  have hbefore : RanOut limit (bounded.respond (occasion.within (some limit))).2 free :=
    ⟨hout.exceeds, (congrArg Writer.held hsame).trans hout.held_eq⟩
  exact hbefore.of_isPrefix (held_prefix_performAll
    { free with writer := (occasion.within none).finds free.writer }
    (free.format.actions free.kept occasion.call))

/-- After that the two writers differ by what did not fit. -/
theorem RanOut.course {limit : Nat} {bounded free : Sink} (hout : RanOut limit bounded free)
    (occasions : List Occasion) :
    (bounded.course (occasions.map (·.within (some limit)))).map (·.2) =
      (free.course (occasions.map (·.within none))).map (·.2.take limit) := by
  induction occasions generalizing bounded free with
  | nil => rfl
  | cons occasion occasions ih =>
    have hnext := hout.respond occasion
    exact congrArg₂ List.cons hnext.held_eq (ih hnext)

/-- The limit that a writer had before plays no part, since a call may find another. -/
theorem course_within (sink : Sink) (limit : Option Nat) (occasions : List Occasion) :
    (sink.within limit).course occasions = sink.course occasions := by
  cases occasions <;> rfl

/-- What the same calls come to on a writer with a limit and on one without. They come to the same
until a first one fails for lack of room, and from there on the former writer holds as much of what
the latter holds as there is room for. -/
inductive Curtails (limit : Nat) :
    (bounded free : List (Except OutputFault Unit × Bytes)) → Prop where
  | nil : Curtails limit [] []
  | fits {outcome : Except OutputFault Unit} {held : Bytes}
      {bounded free : List (Except OutputFault Unit × Bytes)}
      (houtcome : lacksRoom outcome = false) (hroom : held.length ≤ limit)
      (hrest : Curtails limit bounded free) :
      Curtails limit ((outcome, held) :: bounded) ((outcome, held) :: free)
  | ranOut {call other : Except OutputFault Unit × Bytes}
      {bounded free : List (Except OutputFault Unit × Bytes)}
      (houtcome : lacksRoom call.1 = true) (hexceeds : limit < other.2.length)
      (hheld : (call :: bounded).map (·.2) = (other :: free).map (·.2.take limit)) :
      Curtails limit (call :: bounded) (other :: free)

/-- Calls on a sink whose writer has not run out of room are curtailed by a limit. -/
theorem course_curtails {sink : Sink} {limit : Nat} (hroom : sink.writer.held.length ≤ limit)
    (occasions : List Occasion) :
    Curtails limit (sink.course (occasions.map (·.within (some limit))))
      (sink.course (occasions.map (·.within none))) := by
  induction occasions generalizing sink with
  | nil => exact .nil
  | cons occasion occasions ih =>
    have hfirst := respond_truncates hroom occasion
    rw [List.map_cons, List.map_cons, course, course]
    generalize sink.respond (occasion.within (some limit)) = bounded at hfirst ⊢
    generalize sink.respond (occasion.within none) = free at hfirst ⊢
    cases hfirst with
    | fits houtcome hroom =>
      dsimp only
      rw [course_within, course_within]
      exact .fits houtcome hroom (ih hroom)
    | ranOut houtcome hrest =>
      exact .ranOut houtcome hrest.exceeds
        (congrArg₂ List.cons hrest.held_eq (hrest.course occasions))

variable {limit : Nat} {bounded free : List (Except OutputFault Unit × Bytes)}

/-- After each call the limited writer holds the first of the bytes that the other one holds. -/
theorem Curtails.held_eq (h : Curtails limit bounded free) :
    bounded.map (·.2) = free.map (·.2.take limit) := by
  induction h with
  | nil => rfl
  | fits _ hroom _ ih => rw [List.map_cons, List.map_cons, ih, List.take_of_length_le hroom]
  | ranOut _ _ hheld => exact hheld

/-- The first call that fails for lack of room is the first after which there is no room. -/
theorem Curtails.findIdx_eq (h : Curtails limit bounded free) :
    (bounded.findIdx fun call => lacksRoom call.1) =
      free.findIdx fun call => limit < call.2.length := by
  induction h with
  | nil => rfl
  | fits houtcome hroom _ ih =>
    rw [List.findIdx_cons, List.findIdx_cons, houtcome, decide_eq_false (Nat.not_lt.2 hroom), ih]
  | ranOut houtcome hexceeds _ =>
    rw [List.findIdx_cons, List.findIdx_cons, houtcome, decide_eq_true hexceeds]
    rfl

/-- Calls before that have the same outcomes. -/
theorem Curtails.outcomes_eq (h : Curtails limit bounded free) :
    (bounded.map (·.1)).take (bounded.findIdx fun call => lacksRoom call.1) =
      (free.map (·.1)).take (bounded.findIdx fun call => lacksRoom call.1) := by
  induction h with
  | nil => rfl
  | fits houtcome _ _ ih =>
    rw [List.findIdx_cons, houtcome]
    exact congrArg (List.cons _) ih
  | ranOut houtcome _ _ => rw [List.findIdx_cons, houtcome]; rfl

/-- A full writer only truncates. Whatever is called, and whichever flushes fail, after each call a
writer that has room for a number of bytes holds as many of the first bytes that an unlimited
writer holds after the same calls. The first call that fails for lack of room is the first
after which the unlimited writer holds more than there is room for, and calls before it have the
same outcomes on both writers. -/
theorem full_writer_truncates (format : OutputFormat) (limit : Nat) (occasions : List Occasion) :
    let bounded := (fresh format .unlimited).course (occasions.map (·.within (some limit)))
    let free := (fresh format .unlimited).course (occasions.map (·.within none))
    bounded.map (·.2) = free.map (·.2.take limit) ∧
    (bounded.findIdx fun call => lacksRoom call.1) =
      (free.findIdx fun call => limit < call.2.length) ∧
    (bounded.map (·.1)).take (bounded.findIdx fun call => lacksRoom call.1) =
      (free.map (·.1)).take (bounded.findIdx fun call => lacksRoom call.1) := by
  have hcurtails : Curtails limit _ _ :=
    @course_curtails (fresh format .unlimited) limit (Nat.zero_le limit) occasions
  exact ⟨hcurtails.held_eq, hcurtails.findIdx_eq, hcurtails.outcomes_eq⟩

end Sink

end Gallery
