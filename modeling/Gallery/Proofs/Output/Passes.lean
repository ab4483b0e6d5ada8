import Gallery.Proofs.Output.Document
import Gallery.Proofs.Session.Counts

/-!
# Passes on a writer that accepts everything

A writer that accepts every write and every flush leaves one way to fail: a sink gives up. Of the
three formats only the document does so, at a pass with a path that is no text. Up to such a pass
it writes one line for each, and after each it keeps nothing, so the lines depend on the passes
alone. The other formats keep nothing anyway: what they write at a call depends on the call.
-/

namespace Gallery

namespace Writer

/-- Whether a writer accepts every write and every flush. -/
structure AcceptsAll (writer : Writer) : Prop where
  limit : writer.limit = none
  refusesFlush : writer.refusesFlush = false

variable {writer : Writer}

/-- A writer without limit is one. -/
theorem acceptsAll_unlimited : unlimited.AcceptsAll := ⟨rfl, rfl⟩

/-- Any bytes fit. -/
theorem AcceptsAll.accepts (hwriter : writer.AcceptsAll) (bytes : Bytes) :
    writer.accepts bytes := by
  rw [accepts_eq, hwriter.limit, Option.all_none]

/-- Writing makes no difference to that. -/
theorem AcceptsAll.write (hwriter : writer.AcceptsAll) (bytes : Bytes) :
    (writer.write bytes).AcceptsAll := ⟨hwriter.limit, hwriter.refusesFlush⟩

/-- What is written is held behind what was held. -/
theorem AcceptsAll.held_write (hwriter : writer.AcceptsAll) (bytes : Bytes) :
    (writer.write bytes).held = writer.held ++ bytes := by
  rw [write_of_accepts (hwriter.accepts bytes)]

end Writer

namespace Pass

/-- The document of a pass, in which no caption is narrower than nothing. -/
def document (pass : Pass) : Json.Fragment :=
  Document.document pass.summary (pass.rows.map Row.clamped)

/-- The line of a pass in a run of documents. -/
def text (pass : Pass) : Bytes := line pass.document.bytes

/-- The document of a pass is complete if all paths in it are text. -/
theorem isComplete_document (pass : Pass) : pass.document.isComplete ↔ PathsAreText pass.rows := by
  rw [document, Document.isComplete_document]
  simp [PathsAreText, Row.clamped]

end Pass

/-- The bytes of a step. Only a write has any. -/
def Action.bytes : Action → Bytes
  | .write _ bytes => bytes
  | _ => []

namespace OutputFormat

/-- What a format writes at a call when no rows are kept. -/
def bytesAt (format : OutputFormat) (call : Call) : Bytes :=
  (format.actions [] call).flatMap Action.bytes

/-- What it writes at the calls of a pass. -/
def passBytes (format : OutputFormat) (width : Float) (rows : List (Row Float))
    (summary : Summary) : Bytes :=
  format.bytesAt (.start width) ++ (rows.flatMap fun row => format.bytesAt (.row row)) ++
    format.bytesAt (.finish summary)

/-- Only for the document does it matter what is kept. -/
theorem actions_of_ne_json {format : OutputFormat} (hformat : format ≠ .json)
    (kept : List (Row Float)) (call : Call) : format.actions kept call = format.actions [] call := by
  cases format with
  | text => rfl
  | css selector => rfl
  | json => contradiction

end OutputFormat

namespace Sink

variable {sink : Sink} {writer : Writer}

/-- A step that does not give up is taken, and its bytes are written. -/
theorem perform_of_acceptsAll (hwriter : sink.writer.AcceptsAll) {action : Action}
    (haction : ∀ fault, action ≠ .fail fault) :
    ∃ next, sink.perform action = (.ok (), next) ∧ next.writer.AcceptsAll ∧
      next.format = sink.format ∧ next.writer.held = sink.writer.held ++ action.bytes := by
  cases action with
  | write activity bytes =>
    rw [perform, if_pos (hwriter.accepts bytes)]
    exact ⟨_, rfl, hwriter.write bytes, rfl, hwriter.held_write bytes⟩
  | fail fault => exact absurd rfl (haction fault)
  | keep row => exact ⟨_, rfl, hwriter, rfl, (List.append_nil _).symm⟩
  | forget => exact ⟨_, rfl, hwriter, rfl, (List.append_nil _).symm⟩
  | flush activity =>
    rw [perform, hwriter.refusesFlush]
    exact ⟨_, rfl, hwriter, rfl, (List.append_nil _).symm⟩

/-- Steps of which none gives up are all taken. -/
theorem performAll_of_acceptsAll (hwriter : sink.writer.AcceptsAll) {actions : List Action}
    (hactions : ∀ fault, Action.fail fault ∉ actions) :
    ∃ next, sink.performAll actions = (.ok (), next) ∧ next.writer.AcceptsAll ∧
      next.format = sink.format ∧
      next.writer.held = sink.writer.held ++ actions.flatMap Action.bytes := by
  induction actions generalizing sink with
  | nil => exact ⟨sink, rfl, hwriter, rfl, (List.append_nil _).symm⟩
  | cons action actions ih =>
    obtain ⟨next, hperform, hnext, hformat, hheld⟩ := perform_of_acceptsAll hwriter fun fault hfail =>
      hactions fault (hfail ▸ List.mem_cons_self)
    obtain ⟨last, hothers, hlast, hsame, hall⟩ := ih hnext fun fault hfail =>
      hactions fault (List.mem_cons_of_mem _ hfail)
    refine ⟨last, by rw [performAll, hperform]; exact hothers, hlast, hsame.trans hformat, ?_⟩
    rw [hall, hheld, List.flatMap_cons, List.append_assoc]

/-- In the other formats every call is accepted, and what is written follows from the calls. -/
theorem feed_of_ne_json (hwriter : sink.writer.AcceptsAll) (hformat : sink.format ≠ .json)
    (calls : List Call) :
    ∃ next, receiver.feed sink calls = (.ok (), next) ∧
      next.writer.held = sink.writer.held ++ calls.flatMap sink.format.bytesAt := by
  induction calls generalizing sink with
  | nil => exact ⟨sink, rfl, (List.append_nil _).symm⟩
  | cons call calls ih =>
    obtain ⟨next, haccept, hnext, hsame, hheld⟩ :=
      performAll_of_acceptsAll hwriter (OutputFormat.not_fail_of_ne_json hformat sink.kept call)
    have hreceive : receiver.receive sink call = (.ok (), next) := haccept
    obtain ⟨last, hfeed, hall⟩ := ih hnext (hsame ▸ hformat)
    refine ⟨last, by rw [Receiver.feed, hreceive]; exact hfeed, ?_⟩
    rw [hall, hheld, hsame, OutputFormat.actions_of_ne_json hformat, List.flatMap_cons,
      List.append_assoc]
    rfl

/-- So they write every pass. -/
theorem feed_passCalls_of_ne_json {format : OutputFormat} (hformat : format ≠ .json)
    (width : Float) (rows : List (Row Float)) (summary : Summary) :
    ∃ next, receiver.feed (fresh format .unlimited) (passCalls width rows summary) = (.ok (), next) ∧
      next.writer.held = format.passBytes width rows summary := by
  have hfresh : (fresh format .unlimited).writer.AcceptsAll := Writer.acceptsAll_unlimited
  obtain ⟨next, hfeed, hheld⟩ := feed_of_ne_json hfresh hformat (passCalls width rows summary)
  refine ⟨next, hfeed, hheld.trans ?_⟩
  simp [fresh, Writer.unlimited, passCalls, OutputFormat.passBytes, List.flatMap_map]

/-- The rows of a pass are kept behind those kept before. -/
theorem feed_rows (writer : Writer) (kept rows : List (Row Float)) :
    receiver.feed (keeping writer kept) (rows.map .row) =
      (.ok (), keeping writer (kept ++ rows.map Row.clamped)) := by
  induction rows generalizing kept with
  | nil => rw [List.map_nil, List.map_nil, List.append_nil]; rfl
  | cons row rows ih =>
    have hreceive : receiver.receive (keeping writer kept) (.row row) =
        (.ok (), keeping writer (kept ++ [row.clamped])) := accept_row writer kept row
    rw [List.map_cons, Receiver.feed, hreceive]
    refine (ih _).trans ?_
    rw [List.append_assoc]
    rfl

/-- A document sink writes the line of a pass and then keeps nothing, unless a path is no text. -/
theorem feed_pass (hwriter : writer.AcceptsAll) (kept : List (Row Float)) (pass : Pass) :
    (PathsAreText pass.rows ∧ receiver.feed (keeping writer kept) pass.calls =
      (.ok (), keeping (writer.write pass.text) [])) ∨
    (¬PathsAreText pass.rows ∧ ∃ fault next,
      receiver.feed (keeping writer kept) pass.calls = (.error fault, next)) := by
  have hfinish : receiver.feed (keeping writer kept) pass.calls =
      receiver.feed (keeping writer (pass.rows.map Row.clamped)) [.finish pass.summary] := by
    have hstart : receiver.receive (keeping writer kept) (.start pass.summary.containerWidth) =
      (.ok (), keeping writer []) := rfl
    rw [Pass.calls, passCalls, Receiver.feed, hstart]
    dsimp only
    rw [Receiver.feed_append, feed_rows, List.nil_append]
  have hreceive : receiver.receive (keeping writer (pass.rows.map Row.clamped))
      (.finish pass.summary) = _ := accept_finish writer (pass.rows.map Row.clamped) pass.summary
  rw [hfinish, Receiver.feed, hreceive, finishOutcome, keptAfterFinish, Document.attempt,
    ← pass.isComplete_document, Pass.text, Pass.document]
  cases hcomplete : (Document.document pass.summary (pass.rows.map Row.clamped)).isComplete <;>
    simp [hwriter.accepts, hwriter.refusesFlush, Receiver.feed]

/-- A document sink writes a line for every pass, unless a path in some pass is no text. -/
theorem feed_passes (hwriter : writer.AcceptsAll) (passes : List Pass) :
    ((∀ pass ∈ passes, PathsAreText pass.rows) ∧ ∃ next,
      receiver.feed (keeping writer []) (passes.flatMap Pass.calls) = (.ok (), keeping next []) ∧
      next.held = writer.held ++ passes.flatMap Pass.text) ∨
    ((∃ pass ∈ passes, ¬PathsAreText pass.rows) ∧ ∃ fault next,
      receiver.feed (keeping writer []) (passes.flatMap Pass.calls) = (.error fault, next)) := by
  induction passes generalizing writer with
  | nil => exact .inl ⟨nofun, writer, rfl, (List.append_nil _).symm⟩
  | cons pass passes ih =>
    rw [List.flatMap_cons, Receiver.feed_append]
    obtain ⟨htext, hfeed⟩ | ⟨hnot, fault, next, hfeed⟩ := feed_pass hwriter [] pass
    · rw [hfeed]
      dsimp only
      obtain ⟨hothers, next, hfeed, hheld⟩ | ⟨⟨other, hother, hnot⟩, hfails⟩ :=
        ih (hwriter.write pass.text)
      · refine .inl ⟨List.forall_mem_cons.2 ⟨htext, hothers⟩, next, hfeed, ?_⟩
        rw [hheld, hwriter.held_write, List.flatMap_cons, List.append_assoc]
      · exact .inr ⟨⟨other, List.mem_cons_of_mem _ hother, hnot⟩, hfails⟩
    · rw [hfeed]
      exact .inr ⟨⟨pass, List.mem_cons_self, hnot⟩, fault, next, rfl⟩

/-- Passes are accepted by every format, unless it is the document and a path is no text. -/
theorem feed_fresh_eq_error_iff (hwriter : writer.AcceptsAll) (format : OutputFormat)
    (passes : List Pass) :
    (∃ fault, (receiver.feed (fresh format writer) (passes.flatMap Pass.calls)).1 =
      .error fault) ↔ format = .json ∧ ∃ pass ∈ passes, ¬PathsAreText pass.rows := by
  by_cases hformat : format = .json
  · obtain rfl := hformat
    have hfresh : fresh .json writer = keeping writer [] := rfl
    rw [hfresh]
    obtain ⟨htext, next, hfeed, -⟩ | ⟨hnot, fault, next, hfeed⟩ := feed_passes hwriter passes
    · rw [hfeed]
      simpa using htext
    · rw [hfeed]
      simpa using hnot
  · have hfresh : (fresh format writer).writer.AcceptsAll := hwriter
    obtain ⟨next, hfeed, -⟩ := feed_of_ne_json hfresh hformat (passes.flatMap Pass.calls)
    simp [hfeed, hformat]

end Sink

end Gallery
