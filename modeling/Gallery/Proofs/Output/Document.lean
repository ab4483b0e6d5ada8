import Gallery.Output.Sink
import Mathlib.Logic.Basic

/-!
# The document sink

A document sink can be told anything in any order, on a writer that may stop accepting bytes at
any point and come back later, and that may refuse any flush. Between two calls it remembers
nothing but the rows that are pending: those it was given since it was made, since the last
start, or since the last document that went out with its line break, whichever came last.

This is stated from the reports of the calls alone, that is from what was called and which bytes
went out. A finish can fail in three places. In front of the line break nothing is forgotten, so
that the next finish writes the same rows again; behind it everything is, also when the flush
fails.
-/

namespace Gallery

section Captions

/-- Comparison of floating-point numbers is decided on their parts. -/
private theorem float_lt_iff (a b : Float) :
    a < b ↔ a.toModel.unpack.lt b.toModel.unpack = true := by
  change a.lt b = true ↔ _
  rw [Float.lt, decide_eq_true_eq]
  rfl

private theorem float_le_iff (a b : Float) :
    a ≤ b ↔ a.toModel.unpack.le b.toModel.unpack = true := by
  change a.le b = true ↔ _
  rw [Float.le, decide_eq_true_eq]
  rfl

/-- A caption is written with the larger of its width and zero, and with zero if its width is
undefined. -/
theorem shownCaption_eq_max (width : Float) :
    shownCaption width = if width.isNaN then 0 else max width 0 := by
  have hzero : (0 : Float).toModel.unpack = .zero .positive := by rfl
  have hmax : max width 0 = if width ≤ 0 then 0 else width := rfl
  have hnan : width.isNaN = width.toModel.unpack.isNaN := rfl
  rw [hmax, shownCaption]
  simp only [float_lt_iff, float_le_iff, hzero, hnan]
  generalize width.toModel.unpack = parts
  cases parts with
  | notANumber => rfl
  | infinity sign => cases sign <;> rfl
  | zero sign => cases sign <;> rfl
  | finite sign => cases sign <;> rfl

/-- A row with no caption narrower than nothing. -/
def Row.clamped (row : Row Float) : Row Float :=
  { row with
    items := row.items.map fun item =>
      { item with
        captionWidth := if item.captionWidth.isNaN then 0 else max item.captionWidth 0 } }

/-- Rows are shown with their captions clamped. -/
theorem Row.shown_eq_clamped (row : Row Float) : row.shown = row.clamped := by
  rw [Row.shown, Row.clamped]
  congr 2
  funext item
  rw [Placement.shown, shownCaption_eq_max]

end Captions

/-- Whether all paths of the items of some rows are text. -/
def PathsAreText (rows : List (Row Float)) : Prop :=
  ∀ row ∈ rows, ∀ item ∈ row.items, Utf8.isValid item.path

namespace Document

open Json (Fragment Value)

/-- The fields of a document that come from its summary. -/
def summaryFields (summary : Summary) : List (Bytes × Value) :=
  [(ascii "container_width", .number summary.containerWidth),
    (ascii "row_count", .count summary.rowCount), (ascii "item_count", .count summary.itemCount),
    (ascii "total_height", .number summary.totalHeight)]

/-- The document with the fields of a summary and then some rows in their order, up to the first
path that is no text. -/
def document (summary : Summary) (rows : List (Row Float)) : Fragment :=
  (Value.object (summaryFields summary ++ [(ascii "rows", .array (rows.map rowValue))])).render

/-- This is the document that is written for a pass. -/
theorem document_eq_render (summary : Summary) (rows : List (Row Float)) :
    document summary rows = (passValue summary rows).render := rfl

/-- What is to be written for a document: its bytes, and a line break if it is complete. -/
def attempt (summary : Summary) (rows : List (Row Float)) : Bytes :=
  if (document summary rows).isComplete then line (document summary rows).bytes
  else (document summary rows).bytes

open Json.Value in
/-- An item is written in full if its path is text. -/
theorem isComplete_itemValue (item : Placement Float) :
    (itemValue item).render.isComplete = Utf8.isValid item.path := by
  rw [itemValue, render, Fragment.isComplete_append, Fragment.isComplete_append,
    isComplete_renderFields]
  cases hpath : Utf8.isValid item.path <;>
    simp [render, hpath, Fragment.whole, Fragment.broken]

open Json.Value in
/-- A row is written in full if the paths of its items are text. -/
theorem isComplete_rowValue (row : Row Float) :
    (rowValue row).render.isComplete = row.items.all fun item => Utf8.isValid item.path := by
  rw [rowValue, render, Fragment.isComplete_append, Fragment.isComplete_append,
    isComplete_renderFields]
  cases hwrapped : row.wrapped <;>
    simp [render, Fragment.isComplete_append, isComplete_renderElements, isComplete_itemValue,
      Fragment.whole, Function.comp_def]

open Json.Value in
/-- A document is complete if all paths in it are text. -/
theorem isComplete_document (summary : Summary) (rows : List (Row Float)) :
    (document summary rows).isComplete ↔ PathsAreText rows := by
  rw [document_eq_render, passValue, render, Fragment.isComplete_append, Fragment.isComplete_append,
    isComplete_renderFields]
  simp [render, Fragment.isComplete_append, isComplete_renderElements, isComplete_rowValue,
    Fragment.whole, PathsAreText]

/-- A whole line was written exactly if the document is complete and all of its line fits. -/
theorem written_eq_line_iff (writer : Writer) (summary : Summary) (rows : List (Row Float)) :
    (attempt summary rows).take (writer.accepted (attempt summary rows)) =
        line (document summary rows).bytes ↔
      (document summary rows).isComplete ∧ writer.accepts (attempt summary rows) := by
  have hle := writer.accepted_le (attempt summary rows)
  rw [Writer.accepts, decide_eq_true_eq]
  constructor
  · intro hwritten
    have hlength := congrArg List.length hwritten
    rw [List.length_take, line, List.length_append, List.length_singleton] at hlength
    cases hcomplete : (document summary rows).isComplete with
    | true =>
      have hline : attempt summary rows = line (document summary rows).bytes := by
        rw [attempt, hcomplete, if_pos rfl]
      have hlast : (attempt summary rows).length = (document summary rows).bytes.length + 1 := by
        rw [hline, line, List.length_append, List.length_singleton]
      exact ⟨rfl, by omega⟩
    | false =>
      -- Without its line break a document is too short.
      have hbytes : attempt summary rows = (document summary rows).bytes := by
        rw [attempt, hcomplete, if_neg Bool.false_ne_true]
      rw [hbytes] at hlength
      omega
  · rintro ⟨hcomplete, hall⟩
    rw [hall, List.take_length, attempt, if_pos hcomplete]

end Document

/-- A call, with what the writer is like when it comes: how many bytes it can hold by then, and
whether it refuses to be flushed. -/
structure Occasion where
  limit : Option Nat
  refusesFlush : Bool
  call : Call

/-- The writer as a call finds it. -/
def Occasion.finds (occasion : Occasion) (writer : Writer) : Writer :=
  { writer with limit := occasion.limit, refusesFlush := occasion.refusesFlush }

/-- What a call came to. -/
structure Report where
  call : Call
  outcome : Except OutputFault Unit
  /-- The bytes that went out during the call. -/
  written : Bytes

/-- The rows that are pending after a call, given those before it. -/
def Report.pendingAfter (rows : List (Row Float)) (report : Report) : List (Row Float) :=
  match report.call with
  | .start _ => []
  | .row row => rows ++ [row.clamped]
  | .finish summary =>
    if report.written = line (Document.document summary rows).bytes then [] else rows

/-- The rows that are pending after some calls to a sink that was made just before them. -/
def pending (reports : List Report) : List (Row Float) := reports.foldl Report.pendingAfter []

namespace Sink

open Document (document attempt)

/-- A document sink with the rows that it keeps. -/
def keeping (writer : Writer) (rows : List (Row Float)) : Sink := ⟨.json, writer, rows⟩

/-- Answer a call on a writer that may have changed meanwhile. -/
def answer (sink : Sink) (occasion : Occasion) : Report × Sink :=
  let (outcome, next) := { sink with writer := occasion.finds sink.writer }.accept occasion.call
  (⟨occasion.call, outcome, next.writer.held.drop sink.writer.held.length⟩, next)

/-- Answer calls in order, whatever becomes of them. -/
def answerAll (sink : Sink) : List Occasion → List Report × Sink
  | [] => ([], sink)
  | occasion :: occasions =>
    let (report, next) := sink.answer occasion
    let (reports, last) := next.answerAll occasions
    (report :: reports, last)

variable (writer : Writer) (rows : List (Row Float))

/-- At a start the rows are forgotten, and nothing is written. -/
theorem accept_start (width : Float) :
    (keeping writer rows).accept (.start width) = (.ok (), keeping writer []) := rfl

/-- A row is kept as it is shown, and nothing is written. -/
theorem accept_row (row : Row Float) :
    (keeping writer rows).accept (.row row) = (.ok (), keeping writer (rows ++ [row.clamped])) := by
  rw [← row.shown_eq_clamped]
  rfl

/-- The outcome of a finish: the first of four obstacles, if there is any. -/
def finishOutcome (summary : Summary) : Except OutputFault Unit :=
  if writer.accepts (document summary rows).bytes = false then
    .error ⟨some .serializing, .limitReached⟩
  else if (document summary rows).isComplete = false then
    .error ⟨some .serializing, .pathNotText⟩
  else if writer.accepts (attempt summary rows) = false then .error ⟨none, .limitReached⟩
  else if writer.refusesFlush then .error ⟨some (.flushing .json), .flushRefused⟩
  else .ok ()

/-- The rows that are kept after a finish: none once the whole line is out. -/
def keptAfterFinish (summary : Summary) : List (Row Float) :=
  if (document summary rows).isComplete ∧ writer.accepts (attempt summary rows) then [] else rows

/-- A finish writes as much of its line as fits, and forgets the rows once all of it is out. -/
theorem accept_finish (summary : Summary) :
    (keeping writer rows).accept (.finish summary) =
      (finishOutcome writer rows summary,
        keeping (writer.write (attempt summary rows)) (keptAfterFinish writer rows summary)) := by
  have hline := writer.accepts_append (document summary rows).bytes [newline]
  rw [finishOutcome, keptAfterFinish, attempt, line]
  change performAll _ (.write (some .serializing) (document summary rows).bytes ::
    if (document summary rows).isComplete then
      [.write none [newline], .forget, .flush (.flushing .json)]
    else [.fail ⟨some .serializing, .pathNotText⟩]) = _
  rw [performAll_write]
  cases hdocument : writer.accepts (document summary rows).bytes with
  | false =>
    rw [hdocument, Bool.false_and] at hline
    cases (document summary rows).isComplete with
    | false => simp [keeping, hdocument]
    | true => simp [keeping, hdocument, hline, Writer.write_append_of_not_accepts hdocument]
  | true =>
    rw [hdocument, Bool.true_and] at hline
    cases (document summary rows).isComplete with
    | false => simp [keeping, hdocument, performAll, perform]
    | true =>
      have hwrite := Writer.write_append_of_accepts hdocument [newline]
      simp only [keeping, hdocument, if_true, performAll_write, hline, hwrite]
      cases hnewline : (writer.write (document summary rows).bytes).accepts [newline] with
      | false => simp
      | true =>
        have hflush : (writer.write ((document summary rows).bytes ++ [newline])).refusesFlush =
          writer.refusesFlush := rfl
        cases hrefuses : writer.refusesFlush <;> simp [performAll, perform, hflush, hrefuses]

/-- What a finish comes to when some rows are pending. -/
structure Finishes (summary : Summary) (report : Report) (next : Sink) : Prop where
  /-- One document with the pending rows is written, then a line break, up to the first byte that
  is refused. -/
  written_eq : report.written =
    (attempt summary rows).take (writer.accepted (attempt summary rows))
  held_eq : next.writer.held = writer.held ++ report.written
  /-- The document itself fails exactly if a pending path is no text or a byte is refused. -/
  fails_iff : (∃ obstacle, report.outcome = .error ⟨some .serializing, obstacle⟩) ↔
    ¬PathsAreText rows ∨ writer.accepts (document summary rows).bytes = false
  /-- Short of the whole line the call fails, and what was pending stays so. -/
  unfinished : report.written ≠ line (document summary rows).bytes →
    (∃ fault, report.outcome = .error fault) ∧ next.kept = rows
  /-- With the whole line nothing is pending any more, whatever becomes of the flush. -/
  finished : report.written = line (document summary rows).bytes →
    next.kept = [] ∧
      report.outcome =
        if writer.refusesFlush then .error ⟨some (.flushing .json), .flushRefused⟩ else .ok ()

/-- What a call comes to when some rows are pending: only a finish writes, and only a finish can
fail. -/
def Meets (report : Report) (next : Sink) : Prop :=
  match report.call with
  | .start _ => report.outcome = .ok () ∧ report.written = [] ∧ next.writer = writer
  | .row _ => report.outcome = .ok () ∧ report.written = [] ∧ next.writer = writer
  | .finish summary => Finishes writer rows summary report next

/-- What a finish writes, behind what the writer held. -/
theorem held_write_drop (bytes : Bytes) :
    (writer.write bytes).held.drop writer.held.length = bytes.take (writer.accepted bytes) := by
  rw [Writer.write, List.drop_left]

/-- The outcome of a finish names the document if the document failed. -/
theorem finishOutcome_eq_serializing_iff (summary : Summary) :
    (∃ obstacle, finishOutcome writer rows summary = .error ⟨some .serializing, obstacle⟩) ↔
      ¬PathsAreText rows ∨ writer.accepts (document summary rows).bytes = false := by
  rw [← Document.isComplete_document summary rows, finishOutcome]
  cases writer.accepts (document summary rows).bytes with
  | false => simp
  | true =>
    cases (document summary rows).isComplete with
    | false => simp
    | true =>
      cases writer.accepts (attempt summary rows) <;> cases writer.refusesFlush <;> simp

/-- A finish with some rows kept does what is asked of it. -/
theorem finishes_accept (summary : Summary) :
    Finishes writer rows summary
      ⟨.finish summary, finishOutcome writer rows summary,
        (attempt summary rows).take (writer.accepted (attempt summary rows))⟩
      (keeping (writer.write (attempt summary rows)) (keptAfterFinish writer rows summary)) where
  written_eq := rfl
  held_eq := rfl
  fails_iff := finishOutcome_eq_serializing_iff writer rows summary
  unfinished := by
    intro hwritten
    have hshort := mt (Document.written_eq_line_iff writer summary rows).2 hwritten
    refine ⟨?_, if_neg hshort⟩
    dsimp only
    rw [finishOutcome]
    cases hcomplete : (document summary rows).isComplete with
    | false => cases writer.accepts (document summary rows).bytes <;> simp
    | true =>
      have hrefused : writer.accepts (attempt summary rows) = false :=
        Bool.eq_false_iff.2 fun haccepts => hshort ⟨hcomplete, haccepts⟩
      cases writer.accepts (document summary rows).bytes <;> simp [hrefused]
  finished := by
    intro hwritten
    have hwhole := (Document.written_eq_line_iff writer summary rows).1 hwritten
    refine ⟨if_pos hwhole, ?_⟩
    obtain ⟨hcomplete, haccepts⟩ := hwhole
    have hdocument : writer.accepts (document summary rows).bytes = true := by
      rw [attempt, if_pos hcomplete, line, Writer.accepts_append, Bool.and_eq_true] at haccepts
      exact haccepts.1
    simp only [finishOutcome, hdocument, hcomplete, haccepts, Bool.true_eq_false, if_false]

/-- What is kept after a finish is what is pending after it. -/
theorem keptAfterFinish_eq_pendingAfter (summary : Summary) (outcome : Except OutputFault Unit) :
    keptAfterFinish writer rows summary =
      Report.pendingAfter rows ⟨.finish summary, outcome,
        (attempt summary rows).take (writer.accepted (attempt summary rows))⟩ := by
  rw [keptAfterFinish, Report.pendingAfter]
  exact if_congr (Document.written_eq_line_iff writer summary rows).symm rfl rfl

/-- A call is answered on the writer as it is found, and reported with what the writer gained. -/
theorem answer_of_accept (occasion : Occasion) {outcome : Except OutputFault Unit}
    {next : Writer} {kept : List (Row Float)}
    (haccept : (keeping (occasion.finds writer) rows).accept occasion.call =
      (outcome, keeping next kept)) :
    (keeping writer rows).answer occasion =
      (⟨occasion.call, outcome, next.held.drop writer.held.length⟩, keeping next kept) := by
  exact congrArg (fun accepted => (Report.mk occasion.call accepted.1
    (accepted.2.writer.held.drop writer.held.length), accepted.2)) haccept

/-- A call does what is asked of it, and leaves the sink with the rows that are pending then. -/
theorem answer_keeping (occasion : Occasion) :
    ∃ report next,
      (keeping writer rows).answer occasion = (report, keeping next (report.pendingAfter rows)) ∧
      next.held = writer.held ++ report.written ∧
      Meets (occasion.finds writer) rows report (keeping next (report.pendingAfter rows)) := by
  obtain ⟨limit, refusesFlush, call⟩ := occasion
  let found : Writer := ⟨writer.held, limit, refusesFlush⟩
  cases call with
  | start width =>
    refine ⟨⟨.start width, .ok (), []⟩, found, ?_, (List.append_nil _).symm, rfl, rfl, rfl⟩
    rw [answer_of_accept writer rows ⟨limit, refusesFlush, .start width⟩
        (accept_start found rows width), List.drop_length]
    rfl
  | row row =>
    refine ⟨⟨.row row, .ok (), []⟩, found, ?_, (List.append_nil _).symm, rfl, rfl, rfl⟩
    rw [answer_of_accept writer rows ⟨limit, refusesFlush, .row row⟩
        (accept_row found rows row), List.drop_length]
    rfl
  | finish summary =>
    refine ⟨⟨.finish summary, finishOutcome found rows summary,
      (attempt summary rows).take (found.accepted (attempt summary rows))⟩,
      found.write (attempt summary rows), ?_, rfl, ?_⟩
    · rw [answer_of_accept writer rows ⟨limit, refusesFlush, .finish summary⟩
        (accept_finish found rows summary),
        held_write_drop found, keptAfterFinish_eq_pendingAfter]
    · rw [← keptAfterFinish_eq_pendingAfter]
      exact finishes_accept found rows summary

/-- A run of calls leaves a document sink with the rows that are pending then, and its writer
with everything that the calls wrote. -/
theorem answerAll_keeping (occasions : List Occasion) :
    ∃ reports last,
      (keeping writer rows).answerAll occasions =
        (reports, keeping last (reports.foldl Report.pendingAfter rows)) ∧
      last.held = writer.held ++ reports.flatMap (·.written) := by
  induction occasions generalizing writer rows with
  | nil => exact ⟨[], writer, rfl, (List.append_nil _).symm⟩
  | cons occasion occasions ih =>
    obtain ⟨report, next, hanswer, hheld, -⟩ := answer_keeping writer rows occasion
    obtain ⟨reports, last, hanswers, hlast⟩ := ih next (report.pendingAfter rows)
    refine ⟨report :: reports, last, ?_, ?_⟩
    · rw [answerAll, hanswer]
      dsimp only
      rw [hanswers]
      rfl
    · rw [hlast, hheld, List.flatMap_cons, List.append_assoc]

/-- Whatever a document sink was told before, and wherever its writer stopped, a start or a row
writes nothing and does not fail, and a finish writes the document of the rows that are pending,
which it forgets once the document and its line break are out. -/
theorem document_sink_writes_pending_rows (writer : Writer) (before : List Occasion)
    (now : Occasion) :
    ∃ reports sink report next,
      (fresh .json writer).answerAll before = (reports, sink) ∧
      sink.answer now = (report, next) ∧
      Meets (now.finds sink.writer) (pending reports) report next ∧
      next.kept = pending (reports ++ [report]) ∧
      next.writer.held = writer.held ++ (reports ++ [report]).flatMap (·.written) := by
  obtain ⟨reports, last, hanswers, hlast⟩ := answerAll_keeping writer [] before
  obtain ⟨report, next, hanswer, hheld, hmeets⟩ := answer_keeping last (pending reports) now
  refine ⟨reports, keeping last (pending reports), report, _, hanswers, hanswer, hmeets, ?_, ?_⟩
  · change _ = (reports ++ [report]).foldl Report.pendingAfter []
    rw [List.foldl_append]
    rfl
  · change next.held = _
    rw [hheld, hlast, List.flatMap_append, List.flatMap_singleton, List.append_assoc]

end Sink

end Gallery
