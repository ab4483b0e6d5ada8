import Gallery.Output.Format
import Gallery.Output.Writer

/-!
# Sinks

A sink takes the steps of its format on a writer. A step that fails ends the call, and what
was done before it stays done. The next call begins anew, whatever the last one did.
-/

namespace Gallery

/-- A format at work: its writer, and the rows kept for the next document. -/
structure Sink where
  format : OutputFormat
  writer : Writer
  kept : List (Row Float)

namespace Sink

/-- A sink before its first call. -/
def fresh (format : OutputFormat) (writer : Writer) : Sink := ⟨format, writer, []⟩

/-- Take one step. -/
def perform (sink : Sink) : Action → Except OutputFault Unit × Sink
  | .write activity bytes =>
    (if sink.writer.accepts bytes then .ok () else .error ⟨activity, .limitReached⟩,
      { sink with writer := sink.writer.write bytes })
  | .fail fault => (.error fault, sink)
  | .keep row => (.ok (), { sink with kept := sink.kept ++ [row] })
  | .forget => (.ok (), { sink with kept := [] })
  | .flush activity =>
    (if sink.writer.refusesFlush then .error ⟨some activity, .flushRefused⟩ else .ok (), sink)

/-- Take steps in order, up to the first that fails. -/
def performAll (sink : Sink) : List Action → Except OutputFault Unit × Sink
  | [] => (.ok (), sink)
  | action :: actions =>
    match sink.perform action with
    | (.ok (), sink) => sink.performAll actions
    | (.error fault, sink) => (.error fault, sink)

/-- Steps behind a write are taken if all its bytes fit. -/
theorem performAll_write (sink : Sink) (activity : Option Activity) (bytes : Bytes)
    (actions : List Action) :
    sink.performAll (.write activity bytes :: actions) =
      if sink.writer.accepts bytes then
        { sink with writer := sink.writer.write bytes }.performAll actions
      else
        (.error ⟨activity, .limitReached⟩, { sink with writer := sink.writer.write bytes }) := by
  rw [performAll, perform]
  cases sink.writer.accepts bytes <;> rfl

/-- Answer a call. -/
def accept (sink : Sink) (call : Call) : Except OutputFault Unit × Sink :=
  sink.performAll (sink.format.actions sink.kept call)

/-- Sinks as consumers of passes. -/
def receiver : Receiver Sink OutputFault := ⟨accept⟩

end Sink

end Gallery
