import Gallery.Command.Request
import Gallery.Command.Widths
import Gallery.Output.Sink
import Gallery.Session

/-!
# The command line

A request is carried out as one session: the first width is loaded and every further one is
a resize. The program fails when the directory is none, when output fails, and when nothing
could be laid out at any width although it was tried. What was written before a failure
stays written.
-/

namespace Gallery.Command

/-- Why a request failed. -/
inductive Failure where
  | scan (fault : ScanFault)
  | output (fault : OutputFault)
  | noLayout (failures : Nat)
  deriving DecidableEq, Repr

/-- The wording of a failure, from the failure itself to its cause. -/
def Failure.causes : Failure → List Bytes
  | .scan fault => [fault.message]
  | .output fault => fault.causes
  | .noLayout failures =>
    [ascii "no layout could be produced (" ++ decimal failures ++ ascii " failures)"]

/-- The report of a failure on the error output. -/
def Failure.report (failure : Failure) : Bytes :=
  match failure.causes with
  | [] => []
  | [message] => line (ascii "Error: " ++ message)
  | message :: causes =>
    line (ascii "Error: " ++ message) ++ line [] ++ line (ascii "Caused by:") ++
      causes.flatMap fun cause => line (ascii "    " ++ cause)

/-- How the program ends. -/
inductive Ending where
  | success
  | failure (failure : Failure)
  /-- The arguments were wrong. -/
  | misuse
  deriving DecidableEq, Repr

/-- The exit status. -/
def Ending.code : Ending → Nat
  | .success => 0
  | .failure _ => 1
  | .misuse => 2

/-- What is reported on the error output. -/
def Ending.report : Ending → Bytes
  | .failure fault => fault.report
  | _ => []

/-- The end of the program and what it wrote on the standard output. -/
structure Outcome where
  ending : Ending
  output : Bytes
  deriving DecidableEq, Repr

/-- The line that tells the version. -/
def versionText : Bytes := line (ascii "rowfit 0.1.0")

/-- The line that tells the form of the arguments. -/
def helpText : Bytes := line (ascii "Usage: rowfit [OPTIONS] <DIR>")

/-- The triggers of a request: a load at the first width and a resize at each further one,
those of the input last. -/
def Request.triggers (request : Request) (input : Bytes) : List Trigger :=
  (match request.widths with
    | [] => []
    | first :: others => .load first :: others.map .resize) ++
    if request.inputWidths then (Command.widths input).map .resize else []

/-- The session of a request before its first trigger. -/
def Request.session (request : Request) : Session :=
  .fresh request.directory (.fresh request.scan) request.layout 0

/-- How a session that was not cut short ends the program. -/
def endingOf (counts : SessionCounts) : Ending :=
  if counts.passes = 0 ∧ 0 < counts.failures then .failure (.noLayout counts.failures)
  else .success

/-- Carry out a request on a tree. -/
def Request.execute (request : Request) (tree : Tree) (input : Bytes) : Outcome :=
  if tree.target? request.directory ≠ some .directory then
    ⟨.failure (.scan (.notADirectory request.directory)), []⟩
  else
    match request.session.run Sink.receiver (.fresh request.format .unlimited)
        ((request.triggers input).map fun trigger => (tree, trigger)) with
    | (.ok counts, _, run) => ⟨endingOf counts, run.state.writer.held⟩
    | (.error fault, _, run) => ⟨.failure (.output fault), run.state.writer.held⟩

/-- Run the program. -/
def run (tree : Tree) (arguments : List Bytes) (input : Bytes) : Outcome :=
  match Request.ofArguments arguments with
  | .ok request => request.execute tree input
  | .error .version => ⟨.success, versionText⟩
  | .error .help => ⟨.success, helpText⟩
  | .error .misuse => ⟨.misuse, []⟩

end Gallery.Command
