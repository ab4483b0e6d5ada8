import Gallery.Layout
import Gallery.Pass
import Gallery.Scan.Scanner

/-!
# Sessions

A session keeps the pictures of one directory and shows them again for every trigger it
takes. A load scans the directory and shows what was found, a resize shows what is there,
and a shutdown ends the session. Nothing of an earlier pass is used again but the pictures.

A load that fails keeps the pictures and shows nothing, and a layout that fails does not
reach the receiver; both are counted and the session goes on. A receiver that fails ends it
at once. Each trigger comes with the tree as it is when the trigger is taken.
-/

namespace Gallery

/-- What a session reacts to. -/
inductive Trigger where
  | load (width : Float)
  | resize (width : Float)
  | shutdown

/-- The counts of a session. -/
structure SessionCounts where
  /-- Triggers taken. -/
  triggers : Nat
  /-- Passes shown in full. -/
  passes : Nat
  /-- Loads and layouts that failed. -/
  failures : Nat
  deriving DecidableEq, Repr

/-- The counts before the first trigger. -/
def SessionCounts.zero : SessionCounts := ⟨0, 0, 0⟩

/-- A directory with its scanner, its layout, and the pictures of the last load. -/
structure Session where
  root : Bytes
  scanner : Scanner
  layout : Layout Float
  /-- The space between rows, which only the reported height takes in. -/
  rowGap : Float
  items : List Picture

/-- Why a pass failed. -/
inductive PassFault (ε : Type) where
  | geometry (fault : GeometryFault)
  | receiver (fault : ε)

namespace Session

/-- A session before its first load. -/
def fresh (root : Bytes) (scanner : Scanner) (layout : Layout Float) (rowGap : Float) : Session :=
  ⟨root, scanner, layout, rowGap, []⟩

/-- Scan the directory and keep the pictures found. -/
def load (session : Session) (tree : Tree) : Except ScanFault ScanCounts × Session :=
  match session.scanner.scan tree session.root with
  | (.ok (items, counts), scanner) => (.ok counts, { session with scanner, items })
  | (.error fault, scanner) => (.error fault, { session with scanner })

/-- The totals of rows that show the pictures of the session. -/
def summary (session : Session) (width : Float) (rows : List (Row Float)) : Summary where
  containerWidth := width
  rowCount := rows.length
  itemCount := session.items.length
  totalHeight := Row.totalHeight session.rowGap rows

/-- Show the pictures in a container of the given width. -/
def present {σ ε : Type} (session : Session) (receiver : Receiver σ ε) (width : Float)
    (state : σ) : Except (PassFault ε) Summary × σ :=
  match session.layout.arrange session.items width with
  | .error fault => (.error (.geometry fault), state)
  | .ok rows =>
    match receiver.feed state (passCalls width rows (session.summary width rows)) with
    | (.ok (), state) => (.ok (session.summary width rows), state)
    | (.error fault, state) => (.error (.receiver fault), state)

end Session

/-- A session at work: the session, its counts, and the state of its receiver. -/
structure Run (σ : Type) where
  session : Session
  counts : SessionCounts
  state : σ

namespace Run

variable {σ ε : Type}

/-- Count a trigger that was taken. -/
def taken (run : Run σ) : Run σ :=
  { run with counts := { run.counts with triggers := run.counts.triggers + 1 } }

/-- Count a failure. -/
def failed (run : Run σ) : Run σ :=
  { run with counts := { run.counts with failures := run.counts.failures + 1 } }

/-- Count a pass. -/
def passed (run : Run σ) : Run σ :=
  { run with counts := { run.counts with passes := run.counts.passes + 1 } }

/-- Show the pictures and count the outcome; only a failure of the receiver is an error. -/
def presentCounted (receiver : Receiver σ ε) (width : Float) (run : Run σ) : Except ε Unit × Run σ :=
  match run.session.present receiver width run.state with
  | (.ok _, state) => (.ok (), { run with state }.passed)
  | (.error (.geometry _), state) => (.ok (), { run with state }.failed)
  | (.error (.receiver fault), state) => (.error fault, { run with state })

/-- React to a trigger. The answer tells whether the session goes on. -/
def react (receiver : Receiver σ ε) (tree : Tree) (trigger : Trigger) (run : Run σ) :
    Except ε Bool × Run σ :=
  let run := run.taken
  match trigger with
  | .shutdown => (.ok false, run)
  | .resize width =>
    match run.presentCounted receiver width with
    | (.ok (), run) => (.ok true, run)
    | (.error fault, run) => (.error fault, run)
  | .load width =>
    match run.session.load tree with
    | (.error _, session) => (.ok true, { run with session }.failed)
    | (.ok _, session) =>
      match { run with session }.presentCounted receiver width with
      | (.ok (), run) => (.ok true, run)
      | (.error fault, run) => (.error fault, run)

/-- Take triggers from a queue until one ends the session or none is left. What stays in the
queue is returned. -/
def takeAll (receiver : Receiver σ ε) (run : Run σ) :
    List (Tree × Trigger) → Except ε Unit × List (Tree × Trigger) × Run σ
  | [] => (.ok (), [], run)
  | (tree, trigger) :: queue =>
    match run.react receiver tree trigger with
    | (.ok true, run) => run.takeAll receiver queue
    | (.ok false, run) => (.ok (), queue, run)
    | (.error fault, run) => (.error fault, queue, run)

end Run

/-- Run a session on a queue, with counts of its own. -/
def Session.run {σ ε : Type} (session : Session) (receiver : Receiver σ ε) (state : σ)
    (queue : List (Tree × Trigger)) : Except ε SessionCounts × List (Tree × Trigger) × Run σ :=
  match Run.takeAll receiver ⟨session, .zero, state⟩ queue with
  | (.ok (), rest, run) => (.ok run.counts, rest, run)
  | (.error fault, rest, run) => (.error fault, rest, run)

end Gallery
