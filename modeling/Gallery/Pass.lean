import Gallery.Row

/-!
# Layout passes

A layout is handed to its consumer as one pass: the container width, every row in order,
then the totals. A consumer answers each of these calls at once and may fail; a pass stops
at the first call that fails.
-/

namespace Gallery

/-- The totals of a pass. -/
structure Summary where
  containerWidth : Float
  rowCount : Nat
  itemCount : Nat
  totalHeight : Float

/-- One call of a pass. -/
inductive Call where
  | start (containerWidth : Float)
  | row (row : Row Float)
  | finish (summary : Summary)

/-- The calls of one pass. -/
def passCalls (width : Float) (rows : List (Row Float)) (summary : Summary) : List Call :=
  .start width :: (rows.map .row ++ [.finish summary])

/-- A consumer of passes with states `σ` and failures `ε`. -/
structure Receiver (σ ε : Type) where
  /-- The outcome of a call and the state after it, also when it fails. -/
  receive : σ → Call → Except ε Unit × σ

namespace Receiver

variable {σ ε : Type}

/-- Make calls in order, up to the first that fails. -/
def feed (receiver : Receiver σ ε) (state : σ) : List Call → Except ε Unit × σ
  | [] => (.ok (), state)
  | call :: calls =>
    match receiver.receive state call with
    | (.ok (), state) => receiver.feed state calls
    | (.error error, state) => (.error error, state)

end Receiver

end Gallery
