import Gallery.Decimal.Binary

/-!
# The fewest digits that read back

The reals that round to a double form an interval around it: it ends halfway to either
neighbour and contains its ends exactly when the significand is even. A decimal reads back
to the double if it lies in that interval. The digits chosen for a double are the fewest
that read back, and among those the nearest to its exact value.

If any decimal of a given length lies in the interval, then so does one of the two that
enclose the value; hence two candidates for each length are enough.
-/

namespace Gallery.Decimal

/-- A decimal numeral: `digits * 10 ^ exponent`. -/
structure Numeral where
  digits : Nat
  exponent : Int
  deriving DecidableEq, Repr

/-- The exact value of a decimal. -/
def Numeral.value (d : Numeral) : Ratio := .scaled d.digits 10 d.exponent

/-- Which of two equally near decimals is chosen. -/
inductive Tie where
  | toEven
  | up
  deriving DecidableEq, Repr

namespace Binary

/-- The lower end of the interval that rounds to the value. -/
def lowerEnd (x : Binary) : Ratio :=
  .scaled (4 * x.significand - if x.narrowBelow then 1 else 2) 2 (x.exponent - 2)

/-- The upper end of the interval that rounds to the value. -/
def upperEnd (x : Binary) : Ratio := .scaled (4 * x.significand + 2) 2 (x.exponent - 2)

/-- Whether a decimal lies in the interval that rounds to the value. -/
def readsBack (x : Binary) (d : Numeral) : Bool :=
  let closed := x.significand % 2 = 0
  let above := x.lowerEnd.compare d.value
  let below := d.value.compare x.upperEnd
  (above = .lt || closed && above = .eq) && (below = .lt || closed && below = .eq)

/-- The number of digits of a positive value before its decimal point; negative when the
value starts with zeros behind the point. No double has more than 323 of those. -/
def magnitude (x : Binary) : Int :=
  (Nat.toDigits 10 (x.value.mul (.scaled 1 10 350)).floor).length - 350

/-- The nearest decimal that reads back among the two with the given exponent that enclose
the value. -/
def nearest? (x : Binary) (tie : Tie) (exponent : Int) : Option Numeral :=
  let scaled := x.value.div (.scaled 1 10 exponent)
  let below : Numeral := ⟨scaled.floor, exponent⟩
  let above : Numeral := ⟨scaled.floor + 1, exponent⟩
  match x.readsBack below, x.readsBack above with
  | false, false => none
  | true, false => some below
  | false, true => some above
  | true, true =>
    match (Ratio.mk (2 * scaled.num) scaled.den).compare ⟨2 * below.digits + 1, 1⟩, tie with
    | .lt, _ => some below
    | .gt, _ => some above
    | .eq, .up => some above
    | .eq, .toEven => some (if below.digits % 2 = 0 then below else above)

/-- The exact value as a decimal, in as many digits as it takes. -/
def exact (x : Binary) : Numeral :=
  if x.exponent < 0 then ⟨x.significand * Nat.pow 5 (-x.exponent).toNat, x.exponent⟩
  else ⟨x.significand * Nat.pow 2 x.exponent.toNat, 0⟩

/-- The fewest digits that read back. Seventeen always suffice. -/
def shortest (x : Binary) (tie : Tie) : Numeral :=
  ((List.range 17).findSome? fun (n : Nat) => x.nearest? tie (x.magnitude - (n + 1 : Nat))).getD x.exact

end Binary

end Gallery.Decimal
