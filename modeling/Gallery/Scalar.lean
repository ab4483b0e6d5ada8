/-!
# Scalars

Row packing uses only the four arithmetic operations, one comparison and the conversion of
a count, so it is written over any type that offers them. The program runs on double
precision, where every operation rounds; the rationals give the exact reading of the same
rule. No law is required of the operations: whatever holds for every scalar holds for
doubles too, special values included.

The gaps of a row are counted apart from everything else. With doubles the count is a word
of 32 bits, which wraps; read exactly, it is the number of gaps. The two agree as long as the
word can hold the number, and that is the only law there is.
-/

namespace Gallery

/-- The operations that packing a row needs. -/
class Scalar (α : Type) extends Add α, Sub α, Mul α, Div α where
  /-- The scalar of a count. -/
  ofCount : Nat → α
  /-- The scalar of a number of gaps, as it comes out of the counter. -/
  ofGaps : Nat → α
  /-- The counter is right about every number of gaps that 32 bits can hold. -/
  ofGaps_eq_ofCount : ∀ gaps, gaps < UInt32.size → ofGaps gaps = ofCount gaps
  /-- Whether the first scalar is strictly below the second. -/
  less : α → α → Bool
  /-- Whether a scalar is neither infinite nor undefined. -/
  isFinite : α → Bool
  /-- The scalar that a sum starts from. -/
  neutral : α

/-- Double precision. A sum starts from negative zero, which no addition can tell from
nothing at all. -/
instance : Scalar Float where
  ofCount n := Float.ofNat n
  ofGaps gaps := Float.ofNat (UInt32.ofNat gaps).toNat
  ofGaps_eq_ofCount gaps hgaps := by rw [UInt32.toNat_ofNat_of_lt' hgaps]
  less a b := decide (a < b)
  isFinite a := a.isFinite
  neutral := -0.0

/-- Exact arithmetic. -/
instance : Scalar Rat where
  ofCount n := (n : Rat)
  ofGaps gaps := (gaps : Rat)
  ofGaps_eq_ofCount _ _ := rfl
  less a b := decide (a < b)
  isFinite _ := true
  neutral := 0

/-- The sum of a list, added from left to right. -/
def Scalar.sum {α : Type} [Scalar α] (values : List α) : α :=
  values.foldl (· + ·) Scalar.neutral

end Gallery
