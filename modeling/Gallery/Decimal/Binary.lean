/-!
# The exact value of a double

A finite double is a sign and a natural number times a power of two. Everything that is
printed or read works on that exact value, never on rounded arithmetic.
-/

namespace Gallery.Decimal

/-- A non-negative finite double: `significand * 2 ^ exponent`. -/
structure Binary where
  significand : Nat
  exponent : Int
  /-- Whether the next double below is only half as far away as the next one above. -/
  narrowBelow : Bool
  deriving DecidableEq, Repr

/-- What a double stands for. -/
inductive Reading where
  | undefined
  | infinite (negative : Bool)
  | finite (negative : Bool) (magnitude : Binary)
  deriving DecidableEq, Repr

/-- The reading of the 64 bits of a double. -/
def Reading.ofBits (bits : UInt64) : Reading :=
  let negative := bits.toNat / 0x8000000000000000 = 1
  let exponent : Nat := bits.toNat / 0x10000000000000 % 2048
  let fraction : Nat := bits.toNat % 0x10000000000000
  if exponent = 2047 then
    if fraction = 0 then .infinite negative else .undefined
  else if exponent = 0 then .finite negative ⟨fraction, -1074, false⟩
  else .finite negative ⟨0x10000000000000 + fraction, (exponent : Int) - 1075, fraction = 0 && exponent > 1⟩

/-- The reading of a double. -/
def Reading.ofFloat (x : Float) : Reading := .ofBits x.toBits

/-- A quotient of natural numbers. -/
structure Ratio where
  num : Nat
  den : Nat
  deriving DecidableEq, Repr

namespace Ratio

/-- A natural number times a power of a natural base. -/
def scaled (n base : Nat) (exponent : Int) : Ratio :=
  ⟨n * Nat.pow base exponent.toNat, Nat.pow base (-exponent).toNat⟩

/-- Product. -/
def mul (a b : Ratio) : Ratio := ⟨a.num * b.num, a.den * b.den⟩

/-- Quotient. -/
def div (a b : Ratio) : Ratio := ⟨a.num * b.den, a.den * b.num⟩

/-- How two quotients compare. -/
def compare (a b : Ratio) : Ordering := Ord.compare (a.num * b.den) (b.num * a.den)

/-- The greatest natural number that is not above the quotient. -/
def floor (a : Ratio) : Nat := a.num / a.den

end Ratio

/-- The exact value of the magnitude. -/
def Binary.value (x : Binary) : Ratio := .scaled x.significand 2 x.exponent

end Gallery.Decimal
