import Gallery.Bytes
import Gallery.Decimal.Shortest

/-!
# Number styles

How the digits of a number are laid out: whether a point is always shown, and for which
magnitudes an exponent is written instead of zeros. Two styles are in use, and numbers with
a fixed count of places, which round the exact value with ties to the even digit.
-/

namespace Gallery.Decimal

/-- The decisions that turn digits into text. -/
structure Style where
  /-- How ties between equally near digits go. -/
  tie : Tie
  /-- Whether a number with this exponent of its leading digit is written with zeros
  instead of an exponent. -/
  isPositional : Int → Bool
  /-- Whether an integral number is written with a final zero behind a point. -/
  showsPoint : Bool

/-- Always positional, without a point where none is needed. -/
def Style.plain : Style := ⟨.up, fun _ => true, false⟩

/-- Positional while the exponent of the leading digit is from -5 to 15, and then always
with a point. -/
def Style.document : Style := ⟨.toEven, fun e => -5 ≤ e && e ≤ 15, true⟩

/-- A run of zeros. -/
def zeros (n : Nat) : Bytes := List.replicate n 48

/-- Digits followed by a power of ten, without an exponent. -/
def positionalText (showsPoint : Bool) (digits : Bytes) (exponent : Int) : Bytes :=
  if 0 ≤ exponent then
    digits ++ zeros exponent.toNat ++ if showsPoint then ascii ".0" else []
  else
    let places := (-exponent).toNat
    if places < digits.length then
      digits.take (digits.length - places) ++ dot :: digits.drop (digits.length - places)
    else ascii "0." ++ zeros (places - digits.length) ++ digits

/-- Digits with a point behind the first, and the exponent of that digit with its sign. -/
def scientificText (digits : Bytes) (leading : Int) : Bytes :=
  digits.take 1 ++ (if digits.length = 1 then [] else dot :: digits.drop 1) ++
    ascii "e" ++ (if leading < 0 then ascii "-" else ascii "+") ++ decimal leading.natAbs

/-- The digits of a positive decimal without final zeros. -/
def significantDigits (d : Numeral) : Bytes :=
  ((decimal d.digits).reverse.dropWhile (· = 48)).reverse

namespace Style

/-- The text of a non-negative value. -/
def magnitudeText (style : Style) (x : Binary) : Bytes :=
  if x.significand = 0 then positionalText style.showsPoint (ascii "0") 0
  else
    let d := x.shortest style.tie
    let digits := significantDigits d
    let exponent := d.exponent + ((decimal d.digits).length - digits.length : Nat)
    let leading := exponent + digits.length - 1
    if style.isPositional leading then positionalText style.showsPoint digits exponent
    else scientificText digits leading

/-- The text of a finite value; a negative zero keeps its sign. -/
def finiteText (style : Style) (negative : Bool) (x : Binary) : Bytes :=
  (if negative then ascii "-" else []) ++ style.magnitudeText x

end Style

/-- The text of an undefined or infinite value. -/
def specialText (infinite : Option Bool) : Bytes :=
  match infinite with
  | none => ascii "NaN"
  | some false => ascii "inf"
  | some true => ascii "-inf"

/-- A number in the plain style. -/
def plainText (x : Float) : Bytes :=
  match Reading.ofFloat x with
  | .undefined => specialText none
  | .infinite negative => specialText (some negative)
  | .finite negative magnitude => Style.plain.finiteText negative magnitude

/-- The nearest natural number to a quotient, the even one of two. -/
def roundHalfEven (a : Ratio) : Nat :=
  match compare (2 * (a.num % a.den)) a.den with
  | .lt => a.num / a.den
  | .gt => a.num / a.den + 1
  | .eq => a.num / a.den + a.num / a.den % 2

/-- A non-negative value with two places. -/
def hundredthsText (x : Binary) : Bytes :=
  let hundredths := roundHalfEven (x.value.mul ⟨100, 1⟩)
  decimal (hundredths / 100) ++ dot :: (decimal (hundredths / 10 % 10) ++ decimal (hundredths % 10))

/-- A number with two places; the sign is kept even where all digits are zero. -/
def twoPlacesText (x : Float) : Bytes :=
  match Reading.ofFloat x with
  | .undefined => specialText none
  | .infinite negative => specialText (some negative)
  | .finite negative magnitude => (if negative then ascii "-" else []) ++ hundredthsText magnitude

end Gallery.Decimal
