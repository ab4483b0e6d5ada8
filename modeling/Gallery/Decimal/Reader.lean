import Gallery.Bytes

/-!
# Reading numbers

A number is an optional sign followed by `inf`, `infinity` or `nan` in any letter case, or
by digits with at most one point among them and an optional exponent. At least one digit
must stand before the exponent, and at least one in it. Nothing else is accepted, blanks
and separators included. The value is the double nearest to the number.
-/

namespace Gallery.Decimal

/-- The digits at the front of a text, most significant first, and what follows them. -/
def takeDigits : Bytes → List Nat × Bytes
  | [] => ([], [])
  | b :: rest =>
    match digitValue? b with
    | none => ([], b :: rest)
    | some d =>
      let (digits, rest) := takeDigits rest
      (d :: digits, rest)

/-- The number with the given digits. -/
def ofDigits (digits : List Nat) : Nat := digits.foldl (fun n d => n * 10 + d) 0

/-- A sign, if there is one, and what follows it. -/
def takeSign : Bytes → Bool × Bytes
  | [] => (false, [])
  | b :: rest => if b = 45 then (true, rest) else if b = 43 then (false, rest) else (false, b :: rest)

/-- An exponent that takes up the whole text. -/
def exponent? (text : Bytes) : Option Int :=
  let (negative, text) := takeSign text
  match takeDigits text with
  | (d :: digits, []) =>
    let value := ofDigits (d :: digits)
    some (if negative then -(value : Int) else value)
  | _ => none

/-- The digits of a number written without sign, as one natural number and a power of ten. -/
def unsigned? (text : Bytes) : Option (Nat × Int) :=
  let (whole, rest) := takeDigits text
  let (places, rest) := match rest with
    | b :: more => if b = dot then takeDigits more else ([], rest)
    | [] => ([], [])
  let digits := whole ++ places
  if digits.isEmpty then none
  else match rest with
    | [] => some (ofDigits digits, -(places.length : Int))
    | b :: more =>
      if lowerAscii b = 101 then
        (exponent? more).map fun e => (ofDigits digits, e - places.length)
      else none

/-- The double nearest to `digits * 10 ^ exponent`. Beyond four hundred places on either
side of the point the result is infinite or zero. -/
def nearestFloat (digits : Nat) (exponent : Int) : Float :=
  let leading := ((decimal digits).length : Int) + exponent
  if digits = 0 || leading < -400 then 0.0
  else if 400 < leading then 1.0 / 0.0
  else if exponent < 0 then Float.ofScientific digits true exponent.natAbs
  else Float.ofScientific digits false exponent.natAbs

/-- The value of a number written without sign. -/
def magnitude? (text : Bytes) : Option Float :=
  let lower := text.map lowerAscii
  if lower = ascii "inf" || lower = ascii "infinity" then some (1.0 / 0.0)
  else if lower = ascii "nan" then some (0.0 / 0.0)
  else (unsigned? text).map fun (digits, exponent) => nearestFloat digits exponent

/-- The value of a number. -/
def read? (text : Bytes) : Option Float :=
  let (negative, text) := takeSign text
  (magnitude? text).map fun x => if negative then -x else x

end Gallery.Decimal
