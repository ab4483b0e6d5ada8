import Gallery.Json.Reader
import Mathlib.Data.List.DropRight
import Mathlib.Tactic.IntervalCases

/-!
# Numbers as text

Counts are written as their decimal numerals and doubles with the fewest digits that read back.
Both are numbers by the grammar, and only counts are nothing but digits. For doubles this needs that
the digits chosen are those of a number that is not zero: zero is below everything that rounds to
a double that is not zero itself.
-/

namespace Gallery

open Json (isDigit areDigits isWhole)

/-! ## Numerals -/

/-- The code of a decimal digit. -/
theorem toNat_of_isDigit {c : Char} (hc : c.isDigit) : 48 ≤ c.toNat ∧ c.toNat ≤ 57 := by
  simp only [Char.isDigit, Bool.and_eq_true, decide_eq_true_eq] at hc
  exact hc

/-- The byte of a decimal digit has the same code. -/
theorem toNat_ofNat_of_isDigit {c : Char} (hc : c.isDigit) :
    (UInt8.ofNat c.toNat).toNat = c.toNat := by
  have hrange := toNat_of_isDigit hc
  rw [UInt8.toNat_ofNat']
  omega

/-- The byte of a decimal digit is a digit with the same value. -/
theorem digitValue?_of_isDigit {c : Char} (hc : c.isDigit) :
    digitValue? (UInt8.ofNat c.toNat) = some (c.toNat - 48) := by
  have hbyte := toNat_ofNat_of_isDigit hc
  have hrange : 48 ≤ UInt8.ofNat c.toNat ∧ UInt8.ofNat c.toNat ≤ 57 := by
    simp only [UInt8.le_iff_toNat_le, hbyte]
    exact toNat_of_isDigit hc
  simp [digitValue?, hrange, hbyte]

/-- Bytes that have a value as digits are digits. -/
theorem isDigit_iff_isSome_digitValue? (b : UInt8) : isDigit b = (digitValue? b).isSome := by
  unfold isDigit digitValue?
  split <;> simp_all

/-- A numeral is made of digits. -/
theorem all_isDigit_decimal (n : Nat) : (decimal n).all isDigit := by
  rw [decimal, List.all_map, List.all_eq_true]
  intro c hc
  have hdigit := Nat.isDigit_of_mem_toDigits (by decide) (by decide) hc
  rw [Function.comp_apply, isDigit_iff_isSome_digitValue?, digitValue?_of_isDigit hdigit]
  rfl

/-- A numeral has a digit. -/
theorem decimal_ne_nil (n : Nat) : decimal n ≠ [] := by
  simp [decimal, Nat.toDigits_ne_nil]

/-- The digits of a number that is not zero begin with another digit. -/
theorem head?_toDigits_ne_zero {n : Nat} (hn : n ≠ 0) :
    ∀ c ∈ (Nat.toDigits 10 n).head?, c.toNat ≠ 48 := by
  -- All digits but the last are those of the tenth part.
  induction n using Nat.strong_induction_on with
  | _ n ih =>
    intro c hc
    by_cases hsmall : n < 10
    · rw [Nat.toDigits_of_lt_base hsmall, List.head?_cons] at hc
      obtain rfl := Option.some.inj hc
      interval_cases n <;> simp_all [Nat.digitChar]
    · have htenth : n / 10 ≠ 0 := by omega
      rw [Nat.toDigits_of_base_le (by decide) (by omega), List.head?_append_of_ne_nil _
        Nat.toDigits_ne_nil] at hc
      exact ih (n / 10) (by omega) htenth c hc

/-- The numeral of a number that is not zero begins with another digit. -/
theorem head?_decimal_ne_zero {n : Nat} (hn : n ≠ 0) : (decimal n).head? ≠ some 48 := by
  rw [decimal, List.head?_map]
  intro hzero
  obtain ⟨c, hc, hbyte⟩ := Option.map_eq_some_iff.1 hzero
  have hdigit := Nat.isDigit_of_mem_toDigits (by decide) (by decide) (List.mem_of_head? hc)
  have hcode := congrArg UInt8.toNat hbyte
  rw [toNat_ofNat_of_isDigit hdigit] at hcode
  exact head?_toDigits_ne_zero hn c hc hcode

/-- A numeral is read as its number. -/
theorem ofDigits_decimal (n : Nat) :
    Decimal.ofDigits ((decimal n).filterMap digitValue?) = n := by
  have hdigits : (decimal n).filterMap digitValue? =
      (Nat.toDigits 10 n).map fun c => c.toNat - 48 := by
    rw [decimal, List.filterMap_map, ← List.filterMap_eq_map]
    apply List.filterMap_congr
    intro c hc
    exact digitValue?_of_isDigit (Nat.isDigit_of_mem_toDigits (by decide) (by decide) hc)
  rw [hdigits, Decimal.ofDigits, List.foldl_map]
  conv_rhs => rw [← @Nat.ofDigitChars_ten_toDigits n]
  rw [Nat.ofDigitChars]
  congr 1
  funext value c
  rw [Nat.mul_comm]
  rfl

namespace Json

/-! ## The grammar -/

/-- Bytes up to the first that does not pass, and the rest. -/
theorem span_append {p : UInt8 → Bool} {front rest : Bytes} (hfront : front.all p)
    (hrest : ∀ b ∈ rest.head?, p b = false) :
    (front ++ rest).takeWhile p = front ∧ (front ++ rest).dropWhile p = rest := by
  rw [List.all_eq_true] at hfront
  rw [List.takeWhile_append_of_pos hfront, List.dropWhile_append_of_pos hfront]
  cases rest with
  | nil => simp
  | cons b rest => simp [hrest b rfl]

/-- Whether bytes are a number that is not nothing but digits. -/
def IsFractional (text : Bytes) : Prop :=
  ∃ whole fraction exponent, text = whole ++ (fraction ++ exponent) ∧ isWhole whole ∧
    isFraction fraction ∧ isExponent exponent ∧ fraction ++ exponent ≠ []

variable {whole fraction exponent text : Bytes}

/-- An integral part is made of digits. -/
theorem all_isDigit_of_isWhole (hwhole : isWhole whole) : whole.all isDigit := by
  simp only [isWhole, areDigits, Bool.and_eq_true] at hwhole
  exact hwhole.1.2

/-- A digit begins no exponent. -/
theorem isExponentMark_of_isDigit {b : UInt8} (hb : isDigit b) : isExponentMark b = false := by
  unfold isDigit at hb
  unfold isExponentMark
  grind

/-- Nothing in a fraction begins an exponent. -/
theorem all_not_isExponentMark (hfraction : isFraction fraction) :
    fraction.all fun b => !isExponentMark b := by
  cases fraction with
  | nil => rfl
  | cons b digits =>
    simp only [isFraction, areDigits, Bool.and_eq_true, decide_eq_true_eq, List.all_eq_true]
      at hfraction
    obtain ⟨rfl, -, hdigits⟩ := hfraction
    rw [List.all_cons, Bool.and_eq_true, List.all_eq_true]
    exact ⟨rfl, fun b hb => by rw [isExponentMark_of_isDigit (hdigits b hb)]; rfl⟩

/-- An exponent begins with its mark. -/
theorem isExponentMark_of_head? (hexponent : isExponent exponent) :
    ∀ b ∈ exponent.head?, (!isExponentMark b) = false := by
  cases exponent with
  | nil => exact nofun
  | cons b rest =>
    intro c hc
    obtain rfl := Option.some.inj hc
    simp only [isExponent, Bool.and_eq_true] at hexponent
    rw [hexponent.1]
    rfl

/-- A fraction or an exponent begins with no digit. -/
theorem not_isDigit_of_head? (hfraction : isFraction fraction) (hexponent : isExponent exponent) :
    ∀ b ∈ (fraction ++ exponent).head?, isDigit b = false := by
  cases fraction with
  | nil =>
    intro b hb
    have hmark := isExponentMark_of_head? hexponent b hb
    refine Bool.eq_false_iff.2 fun hdigit => ?_
    rw [isExponentMark_of_isDigit hdigit] at hmark
    contradiction
  | cons b digits =>
    intro c hc
    obtain rfl := Option.some.inj hc
    simp only [isFraction, Bool.and_eq_true, decide_eq_true_eq] at hfraction
    rw [hfraction.1]
    rfl

/-- Parts that are parts of a number are a number, with a sign or without. -/
theorem isNumber_append (hwhole : isWhole whole) (hfraction : isFraction fraction)
    (hexponent : isExponent exponent) (negative : Bool) :
    isNumber ((if negative then ascii "-" else []) ++ (whole ++ (fraction ++ exponent))) := by
  have hunsigned : (if ((if negative then ascii "-" else []) ++
      (whole ++ (fraction ++ exponent))).head? = some 45 then
        ((if negative then ascii "-" else []) ++ (whole ++ (fraction ++ exponent))).tail
      else (if negative then ascii "-" else []) ++ (whole ++ (fraction ++ exponent))) =
      whole ++ (fraction ++ exponent) := by
    cases negative with
    | true => rfl
    | false =>
      cases whole with
      | nil => contradiction
      | cons b digits =>
        have hdigit : isDigit b := List.all_eq_true.1 (all_isDigit_of_isWhole hwhole) b
          List.mem_cons_self
        have hother : b ≠ 45 := by
          rintro rfl
          contradiction
        exact if_neg (by simpa using hother)
  obtain ⟨htake, hdrop⟩ := span_append (all_isDigit_of_isWhole hwhole)
    (not_isDigit_of_head? hfraction hexponent)
  obtain ⟨htakes, hdrops⟩ := span_append (all_not_isExponentMark hfraction)
    (isExponentMark_of_head? hexponent)
  rw [isNumber, hunsigned, htake, hdrop, htakes, hdrops, hwhole, hfraction, hexponent]
  rfl

/-- A digit can stand in a number. -/
theorem isNumberByte_of_isDigit {b : UInt8} (hb : isDigit b) : isNumberByte b := by
  rw [isNumberByte, hb]
  rfl

/-- Digits can stand in a number. -/
theorem all_isNumberByte_of_all_isDigit (hdigits : text.all isDigit) : text.all isNumberByte := by
  rw [List.all_eq_true] at hdigits ⊢
  exact fun b hb => isNumberByte_of_isDigit (hdigits b hb)

/-- A fraction can stand in a number. -/
theorem all_isNumberByte_of_isFraction (hfraction : isFraction fraction) :
    fraction.all isNumberByte := by
  cases fraction with
  | nil => rfl
  | cons b places =>
    simp only [isFraction, areDigits, Bool.and_eq_true, decide_eq_true_eq] at hfraction
    obtain ⟨rfl, -, hplaces⟩ := hfraction
    rw [List.all_cons, all_isNumberByte_of_all_isDigit hplaces]
    rfl

/-- An exponent can stand in a number. -/
theorem all_isNumberByte_of_isExponent (hexponent : isExponent exponent) :
    exponent.all isNumberByte := by
  cases exponent with
  | nil => rfl
  | cons b rest =>
    simp only [isExponent, areDigits, Bool.and_eq_true] at hexponent
    obtain ⟨hmark, -, hrest⟩ := hexponent
    have hb : isNumberByte b := by simp [isNumberByte, hmark]
    rw [List.all_cons, hb, Bool.true_and]
    cases rest with
    | nil => rfl
    | cons c more =>
      cases hsign : isSign c with
      | true =>
        simp only [List.head?_cons, Option.any_some, hsign, if_true, List.tail_cons] at hrest
        have hc : isNumberByte c := by simp [isNumberByte, hsign]
        rw [List.all_cons, hc, all_isNumberByte_of_all_isDigit hrest]
        rfl
      | false =>
        simp only [List.head?_cons, Option.any_some, hsign, Bool.false_eq_true, if_false] at hrest
        exact all_isNumberByte_of_all_isDigit hrest

/-- All bytes of a number can stand in one. -/
theorem all_isNumberByte_append (hwhole : isWhole whole) (hfraction : isFraction fraction)
    (hexponent : isExponent exponent) : (whole ++ (fraction ++ exponent)).all isNumberByte := by
  rw [List.all_append, List.all_append,
    all_isNumberByte_of_all_isDigit (all_isDigit_of_isWhole hwhole),
    all_isNumberByte_of_isFraction hfraction, all_isNumberByte_of_isExponent hexponent]
  rfl

/-- What has a fraction or an exponent is more than digits. -/
theorem all_isDigit_append (hfraction : isFraction fraction) (hexponent : isExponent exponent)
    (hsome : fraction ++ exponent ≠ []) (front : Bytes) :
    (front ++ (fraction ++ exponent)).all isDigit = false := by
  obtain ⟨b, rest, hrest⟩ := List.exists_cons_of_ne_nil hsome
  have hb := not_isDigit_of_head? hfraction hexponent b (by rw [hrest]; rfl)
  rw [List.all_append, hrest, List.all_cons, hb, Bool.false_and, Bool.and_false]

end Json

namespace Decimal

/-! ## The digits of a double -/

variable {x : Binary}

/-- Zero does not read back as a double that is not zero. -/
theorem Binary.digits_ne_zero_of_readsBack (hx : x.significand ≠ 0) {d : Numeral}
    (hd : x.readsBack d) : d.digits ≠ 0 := by
  intro hzero
  have hlower : 0 < x.lowerEnd.num * d.value.den := by
    have hnum : 0 < 4 * x.significand - if x.narrowBelow then 1 else 2 := by split <;> omega
    exact Nat.mul_pos (Nat.mul_pos hnum (Nat.pow_pos (by decide))) (Nat.pow_pos (by decide))
  have hvalue : d.value.num * x.lowerEnd.den = 0 := by
    rw [Numeral.value, hzero, Ratio.scaled, Nat.zero_mul, Nat.zero_mul]
  have habove : x.lowerEnd.compare d.value = .gt := by
    rw [Ratio.compare, hvalue]
    exact Nat.compare_eq_gt.2 hlower
  simp [Binary.readsBack, habove] at hd

/-- The nearest decimal of an exponent reads back. -/
theorem Binary.readsBack_of_nearest? {tie : Tie} {exponent : Int} {d : Numeral}
    (hd : x.nearest? tie exponent = some d) : x.readsBack d := by
  unfold Binary.nearest? at hd
  grind

/-- The digits of a double that is not zero are those of a number that is not zero. -/
theorem Binary.digits_shortest_ne_zero (hx : x.significand ≠ 0) (tie : Tie) :
    (x.shortest tie).digits ≠ 0 := by
  unfold Binary.shortest
  cases hfound : (List.range 17).findSome? fun n : Nat =>
    x.nearest? tie (x.magnitude - (n + 1 : Nat)) with
  | some d =>
    obtain ⟨n, -, hd⟩ := List.exists_of_findSome?_eq_some hfound
    exact Binary.digits_ne_zero_of_readsBack hx (Binary.readsBack_of_nearest? hd)
  | none =>
    rw [Option.getD_none, Binary.exact]
    split
    · exact Nat.mul_ne_zero hx (Nat.pow_pos (by decide)).ne'
    · exact Nat.mul_ne_zero hx (Nat.pow_pos (by decide)).ne'

/-- Digits that begin with one that is not zero. -/
structure Leads (digits : Bytes) : Prop where
  nonempty : digits ≠ []
  all : digits.all isDigit
  head : digits.head? ≠ some 48

variable {digits more : Bytes}

/-- They are an integral part. -/
theorem Leads.isWhole (hdigits : Leads digits) : isWhole digits := by
  simp [Json.isWhole, areDigits, hdigits.nonempty, hdigits.all, hdigits.head]

/-- What is left of such digits at the end begins like them. -/
theorem Leads.of_prefix (hdigits : Leads digits) (hfront : more <+: digits) (hmore : more ≠ []) :
    Leads more := by
  obtain ⟨rest, rfl⟩ := hfront
  obtain ⟨-, hall, hhead⟩ := hdigits
  rw [List.all_append, Bool.and_eq_true] at hall
  rw [List.head?_append_of_ne_nil _ hmore] at hhead
  exact ⟨hmore, hall.1, hhead⟩

/-- Such digits with digits behind them begin like them. -/
theorem Leads.append (hdigits : Leads digits) (hmore : more.all isDigit) :
    Leads (digits ++ more) := by
  refine ⟨List.append_ne_nil_of_left_ne_nil hdigits.nonempty _, ?_, ?_⟩
  · rw [List.all_append, hdigits.all, hmore]
    rfl
  · rw [List.head?_append_of_ne_nil _ hdigits.nonempty]
    exact hdigits.head

/-- The numeral of a number that is not zero is such digits. -/
theorem leads_decimal {n : Nat} (hn : n ≠ 0) : Leads (decimal n) :=
  ⟨decimal_ne_nil n, all_isDigit_decimal n, head?_decimal_ne_zero hn⟩

/-- It stays so without the zeros at the end. -/
theorem leads_significantDigits {d : Numeral} (hd : d.digits ≠ 0) : Leads (significantDigits d) := by
  have hdecimal := leads_decimal hd
  have hfront : significantDigits d <+: decimal d.digits := List.rdropWhile_prefix _ _
  refine hdecimal.of_prefix hfront ?_
  intro hnil
  obtain ⟨b, rest, hb⟩ := List.exists_cons_of_ne_nil hdecimal.nonempty
  have hzero := List.rdropWhile_eq_nil_iff.1 hnil b (by rw [hb]; exact List.mem_cons_self)
  exact hdecimal.head (by rw [hb, of_decide_eq_true hzero]; rfl)

/-- Zeros are digits. -/
theorem all_isDigit_zeros (n : Nat) : (zeros n).all isDigit := by
  simp only [zeros, List.all_replicate, isDigit]
  split <;> rfl

/-- A point with digits behind it is a fraction. -/
theorem isFraction_dot_cons (hall : digits.all isDigit) (hdigits : digits ≠ []) :
    Json.isFraction (dot :: digits) := by
  simp [Json.isFraction, areDigits, hall, hdigits]

/-- A number with zeros for its power of ten is written with a point. -/
theorem isFractional_positionalText (hdigits : Leads digits) (exponent : Int) :
    Json.IsFractional (positionalText true digits exponent) := by
  unfold positionalText
  split
  · refine ⟨digits ++ zeros exponent.toNat, ascii ".0", [], rfl, ?_, rfl, rfl, nofun⟩
    exact (hdigits.append (all_isDigit_zeros _)).isWhole
  · dsimp only
    have hlength := List.length_pos_iff.2 hdigits.nonempty
    split
    · refine ⟨digits.take (digits.length - (-exponent).toNat),
        dot :: digits.drop (digits.length - (-exponent).toNat), [], by rw [List.append_nil],
        ?_, ?_, rfl, nofun⟩
      · refine (hdigits.of_prefix (List.take_prefix _ _) ?_).isWhole
        rw [← List.length_pos_iff, List.length_take]
        omega
      · refine isFraction_dot_cons ?_ ?_
        · exact List.all_eq_true.2 fun b hb =>
            List.all_eq_true.1 hdigits.all b (List.mem_of_mem_drop hb)
        · rw [← List.length_pos_iff, List.length_drop]
          omega
    · refine ⟨ascii "0", dot :: (zeros ((-exponent).toNat - digits.length) ++ digits), [], ?_, rfl,
        ?_, rfl, nofun⟩
      · rw [List.append_nil, List.append_assoc]
        rfl
      · refine isFraction_dot_cons ?_ (List.append_ne_nil_of_right_ne_nil _ hdigits.nonempty)
        rw [List.all_append, all_isDigit_zeros, hdigits.all]
        rfl

/-- A number with an exponent is written with its mark. -/
theorem isFractional_scientificText (hdigits : Leads digits) (leading : Int) :
    Json.IsFractional (scientificText digits leading) := by
  refine ⟨digits.take 1, if digits.length = 1 then [] else dot :: digits.drop 1,
    ascii "e" ++ (if leading < 0 then ascii "-" else ascii "+") ++ decimal leading.natAbs,
    ?_, ?_, ?_, ?_, ?_⟩
  · rw [scientificText]
    simp only [List.append_assoc]
  · refine (hdigits.of_prefix (List.take_prefix _ _) ?_).isWhole
    simpa using hdigits.nonempty
  · split
    · rfl
    next hmany =>
      have hlength := List.length_pos_iff.2 hdigits.nonempty
      refine isFraction_dot_cons ?_ ?_
      · exact List.all_eq_true.2 fun b hb =>
          List.all_eq_true.1 hdigits.all b (List.mem_of_mem_drop hb)
      · rw [← List.length_pos_iff, List.length_drop]
        omega
  · have hall := all_isDigit_decimal leading.natAbs
    have hne := decimal_ne_nil leading.natAbs
    split <;> simp [Json.isExponent, ascii, Json.isExponentMark, Json.isSign, areDigits, hall, hne]
  · simp [ascii]

/-- In documents, the magnitude of a double is never nothing but digits. -/
theorem isFractional_magnitudeText (x : Binary) :
    Json.IsFractional (Style.document.magnitudeText x) := by
  rw [Style.magnitudeText]
  split
  · exact ⟨ascii "0", ascii ".0", [], rfl, rfl, rfl, rfl, nofun⟩
  next hx =>
    have hdigits := leads_significantDigits (Binary.digits_shortest_ne_zero hx Style.document.tie)
    dsimp only
    split
    · exact isFractional_positionalText hdigits _
    · exact isFractional_scientificText hdigits _

/-! ## Which doubles have digits -/

/-- The exponent of a double that is not finite. -/
theorem unpackExponent_eq_iff (bits : BitVec 64) :
    @Float.Model.UnpackedFloat.unpackExponent Float.Model.Format.binary64 bits = -1#11 ↔
      bits.toNat / 0x10000000000000 % 2048 = 2047 := by
  rw [← BitVec.toNat_inj]
  simp [Float.Model.UnpackedFloat.unpackExponent, Nat.shiftRight_eq_div_pow]

/-- A double is finite if not all bits of its exponent are set. -/
theorem isFinite_unpack_iff (bits : BitVec 64) :
    (@Float.Model.UnpackedFloat.unpack Float.Model.Format.binary64 bits).isFinite = true ↔
      @Float.Model.UnpackedFloat.unpackExponent Float.Model.Format.binary64 bits ≠ -1#11 := by
  let mantissa := @Float.Model.UnpackedFloat.unpackMantissa Float.Model.Format.binary64 bits
  let exponent := @Float.Model.UnpackedFloat.unpackExponent Float.Model.Format.binary64 bits
  let unpacked := @Float.Model.UnpackedFloat.unpack Float.Model.Format.binary64 bits
  change unpacked.isFinite = true ↔ exponent ≠ -1#11
  by_cases hspecial : exponent = -1#11
  · refine iff_of_false ?_ (not_not.2 hspecial)
    by_cases hzero : mantissa = 0#52
    · have hbody : unpacked = .infinity _ := (if_pos hspecial).trans (if_pos hzero)
      rw [hbody]
      exact nofun
    · have hbody : unpacked = .notANumber := (if_pos hspecial).trans (if_neg hzero)
      rw [hbody]
      exact nofun
  · refine iff_of_true ?_ hspecial
    by_cases hsmall : exponent = 0#11
    · by_cases hzero : mantissa = 0#52
      · have hbody : unpacked = .zero _ :=
          (if_neg hspecial).trans ((if_pos hsmall).trans (dif_pos hzero))
        rw [hbody]
        rfl
      · have hbody : unpacked = .finite _ _ _ _ :=
          (if_neg hspecial).trans ((if_pos hsmall).trans (dif_neg hzero))
        rw [hbody]
        rfl
    · have hbody : unpacked = .finite _ _ _ _ := (if_neg hspecial).trans (if_neg hsmall)
      rw [hbody]
      rfl

/-- It is read as a finite number in the same case. -/
theorem exists_ofBits_eq_finite_iff (bits : UInt64) :
    (∃ negative magnitude, Reading.ofBits bits = .finite negative magnitude) ↔
      bits.toNat / 0x10000000000000 % 2048 ≠ 2047 := by
  rw [Reading.ofBits]
  split
  next hspecial => split <;> exact iff_of_false nofun (not_not.2 hspecial)
  next hordinary => split <;> exact iff_of_true ⟨_, _, rfl⟩ hordinary

/-- The doubles that are finite are those that are read as such. -/
theorem isFinite_iff (x : Float) :
    x.isFinite = true ↔ ∃ negative magnitude, Reading.ofFloat x = .finite negative magnitude := by
  have hfinite : x.isFinite = (@Float.Model.UnpackedFloat.unpack Float.Model.Format.binary64
    x.toModel.toBits.toBitVec).isFinite := rfl
  have hbits : x.toModel.toBits.toBitVec.toNat = x.toBits.toNat := rfl
  rw [hfinite, isFinite_unpack_iff, Ne, unpackExponent_eq_iff, hbits, Reading.ofFloat,
    exists_ofBits_eq_finite_iff]

end Decimal

namespace Json

/-- A double that is not finite is written as null. -/
theorem numberText_of_not_isFinite {x : Float} (hx : x.isFinite = false) :
    numberText x = ascii "null" := by
  rw [numberText]
  split
  next negative magnitude hreading =>
    have hfinite := (Decimal.isFinite_iff x).2 ⟨negative, magnitude, hreading⟩
    exact absurd (hx.symm.trans hfinite) nofun
  next => rfl

/-- What is written for a double that is finite. -/
structure WritesNumber (token : Bytes) : Prop where
  isNumber : isNumber token
  bytes : token.all isNumberByte
  notCount : token.all isDigit = false
  first : ∃ b rest, token = b :: rest ∧ (isDigit b || b = 45)

/-- A double that is finite is written as a number that is no count. -/
theorem writesNumber_numberText {x : Float} (hx : x.isFinite = true) :
    WritesNumber (numberText x) := by
  obtain ⟨negative, magnitude, hreading⟩ := (Decimal.isFinite_iff x).1 hx
  obtain ⟨whole, fraction, exponent, htext, hwhole, hfraction, hexponent, hsome⟩ :=
    Decimal.isFractional_magnitudeText magnitude
  have hnumber : numberText x =
      (if negative then ascii "-" else []) ++ (whole ++ (fraction ++ exponent)) := by
    simp only [numberText, hreading, Decimal.Style.finiteText, htext]
  rw [hnumber]
  refine ⟨isNumber_append hwhole hfraction hexponent negative, ?_, ?_, ?_⟩
  · rw [List.all_append, all_isNumberByte_append hwhole hfraction hexponent, Bool.and_true]
    cases negative <;> rfl
  · rw [← List.append_assoc]
    exact all_isDigit_append hfraction hexponent hsome _
  · cases negative with
    | true => exact ⟨45, _, rfl, rfl⟩
    | false =>
      have hdigits := all_isDigit_of_isWhole hwhole
      cases whole with
      | nil => contradiction
      | cons b rest =>
        rw [List.all_cons, Bool.and_eq_true] at hdigits
        exact ⟨b, _, rfl, by rw [hdigits.1]; rfl⟩

end Json

end Gallery
