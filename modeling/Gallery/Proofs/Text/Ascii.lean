import Gallery.Utf8
import Mathlib.Order.Basic
import Mathlib.Tactic.SplitIfs

/-!
# ASCII in UTF-8

A byte of ASCII is a character of its own, wherever it stands: no range of continuation bytes goes down
to it. So it ends a text with one more character, and it is never replaced on display, nor does
display bring in another one.

Both are invariants of the decoder. Between two bytes it expects nothing but continuation bytes, and
what it has left pending is no ASCII either.
-/

namespace Gallery.Utf8

/-- Whether all ranges that are expected lie beyond ASCII. -/
def BeyondAscii (expected : List (UInt8 × UInt8)) : Prop := ∀ range ∈ expected, 0x80 ≤ range.1

variable {low high : UInt8} {expected : List (UInt8 × UInt8)} {b : UInt8}

/-- A byte in the next range is not ASCII. -/
theorem BeyondAscii.not_lt (hexpected : BeyondAscii ((low, high) :: expected)) (hb : low ≤ b) :
    ¬b < 0x80 := by
  have hlow := hexpected _ List.mem_cons_self
  simp only [UInt8.le_iff_toNat_le, UInt8.lt_iff_toNat_lt] at hlow hb ⊢
  omega

/-- The ranges after the next one lie beyond ASCII too. -/
theorem BeyondAscii.tail {range : UInt8 × UInt8} (hexpected : BeyondAscii (range :: expected)) :
    BeyondAscii expected :=
  fun other hother => hexpected other (List.mem_cons_of_mem _ hother)

/-- What a lead byte calls for lies beyond ASCII. -/
theorem beyondAscii_of_continuations? (hb : continuations? b = some expected) :
    BeyondAscii expected := by
  unfold continuations? at hb
  split_ifs at hb <;> obtain rfl := Option.some.inj hb <;> simp [BeyondAscii]

/-- Only ASCII calls for nothing. -/
theorem continuations?_eq_some_nil_iff : continuations? b = some [] ↔ b < 0x80 := by
  unfold continuations?
  split_ifs with hascii <;> simp [hascii]

/-! ## Decoding -/

/-- A byte of ASCII behind a text is one more character. -/
theorem decodeFrom_concat (code : Nat) (hexpected : BeyondAscii expected) (bytes : Bytes)
    (hb : b < 0x80) :
    decodeFrom code expected (bytes ++ [b]) =
      (decodeFrom code expected bytes).map (· ++ [Char.ofNat b.toNat]) := by
  have hlone := continuations?_eq_some_nil_iff.2 hb
  fun_induction decodeFrom code expected bytes with
  | case1 code => simp [decodeFrom, hlone]
  | case2 code range ranges =>
    have hbelow : ¬range.1 ≤ b := fun hle => hexpected.not_lt hle hb
    simp [decodeFrom, hbelow]
  | case3 code c rest hc => simp [decodeFrom, hc]
  | case4 code c rest hc ih =>
    simp [decodeFrom, hc, ih (by simp [BeyondAscii]), Function.comp_def]
  | case5 code c rest ranges hranges hc ih =>
    simp [decodeFrom, hc, ih (beyondAscii_of_continuations? hc)]
  | case6 code low high c rest hin code' ih =>
    simp [decodeFrom, hin, code', ih (by simp [BeyondAscii]), Function.comp_def]
  | case7 code low high ranges c rest hin code' hranges ih =>
    simp [decodeFrom, hin, code', ih hexpected.tail]
  | case8 code low high ranges c rest hout => simp [decodeFrom, hout]

/-- A byte of ASCII behind a text is one more character. -/
theorem decode?_concat (bytes : Bytes) (hb : b < 0x80) :
    decode? (bytes ++ [b]) = (decode? bytes).map (· ++ [Char.ofNat b.toNat]) :=
  decodeFrom_concat 0 (by simp [BeyondAscii]) bytes hb

/-- A byte of ASCII behind a text does not decide whether it is well-formed. -/
theorem isValid_concat (bytes : Bytes) (hb : b < 0x80) :
    isValid (bytes ++ [b]) = isValid bytes := by
  simp [isValid, decode?_concat bytes hb]

/-! ## Display -/

/-- Display writes no ASCII for what is ill-formed. -/
theorem notMem_replacement (hb : b < 0x80) : b ∉ replacement := by
  intro hmem
  simp only [replacement, List.mem_cons, List.not_mem_nil, or_false] at hmem
  rcases hmem with rfl | rfl | rfl <;> simp at hb

/-- The start of a character shows it if it is ASCII, and leaves pending what is none. -/
theorem start_spec (c : UInt8) (hb : b < 0x80) :
    (start c).1.count b = [c].count b ∧ b ∉ (start c).2.1 ∧ BeyondAscii (start c).2.2 := by
  have hempty : BeyondAscii [] := by simp [BeyondAscii]
  unfold start
  split
  next hnone =>
    have hother : c ≠ b := by
      rintro rfl
      simp [continuations?_eq_some_nil_iff.2 hb] at hnone
    simp [List.count_eq_zero_of_not_mem (notMem_replacement hb), hother, hempty]
  next hlone => simp [hempty]
  next expected hne hsome =>
    have hother : c ≠ b := by
      rintro rfl
      simp [continuations?_eq_some_nil_iff.2 hb] at hsome
      simp_all
    simp [hother, Ne.symm hother, beyondAscii_of_continuations? hsome]

/-- The rest of a text is displayed with the ASCII that it has. -/
theorem count_displayFrom {pending : Bytes} (hpending : b ∉ pending)
    (hexpected : BeyondAscii expected) (bytes : Bytes) (hb : b < 0x80) :
    (displayFrom pending expected bytes).count b = bytes.count b := by
  have hreplacement : replacement.count b = 0 :=
    List.count_eq_zero_of_not_mem (notMem_replacement hb)
  fun_induction displayFrom pending expected bytes with
  | case1 pending => rfl
  | case2 pending range ranges => exact hreplacement
  | case3 pending c rest shown left ranges hstart ih =>
    have hspec := start_spec c hb
    simp only [hstart] at hspec
    rw [List.count_append, hspec.1, ih hspec.2.1 hspec.2.2, ← List.count_append,
      List.singleton_append]
  | case4 pending low high c rest hin ih =>
    have hnone := List.count_eq_zero_of_not_mem hpending
    rw [List.count_append, hnone, Nat.zero_add, List.count_cons, List.count_cons,
      ih List.not_mem_nil (by simp [BeyondAscii])]
  | case5 pending low high ranges c rest hin hne ih =>
    have hother : c ≠ b := by
      rintro rfl
      exact hexpected.not_lt (by simp_all) hb
    rw [ih (by simp [hpending, Ne.symm hother]) hexpected.tail, List.count_cons_of_ne hother]
  | case6 pending low high ranges c rest hout shown left ranges' hstart ih =>
    have hspec := start_spec c hb
    simp only [hstart] at hspec
    rw [List.count_append, List.count_append, hreplacement, Nat.zero_add, hspec.1,
      ih hspec.2.1 hspec.2.2, ← List.count_append, List.singleton_append]

/-- Display neither drops ASCII nor brings it in. -/
theorem count_display (bytes : Bytes) (hb : b < 0x80) :
    (display bytes).count b = bytes.count b :=
  count_displayFrom List.not_mem_nil (by simp [BeyondAscii]) bytes hb

end Gallery.Utf8
