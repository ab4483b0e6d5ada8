import Gallery.Bytes

/-!
# Writers

A writer holds the bytes it was given. It may have room for a limited number of bytes only:
then it takes exactly that many, and a write of which bytes are left over fails. It may also
refuse every flush.
-/

namespace Gallery

/-- A destination of bytes. -/
structure Writer where
  /-- Everything written so far. -/
  held : Bytes
  /-- How many bytes fit in all, if there is a limit. -/
  limit : Option Nat
  refusesFlush : Bool
  deriving DecidableEq, Repr

namespace Writer

/-- A writer that accepts everything. -/
def unlimited : Writer := ⟨[], none, false⟩

/-- How many of the given bytes still fit. -/
def accepted (writer : Writer) (bytes : Bytes) : Nat :=
  match writer.limit with
  | none => bytes.length
  | some limit => min bytes.length (limit - writer.held.length)

/-- The writer after a write. -/
def write (writer : Writer) (bytes : Bytes) : Writer :=
  { writer with held := writer.held ++ bytes.take (writer.accepted bytes) }

/-- Whether all the given bytes fit. -/
def accepts (writer : Writer) (bytes : Bytes) : Bool := writer.accepted bytes = bytes.length

/-- Bytes fit if they leave the limit, where there is one, in place. -/
theorem accepts_eq (writer : Writer) (bytes : Bytes) :
    writer.accepts bytes =
      writer.limit.all fun limit => bytes.length ≤ limit - writer.held.length := by
  unfold accepts accepted
  cases writer.limit with
  | none => simp
  | some limit =>
    rw [Option.all_some]
    apply decide_eq_decide.2
    dsimp only
    omega

/-- No more bytes are accepted than are given. -/
theorem accepted_le (writer : Writer) (bytes : Bytes) :
    writer.accepted bytes ≤ bytes.length := by
  unfold accepted
  cases writer.limit with
  | none => exact Nat.le_refl _
  | some limit => exact Nat.min_le_left _ _

/-- Nothing that was written is taken back. -/
theorem held_prefix_write (writer : Writer) (bytes : Bytes) :
    writer.held <+: (writer.write bytes).held := List.prefix_append _ _

/-- Bytes that fit come behind those held. -/
theorem write_of_accepts {writer : Writer} {bytes : Bytes} (hbytes : writer.accepts bytes) :
    writer.write bytes = { writer with held := writer.held ++ bytes } := by
  rw [write, of_decide_eq_true hbytes, List.take_length]

/-- A writer that is not full holds as much as its limit allows. -/
theorem held_write_of_le {writer : Writer} {limit : Nat} (hlimit : writer.limit = some limit)
    (hroom : writer.held.length ≤ limit) (bytes : Bytes) :
    (writer.write bytes).held = (writer.held ++ bytes).take limit := by
  have haccepted : writer.accepted bytes = min (limit - writer.held.length) bytes.length := by
    rw [accepted, hlimit, Nat.min_comm]
  rw [write, haccepted, ← List.take_eq_take_min, List.take_append, List.take_of_length_le hroom]

/-- A full writer stays as it is. -/
theorem write_of_full {writer : Writer} {limit : Nat} (hlimit : writer.limit = some limit)
    (hfull : limit ≤ writer.held.length) (bytes : Bytes) : writer.write bytes = writer := by
  have haccepted : writer.accepted bytes = 0 := by
    rw [accepted, hlimit]
    dsimp only
    omega
  rw [write, haccepted, List.take_zero, List.append_nil]

/-- Two runs of bytes fit together if the second fits behind the first. -/
theorem accepts_append (writer : Writer) (first second : Bytes) :
    writer.accepts (first ++ second) =
      (writer.accepts first && (writer.write first).accepts second) := by
  rw [accepts_eq, accepts_eq, accepts_eq]
  obtain ⟨held, limit, refusesFlush⟩ := writer
  cases limit with
  | none => rfl
  | some limit =>
    simp only [Option.all_some, write, accepted, List.length_append, List.length_take]
    rw [← Bool.decide_and]
    apply decide_eq_decide.2
    omega

/-- Bytes behind others that fit are written as if they were one run. -/
theorem write_append_of_accepts {writer : Writer} {first : Bytes} (hfirst : writer.accepts first)
    (second : Bytes) : (writer.write first).write second = writer.write (first ++ second) := by
  rw [accepts_eq] at hfirst
  obtain ⟨held, limit, refusesFlush⟩ := writer
  cases limit with
  | none => simp [accepted, write, List.take_of_length_le]
  | some limit =>
    simp only [Option.all_some, decide_eq_true_eq] at hfirst
    have hheld : min first.length (limit - held.length) = first.length := by omega
    have hboth : min (first ++ second).length (limit - held.length) =
        first.length + min second.length (limit - (held ++ first).length) := by
      rw [List.length_append, List.length_append]
      omega
    simp only [write, accepted, hheld, hboth, List.take_length, List.take_length_add_append,
      List.append_assoc]

/-- Nothing is written behind bytes that do not fit. -/
theorem write_append_of_not_accepts {writer : Writer} {first : Bytes}
    (hfirst : writer.accepts first = false) (second : Bytes) :
    writer.write (first ++ second) = writer.write first := by
  rw [accepts_eq] at hfirst
  obtain ⟨held, limit, refusesFlush⟩ := writer
  cases limit with
  | none => contradiction
  | some limit =>
    simp only [Option.all_some, decide_eq_false_iff_not] at hfirst
    have hroom : limit - held.length ≤ first.length := by omega
    have hfirst : min first.length (limit - held.length) = limit - held.length := by omega
    have hboth : min (first ++ second).length (limit - held.length) = limit - held.length := by
      rw [List.length_append]
      omega
    simp only [write, accepted, hfirst, hboth, List.take_append_of_le_length hroom]

end Writer

end Gallery
