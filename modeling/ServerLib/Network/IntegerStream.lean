import ServerLib.Network.HeaderDecoding
import ServerLib.Network.UnitBuilderManager

/-!
# Streams of packed integers

`integer_builder` behind a manager: the stream is cut behind every byte without top bit, and
each piece is decoded by itself. No byte is ever refused, so the units depend on the stream
only, and integers that were packed come back in order.
-/
namespace ServerLib.Network

open Incremental Varint

variable [WideShift]

/-- The builder between two integers. -/
def integerIdle : IntegerBuilder := {}

/-- One call of `build_unit`: a complete numeral is a unit, anything else waits. -/
theorem turn_integer (buffer : Bytes) :
    turn integerIdle buffer = match unpack buffer with
      | none => .wait integerIdle buffer
      | some (value, got) => .emit (.ofInteger value) integerIdle (buffer.drop got) := by
  by_cases empty : buffer = []
  · subst empty
    rfl
  · have waiting : integerIdle.unitReady = false := rfl
    rw [turn, if_neg empty]
    simp only [UnitBuilderI.consume, IntegerBuilder.consume, waiting]
    cases unpack buffer with
    | none => rfl
    | some decoded => rfl

theorem turn_integer_wait {buffer rest : Bytes} {b : IntegerBuilder}
    (turned : turn integerIdle buffer = .wait b rest) :
    unpack buffer = none ∧ b = integerIdle ∧ rest = buffer := by
  rw [turn_integer] at turned
  cases unpacked : unpack buffer with
  | none =>
    simp only [unpacked, Turn.wait.injEq] at turned
    exact ⟨rfl, turned.1.symm, turned.2.symm⟩
  | some decoded => simp [unpacked] at turned

theorem turn_integer_emit {buffer rest : Bytes} {b : IntegerBuilder} {unit : NetUnit}
    (turned : turn integerIdle buffer = .emit unit b rest) :
    ∃ value got, unpack buffer = some (value, got) ∧ unit = .ofInteger value ∧
      b = integerIdle ∧ rest = buffer.drop got := by
  rw [turn_integer] at turned
  cases unpacked : unpack buffer with
  | none => simp [unpacked] at turned
  | some decoded =>
    simp only [unpacked, Turn.emit.injEq] at turned
    exact ⟨decoded.1, decoded.2, rfl, turned.1.symm, turned.2.1.symm, turned.2.2.symm⟩

theorem turn_integer_ne_fail {buffer rest : Bytes} {b : IntegerBuilder} {error : LogicError} :
    turn integerIdle buffer ≠ .fail error b rest := by
  rw [turn_integer]
  cases unpack buffer <;> simp

/-- The builder is an incremental decoder. -/
theorem integer_stable : Stable (turn (σ := IntegerBuilder)) (· = integerIdle) where
  emit_keeps b buffer unit b' rest valid turned := by
    subst valid
    obtain ⟨_, _, -, -, kept, -⟩ := turn_integer_emit turned
    exact kept
  emit_shrinks b buffer unit b' rest valid turned := by
    subst valid
    obtain ⟨value, got, unpacked, -, -, rfl⟩ := turn_integer_emit turned
    have bound := unpack_bound unpacked
    rw [List.length_drop]
    omega
  wait_keeps b buffer b' rest valid turned := by
    subst valid
    exact (turn_integer_wait turned).2.1
  wait_append b buffer b' rest valid turned more := by
    subst valid
    obtain ⟨-, rfl, rfl⟩ := turn_integer_wait turned
    rfl
  emit_append b buffer unit b' rest valid turned more := by
    subst valid
    obtain ⟨value, got, unpacked, rfl, rfl, rfl⟩ := turn_integer_emit turned
    rw [turn_integer, unpack_append unpacked more]
    simp only [List.drop_append_of_le_length (unpack_bound unpacked).2]
  fail_append b buffer error b' rest valid turned := by
    subst valid
    exact absurd turned turn_integer_ne_fail

/-- Packed integers drain to their values, and what begins another integer is kept. -/
theorem drains_packed (values : List UInt32) {part : Bytes}
    (unfinished : ∀ b ∈ part, continues b = true) :
    Drains turn integerIdle (values.flatMap pack ++ part)
      ⟨values.map .ofInteger, none, integerIdle, part⟩ := by
  induction values with
  | nil =>
    apply Drains.wait
    rw [turn_integer, List.flatMap_nil, List.nil_append, (unpack_eq_none_iff part).mpr unfinished]
  | cons value values ih =>
    have turned : turn integerIdle (pack value ++ (values.flatMap pack ++ part)) =
        .emit (.ofInteger value) integerIdle (values.flatMap pack ++ part) := by
      rw [turn_integer, unpack_pack]
      simp
    rw [List.flatMap_cons, List.append_assoc]
    exact .emit turned ih

/-- A stream of packed integers, whole or cut off inside one of them, arrives in any chunks:
the queue holds the complete integers in order, and the rest waits in the buffer. -/
theorem integers_are_received (values : List UInt32) (part : Bytes)
    (unfinished : ∀ b ∈ part, continues b = true) (chunks : List Bytes)
    (cut : chunks.flatten = values.flatMap pack ++ part) :
    UnitBuilderManager.feedAll { builder := integerIdle } chunks =
      some (.returned ⟨part, integerIdle, values.map .ofInteger⟩) := by
  obtain ⟨r, unread, drained, clean, fed⟩ := feedAll_flatten integer_stable integerIdle rfl chunks
  rw [cut] at drained
  have same := drained.unique (drains_packed values unfinished)
  obtain ⟨items, error, state, rest⟩ := r
  simp only [Drained.mk.injEq] at same
  obtain ⟨rfl, rfl, rfl, kept⟩ := same
  -- no exception, so no chunk is left unread
  rw [(clean rfl).1, List.append_nil] at kept
  rw [fed, ← kept]
  rfl

omit [WideShift] in
/-- 300 and 5, and the first byte of a third integer. -/
theorem integers_are_received_three :
    letI := moduloShift
    UnitBuilderManager.feedAll { builder := integerIdle } [[0xac], [0x02, 0x05], [0x80]] =
      some (.returned ⟨[0x80], integerIdle, [.ofInteger 300, .ofInteger 5]⟩) := by
  let _ := moduloShift
  exact integers_are_received [300, 5] [0x80] (by decide +kernel) [[0xac], [0x02, 0x05], [0x80]]
    (by decide)

end ServerLib.Network
