import Mathlib.Tactic.IntervalCases
import ServerLib.Network.HeaderDecoding
import ServerLib.Network.Builders

/-!
# Which size headers are decoded exactly

The loop of `impl::unpack` runs for as long as the peer sets the top bit, but its operand
has 32 bits. The sixth byte of a header is shifted by 35, and the upper bits of the fifth
are lost: the five bytes `80 80 80 80 10` announce 2^32 and are decoded as 0.
-/
namespace ServerLib.Network

open Varint

/-- The counter grows by seven, modulo 256, for as long as the header goes on. -/
theorem unpackShifts_eq (data : Bytes) (by_ : UInt8) :
    unpackShifts data by_ =
      (List.range (leading data).length).map fun i => by_ + 7 * UInt8.ofNat i := by
  induction data generalizing by_ with
  | nil => rfl
  | cons b data ih =>
    have same : (b &&& 0x80 != 0) = continues b := rfl
    simp only [unpackShifts, leading, same]
    cases continues b with
    | false => simp
    | true =>
      simp only [if_true, List.length_cons, List.range_succ_eq_map, List.map_cons, List.map_map, ih]
      congr 1
      · simp
      · apply List.map_congr_left
        intro i _
        simp only [Function.comp_apply, Nat.succ_eq_add_one, UInt8.ofNat_add]
        rw [UInt8.add_assoc, UInt8.mul_add, UInt8.add_comm (7 * _)]
        rfl

/-- Five shifts: by 0, 7, 14, 21 and 28. -/
theorem unpackShifts_narrow {data : Bytes} (short : (leading data).length ≤ 5) :
    ∀ by_ ∈ unpackShifts data 0, by_.toNat < 32 ∧ by_.toNat + 7 < 256 := by
  intro by_ member
  rw [unpackShifts_eq] at member
  obtain ⟨i, inside, rfl⟩ := List.mem_map.mp member
  have small : i < 5 := Nat.lt_of_lt_of_le (List.mem_range.mp inside) short
  interval_cases i <;> decide

/-- A header takes at most five bytes, and a fifth byte that ends it is below 16. -/
def HeaderFits (data : Bytes) : Prop :=
  (leading data).length ≤ 5 ∧
    ∀ b, (leading data)[4]? = some b → continues b = true ∨ b.toNat < 16

/-- A fifth byte holds the bits of the value from 28 on. -/
theorem value_lt_iff_fifth {v : Bytes} (numeral : isVarint v = true) (short : v.length ≤ 5) :
    value v < 2 ^ 32 ↔ ∀ b, v[4]? = some b → continues b = true ∨ b.toNat < 16 := by
  by_cases four : v.length ≤ 4
  · -- four digits have 28 bits
    have low : value v < 2 ^ 32 := by
      have := value_lt v
      have : 2 ^ (7 * v.length) ≤ 2 ^ 28 := Nat.pow_le_pow_right (by decide) (by omega)
      omega
    have no_fifth : v[4]? = none := List.getElem?_eq_none four
    exact ⟨fun _ b fifth => absurd (no_fifth.symm.trans fifth) (by simp), fun _ => low⟩
  · obtain ⟨front, last, rfl⟩ : ∃ front last, v = front ++ [last] :=
      ⟨_, _, (List.dropLast_append_getLast (isVarint_ne_nil numeral)).symm⟩
    simp only [List.length_append, List.length_singleton] at short four
    have five : front.length = 4 := by omega
    have ended := isVarint_concat numeral
    have plain : digit last = last.toNat := by
      have := (continues_iff last).not.mp (by simp [ended])
      exact (plain_digit (by omega)).1
    have low := value_lt front
    have fifth : (front ++ [last])[4]? = some last := by
      rw [← five]
      exact List.getElem?_concat_length
    rw [five] at low
    rw [value_concat, plain, five, fifth]
    simp only [Option.some.injEq, forall_eq', ended, Bool.false_eq_true, false_or]
    omega

variable [WideShift]

/-- The decoding of one header by `impl::unpack`, and its use by `msg_builder`. -/
structure HeaderExact (data : Bytes) : Prop where
  /-- An accepted header is one numeral, and the result is its value. -/
  decoded : ∀ result got, unpack data = some (result, got) →
    isVarint (data.take got) = true ∧ result.toNat = value (data.take got) ∧
      value (data.take got) < 2 ^ 32
  /-- No shift is as wide as its operand, and the counter does not wrap. -/
  shifts : ∀ by_ ∈ unpackShifts data 0, by_.toNat < 32 ∧ by_.toNat + 7 < 256
  /-- No builder that waits for a header accepts one that announces more than its maximum. -/
  bounded : ∀ (b : MsgBuilder) (got : Nat), b.ready = false → b.sizeBuilder.unitReady = false →
    isVarint (data.take got) = true → b.msgMaxSize < value (data.take got) →
      ∃ error state, b.consume data = .thrown error state

/-- A header above the maximum is consumed, kept and refused. -/
theorem MsgBuilder.consume_refused {b : MsgBuilder} {data : Bytes} {sz : UInt32} {got : Nat}
    (idle : b.ready = false) (waiting : b.sizeBuilder.unitReady = false)
    (unpacked : unpack data = some (sz, got)) (above : b.msgMaxSize < sz.toNat) :
    b.consume data = .thrown ⟨"sz <= _msg_max_size", ""⟩
      ({ b with sizeBuilder := ⟨b.sizeBuilder.unit.setInteger sz⟩ }, data.drop got) := by
  have refused : ¬ sz.toNat ≤ b.msgMaxSize := by omega
  have header : b.consumeSize data = .thrown ⟨"sz <= _msg_max_size", ""⟩
      ({ b with sizeBuilder := ⟨b.sizeBuilder.unit.setInteger sz⟩ }, data.drop got) := by
    have size : b.sizeBuilder.consume data =
        .returned (⟨b.sizeBuilder.unit.setInteger sz⟩, data.drop got) := by
      simp only [IntegerBuilder.consume, waiting, Bool.false_eq_true, if_false, unpacked]
    have ready : IntegerBuilder.unitReady ⟨b.sizeBuilder.unit.setInteger sz⟩ = true := rfl
    simp only [MsgBuilder.consumeSize, waiting, Bool.false_eq_true, if_false, size,
      Outcome.map_returned, Outcome.bind_returned, ready, if_true, NetUnit.asInteger_setInteger,
      refused]
  simp only [MsgBuilder.consume, idle, Bool.false_eq_true, if_false, header, Outcome.bind_thrown]

private theorem exact_of_fits {data : Bytes} (fits : HeaderFits data) : HeaderExact data := by
  obtain ⟨short, fifth⟩ := fits
  have decoded : ∀ result got, unpack data = some (result, got) →
      isVarint (data.take got) = true ∧ result.toNat = value (data.take got) ∧
        value (data.take got) < 2 ^ 32 := by
    intro result got unpacked
    obtain ⟨v, rest, rfl, numeral, rfl, rfl⟩ := unpack_eq_some unpacked
    rw [leading_append numeral] at short fifth
    have low := (value_lt_iff_fifth numeral short).mpr fifth
    simp only [List.take_left]
    exact ⟨numeral, merge_toUInt32 short low, low⟩
  refine ⟨decoded, unpackShifts_narrow short, ?_⟩
  intro b got idle waiting numeral above
  have unpacked := unpack_numeral numeral (data.drop got)
  rw [List.take_append_drop] at unpacked
  have value_eq := (decoded _ _ unpacked).2.1
  rw [List.length_take, ← List.take_eq_take_min] at value_eq
  exact ⟨_, _, MsgBuilder.consume_refused idle waiting unpacked (by rw [value_eq]; exact above)⟩

private theorem fits_of_exact {data : Bytes} (exact_ : HeaderExact data) : HeaderFits data := by
  have short : (leading data).length ≤ 5 := by
    by_contra long
    -- a sixth byte is shifted by 35
    have sixth : (0 + 7 * UInt8.ofNat 5 : UInt8) ∈ unpackShifts data 0 := by
      rw [unpackShifts_eq]
      exact List.mem_map.mpr ⟨5, List.mem_range.mpr (by omega), rfl⟩
    have narrow := (exact_.shifts _ sixth).1
    revert narrow
    decide
  refine ⟨short, ?_⟩
  rcases continues_or_isVarint data with all | ⟨v, rest, rfl, numeral⟩
  · intro b fifth
    rw [leading_of_continues all] at fifth
    exact .inl (all b (List.mem_of_getElem? fifth))
  · rw [leading_append numeral] at short ⊢
    have low := (exact_.decoded _ _ (unpack_numeral numeral rest)).2.2
    rw [List.take_left] at low
    exact (value_lt_iff_fifth numeral short).mp low

/-- The headers that are decoded exactly, or refused, are those that fit. -/
theorem headerExact_iff_headerFits (data : Bytes) : HeaderExact data ↔ HeaderFits data :=
  ⟨fits_of_exact, exact_of_fits⟩

omit [WideShift] in
/-- The header `80 80 80 80 10` announces 2^32 and is decoded as 0. -/
theorem five_bytes_decoded_as_zero :
    (∀ shift : WideShift, @unpack shift [0x80, 0x80, 0x80, 0x80, 0x10] = some (0, 5)) ∧
      value [0x80, 0x80, 0x80, 0x80, 0x10] = 2 ^ 32 ∧
      ¬ ∃ shift : WideShift, @HeaderExact shift [0x80, 0x80, 0x80, 0x80, 0x10] := by
  have unpacked : ∀ shift : WideShift,
      @unpack shift [0x80, 0x80, 0x80, 0x80, 0x10] = some (0, 5) := by
    intro shift
    simp [unpack, unpackLoop, shiftLeft]
    decide
  refine ⟨unpacked, by decide, ?_⟩
  rintro ⟨shift, exact_⟩
  have decoded := (exact_.decoded 0 5 (unpacked shift)).2.1
  revert decoded
  decide

end ServerLib.Network
