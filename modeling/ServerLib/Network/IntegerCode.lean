import Mathlib.Order.Bounds.Basic
import ServerLib.Network.HeaderExactness

/-!
# Integers as a prefix code

`pack` writes as few bytes as hold the integer, and none of its words is the front of another
one. So `operator<<` of `integer_builder` finds the end of an integer without looking behind it:
it takes the integer's bytes from its argument, or leaves the argument as it is.
-/
namespace ServerLib.Network

open Varint

/-- An integer takes as many bytes as it has groups of seven bits, and one if it is zero. -/
theorem pack_isLeast (v : UInt32) :
    IsLeast {k | 1 ≤ k ∧ v.toNat < 2 ^ (7 * k)} (pack v).length := by
  obtain ⟨numeral, exact_, short⟩ := pack_spec v
  constructor
  · have low := value_lt (pack v)
    rw [exact_] at low
    exact ⟨List.length_pos_of_ne_nil (isVarint_ne_nil numeral), low⟩
  · rintro k ⟨positive, fits⟩
    by_cases wide : k ≤ 10
    · have power : 2 ^ (7 * k) = 128 ^ k := Nat.pow_mul 2 7 k
      have groups : v.toUInt64.toNat < 128 ^ k := by
        rw [UInt32.toNat_toUInt64, ← power]
        exact fits
      exact (packLoop_spec 10 v.toUInt64 k wide positive groups).2.2
    · omega

variable [WideShift]

/-- `operator<<` takes from the front of its argument the bytes of the integer that makes the
builder ready, or nothing. -/
def IntegerBuilder.TakesInteger (b : IntegerBuilder) (data : Bytes) : Prop :=
  ∃ b' taken rest, data = taken ++ rest ∧ b.consume data = .returned (b', rest) ∧
    ((b.unitReady = false ∧ b'.unitReady = true ∧ ∃ value,
        unpack data = some (value, taken.length) ∧ b'.unit.asInteger = .ok value) ∨
      ((b.unitReady = true ∨ unpack data = none) ∧ b' = b ∧ taken = []))

/-- An integer that is cut short is refused. -/
theorem unpack_cut {v : UInt32} {front : Bytes} (cut : front <+: pack v)
    (proper : front ≠ pack v) : unpack front = none :=
  (unpack_eq_none_iff front).mpr (continues_of_cut (pack_spec v).1 cut proper)

namespace IntegerBuilder

variable {b : IntegerBuilder} {data : Bytes}

theorem consume_ready (ready : b.unitReady = true) : b.consume data = .returned (b, data) := by
  rw [consume, if_pos ready]

theorem consume_some {value : UInt32} {got : Nat} (waiting : b.unitReady = false)
    (unpacked : unpack data = some (value, got)) :
    b.consume data = .returned (⟨b.unit.setInteger value⟩, data.drop got) := by
  simp only [consume, waiting, Bool.false_eq_true, if_false, unpacked]

theorem consume_none (unpacked : unpack data = none) : b.consume data = .returned (b, data) := by
  simp only [consume, unpacked, ite_self]

theorem takesInteger (b : IntegerBuilder) (data : Bytes) : b.TakesInteger data := by
  cases ready : b.unitReady with
  | true => exact ⟨b, [], data, rfl, consume_ready ready, .inr ⟨.inl ready, rfl, rfl⟩⟩
  | false =>
    cases unpacked : unpack data with
    | none => exact ⟨b, [], data, rfl, consume_none unpacked, .inr ⟨.inr unpacked, rfl, rfl⟩⟩
    | some integer =>
      obtain ⟨value, got⟩ := integer
      have inside : (data.take got).length = got := by
        rw [List.length_take, Nat.min_eq_left (unpack_bound unpacked).2]
      refine ⟨_, data.take got, data.drop got, (List.take_append_drop got data).symm,
        consume_some ready unpacked, .inl ⟨ready, rfl, value, ?_, rfl⟩⟩
      rw [inside, unpacked]

end IntegerBuilder

/-- An integer is unpacked whatever follows it, with no shift as wide as its operand, and refused
where it is cut short; it has as few bytes as possible. -/
theorem integers_are_prefix_code (v : UInt32) :
    (∀ s, unpack (pack v ++ s) = some (v, (pack v).length) ∧
      ∀ by_ ∈ unpackShifts (pack v ++ s) 0, by_.toNat < 32) ∧
    (∀ front, front <+: pack v → front ≠ pack v → unpack front = none) ∧
    IsLeast {k | 1 ≤ k ∧ v.toNat < 2 ^ (7 * k)} (pack v).length ∧ (pack v).length ≤ 5 ∧
    (∀ (b : IntegerBuilder) (s : Bytes), b.unitReady = false →
      ∃ b', b.consume (pack v ++ s) = .returned (b', s) ∧ b'.unitReady = true ∧
        b'.unit.asInteger = .ok v) ∧
    ∀ (b : IntegerBuilder) (data : Bytes), b.TakesInteger data := by
  obtain ⟨numeral, -, short⟩ := pack_spec v
  refine ⟨fun s => ⟨unpack_pack v s, fun by_ member => ?_⟩, fun front => unpack_cut, pack_isLeast v,
    short, fun b s waiting => ?_, IntegerBuilder.takesInteger⟩
  · have narrow : (leading (pack v ++ s)).length ≤ 5 := by rwa [leading_append numeral]
    exact (unpackShifts_narrow narrow by_ member).1
  · have taken := IntegerBuilder.consume_some waiting (unpack_pack v s)
    rw [List.drop_left] at taken
    exact ⟨_, taken, rfl, rfl⟩

end ServerLib.Network
