import Mathlib.Tactic.Ring
import Mathlib.Data.List.Basic

/-!
# Base-128 numerals

A numeral is a sequence of bytes, least significant first, whose top bit is set on
every byte but the last; the low seven bits are its digits.
-/
namespace Varint

/-- The top bit of a byte: another byte of the numeral follows. -/
def continues (b : UInt8) : Bool := b &&& 0x80 != 0

/-- The digit a byte carries. -/
def digit (b : UInt8) : Nat := (b &&& 0x7f).toNat

/-- The exact value of a sequence of digits. -/
def value (bytes : List UInt8) : Nat := (bytes.mapIdx fun i b => digit b * 2 ^ (7 * i)).sum

/-- The top bit is set on all bytes but the last. -/
def isVarint : List UInt8 → Bool
  | [] => false
  | b :: rest => if continues b then isVarint rest else rest.isEmpty

/-- The bytes a reader of one numeral looks at: all up to the first without top bit. -/
def leading : List UInt8 → List UInt8
  | [] => []
  | b :: rest => if continues b then b :: leading rest else [b]

theorem digit_eq (b : UInt8) : digit b = b.toNat % 128 := by
  rw [digit, UInt8.toNat_and]
  exact Nat.and_two_pow_sub_one_eq_mod b.toNat 7

theorem digit_lt (b : UInt8) : digit b < 128 := by
  rw [digit_eq]
  exact Nat.mod_lt _ (by decide)

theorem continues_iff (b : UInt8) : continues b = true ↔ 128 ≤ b.toNat := by
  -- the bit mask is evaluated for all bytes; arithmetic has no lemma for a single upper bit
  have table : ∀ n : Fin 256, (UInt8.ofNat n.val &&& 0x80 != 0) = decide (128 ≤ n.val) := by
    decide +kernel
  have at_b := table ⟨b.toNat, b.toNat_lt⟩
  simp only [UInt8.ofNat_toNat] at at_b
  simp only [continues, at_b, decide_eq_true_eq]

theorem isVarint_cons (b : UInt8) (rest : List UInt8) :
    isVarint (b :: rest) = true ↔
      (continues b = true ∧ isVarint rest = true) ∨ (continues b = false ∧ rest = []) := by
  cases more : continues b <;> simp [isVarint, more]

/-- A digit without top bit, and the same digit with the top bit set. -/
theorem plain_digit {b : UInt8} (low : b.toNat < 128) :
    digit b = b.toNat ∧ continues b = false := by
  refine ⟨by rw [digit_eq]; exact Nat.mod_eq_of_lt low, ?_⟩
  rw [← Bool.not_eq_true, continues_iff]
  omega

theorem topped_digit {b : UInt8} (low : b.toNat < 128) :
    digit (b ||| 0x80) = b.toNat ∧ continues (b ||| 0x80) = true := by
  have topped : (b ||| 0x80).toNat = b.toNat + 128 := by
    -- the low bits and the top bit do not meet, so `|||` is a sum
    have shifted : (0x80 : UInt8).toNat = 2 ^ 7 * 1 := rfl
    rw [UInt8.toNat_or, shifted, Nat.or_comm, ← Nat.two_pow_add_eq_or_of_lt low]
    omega
  rw [digit_eq, continues_iff, topped]
  omega

@[simp] theorem value_nil : value [] = 0 := rfl

private theorem sum_mapIdx_mul (c : Nat) (f : Nat → UInt8 → Nat) (bytes : List UInt8) :
    (bytes.mapIdx fun i b => c * f i b).sum = c * (bytes.mapIdx f).sum := by
  induction bytes generalizing f with
  | nil => simp
  | cons b rest ih =>
    simp only [List.mapIdx_cons, List.sum_cons, Nat.mul_add]
    rw [ih fun i => f (i + 1)]

@[simp] theorem value_cons (b : UInt8) (rest : List UInt8) :
    value (b :: rest) = digit b + 128 * value rest := by
  have shifted : ∀ i (c : UInt8), digit c * 2 ^ (7 * (i + 1)) = 128 * (digit c * 2 ^ (7 * i)) := by
    intro i c
    ring
  simp only [value, List.mapIdx_cons, List.sum_cons, shifted, sum_mapIdx_mul]
  simp

theorem value_concat (bytes : List UInt8) (b : UInt8) :
    value (bytes ++ [b]) = value bytes + 2 ^ (7 * bytes.length) * digit b := by
  induction bytes with
  | nil => simp
  | cons c bytes ih =>
    simp only [List.cons_append, value_cons, ih, List.length_cons]
    ring

theorem value_lt (bytes : List UInt8) : value bytes < 2 ^ (7 * bytes.length) := by
  induction bytes with
  | nil => simp
  | cons b rest ih =>
    have low := digit_lt b
    have power : 2 ^ (7 * (rest.length + 1)) = 128 * 2 ^ (7 * rest.length) := by ring
    simp only [value_cons, List.length_cons, power]
    omega

theorem isVarint_ne_nil {v : List UInt8} (numeral : isVarint v = true) : v ≠ [] := by
  rintro rfl
  simp [isVarint] at numeral

theorem isVarint_concat {bytes : List UInt8} {b : UInt8}
    (numeral : isVarint (bytes ++ [b]) = true) : continues b = false := by
  induction bytes with
  | nil => simpa [isVarint_cons, isVarint] using numeral
  | cons c bytes ih =>
    rcases (isVarint_cons c _).mp numeral with ⟨-, tail⟩ | ⟨-, empty⟩
    · exact ih tail
    · simp at empty

/-- A reader finds a numeral whatever follows it. -/
theorem leading_append {v : List UInt8} (numeral : isVarint v = true) (rest : List UInt8) :
    leading (v ++ rest) = v := by
  induction v with
  | nil => simp [isVarint] at numeral
  | cons b v ih =>
    simp only [List.cons_append, leading]
    rcases (isVarint_cons b v).mp numeral with ⟨more, tail⟩ | ⟨last, rfl⟩
    · rw [if_pos more, ih tail]
    · simp [last]

theorem leading_of_continues {bytes : List UInt8} (all : ∀ b ∈ bytes, continues b = true) :
    leading bytes = bytes := by
  induction bytes with
  | nil => rfl
  | cons b rest ih =>
    simp only [leading, all b (by simp), if_true]
    rw [ih (fun c member => all c (by simp [member]))]

/-- No numeral is the front of a longer one: what is cut off behind it would have to follow. -/
theorem continues_of_cut {v front : List UInt8} (numeral : isVarint v = true) (cut : front <+: v)
    (proper : front ≠ v) : ∀ b ∈ front, continues b = true := by
  induction v generalizing front with
  | nil => simp [isVarint] at numeral
  | cons b v ih =>
    cases front with
    | nil => simp
    | cons c front =>
      obtain ⟨rfl, tail⟩ := List.cons_prefix_cons.mp cut
      rcases (isVarint_cons c v).mp numeral with ⟨more, follows⟩ | ⟨-, rfl⟩
      · have shorter : front ≠ v := fun same => proper (by rw [same])
        simpa [more] using ih follows tail shorter
      · -- the last byte of a numeral has nothing behind it
        exact absurd (by rw [List.prefix_nil.mp tail]) proper

/-- A stream starts with a numeral, or its bytes all announce another one. -/
theorem continues_or_isVarint (bytes : List UInt8) :
    (∀ b ∈ bytes, continues b = true) ∨ ∃ v rest, bytes = v ++ rest ∧ isVarint v = true := by
  induction bytes with
  | nil => simp
  | cons b rest ih =>
    by_cases more : continues b = true
    · rcases ih with all | ⟨v, tail, split, numeral⟩
      · exact .inl (by simpa [more] using all)
      · exact .inr ⟨b :: v, tail, by simp [split], by simpa [isVarint, more] using numeral⟩
    · exact .inr ⟨[b], rest, rfl, by simp [isVarint, more]⟩

end Varint
