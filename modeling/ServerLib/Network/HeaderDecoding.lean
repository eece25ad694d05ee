import ServerLib.Network.Unit

/-!
# The size header

`pack` writes one numeral, and `impl::unpack` reads one whatever follows it. The decoded
integer is the value of the numeral if that has at most five bytes and fits into 32 bits.
-/
namespace ServerLib.Network

open Varint

/-! ### `pack` writes a numeral -/

/-- One turn of `packLoop`: a digit, topped if anything is left. -/
theorem packLoop_succ (turns : Nat) (val : UInt64) :
    ∃ b : UInt8, digit b = val.toNat % 128 ∧
      packLoop (turns + 1) val = b :: (if continues b then packLoop turns (val >>> 7) else []) ∧
      (continues b = true ↔ 128 ≤ val.toNat) := by
  -- the digit and what is left, as remainder and quotient by 128
  have low : (val.toUInt8 &&& 0x7f).toNat = val.toNat % 128 := by
    rw [UInt8.toNat_and, UInt64.toNat_toUInt8]
    have masked := Nat.and_two_pow_sub_one_eq_mod (val.toNat % 2 ^ 8) 7
    rw [show (0x7f : UInt8).toNat = 2 ^ 7 - 1 from rfl, masked]
    omega
  have shifted : (val >>> 7).toNat = val.toNat / 128 := by
    rw [UInt64.toNat_shiftRight]
    exact Nat.shiftRight_eq_div_pow _ 7
  have bound : (val.toUInt8 &&& 0x7f).toNat < 128 := by omega
  by_cases more : 128 ≤ val.toNat
  · have left : val >>> 7 > 0 := by
      rw [gt_iff_lt, UInt64.lt_iff_toNat_lt, shifted]
      exact Nat.div_pos more (by decide)
    have nonzero : val >>> 7 ≠ 0 := by
      intro zero
      rw [zero] at left
      exact absurd left (by decide)
    obtain ⟨value, top⟩ := topped_digit bound
    refine ⟨(val.toUInt8 &&& 0x7f) ||| 0x80, by rw [value, low], ?_, by simp [top, more]⟩
    simp only [packLoop, left, if_true, nonzero, if_false, top]
  · have empty : val >>> 7 = 0 := by
      rw [← UInt64.toNat_inj, shifted]
      exact Nat.div_eq_of_lt (by omega)
    obtain ⟨value, top⟩ := plain_digit bound
    refine ⟨val.toUInt8 &&& 0x7f, by rw [value, low], ?_, by simp [top, more]⟩
    simp [packLoop, empty, top]

theorem packLoop_spec (turns : Nat) (val : UInt64) (width : Nat) (enough : width ≤ turns)
    (positive : 0 < width) (fits : val.toNat < 128 ^ width) :
    isVarint (packLoop turns val) = true ∧ value (packLoop turns val) = val.toNat ∧
      (packLoop turns val).length ≤ width := by
  induction turns generalizing val width with
  | zero => omega
  | succ turns ih =>
    obtain ⟨b, digit_b, turned, more⟩ := packLoop_succ turns val
    rw [turned]
    have shifted : (val >>> 7).toNat = val.toNat / 128 := by
      rw [UInt64.toNat_shiftRight]
      exact Nat.shiftRight_eq_div_pow _ 7
    obtain ⟨width, rfl⟩ : ∃ n, width = n + 1 := ⟨width - 1, by omega⟩
    cases top : continues b with
    | false =>
      have last : ¬ 128 ≤ val.toNat := by simpa [top] using more
      simp only [isVarint_cons, value_cons, top, digit_b]
      simp
      omega
    | true =>
      have left : 128 ≤ val.toNat := more.mp top
      -- a value of 128 or more does not fit into one digit
      have narrow : 0 < width := by
        by_contra none_left
        have : width = 0 := by omega
        subst this
        omega
      have tail := ih (val >>> 7) width (by omega) narrow (by
        rw [shifted, Nat.div_lt_iff_lt_mul (by decide), ← Nat.pow_succ]
        exact fits)
      simp only [isVarint_cons, value_cons, top, digit_b, if_true, List.length_cons, tail,
        shifted]
      simp
      omega

theorem pack_spec (v : UInt32) :
    isVarint (pack v) = true ∧ value (pack v) = v.toNat ∧ (pack v).length ≤ 5 := by
  have fits : v.toUInt64.toNat < 128 ^ 5 := by
    have := v.toNat_lt
    rw [UInt32.toNat_toUInt64]
    omega
  simpa only [pack, UInt32.toNat_toUInt64] using
    packLoop_spec 10 v.toUInt64 5 (by decide) (by decide) fits

variable [WideShift]

/-! ### `unpackLoop` reads one numeral -/

/-- The accumulator after the bytes of a header are merged into it. -/
def merge : Bytes → UInt64 → UInt8 → UInt64
  | [], val, _ => val
  | b :: data, val, by_ =>
    merge data (val ||| (shiftLeft (b &&& 0x7f).toUInt32 by_).toUInt64) (by_ + 7)

theorem unpackLoop_numeral {v : Bytes} (numeral : isVarint v = true) (rest : Bytes)
    (val : UInt64) (by_ : UInt8) (got : Nat) :
    unpackLoop (v ++ rest) val by_ got = some ((merge v val by_).toUInt32, got + v.length) := by
  induction v generalizing val by_ got with
  | nil => simp [isVarint] at numeral
  | cons b v ih =>
    simp only [List.cons_append, unpackLoop, merge, List.length_cons]
    rcases (isVarint_cons b v).mp numeral with ⟨more, tail⟩ | ⟨last, rfl⟩
    · rw [continues] at more
      rw [if_pos more, ih tail, Nat.add_assoc, Nat.add_comm 1]
    · rw [continues] at last
      simp [last, merge]

theorem unpackLoop_continues {data : Bytes} (all : ∀ b ∈ data, continues b = true)
    (val : UInt64) (by_ : UInt8) (got : Nat) : unpackLoop data val by_ got = none := by
  induction data generalizing val by_ got with
  | nil => rfl
  | cons b data ih =>
    have more : (b &&& 0x80 != 0) = true := all b (by simp)
    simp only [unpackLoop, more, if_true]
    exact ih (fun c member => all c (by simp [member])) _ _ _

theorem unpack_numeral {v : Bytes} (numeral : isVarint v = true) (rest : Bytes) :
    unpack (v ++ rest) = some ((merge v 0 0).toUInt32, v.length) := by
  rw [unpack, unpackLoop_numeral numeral, Nat.zero_add]

theorem unpack_eq_none_iff (data : Bytes) :
    unpack data = none ↔ ∀ b ∈ data, continues b = true := by
  constructor
  · intro refused
    rcases continues_or_isVarint data with all | ⟨v, rest, rfl, numeral⟩
    · exact all
    · rw [unpack_numeral numeral] at refused
      cases refused
  · exact fun all => unpackLoop_continues all _ _ _

/-- A decoded header is a numeral at the front of the data. -/
theorem unpack_eq_some {data : Bytes} {value : UInt32} {got : Nat}
    (unpacked : unpack data = some (value, got)) :
    ∃ v rest, data = v ++ rest ∧ isVarint v = true ∧ v.length = got ∧
      (merge v 0 0).toUInt32 = value := by
  -- either the header is unfinished, and nothing is decoded, or a numeral is at the front
  rcases continues_or_isVarint data with all | ⟨v, rest, rfl, numeral⟩
  · rw [(unpack_eq_none_iff data).mpr all] at unpacked
    cases unpacked
  · rw [unpack_numeral numeral] at unpacked
    cases unpacked
    exact ⟨v, rest, rfl, numeral, rfl, rfl⟩

theorem unpack_append {data : Bytes} {value : UInt32} {got : Nat}
    (unpacked : unpack data = some (value, got)) (more : Bytes) :
    unpack (data ++ more) = some (value, got) := by
  obtain ⟨v, rest, rfl, numeral, rfl, rfl⟩ := unpack_eq_some unpacked
  rw [List.append_assoc, unpack_numeral numeral]

theorem unpack_bound {data : Bytes} {value : UInt32} {got : Nat}
    (unpacked : unpack data = some (value, got)) : 0 < got ∧ got ≤ data.length := by
  obtain ⟨v, rest, rfl, numeral, rfl, -⟩ := unpack_eq_some unpacked
  have := List.length_pos_of_ne_nil (isVarint_ne_nil numeral)
  simp only [List.length_append]
  omega

/-! ### What five bytes decode to -/

theorem shiftLeft_digit (b : UInt8) (by_ : UInt8) (narrow : by_.toNat < 32)
    (fits : digit b * 2 ^ by_.toNat < 2 ^ 32) :
    (shiftLeft (b &&& 0x7f).toUInt32 by_).toUInt64.toNat = digit b * 2 ^ by_.toNat := by
  have below : by_ < 32 := by simpa [UInt8.lt_iff_toNat_lt] using narrow
  rw [shiftLeft, if_pos below, UInt32.toNat_toUInt64, UInt32.toNat_shiftLeft,
    UInt8.toNat_toUInt32, UInt8.toNat_toUInt32, Nat.mod_eq_of_lt narrow, Nat.shiftLeft_eq]
  exact Nat.mod_eq_of_lt fits

/-- The digits of a short header end up one above the other. -/
theorem merge_exact {v : Bytes} (i : Nat) (val : UInt64) (by_ : UInt8)
    (counter : by_.toNat = 7 * i) (low : val.toNat < 2 ^ (7 * i)) (short : i + v.length ≤ 5)
    (fits : val.toNat + 2 ^ (7 * i) * value v < 2 ^ 32) :
    (merge v val by_).toNat = val.toNat + 2 ^ (7 * i) * value v := by
  induction v generalizing i val by_ with
  | nil => simp [merge]
  | cons b v ih =>
    simp only [List.length_cons] at short
    have split : 2 ^ (7 * i) * value (b :: v) =
        2 ^ (7 * i) * digit b + 2 ^ (7 * (i + 1)) * value v := by
      rw [value_cons]
      ring
    have digit_fits : digit b * 2 ^ by_.toNat < 2 ^ 32 := by
      rw [counter, Nat.mul_comm]
      omega
    -- the accumulator is below the place of the digit, so `|||` adds
    have merged : (val ||| (shiftLeft (b &&& 0x7f).toUInt32 by_).toUInt64).toNat =
        val.toNat + 2 ^ (7 * i) * digit b := by
      rw [UInt64.toNat_or, shiftLeft_digit b by_ (by omega) digit_fits, counter, Nat.or_comm,
        Nat.mul_comm (digit b), ← Nat.two_pow_add_eq_or_of_lt low, Nat.add_comm]
    have next : (by_ + 7).toNat = 7 * (i + 1) := by
      rw [UInt8.toNat_add, counter]
      simp only [UInt8.reduceToNat]
      omega
    have low' : val.toNat + 2 ^ (7 * i) * digit b < 2 ^ (7 * (i + 1)) := by
      have power : 2 ^ (7 * (i + 1)) = 2 ^ (7 * i) * 128 := by ring
      have := Nat.mul_le_mul_left (2 ^ (7 * i)) (Nat.le_of_lt_succ (digit_lt b))
      omega
    rw [merge, ih (i + 1) _ _ next (by rw [merged]; exact low') (by omega)
      (by rw [merged]; omega), merged]
    omega

/-- A header of at most five bytes whose value fits into 32 bits is decoded exactly. -/
theorem merge_toUInt32 {v : Bytes} (short : v.length ≤ 5) (fits : value v < 2 ^ 32) :
    (merge v 0 0).toUInt32.toNat = value v := by
  have exact_ := merge_exact (v := v) 0 0 0 rfl (by decide) (by omega) (by simpa using fits)
  rw [UInt64.toNat_toUInt32, exact_]
  simpa using fits

/-- A packed size is found at the front of whatever is received. -/
theorem unpack_pack (v : UInt32) (rest : Bytes) :
    unpack (pack v ++ rest) = some (v, (pack v).length) := by
  obtain ⟨numeral, exact_, short⟩ := pack_spec v
  have fits : value (pack v) < 2 ^ 32 := exact_ ▸ v.toNat_lt
  have decoded := merge_toUInt32 short fits
  rw [unpack_numeral numeral, UInt32.toNat_inj.mp (decoded.trans exact_)]

end ServerLib.Network
