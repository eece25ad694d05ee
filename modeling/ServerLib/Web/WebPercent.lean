import ServerLib.Common.Strings
import ServerLib.Network.Unit

/-!
# `web_percent`

Characters that are not unreserved are written as `%` and two hexadecimal digits. The decoder
reads any two characters behind a `%` with `strtol`, and a `+` as a space; of what the encoder has
written it gets the characters back.
-/
namespace ServerLib.Web

open Network (Bytes)

namespace WebPercent

def hexChars : Bytes := ascii "0123456789ABCDEF"

/-- The characters that `encode` leaves alone. None of them is negative as a `char`. -/
def unreserved (chr : UInt8) : Bool :=
  (48 ≤ chr && chr ≤ 57) || (65 ≤ chr && chr ≤ 90) || (97 ≤ chr && chr ≤ 122) ||
    chr == 45 || chr == 46 || chr == 95 || chr == 126

def encodeChar (chr : UInt8) : Bytes :=
  if unreserved chr then [chr]
  else [37, hexChars.getD (chr >>> 4).toNat 0, hexChars.getD (chr &&& 15).toNat 0]

def encode (value : Bytes) : Bytes := value.flatMap encodeChar

/-- `static_cast<char>` of a `long` -/
def charOfLong (value : Int) : UInt8 := (value % 256).toNat.toUInt8

def decode : Bytes → Bytes
  | [] => []
  | 37 :: a :: b :: rest => charOfLong (strtol 16 [a, b]) :: decode rest
  | chr :: rest => (if chr = 43 then 32 else chr) :: decode rest

/-! ### What `encode` writes -/

/-- The characters of an encoded value. -/
def Encoded (chr : UInt8) : Prop := unreserved chr = true ∨ chr = 37

theorem encoded_hexChar {n : Nat} (small : n < 16) : Encoded (hexChars.getD n 0) := by
  interval_cases n <;> exact .inl rfl

theorem nibbles (chr : UInt8) : (chr >>> 4).toNat = chr.toNat / 16 ∧
    (chr &&& 15).toNat = chr.toNat % 16 := by
  constructor
  · simp [UInt8.toNat_shiftRight, Nat.shiftRight_eq_div_pow]
  · rw [UInt8.toNat_and]
    exact Nat.and_two_pow_sub_one_eq_mod chr.toNat 4

theorem encoded_of_mem {value : Bytes} {chr : UInt8} (member : chr ∈ encode value) :
    Encoded chr := by
  obtain ⟨source, -, among⟩ := List.mem_flatMap.mp member
  have bound := source.toNat_lt
  rw [encodeChar, (nibbles source).1, (nibbles source).2] at among
  split at among
  next plain =>
    rw [List.mem_singleton.mp among]
    exact .inl plain
  · simp only [List.mem_cons, List.not_mem_nil, or_false] at among
    rcases among with rfl | rfl | rfl
    · exact .inr rfl
    · exact encoded_hexChar (by omega)
    · exact encoded_hexChar (by omega)

/-- Nothing that means something in a query string or a list of attributes is among them. -/
theorem notMem_encode (value : Bytes) {chr : UInt8} (reserved : ¬ Encoded chr) :
    chr ∉ encode value := fun member => reserved (encoded_of_mem member)

instance (chr : UInt8) : Decidable (Encoded chr) := inferInstanceAs (Decidable (_ ∨ _))

theorem encode_eq_nil {value : Bytes} : encode value = [] ↔ value = [] := by
  rw [encode, List.flatMap_eq_nil_iff]
  constructor
  · intro empty
    cases value with
    | nil => rfl
    | cons chr value =>
      have written := empty chr List.mem_cons_self
      rw [encodeChar] at written
      split at written <;> cases written
  · rintro rfl chr member
    cases member

/-! ### Decoding what was encoded -/

theorem digitOf_hexChar {n : Nat} (small : n < 16) : digitOf 16 (hexChars.getD n 0) = some n := by
  interval_cases n <;> rfl

theorem strtol_hexChars {high low : Nat} (high_lt : high < 16) (low_lt : low < 16) :
    strtol 16 [hexChars.getD high 0, hexChars.getD low 0] = (16 * high + low : Nat) := by
  have high_digit := digitOf_hexChar high_lt
  have low_digit := digitOf_hexChar low_lt
  generalize hexChars.getD high 0 = a at high_digit ⊢
  generalize hexChars.getD low 0 = b at low_digit ⊢
  -- a digit is neither blank nor a sign nor the end
  have plain : isSpace a = false ∧ a ≠ 45 ∧ a ≠ 43 ∧ _ :=
    digit_plain (by decide) (Option.isSome_iff_exists.mpr ⟨high, high_digit⟩)
  have textual : ∀ {c : UInt8} {n : Nat}, digitOf 16 c = some n → c ≠ 0 := by
    rintro c n digit rfl
    cases digit
  have whole : ([a, b].takeWhile (· ≠ 0)).dropWhile isSpace = [a, b] := by
    simp [textual high_digit, textual low_digit, plain.1]
  have unsigned : stripSign [a, b] = (false, [a, b]) := by
    unfold stripSign
    split
    next same => exact absurd (List.head_eq_of_cons_eq same) plain.2.1
    next same => exact absurd (List.head_eq_of_cons_eq same) plain.2.2.1
    · rfl
  -- three characters would be needed for `0x`
  have unprefixed : stripPrefix 16 [a, b] = [a, b] := by
    rw [stripPrefix]
    rintro x c behind same
    cases same
  have digits : leadingDigits 16 [a, b] = [high, low] := by
    simp [leadingDigits, high_digit, low_digit]
  have value : (Nat.ofDigits (16 : Int) [low, high]) = 16 * high + low := by
    simp only [Nat.ofDigits]
    ring
  simp only [strtol, whole, unsigned, unprefixed, digits, List.reverse_cons, List.reverse_nil,
    List.nil_append, List.cons_append, Bool.false_eq_true, if_false]
  change min (Nat.ofDigits (16 : Int) [low, high]) (2 ^ 63 - 1) = _
  rw [value]
  omega

theorem decode_cons {chr : UInt8} (plain : chr ≠ 37) (rest : Bytes) :
    decode (chr :: rest) = (if chr = 43 then 32 else chr) :: decode rest := by
  rw [decode]
  rintro a b behind rfl
  exact absurd rfl plain

theorem decode_encodeChar (chr : UInt8) (rest : Bytes) :
    decode (encodeChar chr ++ rest) = chr :: decode rest := by
  rw [encodeChar]
  split
  next plain =>
    rw [List.singleton_append, decode_cons, if_neg]
    · rintro rfl
      cases plain
    · rintro rfl
      cases plain
  · -- two digits, the high one first
    have bound := chr.toNat_lt
    rw [(nibbles chr).1, (nibbles chr).2, List.cons_append, List.cons_append, List.cons_append,
      List.nil_append, decode, strtol_hexChars (by omega) (by omega), charOfLong]
    congr 1
    rw [Nat.div_add_mod, ← UInt8.toNat_inj]
    simp only [Nat.toUInt8_eq, UInt8.toNat_ofNat']
    omega

theorem decode_encode (value : Bytes) : decode (encode value) = value := by
  induction value with
  | nil => rfl
  | cons chr value ih => rw [encode, List.flatMap_cons, decode_encodeChar, ← encode, ih]

end WebPercent

end ServerLib.Web
