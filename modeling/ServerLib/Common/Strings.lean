import Mathlib.Data.Nat.Digits.Lemmas

/-!
# Strings and numbers

What the sources use of `std::string`, `std::stoul` and of the insertion of numbers into a
stream. Characters are bytes, `size_t` and `unsigned long` have 64 bits, and the locale is the
classic one.
-/
namespace ServerLib

/-- The exceptions of the standard library that the modelled code can meet. -/
inductive StdException where
  | outOfRange
  | invalidArgument
  | badArrayNewLength
  deriving DecidableEq, Repr

/-- Why a function does not return: it throws, what it does is undefined, or it never ends. -/
inductive Failure where
  | throws (exception : StdException)
  | undefined
  | endless
  deriving DecidableEq, Repr

/-- The characters of a string literal. -/
def ascii (text : String) : List UInt8 := text.toList.map fun c => c.toNat.toUInt8

def sizeMax : Nat := 2 ^ 64

/-- `a - b` on `size_t`: it wraps if `b` is the larger one. -/
def sizeSub (a b : Nat) : Nat := if b ≤ a then a - b else a + sizeMax - b

def sizeAdd (a b : Nat) : Nat := (a + b) % sizeMax

theorem sizeSub_of_le {a b : Nat} (below : b ≤ a) : sizeSub a b = a - b := if_pos below

/-- The length of a part, from the length of the whole and of what is around the part. -/
theorem sizeSub_between {whole front part behind : Nat} (is : whole = front + part + behind) :
    sizeSub (sizeSub whole front) behind = part := by
  rw [sizeSub_of_le (show front ≤ whole by omega), sizeSub_of_le (by omega)]
  omega

theorem sizeAdd_of_lt {a b : Nat} (fits : a + b < sizeMax) : sizeAdd a b = a + b :=
  Nat.mod_eq_of_lt fits

/-- `s.substr(pos, n)` -/
def substr (s : List UInt8) (pos n : Nat) : Except Failure (List UInt8) :=
  if pos ≤ s.length then .ok ((s.drop pos).take n) else .error (.throws .outOfRange)

theorem substr_of_le {s : List UInt8} {pos : Nat} (inside : pos ≤ s.length) (n : Nat) :
    substr s pos n = .ok ((s.drop pos).take n) := if_pos inside

/-- A piece that is cut out by its position and its length. -/
theorem substr_middle (front mid back : List UInt8) :
    substr (front ++ (mid ++ back)) front.length mid.length = .ok mid := by
  rw [substr_of_le (by simp), List.drop_left, List.take_left]

/-- A count that is not too small takes the rest. -/
theorem substr_rest (front : List UInt8) {back : List UInt8} {n : Nat} (enough : back.length ≤ n) :
    substr (front ++ back) front.length n = .ok back := by
  rw [substr_of_le (by simp), List.drop_left, List.take_of_length_le enough]

/-- `s.find(c, pos)` -/
def findChar (c : UInt8) (pos : Nat) (s : List UInt8) : Option Nat :=
  ((s.drop pos).idxOf? c).map (pos + ·)

theorem idxOf?_append_cons {c : UInt8} {front : List UInt8} (absent : c ∉ front)
    (back : List UInt8) : (front ++ c :: back).idxOf? c = some front.length := by
  induction front with
  | nil => simp [List.idxOf?_cons]
  | cons b front ih =>
    rw [List.mem_cons, not_or] at absent
    have other : (b == c) = false := by simpa using Ne.symm absent.1
    simp [List.idxOf?_cons, other, ih absent.2]

theorem idxOf?_of_notMem {c : UInt8} {s : List UInt8} (absent : c ∉ s) : s.idxOf? c = none :=
  List.idxOf?_eq_none_iff.mpr absent

/-! ### `std::stoul` -/

/-- `isspace` -/
def isSpace (b : UInt8) : Bool := b == 32 || (9 ≤ b && b ≤ 13)

/-- What a character counts as a digit of a numeral to `base`. -/
def digitOf (base : Nat) (b : UInt8) : Option Nat :=
  let value :=
    if 48 ≤ b ∧ b ≤ 57 then b.toNat - 48
    else if 97 ≤ b ∧ b ≤ 122 then b.toNat - 87
    else if 65 ≤ b ∧ b ≤ 90 then b.toNat - 55
    else base
  if value < base then some value else none

/-- The digits in front of the first character that is none. -/
def leadingDigits (base : Nat) : List UInt8 → List Nat
  | [] => []
  | b :: s =>
    match digitOf base b with
    | some digit => digit :: leadingDigits base s
    | none => []

/-- `0x` in front of a hexadecimal digit. -/
def stripPrefix (base : Nat) : List UInt8 → List UInt8
  | 48 :: x :: b :: s =>
    if base = 16 ∧ (x = 120 ∨ x = 88) ∧ (digitOf 16 b).isSome then b :: s else 48 :: x :: b :: s
  | s => s

def stripSign : List UInt8 → Bool × List UInt8
  | 45 :: s => (true, s)
  | 43 :: s => (false, s)
  | s => (false, s)

/-- `std::stoul` and `std::stoull` with a base. A minus sign is accepted, and negates modulo
the size of the type. -/
def stoul (base : Nat) (s : List UInt8) : Except Failure Nat :=
  let (negative, s) := stripSign (s.dropWhile isSpace)
  let digits := leadingDigits base (stripPrefix base s)
  if digits = [] then .error (.throws .invalidArgument)
  else
    let value := Nat.ofDigits base digits.reverse
    if sizeMax ≤ value then .error (.throws .outOfRange)
    else .ok (if negative then (sizeMax - value) % sizeMax else value)

/-- `std::strtol` with a base, which reads up to the first NUL. Without a digit the result is 0,
and what is too large is the nearest `long`. -/
def strtol (base : Nat) (s : List UInt8) : Int :=
  let (negative, s) := stripSign ((s.takeWhile (· ≠ 0)).dropWhile isSpace)
  let value : Int := Nat.ofDigits base (leadingDigits base (stripPrefix base s)).reverse
  if negative then max (-value) (-2 ^ 63) else min value (2 ^ 63 - 1)

/-- What a string of digits stands for. -/
def numeral (base : Nat) (s : List UInt8) : Nat := Nat.ofDigits base (leadingDigits base s).reverse

def IsNumeral (base : Nat) (s : List UInt8) : Prop := s ≠ [] ∧ ∀ b ∈ s, (digitOf base b).isSome

instance IsNumeral.decidable (base : Nat) (s : List UInt8) : Decidable (IsNumeral base s) :=
  decidable_of_iff (s ≠ [] ∧ s.all fun b => (digitOf base b).isSome) <| by
    rw [IsNumeral, List.all_eq_true]

theorem length_leadingDigits {base : Nat} {s : List UInt8}
    (digits : ∀ b ∈ s, (digitOf base b).isSome) : (leadingDigits base s).length = s.length := by
  induction s with
  | nil => rfl
  | cons b s ih =>
    obtain ⟨digit, found⟩ := Option.isSome_iff_exists.mp (digits b List.mem_cons_self)
    simp [leadingDigits, found, ih fun c member => digits c (List.mem_cons_of_mem b member)]

/-- A character that counts as a digit is neither white space, nor a sign, nor an `x`. -/
theorem digit_plain {base : Nat} (small : base ≤ 16) {b : UInt8}
    (digit : (digitOf base b).isSome) :
    isSpace b = false ∧ b ≠ 45 ∧ b ≠ 43 ∧ b ≠ 120 ∧ b ≠ 88 ∧ b ≠ 13 ∧ b ≠ 10 := by
  obtain ⟨value, found⟩ := Option.isSome_iff_exists.mp digit
  unfold digitOf at found
  simp only [UInt8.le_iff_toNat_le, Option.ite_none_right_eq_some, Option.some.injEq] at found
  obtain ⟨below, -⟩ := found
  -- '0' to '9', 'a' to 'f', 'A' to 'F'
  have range : (48 ≤ b.toNat ∧ b.toNat ≤ 57) ∨ (97 ≤ b.toNat ∧ b.toNat ≤ 102) ∨
      (65 ≤ b.toNat ∧ b.toNat ≤ 70) := by
    simp only [UInt8.reduceToNat] at below
    split at below
    · omega
    · split at below
      · omega
      · split at below <;> omega
  have ne : ∀ c : UInt8, b.toNat ≠ c.toNat → b ≠ c := fun c differ same => differ (by rw [same])
  refine ⟨?_, ne _ ?_, ne _ ?_, ne _ ?_, ne _ ?_, ne _ ?_, ne _ ?_⟩
  · simp only [isSpace, Bool.or_eq_false_iff, Bool.and_eq_false_iff, decide_eq_false_iff_not,
      UInt8.le_iff_toNat_le, beq_eq_false_iff_ne, UInt8.reduceToNat]
    exact ⟨ne _ (by simp only [UInt8.reduceToNat]; omega), by omega⟩
  all_goals
    simp only [UInt8.reduceToNat]
    omega

/-- A numeral is read as what it stands for. -/
theorem stoul_numeral {base : Nat} (small : base ≤ 16) {s : List UInt8}
    (digits : IsNumeral base s) (fits : numeral base s < sizeMax) :
    stoul base s = .ok (numeral base s) := by
  obtain ⟨occupied, all⟩ := digits
  cases s with
  | nil => exact absurd rfl occupied
  | cons b s =>
    have first := digit_plain small (all b List.mem_cons_self)
    -- white space, a sign and a `0x` are skipped in front of the digits; there are none
    have unsigned : stripSign (b :: s) = (false, b :: s) := by
      unfold stripSign
      split
      next same => exact absurd (List.cons.inj same).1 first.2.1
      next same => exact absurd (List.cons.inj same).1 first.2.2.1
      · rfl
    have unprefixed : stripPrefix base (b :: s) = b :: s := by
      unfold stripPrefix
      split
      next x c rest same =>
        cases same
        have second := digit_plain small (all x (by simp))
        rw [if_neg]
        rintro ⟨-, marker | marker, -⟩
        · exact second.2.2.2.1 marker
        · exact second.2.2.2.2.1 marker
      · rfl
    have some_digit : leadingDigits base (b :: s) ≠ [] := by
      intro none_
      have counted := length_leadingDigits all
      rw [none_] at counted
      simp at counted
    have spaceless : (b :: s).dropWhile isSpace = b :: s := by
      simp [first.1]
    unfold numeral at fits ⊢
    simp only [stoul, spaceless, unsigned, unprefixed, if_neg some_digit,
      if_neg (Nat.not_le.mpr fits)]
    rfl

/-! ### Decimal numbers -/

def digitChar (digit : Nat) : UInt8 := (48 + digit).toUInt8

/-- An unsigned number as `operator<<` and `std::to_string` write it. -/
def decimal (n : Nat) : List UInt8 :=
  if n = 0 then [48] else (Nat.digits 10 n).reverse.map digitChar

theorem digitOf_digitChar {digit : Nat} (small : digit < 10) :
    digitOf 10 (digitChar digit) = some digit := by
  interval_cases digit <;> decide

theorem leadingDigits_map {digits : List Nat} (small : ∀ digit ∈ digits, digit < 10) :
    leadingDigits 10 (digits.map digitChar) = digits := by
  induction digits with
  | nil => rfl
  | cons digit digits ih =>
    simp [leadingDigits, digitOf_digitChar (small digit List.mem_cons_self),
      ih fun d member => small d (List.mem_cons_of_mem digit member)]

theorem numeral_decimal (n : Nat) : numeral 10 (decimal n) = n := by
  unfold numeral decimal
  split
  next zero => subst zero; decide
  next =>
    rw [leadingDigits_map fun digit member =>
      Nat.digits_lt_base (by decide) (List.mem_reverse.mp member), List.reverse_reverse,
      Nat.ofDigits_digits]

theorem isNumeral_decimal (n : Nat) : IsNumeral 10 (decimal n) := by
  unfold decimal
  split
  · decide
  next positive =>
    refine ⟨by simpa [Nat.digits_eq_nil_iff_eq_zero] using positive, ?_⟩
    intro b member
    obtain ⟨digit, among, rfl⟩ := List.mem_map.mp member
    rw [digitOf_digitChar (Nat.digits_lt_base (by decide) (List.mem_reverse.mp among))]
    rfl

theorem stoul_decimal {n : Nat} (fits : n < sizeMax) : stoul 10 (decimal n) = .ok n := by
  have read := stoul_numeral (by decide) (isNumeral_decimal n) (by rwa [numeral_decimal])
  rwa [numeral_decimal] at read

end ServerLib
