import Mathlib.Data.List.TakeWhile
import ServerLib.Common.Strings

/-!
# Extraction from a stream

`std::istream` skips white space in front of what it extracts. A number is an optional sign and
digits. If there is none, zero is stored, and if it is too large for the type, its maximum; the
extraction has then failed, and the later ones store nothing. A stream that has come to its end
says so, which fails the next extraction too.

What a minus sign means for an unsigned number is not the same everywhere: it may negate modulo
the size of the type, or the number counts as one that cannot be represented. That is a parameter
here, which is asked only where there are digits behind the sign.
-/
namespace ServerLib

structure InputStream where
  rest : List UInt8
  eof : Bool := false
  fail : Bool := false
  deriving DecidableEq, Repr

/-- The number that a minus sign in front of another one makes, if there is one. -/
abbrev Negation := Nat → Option Nat

/-- Negation modulo the size of the type, as the common libraries have it. -/
def wrapAround : Negation := fun n => if n < 2 ^ 32 then some ((2 ^ 32 - n) % 2 ^ 32) else none

def isDecimal (b : UInt8) : Bool := (digitOf 10 b).isSome

/-- The number that a sign and digits stand for, if `uint32_t` has it. -/
def fieldValue (negation : Negation) (negative : Bool) (digits : List UInt8) : Option Nat :=
  if digits = [] then none
  else if negative then negation (numeral 10 digits)
  else if numeral 10 digits < 2 ^ 32 then some (numeral 10 digits) else none

namespace InputStream

/-- `std::istream::sentry`; the stream is good behind it if there is something to extract. -/
def sentry (s : InputStream) : InputStream :=
  if s.eof || s.fail then { s with fail := true }
  else
    match s.rest.dropWhile isSpace with
    | [] => ⟨[], true, true⟩
    | rest => { s with rest }

def good (s : InputStream) : Bool := !s.eof && !s.fail

/-- `s >> number` for a `uint32_t` -/
def getUInt32 (negation : Negation) (s : InputStream) (number : Nat) : InputStream × Nat :=
  let s := s.sentry
  if s.good then
    let (negative, field) := stripSign s.rest
    let digits := field.takeWhile isDecimal
    let rest := field.dropWhile isDecimal
    match fieldValue negation negative digits with
    | some value => (⟨rest, rest.isEmpty, false⟩, value)
    | none => (⟨rest, rest.isEmpty, true⟩, if digits = [] then 0 else 2 ^ 32 - 1)
  else (s, number)

/-- `s >> c` for a `char` -/
def getChar (s : InputStream) (c : UInt8) : InputStream × UInt8 :=
  let s := s.sentry
  match s.good, s.rest with
  | true, b :: rest => ({ s with rest }, b)
  | _, _ => (s, c)

/-! ### What is extracted -/

/-- An optional sign, and whether it is the minus sign. -/
inductive IsSign : List UInt8 → Bool → Prop where
  | absent : IsSign [] false
  | plus : IsSign [43] false
  | minus : IsSign [45] true

/-- The field is a number that the type has, with an optional sign. -/
inductive IsField (negation : Negation) : List UInt8 → Nat → Prop where
  | intro {sign digits : List UInt8} {negative : Bool} {n : Nat} (signed : IsSign sign negative)
      (numeral : IsNumeral 10 digits) (value : fieldValue negation negative digits = some n) :
      IsField negation (sign ++ digits) n

def Blank (s : List UInt8) : Prop := ∀ b ∈ s, isSpace b

/-- No digit follows a field that ends here. -/
def EndsField (rest : List UInt8) : Prop := ∀ b ∈ rest.head?, isDecimal b = false

variable {negation : Negation} {s rest : List UInt8}

theorem exists_sign (s : List UInt8) :
    ∃ sign, IsSign sign (stripSign s).1 ∧ s = sign ++ (stripSign s).2 := by
  unfold stripSign
  split
  · exact ⟨[45], .minus, rfl⟩
  · exact ⟨[43], .plus, rfl⟩
  · exact ⟨[], .absent, rfl⟩

theorem stripSign_append {sign : List UInt8} {negative : Bool} (signed : IsSign sign negative)
    {digits : List UInt8} (numeral : IsNumeral 10 digits) (rest : List UInt8) :
    stripSign (sign ++ (digits ++ rest)) = (negative, digits ++ rest) := by
  cases signed with
  | absent =>
    obtain ⟨b, digits, rfl⟩ := List.exists_cons_of_ne_nil numeral.1
    have plain := digit_plain (by decide) (numeral.2 b List.mem_cons_self)
    unfold stripSign
    split
    next same => exact absurd (List.cons.inj same).1 plain.2.1
    next same => exact absurd (List.cons.inj same).1 plain.2.2.1
    · rfl
  | plus => rfl
  | minus => rfl

theorem takeWhile_digits {digits : List UInt8} (all : ∀ b ∈ digits, (digitOf 10 b).isSome)
    (ends : EndsField rest) : (digits ++ rest).takeWhile isDecimal = digits ∧
      (digits ++ rest).dropWhile isDecimal = rest := by
  have decimal : ∀ b ∈ digits, isDecimal b = true := all
  rw [List.takeWhile_append_of_pos decimal, List.dropWhile_append_of_pos decimal]
  cases rest with
  | nil => exact ⟨List.append_nil _, rfl⟩
  | cons b rest =>
    have stops : isDecimal b = false := ends b rfl
    simp [stops]

variable {blank field : List UInt8} {b : UInt8} {n : Nat}

theorem blank_nil : Blank [] := nofun

theorem endsField_nil : EndsField [] := by
  intro b first
  cases first

theorem isField_decimal (negation : Negation) (fits : n < 2 ^ 32) :
    IsField negation (decimal n) n := by
  have value : fieldValue negation false (decimal n) = some n := by
    rw [fieldValue, if_neg (isNumeral_decimal n).1, if_neg Bool.false_ne_true, numeral_decimal,
      if_pos fits]
  exact .intro .absent (isNumeral_decimal n) value

theorem isDecimal_of_isSpace (space : isSpace b = true) : isDecimal b = false := by
  by_contra digit
  rw [Bool.not_eq_false] at digit
  rw [(digit_plain (by decide) digit).1] at space
  cases space

/-- Neither white space nor a character that is no digit goes on with a field. -/
theorem endsField_append (blanks : Blank blank) (other : isDecimal b = false)
    (rest : List UInt8) : EndsField (blank ++ b :: rest) := by
  intro c first
  cases blank with
  | nil =>
    cases first
    exact other
  | cons d blank =>
    cases first
    exact isDecimal_of_isSpace (blanks c List.mem_cons_self)

theorem sentry_end (blanks : Blank blank) :
    (⟨blank, false, false⟩ : InputStream).sentry = ⟨[], true, true⟩ := by
  have nothing : blank.dropWhile isSpace = [] := List.dropWhile_eq_nil_iff.mpr blanks
  simp [sentry, nothing]

theorem sentry_blank (blanks : Blank blank) (visible : isSpace b = false) (rest : List UInt8) :
    (⟨blank ++ b :: rest, false, false⟩ : InputStream).sentry = ⟨b :: rest, false, false⟩ := by
  have skipped : (blank ++ b :: rest).dropWhile isSpace = b :: rest := by
    rw [List.dropWhile_append_of_pos blanks, List.dropWhile_cons_of_neg (by simp [visible])]
  simp [sentry, skipped]

theorem exists_blank (s : List UInt8) :
    Blank s ∨ ∃ blank b rest, s = blank ++ b :: rest ∧ Blank blank ∧ isSpace b = false := by
  have cut := List.takeWhile_append_dropWhile (p := isSpace) (l := s)
  cases left : s.dropWhile isSpace with
  | nil => exact .inl (List.dropWhile_eq_nil_iff.mp left)
  | cons b rest =>
    rw [left] at cut
    refine .inr ⟨_, b, rest, cut.symm, fun c => List.mem_takeWhile_imp, ?_⟩
    have head := List.head_dropWhile_not isSpace (l := s) (by simp [left])
    simpa [left] using head

theorem getChar_blank (blanks : Blank blank) (visible : isSpace b = false) (rest : List UInt8)
    (c : UInt8) : (⟨blank ++ b :: rest, false, false⟩ : InputStream).getChar c =
      (⟨rest, false, false⟩, b) := by
  simp [getChar, sentry_blank blanks visible, good]

/-- Either a character is extracted or the stream has come to its end. -/
theorem getChar_cases (s : List UInt8) (c : UInt8) :
    (∃ blank b rest, s = blank ++ b :: rest ∧ Blank blank ∧
        (⟨s, false, false⟩ : InputStream).getChar c = (⟨rest, false, false⟩, b)) ∨
      (⟨s, false, false⟩ : InputStream).getChar c = (⟨[], true, true⟩, c) := by
  rcases exists_blank s with blanks | ⟨blank, b, rest, rfl, blanks, visible⟩
  · right
    simp [getChar, sentry_end blanks, good]
  · exact .inl ⟨blank, b, rest, rfl, blanks, getChar_blank blanks visible rest c⟩

/-- Nothing is extracted from a stream that is not good. -/
theorem getChar_bad {s : InputStream} (bad : s.good = false) (c : UInt8) :
    s.getChar c = ({ s with fail := true }, c) := by
  have stopped : (s.eof || s.fail) = true := by
    rw [good, ← Bool.not_or, Bool.not_eq_false'] at bad
    exact bad
  simp [getChar, sentry, stopped, good]

theorem getUInt32_bad {s : InputStream} (bad : s.good = false) (n : Nat) :
    s.getUInt32 negation n = ({ s with fail := true }, n) := by
  have stopped : (s.eof || s.fail) = true := by
    rw [good, ← Bool.not_or, Bool.not_eq_false'] at bad
    exact bad
  simp [getUInt32, sentry, stopped, good]

variable (negation) in
/-- What an extraction does where there is something to extract. -/
theorem getUInt32_visible (blanks : Blank blank) (visible : isSpace b = false) (rest : List UInt8)
    (m : Nat) :
    (⟨blank ++ b :: rest, false, false⟩ : InputStream).getUInt32 negation m =
      let (negative, field) := stripSign (b :: rest)
      let digits := field.takeWhile isDecimal
      let rest := field.dropWhile isDecimal
      match fieldValue negation negative digits with
      | some value => (⟨rest, rest.isEmpty, false⟩, value)
      | none => (⟨rest, rest.isEmpty, true⟩, if digits = [] then 0 else 2 ^ 32 - 1) := by
  rw [getUInt32, sentry_blank blanks visible]
  rfl

theorem IsField.visible (isField : IsField negation field n) (rest : List UInt8) :
    ∃ b back, field ++ rest = b :: back ∧ isSpace b = false := by
  obtain ⟨signed, numeral, value⟩ := isField
  cases signed with
  | absent =>
    obtain ⟨b, digits, rfl⟩ := List.exists_cons_of_ne_nil numeral.1
    exact ⟨b, digits ++ rest, rfl, (digit_plain (by decide) (numeral.2 b List.mem_cons_self)).1⟩
  | plus => exact ⟨43, _, rfl, by decide⟩
  | minus => exact ⟨45, _, rfl, by decide⟩

theorem getUInt32_field (blanks : Blank blank) (isField : IsField negation field n)
    (ends : EndsField rest) (m : Nat) :
    (⟨blank ++ (field ++ rest), false, false⟩ : InputStream).getUInt32 negation m =
      (⟨rest, rest.isEmpty, false⟩, n) := by
  obtain ⟨b, back, is, visible⟩ := isField.visible rest
  rw [is, getUInt32_visible negation blanks visible, ← is]
  obtain ⟨signed, numeral, value⟩ := isField
  obtain ⟨digits, behind⟩ := takeWhile_digits numeral.2 ends
  rw [List.append_assoc, stripSign_append signed numeral]
  simp only [digits, behind, value]

variable (negation) in
/-- There is no digit up to the end. -/
theorem getUInt32_missing {sign : List UInt8} {negative : Bool} (blanks : Blank blank)
    (signed : IsSign sign negative) :
    (⟨blank ++ sign, false, false⟩ : InputStream).getUInt32 negation 0 =
      (⟨[], true, true⟩, 0) := by
  cases signed with
  | absent =>
    rw [List.append_nil, getUInt32, sentry_end blanks]
    rfl
  | plus =>
    rw [getUInt32_visible negation blanks (by decide)]
    rfl
  | minus =>
    rw [getUInt32_visible negation blanks (by decide)]
    rfl

theorem getUInt32_cases (negation : Negation) (s : List UInt8) :
    (∃ blank field rest n, s = blank ++ (field ++ rest) ∧ Blank blank ∧
        IsField negation field n ∧ EndsField rest ∧
        (⟨s, false, false⟩ : InputStream).getUInt32 negation 0 =
          (⟨rest, rest.isEmpty, false⟩, n)) ∨
      ∃ rest m, (⟨s, false, false⟩ : InputStream).getUInt32 negation 0 =
          (⟨rest, rest.isEmpty, true⟩, m) ∧
        (m = 2 ^ 32 - 1 ∨ m = 0 ∧ (rest = [] → ∃ blank sign negative,
          s = blank ++ sign ∧ Blank blank ∧ IsSign sign negative)) := by
  rcases exists_blank s with blanks | ⟨blank, b, back, rfl, blanks, visible⟩
  · refine .inr ⟨[], 0, ?_, .inr ⟨rfl, fun _ => ⟨s, [], false, ?_, blanks, .absent⟩⟩⟩
    · have missing := getUInt32_missing negation blanks .absent
      rwa [List.append_nil] at missing
    · exact (List.append_nil s).symm
  have extracted := getUInt32_visible negation blanks visible back 0
  obtain ⟨sign, signed, is⟩ := exists_sign (b :: back)
  generalize stripSign (b :: back) = stripped at extracted signed is
  obtain ⟨negative, field⟩ := stripped
  dsimp only at extracted signed is
  have cut := List.takeWhile_append_dropWhile (p := isDecimal) (l := field)
  have ends : EndsField (field.dropWhile isDecimal) := by
    intro c first
    have stops := List.head?_dropWhile_not isDecimal field
    rw [first] at stops
    exact stops
  have decimal : ∀ c ∈ field.takeWhile isDecimal, (digitOf 10 c).isSome :=
    fun c => List.mem_takeWhile_imp
  generalize field.takeWhile isDecimal = digits at extracted cut decimal
  generalize field.dropWhile isDecimal = rest at extracted cut ends
  rw [is]
  subst cut
  cases value : fieldValue negation negative digits with
  | some n =>
    have numeral : IsNumeral 10 digits := by
      refine ⟨?_, decimal⟩
      rintro rfl
      cases value
    refine .inl ⟨blank, sign ++ digits, rest, n, ?_, blanks, ⟨signed, numeral, value⟩, ends, ?_⟩
    · rw [List.append_assoc]
    · rw [← is, extracted]
      simp only [value]
  | none =>
    refine .inr ⟨rest, if digits = [] then 0 else 2 ^ 32 - 1, ?_, ?_⟩
    · rw [← is, extracted]
      simp only [value]
    · split
      next missing =>
        refine .inr ⟨rfl, fun last => ⟨blank, sign, negative, ?_, blanks, signed⟩⟩
        rw [missing, last, List.append_nil, List.append_nil]
      · exact .inl rfl

end InputStream

end ServerLib
