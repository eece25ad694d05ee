import ServerLib.Common.Version

/-!
# Which strings are versions

A version is written as three numbers with two dots or two underscores between them, and white
space may stand in front of each of these. `from_string` looks at the separators, at the numbers,
and whether the end has been reached, but not whether the extractions have gone through. If one of
the first four fails the second separator is missing. If the last one fails at the end the number
is zero. And a stream takes a sign in front of a number.
-/
namespace ServerLib

open InputStream (Blank IsSign IsField EndsField)

/-- The parts of a version, with what is in front of each of them. -/
structure VersionText where
  w₁ : List UInt8
  first : List UInt8
  w₂ : List UInt8
  separator : UInt8
  w₃ : List UInt8
  second : List UInt8
  w₄ : List UInt8
  w₅ : List UInt8
  third : List UInt8

namespace VersionText

def text (l : VersionText) : List UInt8 :=
  l.w₁ ++ (l.first ++ (l.w₂ ++ l.separator ::
    (l.w₃ ++ (l.second ++ (l.w₄ ++ l.separator :: (l.w₅ ++ l.third))))))

/-- White space is in front of the parts, and dots or underscores between them. -/
structure Spaced (l : VersionText) : Prop where
  blank₁ : Blank l.w₁
  blank₂ : Blank l.w₂
  blank₃ : Blank l.w₃
  blank₄ : Blank l.w₄
  blank₅ : Blank l.w₅
  separator : l.separator = 46 ∨ l.separator = 95

/-- The parts are numbers. -/
structure Numerals (l : VersionText) : Prop where
  first : IsNumeral 10 l.first
  second : IsNumeral 10 l.second
  third : IsNumeral 10 l.third

end VersionText

/-- The string is a version in its canonical form. -/
def Canonical (s : List UInt8) (v : Version) : Prop :=
  ∃ l : VersionText, l.text = s ∧ l.Spaced ∧ l.Numerals ∧ numeral 10 l.first ≤ 255 ∧
    numeral 10 l.second ≤ 255 ∧ numeral 10 l.third ≤ 65535 ∧
    v = .create (numeral 10 l.first).toUInt8 (numeral 10 l.second).toUInt8
      (numeral 10 l.third).toUInt16

/-- What is taken for the last number: a field, or no more than a sign. -/
inductive IsLast (negation : Negation) : List UInt8 → Nat → Prop where
  | field {text : List UInt8} {n : Nat} (isField : IsField negation text n) :
      IsLast negation text n
  | missing {sign : List UInt8} {negative : Bool} (signed : IsSign sign negative) :
      IsLast negation sign 0

/-- The parts are taken for numbers in their ranges. -/
structure Taken (negation : Negation) (l : VersionText) (major hardfork revision : Nat) : Prop where
  first : IsField negation l.first major
  second : IsField negation l.second hardfork
  third : IsLast negation l.third revision
  major_le : major ≤ 255
  hardfork_le : hardfork ≤ 255
  revision_le : revision ≤ 65535

/-- The parts are taken for numbers, but one of them has a sign, or the last one is missing. -/
def Slips (negation : Negation) (s : List UInt8) : Prop :=
  ∃ l : VersionText, l.text = s ∧ l.Spaced ∧
    (∃ major hardfork revision, Taken negation l major hardfork revision) ∧ ¬ l.Numerals

variable {negation : Negation} {s : List UInt8} {v : Version} {l : VersionText}

namespace Version

theorem fromString_taken {major hardfork revision : Nat} (spaced : l.Spaced)
    (taken : Taken negation l major hardfork revision) :
    fromString negation l.text =
      .ok (create major.toUInt8 hardfork.toUInt8 revision.toUInt16) := by
  have plain : ∀ b, b = l.separator ∨ b = l.separator →
      isSpace b = false ∧ isDecimal b = false := by
    have separators : ∀ b : UInt8, b = 46 ∨ b = 95 → isSpace b = false ∧ isDecimal b = false := by
      rintro b (rfl | rfl) <;> decide
    rintro b (rfl | rfl) <;> exact separators _ spaced.separator
  have last : ∃ fail, InputStream.getUInt32 negation ⟨l.w₅ ++ l.third, false, false⟩ 0 =
      (⟨[], true, fail⟩, revision) := by
    cases taken.third with
    | field isField =>
      have read := InputStream.getUInt32_field spaced.blank₅ isField InputStream.endsField_nil 0
      rw [List.append_nil] at read
      exact ⟨false, read⟩
    | missing signed =>
      exact ⟨true, InputStream.getUInt32_missing negation spaced.blank₅ signed⟩
  obtain ⟨fail, last⟩ := last
  rw [VersionText.text, fromString_read spaced.blank₁ spaced.blank₂ spaced.blank₃ spaced.blank₄
    taken.first taken.second plain, last]
  exact ofParts_eq_ok_iff.mpr ⟨spaced.separator, rfl, taken.major_le, taken.hardfork_le,
    taken.revision_le, rfl, rfl⟩

/-- Without a second separator there is no version. -/
theorem ofParts_unseparated {dotA : UInt8} {major hardfork revision : Nat} {eof : Bool} :
    ofParts dotA 0 major hardfork revision eof ≠ .ok v := by
  intro is
  obtain ⟨separator, rfl, _⟩ := ofParts_eq_ok_iff.mp is
  revert separator
  decide

/-- A number and the character behind it are read, or what has been read is no separator and the
stream is bad. -/
theorem part_cases (negation : Negation) (s : List UInt8) :
    (∃ w field w' b rest, s = w ++ (field ++ (w' ++ b :: rest)) ∧ Blank w ∧ Blank w' ∧
        IsField negation field (InputStream.getUInt32 negation ⟨s, false, false⟩ 0).2 ∧
        (InputStream.getUInt32 negation ⟨s, false, false⟩ 0).1.getChar 0 =
          (⟨rest, false, false⟩, b)) ∨
      ((InputStream.getUInt32 negation ⟨s, false, false⟩ 0).1.getChar 0).2 = 0 ∧
        ((InputStream.getUInt32 negation ⟨s, false, false⟩ 0).1.getChar 0).1.good = false := by
  rcases InputStream.getUInt32_cases negation s with
    ⟨w, field, rest, n, rfl, blank, isField, _, read⟩ | ⟨rest, m, failed, _⟩
  · rw [read]
    cases rest with
    | nil =>
      have bad : (⟨[], true, false⟩ : InputStream).good = false := rfl
      rw [List.isEmpty_nil, InputStream.getChar_bad bad]
      exact .inr ⟨rfl, rfl⟩
    | cons b rest =>
      rw [List.isEmpty_cons]
      rcases InputStream.getChar_cases (b :: rest) 0 with ⟨w', c, back, is, blank', got⟩ | ended
      · rw [is] at got ⊢
        exact .inl ⟨w, field, w', c, back, rfl, blank, blank', isField, got⟩
      · rw [ended]
        exact .inr ⟨rfl, rfl⟩
  · have bad : (⟨rest, rest.isEmpty, true⟩ : InputStream).good = false := by
      simp [InputStream.good]
    rw [failed, InputStream.getChar_bad bad]
    exact .inr ⟨rfl, by simp [InputStream.good]⟩

/-- The second separator is missing when the stream is bad in front of the second number. -/
theorem unseparated {s : InputStream} (bad : s.good = false) (negation : Negation) :
    ((s.getUInt32 negation 0).1.getChar 0).2 = 0 := by
  have stays : ({ s with fail := true } : InputStream).good = false := by
    simp [InputStream.good]
  rw [InputStream.getUInt32_bad bad, InputStream.getChar_bad stays]

/-- What is read up to the end and small enough is taken for the last number. -/
theorem last_taken (ended : (InputStream.getUInt32 negation ⟨s, false, false⟩ 0).1.eof = true)
    (small : (InputStream.getUInt32 negation ⟨s, false, false⟩ 0).2 ≤ 65535) :
    ∃ w field, s = w ++ field ∧ Blank w ∧
      IsLast negation field (InputStream.getUInt32 negation ⟨s, false, false⟩ 0).2 := by
  rcases InputStream.getUInt32_cases negation s with
    ⟨w, field, rest, n, rfl, blank, isField, _, read⟩ | ⟨rest, m, failed, stored⟩
  · rw [read] at ended ⊢
    obtain rfl := List.isEmpty_iff.mp ended
    exact ⟨w, field, by rw [List.append_nil], blank, .field isField⟩
  · rw [failed] at ended small ⊢
    rcases stored with rfl | ⟨rfl, missing⟩
    · have large : ¬ 2 ^ 32 - 1 ≤ 65535 := by decide
      exact absurd small large
    · obtain ⟨w, sign, negative, rfl, blank, signed⟩ := missing (List.isEmpty_iff.mp ended)
      exact ⟨w, sign, rfl, blank, .missing signed⟩

theorem exists_taken (accepted : fromString negation s = .ok v) :
    ∃ (l : VersionText) (major hardfork revision : Nat), l.text = s ∧ l.Spaced ∧
      Taken negation l major hardfork revision ∧
      v = create major.toUInt8 hardfork.toUInt8 revision.toUInt16 := by
  unfold fromString at accepted
  dsimp only at accepted
  rcases part_cases negation s with
    ⟨w₁, first, w₂, c, rest, is, blank₁, blank₂, isFirst, read⟩ | ⟨_, bad⟩
  · rw [read] at accepted
    rcases part_cases negation rest with
      ⟨w₃, second, w₄, d, rest', is', blank₃, blank₄, isSecond, read'⟩ | ⟨missing, _⟩
    · rw [read'] at accepted
      obtain ⟨separator, rfl, major_le, hardfork_le, revision_le, ended, rfl⟩ :=
        ofParts_eq_ok_iff.mp accepted
      obtain ⟨w₅, third, whole, blank₅, isThird⟩ := last_taken ended revision_le
      refine ⟨⟨w₁, first, w₂, c, w₃, second, w₄, w₅, third⟩, _, _, _, ?_, ?_, ?_, rfl⟩
      · rw [is, is', whole]
        rfl
      · exact ⟨blank₁, blank₂, blank₃, blank₄, blank₅, separator⟩
      · exact ⟨isFirst, isSecond, isThird, major_le, hardfork_le, revision_le⟩
    · rw [missing] at accepted
      exact absurd accepted ofParts_unseparated
  · rw [unseparated bad] at accepted
    exact absurd accepted ofParts_unseparated

/-- A numeral is a field that stands for it. -/
theorem taken_numerals (numerals : l.Numerals) (major_le : numeral 10 l.first ≤ 255)
    (hardfork_le : numeral 10 l.second ≤ 255) (revision_le : numeral 10 l.third ≤ 65535) :
    Taken negation l (numeral 10 l.first) (numeral 10 l.second) (numeral 10 l.third) := by
  have isField : ∀ s, IsNumeral 10 s → numeral 10 s < 2 ^ 32 →
      IsField negation s (numeral 10 s) := by
    intro s isNumeral fits
    have value : fieldValue negation false s = some (numeral 10 s) := by
      rw [fieldValue, if_neg isNumeral.1, if_neg Bool.false_ne_true, if_pos fits]
    exact .intro .absent isNumeral value
  exact ⟨isField _ numerals.first (by omega), isField _ numerals.second (by omega),
    .field (isField _ numerals.third (by omega)), major_le, hardfork_le, revision_le⟩

/-- A field that is a numeral stands for it. -/
theorem isField_numeral {field : List UInt8} {n : Nat} (isField : IsField negation field n)
    (isNumeral : IsNumeral 10 field) : n = numeral 10 field := by
  obtain ⟨signed, digits, value⟩ := isField
  cases signed with
  | absent =>
    rw [fieldValue, if_neg digits.1, if_neg Bool.false_ne_true,
      Option.ite_none_right_eq_some, Option.some.injEq] at value
    exact value.2.symm
  | plus => exact absurd rfl (digit_plain (by decide) (isNumeral.2 43 List.mem_cons_self)).2.2.1
  | minus => exact absurd rfl (digit_plain (by decide) (isNumeral.2 45 List.mem_cons_self)).2.1

theorem isLast_numeral {field : List UInt8} {n : Nat} (isLast : IsLast negation field n)
    (isNumeral : IsNumeral 10 field) : n = numeral 10 field := by
  cases isLast with
  | field isField => exact isField_numeral isField isNumeral
  | missing signed =>
    cases signed with
    | absent => exact absurd rfl isNumeral.1
    | plus => exact absurd rfl (digit_plain (by decide) (isNumeral.2 43 List.mem_cons_self)).2.2.1
    | minus => exact absurd rfl (digit_plain (by decide) (isNumeral.2 45 List.mem_cons_self)).2.1

theorem canonical_of_numerals {major hardfork revision : Nat} (spaced : l.Spaced)
    (taken : Taken negation l major hardfork revision) (numerals : l.Numerals) :
    Canonical l.text (create major.toUInt8 hardfork.toUInt8 revision.toUInt16) := by
  obtain ⟨first, second, third, major_le, hardfork_le, revision_le⟩ := taken
  have same := isField_numeral first numerals.first
  have same' := isField_numeral second numerals.second
  have same'' := isLast_numeral third numerals.third
  subst same same' same''
  exact ⟨l, rfl, spaced, numerals, major_le, hardfork_le, revision_le, rfl⟩

theorem accepted_of_canonical (canonical : Canonical s v) : fromString negation s = .ok v := by
  obtain ⟨l, rfl, spaced, numerals, major_le, hardfork_le, revision_le, rfl⟩ := canonical
  exact fromString_taken spaced (taken_numerals numerals major_le hardfork_le revision_le)

end Version

/-! ### Canonical strings do not slip -/

namespace VersionText

/-- No sign stands in a canonical string, and a digit is at its end. -/
theorem plain_of_numerals (spaced : l.Spaced) (numerals : l.Numerals) :
    (∀ b ∈ l.text, b ≠ 43 ∧ b ≠ 45) ∧ ∃ front b, l.text = front ++ [b] ∧ isDecimal b = true := by
  have ofSpace : ∀ w, Blank w → ∀ b ∈ w, b ≠ 43 ∧ b ≠ 45 := by
    intro w blank b member
    have space := blank b member
    constructor <;> rintro rfl <;> exact absurd space (by decide)
  have ofDigit : ∀ s, IsNumeral 10 s → ∀ b ∈ s, b ≠ 43 ∧ b ≠ 45 := by
    intro s isNumeral b member
    have plain := digit_plain (by decide) (isNumeral.2 b member)
    exact ⟨plain.2.2.1, plain.2.1⟩
  have ofSeparator : l.separator ≠ 43 ∧ l.separator ≠ 45 := by
    rcases spaced.separator with is | is <;> rw [is] <;> decide
  constructor
  · intro b member
    simp only [text, List.mem_append, List.mem_cons] at member
    rcases member with h | h | h | rfl | h | h | h | rfl | h | h
    · exact ofSpace _ spaced.blank₁ b h
    · exact ofDigit _ numerals.first b h
    · exact ofSpace _ spaced.blank₂ b h
    · exact ofSeparator
    · exact ofSpace _ spaced.blank₃ b h
    · exact ofDigit _ numerals.second b h
    · exact ofSpace _ spaced.blank₄ b h
    · exact ofSeparator
    · exact ofSpace _ spaced.blank₅ b h
    · exact ofDigit _ numerals.third b h
  · obtain ⟨digits, b, is⟩ := (List.eq_nil_or_concat l.third).resolve_left numerals.third.1
    rw [List.concat_eq_append] at is
    refine ⟨l.w₁ ++ (l.first ++ (l.w₂ ++ l.separator :: (l.w₃ ++ (l.second ++
      (l.w₄ ++ l.separator :: (l.w₅ ++ digits)))))), b, ?_, ?_⟩
    · simp [text, is]
    · apply numerals.third.2
      rw [is]
      exact List.mem_append_right _ List.mem_cons_self

theorem sign_of_field {field : List UInt8} {n : Nat} (isField : IsField negation field n)
    (odd : ¬ IsNumeral 10 field) : ∃ b ∈ field, b = 43 ∨ b = 45 := by
  obtain ⟨signed, digits, _⟩ := isField
  cases signed with
  | absent => exact absurd digits odd
  | plus => exact ⟨43, List.mem_cons_self, .inl rfl⟩
  | minus => exact ⟨45, List.mem_cons_self, .inr rfl⟩

/-- If it is taken for a version without being canonical there is a sign in it, or something else
than a digit at its end. -/
theorem odd_of_slip {major hardfork revision : Nat} (spaced : l.Spaced)
    (taken : Taken negation l major hardfork revision) (odd : ¬ l.Numerals) :
    (∃ b ∈ l.text, b = 43 ∨ b = 45) ∨
      ∃ front b, l.text = front ++ [b] ∧ isDecimal b = false := by
  have within : ∀ part : List UInt8, part ⊆ l.text → (∃ b ∈ part, b = 43 ∨ b = 45) →
      ∃ b ∈ l.text, b = 43 ∨ b = 45 := by
    rintro part subset ⟨b, member, sign⟩
    exact ⟨b, subset member, sign⟩
  by_cases first : IsNumeral 10 l.first
  · by_cases second : IsNumeral 10 l.second
    · have third : ¬ IsNumeral 10 l.third := fun third => odd ⟨first, second, third⟩
      have subset : l.third ⊆ l.text := by
        intro b member
        simp [text, member]
      have isThird := taken.third
      generalize revision = n at isThird
      cases missing : l.third with
      | nil =>
        -- white space or the separator is at the end
        right
        rcases List.eq_nil_or_concat l.w₅ with none | ⟨w, b, is⟩
        · refine ⟨l.w₁ ++ (l.first ++ (l.w₂ ++ l.separator :: (l.w₃ ++ (l.second ++ l.w₄)))),
            l.separator, ?_, ?_⟩
          · simp [text, missing, none]
          · rcases spaced.separator with is | is <;> rw [is] <;> decide
        · rw [List.concat_eq_append] at is
          refine ⟨l.w₁ ++ (l.first ++ (l.w₂ ++ l.separator :: (l.w₃ ++ (l.second ++
            (l.w₄ ++ l.separator :: w))))), b, ?_, ?_⟩
          · simp [text, missing, is]
          · apply InputStream.isDecimal_of_isSpace
            apply spaced.blank₅
            rw [is]
            exact List.mem_append_right _ List.mem_cons_self
      | cons b rest =>
        left
        apply within l.third subset
        cases isThird with
        | field isField => exact sign_of_field isField third
        | missing signed =>
          rw [missing] at signed ⊢
          cases signed with
          | plus => exact ⟨43, List.mem_cons_self, .inl rfl⟩
          | minus => exact ⟨45, List.mem_cons_self, .inr rfl⟩
    · left
      apply within l.second ?_ (sign_of_field taken.second second)
      intro b member
      simp [text, member]
  · left
    apply within l.first ?_ (sign_of_field taken.first first)
    intro b member
    simp [text, member]

end VersionText

namespace Version

/-- A string is accepted exactly if it is canonical, and its numbers are returned, unless it is
taken for a version although there is a sign or the last number is missing. -/
theorem parsing_exact_iff (negation : Negation) (s : List UInt8) :
    (∀ v, fromString negation s = .ok v ↔ Canonical s v) ↔ ¬ Slips negation s := by
  constructor
  · rintro exact_ ⟨l, rfl, spaced, ⟨major, hardfork, revision, taken⟩, odd⟩
    obtain ⟨l', same, spaced', numerals, _⟩ := (exact_ _).mp (fromString_taken spaced taken)
    obtain ⟨signless, front, b, ends, digit⟩ := VersionText.plain_of_numerals spaced' numerals
    rw [same] at signless ends
    rcases VersionText.odd_of_slip spaced taken odd with
      ⟨c, member, sign⟩ | ⟨front', c, ends', other⟩
    · rcases sign with rfl | rfl
      · exact (signless _ member).1 rfl
      · exact (signless _ member).2 rfl
    · have last : b = c := by
        rw [ends] at ends'
        exact (List.cons.inj (List.append_inj' ends' rfl).2).1
      rw [last, other] at digit
      cases digit
  · intro slipless v
    constructor
    · intro accepted
      obtain ⟨l, major, hardfork, revision, rfl, spaced, taken, rfl⟩ := exists_taken accepted
      have numerals : l.Numerals := by
        by_contra odd
        exact slipless ⟨l, rfl, spaced, ⟨major, hardfork, revision, taken⟩, odd⟩
      exact canonical_of_numerals spaced taken numerals
    · exact accepted_of_canonical

/-- Without its last number a version is accepted, with zero for it. -/
theorem truncated_accepted :
    fromString wrapAround (ascii "1.2.") = .ok (create 1 2 0) ∧
      ¬ ∃ v, Canonical (ascii "1.2.") v := by
  constructor
  · decide +kernel
  · rintro ⟨v, l, is, spaced, numerals, _⟩
    obtain ⟨_, front, b, ends, digit⟩ := VersionText.plain_of_numerals spaced numerals
    rw [is, show ascii "1.2." = ascii "1.2" ++ [46] by decide] at ends
    have last : 46 = b := (List.cons.inj (List.append_inj' ends rfl).2).1
    rw [← last] at digit
    revert digit
    decide

/-- A sign is taken for a part of the number. -/
example : fromString wrapAround (ascii "+1_-0_3") = .ok (create 1 0 3) := by decide +kernel

end Version

end ServerLib
