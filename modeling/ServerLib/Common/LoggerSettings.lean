import Mathlib.Data.List.TakeWhile
import ServerLib.Common.LoggerRuns

/-!
# What the environment and the source directory make of a logger

A level is named in the environment by a number or by the beginning of a word. The number is a
`long` that becomes an `int`, so a level can be named by numbers that are far too large. The file
of a message is cut at the source directory.
-/
namespace ServerLib

/-! ### Numbers as `strtol` reads them to their end -/

/-- The sign in front of a number. -/
inductive NumberSign where
  | none_ | plus | minus
  deriving DecidableEq, Repr

def NumberSign.text : NumberSign → List UInt8
  | none_ => []
  | plus => [43]
  | minus => [45]

def NumberSign.negative : NumberSign → Bool
  | minus => true
  | _ => false

/-- The nearest `long`. -/
def NumberSign.clamp (sign : NumberSign) (n : Nat) : Int :=
  match sign with
  | minus => max (-n) (-2 ^ 63)
  | _ => min n (2 ^ 63 - 1)

theorem stripSign_text (sign : NumberSign) {digits : List UInt8} (are : IsNumeral 10 digits) :
    stripSign (sign.text ++ digits) = (sign.negative, digits) := by
  cases sign with
  | plus => rfl
  | minus => rfl
  | none_ =>
    obtain ⟨some_, all⟩ := are
    cases digits with
    | nil => exact absurd rfl some_
    | cons b digits =>
      obtain ⟨-, noMinus, noPlus, -⟩ := digit_plain (by decide) (all b List.mem_cons_self)
      unfold NumberSign.text stripSign
      rw [List.nil_append]
      split
      next same => exact absurd (List.cons.inj same).1 noMinus
      next same => exact absurd (List.cons.inj same).1 noPlus
      · rfl

/-- A sign, or a digit, is no white space. -/
theorem dropWhile_spaces {spaces : List UInt8} (blank : ∀ b ∈ spaces, isSpace b = true)
    (sign : NumberSign) {digits : List UInt8} (are : IsNumeral 10 digits) :
    (spaces ++ (sign.text ++ digits)).dropWhile isSpace = sign.text ++ digits := by
  rw [List.dropWhile_append_of_pos blank]
  cases sign with
  | plus => rfl
  | minus => rfl
  | none_ =>
    obtain ⟨some_, all⟩ := are
    cases digits with
    | nil => exact absurd rfl some_
    | cons b digits =>
      have plain := digit_plain (by decide) (all b List.mem_cons_self)
      rw [NumberSign.text, List.nil_append, List.dropWhile_cons_of_neg]
      rw [plain.1]
      exact Bool.false_ne_true

theorem leadingDigits_ne_nil {digits : List UInt8} (are : IsNumeral 10 digits) :
    leadingDigits 10 digits ≠ [] := by
  intro none_
  have count := length_leadingDigits are.2
  rw [none_] at count
  exact are.1 (List.eq_nil_of_length_eq_zero count.symm)

theorem isNumeral_of_length {s : List UInt8} (some_ : s ≠ [])
    (all : s.length ≤ (leadingDigits 10 s).length) : IsNumeral 10 s := by
  refine ⟨some_, ?_⟩
  clear some_
  induction s with
  | nil => simp
  | cons b s ih =>
    rw [leadingDigits] at all
    cases digit : digitOf 10 b with
    | none => simp [digit] at all
    | some value =>
      rw [digit] at all
      intro c member
      rcases List.mem_cons.mp member with rfl | later
      · rw [digit]
        rfl
      · exact ih (Nat.le_of_succ_le_succ all) c later

theorem exists_sign (s : List UInt8) : ∃ sign : NumberSign, s = sign.text ++ (stripSign s).2 := by
  unfold stripSign
  split
  · exact ⟨.minus, rfl⟩
  · exact ⟨.plus, rfl⟩
  · exact ⟨.none_, rfl⟩

/-- A number behind white space. -/
structure NumberText (s : List UInt8) (sign : NumberSign) (digits : List UInt8) : Prop where
  numeral : IsNumeral 10 digits
  text : ∃ spaces, (∀ b ∈ spaces, isSpace b = true) ∧ s = spaces ++ (sign.text ++ digits)

/-- `strtol` reads a whole string: a number, or the empty string. -/
theorem strtolRest_eq_nil_iff (s : List UInt8) :
    strtolRest s = [] ↔ s = [] ∨ ∃ sign digits, NumberText s sign digits := by
  constructor
  · intro whole
    unfold strtolRest at whole
    dsimp only at whole
    split at whole
    · exact .inl whole
    next some_ =>
      right
      obtain ⟨sign, is⟩ := exists_sign (s.dropWhile isSpace)
      refine ⟨sign, (stripSign (s.dropWhile isSpace)).2, ?_, s.takeWhile isSpace, ?_, ?_⟩
      · apply isNumeral_of_length
        · intro nothing
          rw [nothing] at some_
          exact some_ rfl
        · exact List.drop_eq_nil_iff.mp whole
      · exact fun b member => List.mem_takeWhile_imp member
      · rw [← is, List.takeWhile_append_dropWhile]
  · rintro (rfl | ⟨sign, digits, are, spaces, blank, rfl⟩)
    · rfl
    · unfold strtolRest
      rw [dropWhile_spaces blank sign are, stripSign_text sign are]
      dsimp only
      rw [if_neg (leadingDigits_ne_nil are), length_leadingDigits are.2, List.drop_length]

theorem strtol_number {s digits : List UInt8} {sign : NumberSign}
    (number : NumberText s sign digits) : strtol 10 s = sign.clamp (numeral 10 digits) := by
  obtain ⟨are, spaces, blank, rfl⟩ := number
  -- none of the characters is the NUL that would end the string
  have visible : 0 ∉ spaces ++ (sign.text ++ digits) := by
    rw [List.mem_append, List.mem_append]
    rintro (space | mark | digit)
    · cases blank 0 space
    · cases sign with
      | none_ => cases mark
      | _ => simp [NumberSign.text] at mark
    · cases are.2 0 digit
  have whole : ∀ b ∈ spaces ++ (sign.text ++ digits), decide (b ≠ 0) = true := by
    intro b member
    rw [decide_eq_true_eq]
    rintro rfl
    exact visible member
  have unprefixed : stripPrefix 10 digits = digits := by
    unfold stripPrefix
    split
    · rw [if_neg (by simp)]
    · rfl
  unfold strtol
  rw [List.takeWhile_eq_self_iff.mpr whole, dropWhile_spaces blank sign are,
    stripSign_text sign are]
  dsimp only
  rw [unprefixed, ← Nat.coe_ofDigits]
  cases sign with
  | minus => rfl
  | plus => rfl
  | none_ => rfl

/-! ### Levels by name -/

/-- The words for levels, and their filters. -/
def levelWords : List (List UInt8 × Int32) :=
  [(ascii "TRACE", 0), (ascii "DEBUG", 16), (ascii "INF", 24), (ascii "WARN", 28),
    (ascii "ERR", 30)]

/-- What stands for a filter of levels: nothing, a number that is a filter as an `int`, or
something that begins with a word. -/
inductive NamesLevel : List UInt8 → Int32 → Prop where
  | empty : NamesLevel [] 0
  | number {s digits : List UInt8} {sign : NumberSign} (number : NumberText s sign digits)
      (low : 0 ≤ Int32.ofInt (sign.clamp (numeral 10 digits)))
      (high : Int32.ofInt (sign.clamp (numeral 10 digits)) ≤ 31) :
      NamesLevel s (Int32.ofInt (sign.clamp (numeral 10 digits)))
  | word {entry : List UInt8 × Int32} (listed : entry ∈ levelWords) (rest : List UInt8) :
      NamesLevel (entry.1 ++ rest) entry.2

/-- A word begins with a letter, so `strtol` stops at its start. -/
theorem word_not_number {entry : List UInt8 × Int32} (listed : entry ∈ levelWords)
    (rest : List UInt8) : strtolRest (entry.1 ++ rest) ≠ [] := by
  simp only [levelWords, List.mem_cons, List.not_mem_nil, or_false] at listed
  rcases listed with rfl | rfl | rfl | rfl | rfl
  all_goals exact List.cons_ne_nil _ _

namespace Logger

theorem setLevel_eq_returned_iff (s : Logger) (filter filter' : Int32) :
    s.setLevel filter = .returned { s with levelFilter := filter' } ↔
      filter = filter' ∧ 0 ≤ filter ∧ filter ≤ 31 := by
  unfold setLevel
  split
  next range =>
    constructor
    · intro same
      injection same with same
      injection same with same
      exact ⟨same, range⟩
    · rintro ⟨rfl, -⟩
      rfl
  next outside =>
    constructor
    · intro same
      cases same
    · rintro ⟨-, range⟩
      exact absurd range outside

/-- A value from the environment is taken exactly if it names a level. -/
theorem setLevelFromEnvironment_iff (s : Logger) (value : List UInt8) (filter : Int32) :
    s.setLevelFromEnvironment (some value) = .returned { s with levelFilter := filter } ↔
      NamesLevel value filter := by
  constructor
  · intro taken
    unfold setLevelFromEnvironment at taken
    dsimp only at taken
    split at taken
    next whole =>
      obtain ⟨rfl, low, high⟩ := (setLevel_eq_returned_iff s _ _).mp taken
      rcases (strtolRest_eq_nil_iff value).mp whole with rfl | ⟨sign, digits, number⟩
      · exact .empty
      · rw [strtol_number number] at low high ⊢
        exact .number number low high
    next word =>
      have named : ∀ entry ∈ levelWords, entry.1.isPrefixOf value = true →
          s.setLevel entry.2 = .returned { s with levelFilter := filter } →
          NamesLevel value filter := by
        intro entry listed begins set
        obtain ⟨rest, rfl⟩ := List.isPrefixOf_iff_prefix.mp begins
        obtain ⟨rfl, -⟩ := (setLevel_eq_returned_iff s _ _).mp set
        exact .word listed rest
      split at taken
      next begins => exact named (ascii "TRACE", 0) (by decide) begins taken
      split at taken
      next begins => exact named (ascii "DEBUG", 16) (by decide) begins taken
      split at taken
      next begins => exact named (ascii "INF", 24) (by decide) begins taken
      split at taken
      next begins => exact named (ascii "WARN", 28) (by decide) begins taken
      split at taken
      next begins => exact named (ascii "ERR", 30) (by decide) begins taken
      · cases taken
  · intro names
    cases names with
    | empty => rfl
    | number number low high =>
      unfold setLevelFromEnvironment
      dsimp only
      rw [if_pos ((strtolRest_eq_nil_iff value).mpr (.inr ⟨_, _, number⟩)), strtol_number number]
      exact (setLevel_eq_returned_iff s _ _).mpr ⟨rfl, low, high⟩
    | word listed rest =>
      unfold setLevelFromEnvironment
      dsimp only
      rw [if_neg (word_not_number listed rest)]
      simp only [levelWords, List.mem_cons, List.not_mem_nil, or_false] at listed
      rcases listed with rfl | rfl | rfl | rfl | rfl
      all_goals rfl

/-- Numbers from 2^32 on begin again, and a level is named by a number that no `long` can hold. -/
example : ({} : Logger).setLevelFromEnvironment (some (ascii "4294967312")) =
    .returned { levelFilter := 16 } ∧
    ({} : Logger).setLevelFromEnvironment (some (ascii "-9223372036854775809")) =
      .returned { levelFilter := 0 } := ⟨rfl, rfl⟩

end Logger

/-! ### The file of a message -/

theorem trimLoop_none (left : Nat) (file : List UInt8) :
    trimLoop left none file = file.take left := by
  induction file generalizing left with
  | nil =>
    cases left with
    | zero => rfl
    | succ left => rfl
  | cons c file ih =>
    cases left with
    | zero => rfl
    | succ left => rw [trimLoop, ih, List.take_succ_cons]

/-- The character that differs from the directory is skipped. -/
theorem trimLoop_differs (left : Nat) (shared tail rest : List UInt8) {c : UInt8}
    (differs : tail.head? ≠ some c) :
    trimLoop (left + 1) (some (shared ++ tail)) (shared ++ c :: rest) = rest.take (left + 1) := by
  induction shared with
  | nil =>
    cases tail with
    | nil => exact trimLoop_none (left + 1) rest
    | cons d tail =>
      have other : ¬ c = d := fun same => differs (by rw [same]; rfl)
      rw [List.nil_append, List.nil_append, trimLoop, if_neg other]
      exact trimLoop_none (left + 1) rest
  | cons b shared ih =>
    rw [List.cons_append, List.cons_append, trimLoop, if_pos rfl]
    exact ih

theorem trimLoop_shared (left : Nat) {file root : List UInt8} (begins : file <+: root) :
    trimLoop (left + 1) (some root) file = [] := by
  induction file generalizing root with
  | nil => rw [trimLoop]; exact Nat.succ_ne_zero left
  | cons c file ih =>
    obtain ⟨tail, rfl⟩ := begins
    rw [List.cons_append, trimLoop, if_pos rfl]
    exact ih (List.prefix_append file tail)

/-- How many characters of the file may be taken. -/
def trimmedSize (root file : List UInt8) : Nat :=
  if root.length < file.length then file.length - root.length else file.length + 1

theorem trimFilePath_some (root file : List UInt8) :
    ∃ left, trimmedSize root file = left + 1 ∧
      trimFilePath (some root) file = trimLoop (left + 1) (some root) file := by
  unfold trimmedSize trimFilePath
  dsimp only
  by_cases longer : root.length < file.length
  · rw [if_pos longer, if_pos (Nat.succ_lt_succ longer), Nat.add_sub_add_right]
    exact ⟨file.length - root.length - 1, by omega, by congr 1; omega⟩
  · rw [if_neg longer, if_neg fun below => longer (Nat.lt_of_succ_lt_succ below)]
    exact ⟨file.length, rfl, rfl⟩

/-- The file of a message loses what it has in common with the source directory and one character
more. A file in the directory so keeps its path in there, and another one is cut somewhere. -/
theorem trimFilePath_eq (root file : List UInt8) :
    (file <+: root → trimFilePath (some root) file = []) ∧
    (∀ separator path, file = root ++ separator :: path →
      trimFilePath (some root) file = path) ∧
    ∀ shared c rest tail, file = shared ++ c :: rest → root = shared ++ tail →
      tail.head? ≠ some c → trimFilePath (some root) file = rest.take (trimmedSize root file) := by
  obtain ⟨left, size, is⟩ := trimFilePath_some root file
  rw [is]
  refine ⟨trimLoop_shared left, ?_, ?_⟩
  · rintro separator path rfl
    have loop := trimLoop_differs left root [] path (c := separator) (by simp)
    rw [List.append_nil] at loop
    rw [loop, ← size]
    apply List.take_of_length_le
    unfold trimmedSize
    rw [if_pos (by simp), List.length_append, List.length_cons]
    omega
  · rintro shared c rest tail rfl rfl differs
    rw [trimLoop_differs left shared tail rest differs, size]

end ServerLib
