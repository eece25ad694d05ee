import Mathlib.Data.List.TakeWhile
import ServerLib.Common.MatchContext

/-!
# Which files the watchdog takes for files of the log

The logger names its files after the pattern, with the number of the file. The watchdog reads
the digits it finds behind the name of the log, and then only looks whether the rest of the
pattern follows: there may be no digits at all, and anything may follow. `scroll_number` reads
an `int`, so it takes numbers from 2^31 on for invalid ones and some from 2^32 on for valid.
-/
namespace ServerLib.LogFilesWatchdog

/-- A pattern with one number, and an extension as `normalize_extension` leaves it. -/
structure CountPattern where
  logName : List UInt8
  width : List UInt8
  tail : List UInt8
  extension : List UInt8
  maxFiles : Nat
  logName_plain : 37 ∉ logName
  width_digits : ∀ b ∈ width, isDigit b
  tail_plain : 37 ∉ tail
  tail_start : ∀ b ∈ tail.head?, isDigit b = false
  extension_dot : ∀ b ∈ extension.head?, b = 46
  maxFiles_pos : 0 < maxFiles

namespace CountPattern

variable (p : CountPattern)

def config : LogFilesWatchdogConfig where
  logName := p.logName
  logVariablePattern := p.logName ++ 37 :: (p.width ++ 78 :: p.tail)
  logExtension := p.extension
  maxFiles := p.maxFiles

/-- The logger gives that name to a file, with a number of 32 bits. -/
def Produces (name : List UInt8) : Prop :=
  ∃ digits, IsNumeral 10 digits ∧ numeral 10 digits < 2 ^ 32 ∧
    name = p.logName ++ digits ++ p.tail ++ p.extension

/-- The digits behind the name of the log. -/
def digits (name : List UInt8) : List UInt8 := (name.drop p.logName.length).takeWhile isDigit

/-- What follows them. -/
def rest (name : List UInt8) : List UInt8 := (name.drop p.logName.length).dropWhile isDigit

def number (name : List UInt8) : Nat := numeral 10 (p.digits name)

def ExtensionFits (lib : WatchdogLibrary) (name : List UInt8) : Prop :=
  p.extension = [] ∨ lib.extension name = p.extension

end CountPattern

/-- A number that `scroll_number` does not take for an invalid one. -/
def NumberTaken (n : Nat) : Prop := n = 0 ∨ 1 ≤ Int.bmod (min n (2 ^ 63 - 1)) (2 ^ 32)

instance (n : Nat) : Decidable (NumberTaken n) := inferInstanceAs (Decidable (_ ∨ _))

/-- The file is taken for one of the log although its digits are missing, stand for 2^32 or
more, or are not followed by the tail and the extension alone. -/
def CountPattern.Mistaken (p : CountPattern) (lib : WatchdogLibrary) (name : List UInt8) : Prop :=
  p.logName <+: name ∧ p.tail <+: p.rest name ∧ p.ExtensionFits lib name ∧
    NumberTaken (p.number name) ∧
    (p.digits name = [] ∨ 2 ^ 32 ≤ p.number name ∨ p.rest name ≠ p.tail ++ p.extension)

instance (p : CountPattern) (lib : WatchdogLibrary) (name : List UInt8) :
    Decidable (p.ExtensionFits lib name) := inferInstanceAs (Decidable (_ ∨ _))

instance (p : CountPattern) (lib : WatchdogLibrary) (name : List UInt8) :
    Decidable (p.Mistaken lib name) := inferInstanceAs (Decidable (_ ∧ _))

/-- The file is one of the log and is left alone: it has a number from 2^31 on, or an extension
that is not what `path::extension` finds. -/
def CountPattern.Missed (p : CountPattern) (lib : WatchdogLibrary) (name : List UInt8) : Prop :=
  p.logName <+: name ∧ p.digits name ≠ [] ∧ p.number name < 2 ^ 32 ∧
    p.rest name = p.tail ++ p.extension ∧
    (2 ^ 31 ≤ p.number name ∨ ¬ p.ExtensionFits lib name)

/-! ### Reading a number -/

theorem digitOf_of_isDigit {b : UInt8} (digit : isDigit b) :
    digitOf 10 b = some (b.toNat - 48) := by
  simp only [isDigit, Bool.and_eq_true, decide_eq_true_eq] at digit
  have small : b.toNat ≤ 57 := digit.2
  simp only [digitOf, if_pos digit]
  exact if_pos (by omega)

theorem isDigit_of_digitOf {b : UInt8} (digit : (digitOf 10 b).isSome) : isDigit b := by
  obtain ⟨value, found⟩ := Option.isSome_iff_exists.mp digit
  unfold digitOf at found
  simp only [Option.ite_none_right_eq_some] at found
  obtain ⟨below, -⟩ := found
  by_contra other
  simp only [isDigit, Bool.and_eq_true, decide_eq_true_eq] at other
  rw [if_neg other] at below
  split at below
  next letter =>
    have large : 97 ≤ b.toNat := letter.1
    omega
  · split at below
    next letter =>
      have large : 65 ≤ b.toNat := letter.1
      omega
    · omega

theorem isNumeral_iff {s : List UInt8} : IsNumeral 10 s ↔ s ≠ [] ∧ ∀ b ∈ s, isDigit b := by
  refine and_congr_right fun _ => forall₂_congr fun b _ => ⟨isDigit_of_digitOf, fun digit => ?_⟩
  rw [digitOf_of_isDigit digit]
  rfl

theorem numeral_eq_zero_iff {s : List UInt8} (digits : ∀ b ∈ s, isDigit b) :
    numeral 10 s = 0 ↔ ∀ b ∈ s, b = 48 := by
  induction s with
  | nil => simp [numeral, leadingDigits]
  | cons b s ih =>
    obtain ⟨digit, digits⟩ := List.forall_mem_cons.mp digits
    -- a digit is a zero exactly if its value is
    have low : 48 ≤ b.toNat := by
      simp only [isDigit, Bool.and_eq_true, decide_eq_true_eq] at digit
      exact digit.1
    have zero : b.toNat - 48 = 0 ↔ b = 48 := by
      constructor
      · exact fun none_ => UInt8.toNat_inj.mp (show b.toNat = 48 by omega)
      · rintro rfl
        rfl
    rw [numeral, leadingDigits, digitOf_of_isDigit digit, Nat.ofDigits_reverse_cons,
      List.forall_mem_cons, ← ih digits, ← zero, Nat.add_eq_zero_iff, Nat.mul_eq_zero]
    simp only [numeral, Nat.pow_eq_zero, OfNat.ofNat_ne_zero, false_and, false_or]
    exact and_comm

theorem readNumber_eq {it : List UInt8} (nulFree : 0 ∉ it) :
    readNumber it = (it.takeWhile isDigit, it.dropWhile isDigit) := by
  induction it with
  | nil => rfl
  | cons s it ih =>
    obtain ⟨first, nulFree⟩ := not_or.mp (List.mem_cons.not.mp nulFree)
    rw [readNumber, if_neg (Ne.symm first), List.takeWhile_cons, List.dropWhile_cons, ih nulFree]
    split <;> rfl

/-- What `scroll_number` takes for invalid. -/
theorem scrollNumber_eq {it : List UInt8} (nulFree : 0 ∉ it) :
    scrollNumber it =
      if NumberTaken (numeral 10 (it.takeWhile isDigit)) then some (it.dropWhile isDigit)
      else none := by
  have zero := numeral_eq_zero_iff fun b (among : b ∈ it.takeWhile isDigit) =>
    List.mem_takeWhile_imp among
  have refused : atoi (it.takeWhile isDigit) < 1 ∧ (it.takeWhile isDigit).any (· ≠ 48) ↔
      ¬ NumberTaken (numeral 10 (it.takeWhile isDigit)) := by
    rw [NumberTaken, zero, atoi, not_or, Int.not_le, and_comm]
    simp
  simp only [scrollNumber, readNumber_eq nulFree, refused, ite_not]

theorem readConversion_digits {width : List UInt8} (digits : ∀ b ∈ width, isDigit b)
    (tail : List UInt8) : readConversion (width ++ 78 :: tail) = (78, tail) := by
  induction width with
  | nil => rfl
  | cons b width ih =>
    obtain ⟨digit, digits⟩ := List.forall_mem_cons.mp digits
    have some_ : b ≠ 0 := by
      rintro rfl
      exact nomatch digit
    rw [List.cons_append, readConversion, if_pos ⟨some_, digit⟩, ih digits]

/-- A number below 2^31 is taken, and none of those from there to 2^32. -/
theorem numberTaken_iff {n : Nat} (below : n < 2 ^ 32) : NumberTaken n ↔ n < 2 ^ 31 := by
  unfold NumberTaken
  rw [Int.bmod_def]
  omega

/-! ### Walking through the pattern -/

section

variable {lib : WatchdogLibrary} {s : MatchState}

/-- A tail is the last thing in the pattern. -/
theorem scrollToSeparator_tail {tail : List UInt8} (plain : 37 ∉ tail) :
    scrollToSeparator tail = [] := by
  refine List.dropWhile_eq_nil_iff.mpr fun b among => ?_
  simpa using fun (same : b = 37) => plain (same ▸ among)

theorem walk_of_turn {t : MatchState} (turned : s.turn lib = t) :
    s.walk lib = if t.goesOn then t.walk lib else t := by
  rw [MatchState.walk_eq, turned]

theorem walk_tail (plain : 37 ∉ s.pattern) (ready : s.failed = false) :
    (s.walk lib).failed = false := by
  have turned : s.turn lib = { s with pattern := [] } := by
    rw [MatchState.turn, scrollToSeparator_tail plain]
    rfl
  rw [walk_of_turn turned]
  simp [MatchState.goesOn, ready]

/-- The digits have to be taken, and the tail has to follow them. What follows that is not looked
at. -/
theorem number_tail (plain : 37 ∉ s.pattern) (nulFree : 0 ∉ s.file) :
    s.number =
      if NumberTaken (numeral 10 (s.file.takeWhile isDigit)) ∧
          s.pattern <+: s.file.dropWhile isDigit then
        { s with file := (s.file.dropWhile isDigit).drop s.pattern.length }
      else s.fail := by
  unfold MatchState.number
  rw [scrollNumber_eq nulFree]
  by_cases taken : NumberTaken (numeral 10 (s.file.takeWhile isDigit))
  · simp only [taken, if_true, true_and, scrollToSeparator_tail plain, between, List.length_nil,
      Nat.sub_zero, List.take_length]
    by_cases empty : s.pattern = []
    · simp [empty, readPattern, List.nil_prefix]
    · simp [empty, scroll]
  · simp only [taken, false_and, if_false]

end

variable {p : CountPattern} {lib : WatchdogLibrary}

theorem CountPattern.turn_start (p : CountPattern) (lib : WatchdogLibrary)
    (file timePattern : List UInt8) :
    MatchState.turn lib { pattern := p.config.logVariablePattern, file, timePattern } =
      MatchState.number { pattern := p.tail, file, timePattern } := by
  have separator : scrollToSeparator p.config.logVariablePattern =
      37 :: (p.width ++ 78 :: p.tail) := by
    rw [CountPattern.config, scrollToSeparator, List.dropWhile_append_of_pos]
    · rfl
    · intro b among
      simpa using fun (same : b = 37) => p.logName_plain (same ▸ among)
  have read : readPattern (37 :: (p.width ++ 78 :: p.tail)) = (78, p.tail) :=
    readConversion_digits p.width_digits p.tail
  simp only [MatchState.turn, separator, read, if_true]

theorem CountPattern.walk_iff (p : CountPattern) (lib : WatchdogLibrary)
    {file : List UInt8} (nulFree : 0 ∉ file) (timePattern : List UInt8) :
    let s : MatchState := { pattern := p.config.logVariablePattern, file, timePattern }
    (s.walk lib).failed = false ↔
      NumberTaken (numeral 10 (file.takeWhile isDigit)) ∧ p.tail <+: file.dropWhile isDigit := by
  intro s
  -- the conversion is read in the first turn, and only the tail is left behind it
  have turned : s.turn lib = _ := p.turn_start lib file timePattern
  rw [number_tail p.tail_plain nulFree] at turned
  by_cases follows : NumberTaken (numeral 10 (file.takeWhile isDigit)) ∧
      p.tail <+: file.dropWhile isDigit
  · rw [if_pos follows] at turned
    rw [walk_of_turn turned]
    split
    · -- what is left of the file is walked along the tail, where nothing is compared
      have walked : ((s.turn lib).walk lib).failed = false :=
        walk_tail (turned ▸ p.tail_plain) (turned ▸ rfl)
      rw [turned] at walked
      exact ⟨fun _ => follows, fun _ => walked⟩
    · exact ⟨fun _ => follows, fun _ => rfl⟩
  · rw [if_neg follows] at turned
    rw [walk_of_turn turned]
    exact ⟨nofun, fun taken => absurd taken follows⟩

namespace CountPattern

theorem matchFile_iff (p : CountPattern) (lib : WatchdogLibrary) {f : LogFile}
    (regular : f.isRegular) (timePattern : List UInt8) :
    (matchFile lib p.config f timePattern).1 ↔
      p.logName <+: f.name ∧ p.ExtensionFits lib f.name ∧ NumberTaken (p.number f.name) ∧
        p.tail <+: p.rest f.name := by
  have behind : 0 ∉ f.name.drop p.logName.length := fun among =>
    f.nulFree (List.mem_of_mem_drop among)
  have walked := p.walk_iff lib behind timePattern
  have valid : p.config.logVariablePattern ≠ [] := by simp [config]
  unfold matchFile
  rw [if_neg (by simp [regular, valid])]
  split
  next astray =>
    -- another log
    have other : ¬ p.logName <+: f.name := fun before =>
      astray.2 (List.isPrefixOf_iff_prefix.mpr before)
    simp [other]
  next named =>
    have named : p.logName <+: f.name := by
      by_cases empty : p.logName = []
      · exact empty ▸ List.nil_prefix
      · exact List.isPrefixOf_iff_prefix.mp (not_not.mp fun astray => named ⟨empty, astray⟩)
    split
    next unfit =>
      have unfit : ¬ p.ExtensionFits lib f.name := by
        rintro (empty | same)
        · exact unfit.1 empty
        · exact unfit.2.elim (fun none_ => unfit.1 (same.symm.trans none_)) fun other => other same
      simp [unfit]
    next fits =>
      have fits : p.ExtensionFits lib f.name := by
        by_cases empty : p.extension = []
        · exact .inl empty
        · refine .inr (not_not.mp fun other => fits ⟨empty, .inr other⟩)
      simp only [named, fits, true_and, Bool.not_eq_true']
      exact walked

/-- Where there is no digit no digits are found. -/
theorem stopped {text : List UInt8} (stops : ∀ b ∈ text.head?, ¬ isDigit b) :
    text.takeWhile isDigit = [] ∧ text.dropWhile isDigit = text := by
  cases text with
  | nil => exact ⟨rfl, rfl⟩
  | cons b text =>
    have first : ¬ isDigit b := stops b rfl
    exact ⟨List.takeWhile_cons_of_neg first, List.dropWhile_cons_of_neg first⟩

/-- The number of a file of the log ends where its digits end. -/
theorem produces_iff (p : CountPattern) {name : List UInt8} :
    p.Produces name ↔ p.logName <+: name ∧ p.digits name ≠ [] ∧ p.number name < 2 ^ 32 ∧
      p.rest name = p.tail ++ p.extension := by
  constructor
  · rintro ⟨digits, isNumeral, small, rfl⟩
    obtain ⟨some_, all⟩ := isNumeral_iff.mp isNumeral
    -- neither the tail nor the extension begins with a digit, so the digits are taken as a whole
    have stops : ∀ b ∈ (p.tail ++ p.extension).head?, ¬ isDigit b := by
      intro b first
      rw [List.head?_append] at first
      cases tail : p.tail.head? with
      | some c =>
        rw [tail] at first
        cases first
        exact Bool.not_eq_true _ ▸ p.tail_start b tail
      | none =>
        rw [tail] at first
        rw [p.extension_dot b first]
        decide
    have behind : (p.logName ++ digits ++ p.tail ++ p.extension).drop p.logName.length =
        digits ++ (p.tail ++ p.extension) := by
      simp
    obtain ⟨none_, whole⟩ := stopped stops
    have taken : p.digits (p.logName ++ digits ++ p.tail ++ p.extension) = digits := by
      rw [CountPattern.digits, behind, List.takeWhile_append_of_pos all, none_, List.append_nil]
    have left : p.rest (p.logName ++ digits ++ p.tail ++ p.extension) = p.tail ++ p.extension := by
      rw [rest, behind, List.dropWhile_append_of_pos all, whole]
    refine ⟨⟨digits ++ (p.tail ++ p.extension), by simp⟩, ?_, ?_, left⟩
    · rw [taken]
      exact some_
    · rw [number, taken]
      exact small
  · rintro ⟨⟨behind, rfl⟩, some_, small, left⟩
    refine ⟨p.digits _, isNumeral_iff.mpr ⟨some_, ?_⟩, small, ?_⟩
    · exact fun b among => List.mem_takeWhile_imp among
    · rw [List.append_assoc _ p.tail, ← left, List.append_assoc, digits, rest,
        List.takeWhile_append_dropWhile, List.drop_left]

/-- A file is recognised rightly exactly if it is not one of those that are mistaken or missed. -/
theorem recognised_iff (p : CountPattern) (lib : WatchdogLibrary) {f : LogFile}
    (regular : f.isRegular) (timePattern : List UInt8) :
    ((matchFile lib p.config f timePattern).1 ↔ p.Produces f.name) ↔
      ¬ p.Mistaken lib f.name ∧ ¬ p.Missed lib f.name := by
  rw [p.matchFile_iff lib regular, produces_iff, Mistaken, Missed]
  have tailed : p.rest f.name = p.tail ++ p.extension → p.tail <+: p.rest f.name :=
    fun exact_ => ⟨p.extension, exact_.symm⟩
  -- from 2^32 on every file that is accepted is mistaken, and below that only a number from 2^31
  -- on is not taken
  by_cases small : p.number f.name < 2 ^ 32
  · rw [numberTaken_iff small]
    grind
  · grind

/-- What is removed matches. -/
theorem matched_of_removed {p : CountPattern} {lib : WatchdogLibrary} {f : LogFile}
    {directory : List LogFile} (removed : f ∈ removeExcessLogs lib p.config directory) :
    f ∈ directory ∧ (matchFile lib p.config f []).1 := by
  unfold removeExcessLogs baseMaxFilesStrategy at removed
  split at removed
  · exact nomatch removed
  · simp only at removed
    split at removed
    · rw [actWhile_eq_take, matchedFiles_eq_filter] at removed
      have among := (foldl_emplace_perm _ []).mem_iff.mp (List.mem_of_mem_take removed)
      rw [List.append_nil] at among
      exact List.mem_filter.mp among
    · exact nomatch removed

/-- The watchdog recognises a file rightly exactly if it is not one of those that are mistaken or
missed; and where no file is mistaken it removes files of the log only. -/
theorem recognises_iff (p : CountPattern) (lib : WatchdogLibrary) :
    (∀ f : LogFile, f.isRegular → ∀ timePattern,
        (((matchFile lib p.config f timePattern).1 ↔ p.Produces f.name) ↔
          ¬ p.Mistaken lib f.name ∧ ¬ p.Missed lib f.name)) ∧
      ∀ directory : List LogFile,
        (∀ f ∈ directory, f.isRegular → ¬ p.Mistaken lib f.name) →
          ∀ f ∈ removeExcessLogs lib p.config directory, p.Produces f.name := by
  refine ⟨fun f regular timePattern => p.recognised_iff lib regular timePattern, ?_⟩
  intro directory unmistaken f removed
  obtain ⟨among, matched⟩ := matched_of_removed removed
  have regular : f.isRegular := by
    by_contra other
    simp [matchFile, other] at matched
  obtain ⟨named, fits, taken, tailed⟩ := (p.matchFile_iff lib regular []).mp matched
  -- it has been accepted, so being unmistaken leaves only the form of its name
  have exact_ := unmistaken f among regular
  simp only [Mistaken, named, fits, taken, tailed, true_and, not_or, not_not, Nat.not_le] at exact_
  exact p.produces_iff.mpr ⟨named, exact_⟩

/-- The files `file_%N` of a log, of which one is kept. -/
def plain : CountPattern where
  logName := ascii "file_"
  width := []
  tail := []
  extension := []
  maxFiles := 1
  logName_plain := by decide
  width_digits := nofun
  tail_plain := nofun
  tail_start := nofun
  extension_dot := nofun
  maxFiles_pos := by decide

def noLibrary : WatchdogLibrary := ⟨fun _ => [], fun _ _ => none⟩

def log : LogFile := ⟨ascii "file_7", true, 2, none, by decide⟩

def backup : LogFile := ⟨ascii "file_backup", true, 1, none, by decide⟩

def longLog : LogFile := ⟨ascii "file_3000000000", true, 1, none, by decide⟩

/-- `file_7` is recognised. -/
theorem recognises_iff_plain :
    (((matchFile noLibrary plain.config log []).1 ↔ plain.Produces log.name) ↔
        ¬ plain.Mistaken noLibrary log.name ∧ ¬ plain.Missed noLibrary log.name) ∧
      ∀ f ∈ removeExcessLogs noLibrary plain.config [log, log], plain.Produces f.name := by
  refine ⟨(recognises_iff plain noLibrary).1 log rfl [], ?_⟩
  apply (recognises_iff plain noLibrary).2
  simp only [List.forall_mem_cons]
  exact ⟨fun _ => by decide, fun _ => by decide, nofun⟩

/-- `file_backup` is removed, and `file_3000000000` is not recognised. -/
theorem backup_is_removed :
    (∃ f ∈ removeExcessLogs noLibrary plain.config [backup, log], ¬ plain.Produces f.name) ∧
      plain.Produces longLog.name ∧ ¬ (matchFile noLibrary plain.config longLog []).1 := by
  refine ⟨⟨backup, ?_, ?_⟩, ?_, ?_⟩
  · have matched : ∀ f ∈ [backup, log], (matchFile noLibrary plain.config f []).1 := by
      simp only [List.forall_mem_cons]
      refine ⟨(plain.matchFile_iff noLibrary rfl []).mpr (by decide),
        (plain.matchFile_iff noLibrary rfl []).mpr (by decide), nofun⟩
    have valid : checkPattern plain.config.logVariablePattern := by decide
    rw [removeExcessLogs, baseMaxFilesStrategy, if_neg (not_not.mpr valid), matchedFiles_eq_filter,
      List.filter_eq_self.mpr matched]
    decide
  · rw [produces_iff]
    decide
  · rw [produces_iff]
    decide
  · have matches_iff := plain.matchFile_iff noLibrary (show longLog.isRegular from rfl) []
    rw [matches_iff]
    decide

end CountPattern

end ServerLib.LogFilesWatchdog
