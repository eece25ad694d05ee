import Mathlib.Data.List.Basic
import ServerLib.Common.Strings

/-!
# `log_files_watchdog`

The files of a directory that match the pattern of the log are counted, and the oldest ones
beyond the limit are handed to a strategy. A file name is matched by two iterators, one on
the pattern and one on the name.

An iterator is modelled as what is left of its string, so `std::string { a, b }` is what is
left at `a` without what is left at `b`. What the code takes from Boost is a parameter.
-/
namespace ServerLib

/-- `isdigit` in the classic locale -/
def isDigit (b : UInt8) : Bool := 48 ≤ b && b ≤ 57

/-- `strtol` on a string of digits, which is a `long`, truncated to an `int`. -/
def atoi (digits : List UInt8) : Int :=
  Int.bmod (min (numeral 10 digits) (2 ^ 63 - 1)) (2 ^ 32)

/-- What the watchdog takes from Boost. -/
structure WatchdogLibrary where
  /-- `path::extension` of a file name -/
  extension : List UInt8 → List UInt8
  /-- where `ss >> pt` ends with a `time_input_facet` of that format, `none` if it throws -/
  readTime : List UInt8 → List UInt8 → Option Nat

structure LogFilesWatchdogConfig where
  logName : List UInt8
  logVariablePattern : List UInt8
  logExtension : List UInt8
  maxFiles : Nat
  deriving DecidableEq, Repr

/-- The time of the last write, the device and the number of the file. -/
structure FileSequenceId where
  time : Int
  device : Nat
  file : Nat
  deriving DecidableEq, Repr

/-- The device and the number are `unsigned`. They are zero if `::stat` fails. -/
def getFileSequenceId (lastWriteTime : Int) (stat : Option (Nat × Nat)) : FileSequenceId :=
  match stat with
  | some (device, file) => ⟨lastWriteTime, device % 2 ^ 32, file % 2 ^ 32⟩
  | none => ⟨lastWriteTime, 0, 0⟩

def FileSequenceId.lt (a b : FileSequenceId) : Bool :=
  a.time < b.time || (a.time == b.time &&
    (a.device < b.device || (a.device == b.device && a.file < b.file)))

/-- An entry of the directory. There is no NUL in a file name. -/
structure LogFile where
  name : List UInt8
  isRegular : Bool
  lastWriteTime : Int
  stat : Option (Nat × Nat)
  nulFree : 0 ∉ name
  deriving DecidableEq, Repr

def LogFile.sequenceId (f : LogFile) : FileSequenceId := getFileSequenceId f.lastWriteTime f.stat

namespace LogFilesWatchdog

def normalizeExtension : List UInt8 → List UInt8
  | [] => []
  | c :: extension => if c ≠ 46 then 46 :: c :: extension else c :: extension

def scroll (it : List UInt8) (chars : Nat) : List UInt8 := it.drop chars

def scrollToSeparator (it : List UInt8) : List UInt8 := it.dropWhile (· ≠ 37)

/-- 0 at the end -/
def readSymbol : List UInt8 → UInt8 × List UInt8
  | [] => (0, [])
  | s :: it => (s, it)

/-- The digits that `scroll_number` collects, and the iterator behind them. A NUL is not given
back. -/
def readNumber : List UInt8 → List UInt8 × List UInt8
  | [] => ([], [])
  | s :: it =>
    if s = 0 then ([], it)
    else if isDigit s then (s :: (readNumber it).1, (readNumber it).2)
    else ([], s :: it)

/-- `none` if the number is invalid -/
def scrollNumber (it : List UInt8) : Option (List UInt8) :=
  let ss := (readNumber it).1
  let noneZero := ss.any (· ≠ 48)
  if atoi ss < 1 ∧ noneZero then none else some (readNumber it).2

/-- The symbol behind the digits of a conversion. -/
def readConversion : List UInt8 → UInt8 × List UInt8
  | [] => (0, [])
  | s :: it => if s ≠ 0 ∧ isDigit s then readConversion it else (s, it)

/-- `%....s` -/
def readPattern : List UInt8 → UInt8 × List UInt8
  | [] => (0, [])
  | c :: it => if c ≠ 37 then (0, c :: it) else readConversion it

def checkPattern (pattern : List UInt8) : Bool := 2 ≤ pattern.length && pattern.contains 37

/-- The constructor of `log_files_watchdog_config`. -/
def create (logName logVariablePattern logExtension : List UInt8) (maxFiles : Nat) :
    Except String LogFilesWatchdogConfig :=
  if ¬ checkPattern logVariablePattern then .error "Invalid log pattern"
  else if maxFiles = 0 then .error "Invalid max files value"
  else
    .ok {
      logName := logName
      logVariablePattern := logVariablePattern
      logExtension := normalizeExtension logExtension
      maxFiles := maxFiles }

/-- `std::string { a, b }` -/
def between (a b : List UInt8) : List UInt8 := a.take (a.length - b.length)

theorem length_scrollToSeparator_le (it : List UInt8) :
    (scrollToSeparator it).length ≤ it.length := (List.dropWhile_suffix _).length_le

theorem length_readConversion_le (it : List UInt8) :
    (readConversion it).2.length ≤ it.length := by
  induction it with
  | nil => exact Nat.le_refl 0
  | cons s it ih =>
    rw [readConversion]
    split
    · exact Nat.le_succ_of_le ih
    · exact Nat.le_succ _

theorem length_readPattern_le (it : List UInt8) : (readPattern it).2.length ≤ it.length := by
  cases it with
  | nil => exact Nat.le_refl 0
  | cons c it =>
    rw [readPattern]
    split
    · exact Nat.le_refl _
    · exact Nat.le_succ_of_le (length_readConversion_le it)

/-- Going on to the next conversion and reading it gets an iterator ahead. -/
theorem length_readPattern_lt {it : List UInt8} (inside : it ≠ []) :
    (readPattern (scrollToSeparator it)).2.length < it.length := by
  have shorter := length_scrollToSeparator_le it
  cases rest : scrollToSeparator it with
  | nil => exact List.length_pos_iff.mpr inside
  | cons c rest' =>
    -- the iterator has stopped at a separator, which `read_pattern` takes
    have percent : c = 37 := by
      have head := List.head?_dropWhile_not (· ≠ (37 : UInt8)) it
      rw [scrollToSeparator] at rest
      rw [rest] at head
      simpa using head
    rw [rest, List.length_cons] at shorter
    rw [readPattern, if_neg (not_not.mpr percent)]
    exact Nat.lt_of_le_of_lt (length_readConversion_le rest') shorter

/-- The loop that looks for the end of the time pattern: where it gets to, and the end it has
found. -/
def scrollTime (s : UInt8) (it endTime : List UInt8) : List UInt8 × List UInt8 :=
  match it with
  | [] => ([], endTime)
  | c :: it =>
    if s = 78 then (c :: it, endTime)
    else
      let separator := scrollToSeparator (c :: it)
      scrollTime (readPattern separator).1 (readPattern separator).2 separator
termination_by it.length
decreasing_by exact length_readPattern_lt (List.cons_ne_nil c it)

/-- What `match_file` keeps while it walks. -/
structure MatchState where
  pattern : List UInt8
  file : List UInt8
  /-- in the context, which all files share -/
  timePattern : List UInt8
  singleTimePattern : Bool := true
  /-- An exception has been thrown. -/
  failed : Bool := false
  deriving DecidableEq, Repr

namespace MatchState

def fail (s : MatchState) : MatchState := { s with failed := true }

/-- `case 'N'` -/
def number (s : MatchState) : MatchState :=
  match scrollNumber s.file with
  | none => s.fail
  | some file =>
    let separator := scrollToSeparator s.pattern
    let rest := between s.pattern separator
    -- without a rest the next conversion is skipped
    if rest = [] then { s with file := file, pattern := (readPattern separator).2 }
    else if rest.isPrefixOf file then { s with file := scroll file rest.length }
    else s.fail

/-- `case '%'` -/
def percent (s : MatchState) : MatchState :=
  let (symbol, file) := readSymbol s.file
  if symbol ≠ 37 then s.fail else { s with file := file }

/-- The time pattern from a separator on, and where it ends. -/
def findTimePattern (separator : List UInt8) : List UInt8 × List UInt8 :=
  let (s, it) := readPattern separator
  let (it, endTime) := scrollTime s it separator
  let endTime := if it = [] then it else endTime
  (between separator endTime, endTime)

/-- `ss >> pt` -/
def readTime (lib : WatchdogLibrary) (s : MatchState) : MatchState :=
  match lib.readTime s.timePattern s.file with
  | none => s.fail
  | some position => { s with file := scroll s.file position, singleTimePattern := false }

/-- `default` -/
def time (lib : WatchdogLibrary) (s : MatchState) (separator : List UInt8) : MatchState :=
  if ¬ s.singleTimePattern then s.fail
  else if s.timePattern = [] then
    let (timePattern, endTime) := findTimePattern separator
    let s := { s with timePattern := timePattern }
    if timePattern = [] then s.fail else { s with pattern := endTime }.readTime lib
  else { s with pattern := scroll separator s.timePattern.length }.readTime lib

def turn (lib : WatchdogLibrary) (s : MatchState) : MatchState :=
  let separator := scrollToSeparator s.pattern
  let (symbol, pattern) := readPattern separator
  let s := { s with pattern := pattern }
  if symbol = 78 then s.number
  else if symbol = 37 then s.percent
  else if symbol = 0 then s
  else s.time lib separator

def goesOn (s : MatchState) : Bool := !s.failed && s.pattern ≠ [] && s.file ≠ []

variable {lib : WatchdogLibrary} {s : MatchState}

theorem pattern_readTime (lib : WatchdogLibrary) (s : MatchState) :
    (s.readTime lib).pattern = s.pattern := by
  unfold readTime
  split <;> rfl

theorem length_number_le (s : MatchState) : s.number.pattern.length ≤ s.pattern.length := by
  unfold number
  split
  · exact Nat.le_refl _
  · simp only
    split
    · have separator := length_scrollToSeparator_le s.pattern
      exact Nat.le_trans (length_readPattern_le _) separator
    · split <;> exact Nat.le_refl _

theorem pattern_percent (s : MatchState) : s.percent.pattern = s.pattern := by
  unfold percent
  simp only
  split <;> rfl

/-- A time pattern is not empty, so its end is behind its start. -/
theorem length_time_lt {separator : List UInt8} (inside : separator ≠ [])
    (ready : (s.time lib separator).failed = false) :
    (s.time lib separator).pattern.length < separator.length := by
  unfold time at ready ⊢
  split at ready
  · exact nomatch ready
  next single =>
    rw [if_neg single]
    split at ready
    next new =>
      rw [if_pos new]
      simp only at ready ⊢
      split at ready
      · exact nomatch ready
      next found =>
        rw [if_neg found, pattern_readTime]
        -- an end that is not behind the start would leave the pattern empty
        by_contra behind
        refine found ?_
        simp only [findTimePattern, between] at behind ⊢
        rw [Nat.sub_eq_zero_of_le (Nat.not_lt.mp behind), List.take_zero]
    next old =>
      rw [if_neg old, pattern_readTime]
      have long := List.length_pos_iff.mpr old
      have some_ := List.length_pos_iff.mpr inside
      simp only [scroll, List.length_drop]
      omega

/-- A turn that another one follows has gone on in the pattern. -/
theorem length_turn_lt (running : (s.turn lib).goesOn) :
    (s.turn lib).pattern.length < s.pattern.length := by
  simp only [goesOn, Bool.and_eq_true, Bool.not_eq_true', decide_eq_true_eq] at running
  obtain ⟨⟨ready, unread⟩, -⟩ := running
  have separator := length_scrollToSeparator_le s.pattern
  -- at the end of the pattern there is no turn to follow
  by_cases ended : s.pattern = []
  · exact absurd (by simp [turn, ended, scrollToSeparator, readPattern]) unread
  have ahead := length_readPattern_lt ended
  unfold turn at ready ⊢
  simp only at ready ⊢
  split at ready
  next number =>
    rw [if_pos number]
    exact Nat.lt_of_le_of_lt (length_number_le _) ahead
  next other =>
    rw [if_neg other]
    split at ready
    next percent =>
      rw [if_pos percent, pattern_percent]
      exact ahead
    next other =>
      rw [if_neg other]
      split at ready
      next none_ =>
        rw [if_pos none_]
        exact ahead
      next symbol =>
        rw [if_neg symbol]
        refine Nat.lt_of_lt_of_le (length_time_lt ?_ ready) separator
        intro none_
        exact symbol (by rw [none_]; rfl)

/-- The loop of `match_file`. -/
def walk (lib : WatchdogLibrary) (s : MatchState) : MatchState :=
  if _running : (s.turn lib).goesOn then walk lib (s.turn lib) else s.turn lib
termination_by s.pattern.length
decreasing_by exact length_turn_lt _running

theorem walk_eq (lib : WatchdogLibrary) (s : MatchState) :
    s.walk lib = if (s.turn lib).goesOn then (s.turn lib).walk lib else s.turn lib := by
  rw [walk]
  exact dite_eq_ite

end MatchState

/-- Whether a file matches, and the time pattern in the context then. -/
def matchFile (lib : WatchdogLibrary) (config : LogFilesWatchdogConfig) (f : LogFile)
    (timePattern : List UInt8) : Bool × List UInt8 :=
  if ¬ f.isRegular ∨ config.logVariablePattern = [] then (false, timePattern)
  else if config.logName ≠ [] ∧ ¬ config.logName.isPrefixOf f.name then (false, timePattern)
  else if config.logExtension ≠ [] ∧
      (lib.extension f.name = [] ∨ lib.extension f.name ≠ config.logExtension) then
    (false, timePattern)
  else
    -- the pattern is walked from its start, the name from behind the name of the log
    let s : MatchState :=
      { pattern := config.logVariablePattern
        file := scroll f.name config.logName.length
        timePattern := timePattern }
    ((!(s.walk lib).failed), (s.walk lib).timePattern)

/-- The files of a directory that match. -/
def matchedFiles (lib : WatchdogLibrary) (config : LogFilesWatchdogConfig)
    (timePattern : List UInt8) : List LogFile → List LogFile
  | [] => []
  | f :: files =>
    let (matched, timePattern) := matchFile lib config f timePattern
    let rest := matchedFiles lib config timePattern files
    if matched then f :: rest else rest

/-- `matched_files.emplace`: files that come later in the directory come behind those with the same
id. -/
def emplace (matched : List LogFile) (f : LogFile) : List LogFile :=
  match matched with
  | [] => [f]
  | g :: matched =>
    if f.sequenceId.lt g.sequenceId then f :: g :: matched else g :: emplace matched f

/-- The loop around `act`: the files it is called for. -/
def actWhile (toRemove : Nat) : List LogFile → List LogFile
  | [] => []
  | f :: matched =>
    -- `!to_remove--`
    if toRemove = 0 then [] else f :: actWhile (sizeSub toRemove 1) matched

/-- The files that the strategy is applied to. -/
def baseMaxFilesStrategy (lib : WatchdogLibrary) (config : LogFilesWatchdogConfig)
    (directory : List LogFile) : List LogFile :=
  -- always single file
  if ¬ checkPattern config.logVariablePattern then []
  else
    let matched := (matchedFiles lib config [] directory).foldl emplace []
    if matched.length > config.maxFiles then
      actWhile (sizeSub matched.length config.maxFiles) matched
    else []

/-- The files that are removed. -/
def removeExcessLogs (lib : WatchdogLibrary) (config : LogFilesWatchdogConfig)
    (directory : List LogFile) : List LogFile := baseMaxFilesStrategy lib config directory

theorem actWhile_eq_take (toRemove : Nat) (matched : List LogFile) :
    actWhile toRemove matched = matched.take toRemove := by
  induction matched generalizing toRemove with
  | nil => exact List.take_nil.symm
  | cons f matched ih =>
    cases toRemove with
    | zero => rfl
    | succ toRemove =>
      rw [actWhile, if_neg (Nat.succ_ne_zero toRemove), sizeSub_of_le (Nat.le_add_left 1 toRemove),
        ih]
      rfl

theorem emplace_perm (matched : List LogFile) (f : LogFile) :
    (emplace matched f).Perm (f :: matched) := by
  induction matched with
  | nil => exact .refl _
  | cons g matched ih =>
    rw [emplace]
    split
    · exact .refl _
    · exact (ih.cons g).trans (.swap f g matched)

theorem foldl_emplace_perm (files matched : List LogFile) :
    (files.foldl emplace matched).Perm (files ++ matched) := by
  induction files generalizing matched with
  | nil => exact .refl _
  | cons f files ih =>
    have emplaced := (emplace_perm matched f).append_left files
    exact ((ih (emplace matched f)).trans emplaced).trans List.perm_middle

end LogFilesWatchdog

end ServerLib
