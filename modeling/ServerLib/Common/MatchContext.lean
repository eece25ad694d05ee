import ServerLib.Common.LogFilesWatchdog

/-!
# The context that all files share

`match_file` keeps the time pattern in the context, from the first file whose walk has come to
it. The walk of a later file does not look for it again but skips as many characters. As long as
a walk goes on, it goes through the pattern in the same way for every file, so it comes to the
time pattern at the same place, and the characters that are skipped are the time pattern.
-/
namespace ServerLib.LogFilesWatchdog

/-- The conversion at which a walk through the pattern comes to the time, if it gets so far. -/
def firstTime (pattern : List UInt8) : Option (List UInt8) :=
  if _inside : pattern = [] then none
  else
    let separator := scrollToSeparator pattern
    let behind := (readPattern separator).2
    if (readPattern separator).1 = 78 then
      -- the next conversion is skipped if it stands right behind the number
      if between behind (scrollToSeparator behind) = [] then
        firstTime (readPattern (scrollToSeparator behind)).2
      else firstTime behind
    else if (readPattern separator).1 = 37 ∨ (readPattern separator).1 = 0 then firstTime behind
    else some separator
termination_by pattern.length
decreasing_by
  · have skipped := length_readPattern_le (scrollToSeparator behind)
    have scrolled := length_scrollToSeparator_le behind
    have ahead := length_readPattern_lt _inside
    exact Nat.lt_of_le_of_lt (Nat.le_trans skipped scrolled) ahead
  · exact length_readPattern_lt _inside
  · exact length_readPattern_lt _inside

/-- A time pattern may be in the context if it is the one that the walk comes to. -/
def Fits (pattern timePattern : List UInt8) : Prop :=
  timePattern ≠ [] → ∃ separator, firstTime pattern = some separator ∧
    timePattern = (MatchState.findTimePattern separator).1

namespace MatchState

variable {lib : WatchdogLibrary}

def withTime (s : MatchState) (timePattern : List UInt8) : MatchState :=
  { s with timePattern := timePattern }

theorem goesOn_withTime (s : MatchState) (t : List UInt8) : (s.withTime t).goesOn = s.goesOn := rfl

theorem number_withTime (s : MatchState) (t : List UInt8) :
    (s.withTime t).number = s.number.withTime t := by
  unfold number withTime
  dsimp only
  cases scrollNumber s.file with
  | none => rfl
  | some file =>
    dsimp only
    split
    · rfl
    · split
      · rfl
      · rfl

theorem percent_withTime (s : MatchState) (t : List UInt8) :
    (s.withTime t).percent = s.percent.withTime t := by
  unfold percent withTime
  dsimp only
  split
  · rfl
  · rfl

/-- Where the walk goes on behind a number does not depend on the file. -/
theorem pattern_number {s : MatchState} (ready : s.number.failed = false) :
    s.number.pattern =
      if between s.pattern (scrollToSeparator s.pattern) = [] then
        (readPattern (scrollToSeparator s.pattern)).2
      else s.pattern := by
  unfold number at ready ⊢
  split at ready
  · cases ready
  · dsimp only at ready ⊢
    split at ready
    next adjacent => rw [if_pos adjacent, if_pos adjacent]
    next apart =>
      rw [if_neg apart, if_neg apart]
      split at ready
      next follows => rw [if_pos follows]
      · cases ready

theorem single_number (s : MatchState) :
    s.number.singleTimePattern = s.singleTimePattern := by
  unfold number
  split
  · rfl
  · dsimp only
    split
    · rfl
    · split
      · rfl
      · rfl

theorem single_percent (s : MatchState) :
    s.percent.singleTimePattern = s.singleTimePattern := by
  unfold percent
  dsimp only
  split
  · rfl
  · rfl

/-- A turn leaves the context alone and goes on towards the time pattern, or it is there. -/
theorem turn_cases (lib : WatchdogLibrary) (s : MatchState) :
    (∃ s' : MatchState, (∀ t, (s.withTime t).turn lib = s'.withTime t) ∧
        s'.singleTimePattern = s.singleTimePattern ∧
        (s'.failed = false → firstTime s'.pattern = firstTime s.pattern)) ∨
      ∃ separator behind, firstTime s.pattern = some separator ∧
        ∀ t, (s.withTime t).turn lib =
          ({ s with pattern := behind }.withTime t).time lib separator := by
  by_cases inside : s.pattern = []
  · refine .inl ⟨s, fun t => ?_, rfl, fun _ => rfl⟩
    obtain ⟨pattern, file, timePattern, single, failed⟩ := s
    obtain rfl : pattern = [] := inside
    rfl
  rw [firstTime, dif_neg inside]
  dsimp only
  generalize separator_eq : scrollToSeparator s.pattern = separator
  generalize read_eq : readPattern separator = read
  obtain ⟨symbol, behind⟩ := read
  have turned : ∀ t, (s.withTime t).turn lib =
      if symbol = 78 then ({ s with pattern := behind }.withTime t).number
      else if symbol = 37 then ({ s with pattern := behind }.withTime t).percent
      else if symbol = 0 then { s with pattern := behind }.withTime t
      else ({ s with pattern := behind }.withTime t).time lib separator := by
    intro t
    have scrolled : scrollToSeparator (s.withTime t).pattern = separator := separator_eq
    rw [turn, scrolled]
    dsimp only
    rw [read_eq]
    rfl
  by_cases number : symbol = 78
  · refine .inl ⟨{ s with pattern := behind }.number, fun t => ?_, single_number _, ?_⟩
    · rw [turned t, if_pos number, number_withTime]
    · intro ready
      rw [pattern_number ready, if_pos number]
      split
      · rfl
      · rfl
  · rw [if_neg number]
    by_cases percent : symbol = 37
    · refine .inl ⟨{ s with pattern := behind }.percent, fun t => ?_, single_percent _, ?_⟩
      · rw [turned t, if_neg number, if_pos percent, percent_withTime]
      · intro _
        rw [pattern_percent, if_pos (.inl percent)]
    · by_cases zero : symbol = 0
      · refine .inl ⟨{ s with pattern := behind }, fun t => ?_, rfl, fun _ => ?_⟩
        · rw [turned t, if_neg number, if_neg percent, if_pos zero]
        · rw [if_pos (.inr zero)]
      · refine .inr ⟨separator, behind, ?_, fun t => ?_⟩
        · rw [if_neg (not_or.mpr ⟨percent, zero⟩)]
        · rw [turned t, if_neg number, if_neg percent, if_neg zero]

end MatchState

/-! ### The time pattern is a part of the pattern -/

theorem scrollToSeparator_suffix (it : List UInt8) : scrollToSeparator it <:+ it :=
  List.dropWhile_suffix _

theorem readConversion_suffix (it : List UInt8) : (readConversion it).2 <:+ it := by
  induction it with
  | nil => exact List.suffix_rfl
  | cons s it ih =>
    rw [readConversion]
    split
    · exact ih.trans (List.suffix_cons s it)
    · exact List.suffix_cons s it

theorem readPattern_suffix (it : List UInt8) : (readPattern it).2 <:+ it := by
  cases it with
  | nil => exact List.suffix_rfl
  | cons c it =>
    rw [readPattern]
    split
    · exact List.suffix_rfl
    · exact (readConversion_suffix it).trans (List.suffix_cons c it)

theorem scrollTime_suffix (pattern : List UInt8) (s : UInt8) (it endTime : List UInt8)
    (inside : it <:+ pattern) (ends : endTime <:+ pattern) :
    (scrollTime s it endTime).1 <:+ pattern ∧ (scrollTime s it endTime).2 <:+ pattern := by
  induction s, it, endTime using scrollTime.induct with
  | case1 s endTime =>
    rw [scrollTime]
    exact ⟨inside, ends⟩
  | case2 endTime c it =>
    rw [scrollTime, if_pos rfl]
    exact ⟨inside, ends⟩
  | case3 s endTime c it other separator ih =>
    rw [scrollTime, if_neg other]
    have here : separator <:+ pattern := (scrollToSeparator_suffix (c :: it)).trans inside
    exact ih ((readPattern_suffix separator).trans here) here

/-- To skip as many characters as the time pattern has gets behind it. -/
theorem scroll_findTimePattern (separator : List UInt8) :
    scroll separator (MatchState.findTimePattern separator).1.length =
      (MatchState.findTimePattern separator).2 := by
  have suffix : (MatchState.findTimePattern separator).2 <:+ separator := by
    have suffixes := scrollTime_suffix separator (readPattern separator).1
      (readPattern separator).2 separator (readPattern_suffix separator) List.suffix_rfl
    unfold MatchState.findTimePattern
    dsimp only
    split
    · exact suffixes.1
    · exact suffixes.2
  have pattern : (MatchState.findTimePattern separator).1 =
      between separator (MatchState.findTimePattern separator).2 := rfl
  obtain ⟨front, is⟩ := suffix
  rw [pattern]
  generalize (MatchState.findTimePattern separator).2 = ends at is
  subst is
  simp [scroll, between]

namespace MatchState

variable {lib : WatchdogLibrary} {s : MatchState} {t : List UInt8}

/-- Behind the time the context does not change any more. -/
theorem turn_double (double : s.singleTimePattern = false) :
    (s.turn lib).timePattern = s.timePattern ∧ (s.turn lib).singleTimePattern = false := by
  rcases turn_cases lib s with ⟨s', turned, single, _⟩ | ⟨separator, behind, _, turned⟩
  · have here := turned s.timePattern
    rw [show s.withTime s.timePattern = s from rfl] at here
    rw [here]
    exact ⟨rfl, single.trans double⟩
  · have here := turned s.timePattern
    rw [show s.withTime s.timePattern = s from rfl] at here
    rw [here, time, if_pos (by simp [withTime, double])]
    exact ⟨rfl, double⟩

theorem walk_double (double : s.singleTimePattern = false) :
    (s.walk lib).timePattern = s.timePattern := by
  induction s using walk.induct lib with
  | case1 s running ih =>
    obtain ⟨same, still⟩ := turn_double double
    rw [walk_eq, if_pos running, ih still, same]
  | case2 s stopped =>
    rw [walk_eq, if_neg stopped, (turn_double double).1]

variable (lib) in
/-- With the time pattern in the context the walk goes on as it does without. -/
theorem time_context (single : s.singleTimePattern = true) {separator : List UInt8}
    (known : t ≠ [] → t = (findTimePattern separator).1) :
    (s.withTime t).time lib separator = (s.withTime []).time lib separator := by
  by_cases new : t = []
  · rw [new]
  obtain rfl := known new
  have alone : ¬ ¬ s.singleTimePattern = true := not_not.mpr single
  simp only [time, withTime, alone, new, if_false, if_true, scroll_findTimePattern]

variable (lib) in
/-- Behind the time the time pattern is in the context, or the walk is at its end. -/
theorem timePattern_time (single : s.singleTimePattern = true) (separator : List UInt8) :
    let after := (s.withTime []).time lib separator
    (after.timePattern ≠ [] → after.timePattern = (findTimePattern separator).1) ∧
      (after.failed = false → after.singleTimePattern = false) := by
  have alone : ¬ ¬ s.singleTimePattern = true := not_not.mpr single
  intro after
  have is : after = (s.withTime []).time lib separator := rfl
  clear_value after
  simp only [time, withTime, alone, if_false, if_true] at is
  split at is
  next empty =>
    rw [is]
    exact ⟨fun some_ => absurd empty some_, nofun⟩
  next found =>
    unfold readTime at is
    dsimp only at is
    split at is
    · rw [is]
      exact ⟨fun _ => rfl, nofun⟩
    · rw [is]
      exact ⟨fun _ => rfl, fun _ => rfl⟩

/-- What is in the context already does not decide whether a walk fails, and the time pattern that
is in it afterwards is the right one. -/
theorem walk_context (lib : WatchdogLibrary) {s : MatchState} {t : List UInt8}
    (single : s.singleTimePattern = true) (fits : Fits s.pattern t) :
    ((s.withTime t).walk lib).failed = ((s.withTime []).walk lib).failed ∧
      Fits s.pattern ((s.withTime t).walk lib).timePattern := by
  -- a turn that another one follows has gone on in the pattern
  induction length : s.pattern.length using Nat.strong_induction_on generalizing s with
  | _ n ih =>
    rcases turn_cases lib s with ⟨s', turned, same, next⟩ | ⟨separator, behind, first, turned⟩
    · rw [walk_eq, walk_eq lib (s.withTime []), turned, turned, goesOn_withTime, goesOn_withTime]
      split
      next running =>
        have shorter : s'.pattern.length < n := by
          have ahead : ((s.withTime t).turn lib).goesOn → _ := length_turn_lt
          rw [turned, goesOn_withTime] at ahead
          exact length ▸ ahead running
        have ready : s'.failed = false := by
          simp only [goesOn, Bool.and_eq_true, Bool.not_eq_true'] at running
          exact running.1.1
        have fits' : Fits s'.pattern t := by
          rw [Fits, next ready]
          exact fits
        have rest := ih _ shorter (same.trans single) fits' rfl
        rw [Fits, next ready] at rest
        exact rest
      · exact ⟨rfl, fits⟩
    · have known : t ≠ [] → t = (findTimePattern separator).1 := by
        intro some_
        obtain ⟨found, there, is⟩ := fits some_
        rw [first, Option.some.injEq] at there
        exact there ▸ is
      have here : ({ s with pattern := behind } : MatchState).singleTimePattern = true := single
      obtain ⟨right, double⟩ := timePattern_time lib here separator
      rw [walk_eq, walk_eq lib (s.withTime []), turned, turned, time_context lib here known]
      generalize
        ({ s with pattern := behind }.withTime []).time lib separator = after at right double
      refine ⟨rfl, fun some_ => ⟨separator, first, ?_⟩⟩
      by_cases running : after.goesOn
      · rw [if_pos running] at some_ ⊢
        have ready : after.failed = false := by
          simp only [goesOn, Bool.and_eq_true, Bool.not_eq_true'] at running
          exact running.1.1
        rw [walk_double (double ready)] at some_ ⊢
        exact right some_
      · rw [if_neg running] at some_ ⊢
        exact right some_

end MatchState

/-- The time pattern in the context when some files have been scanned. -/
def contextAfter (lib : WatchdogLibrary) (config : LogFilesWatchdogConfig)
    (timePattern : List UInt8) (scanned : List LogFile) : List UInt8 :=
  scanned.foldl (fun timePattern f => (matchFile lib config f timePattern).2) timePattern

variable {lib : WatchdogLibrary} {config : LogFilesWatchdogConfig} {timePattern : List UInt8}

theorem fits_nil (pattern : List UInt8) : Fits pattern [] := fun some_ => absurd rfl some_

variable (lib) in
/-- A file is matched with any context as it is with a fresh one. -/
theorem matchFile_fits (fits : Fits config.logVariablePattern timePattern) (f : LogFile) :
    (matchFile lib config f timePattern).1 = (matchFile lib config f []).1 ∧
      Fits config.logVariablePattern (matchFile lib config f timePattern).2 := by
  unfold matchFile
  split
  · exact ⟨rfl, fits⟩
  · split
    · exact ⟨rfl, fits⟩
    · split
      · exact ⟨rfl, fits⟩
      · -- both walks begin in the same state but for the context
        have walked := MatchState.walk_context lib
          (s := { pattern := config.logVariablePattern
                  file := scroll f.name config.logName.length
                  timePattern := [] }) rfl fits
        exact ⟨congrArg not walked.1, walked.2⟩

theorem contextAfter_fits (fits : Fits config.logVariablePattern timePattern)
    (scanned : List LogFile) :
    Fits config.logVariablePattern (contextAfter lib config timePattern scanned) := by
  induction scanned generalizing timePattern with
  | nil => exact fits
  | cons f scanned ih => exact ih (matchFile_fits lib fits f).2

/-- Whether a file matches does not depend on the files that were scanned before it. -/
theorem match_independent_of_scanned (lib : WatchdogLibrary) (config : LogFilesWatchdogConfig)
    (scanned : List LogFile) (f : LogFile) :
    (matchFile lib config f (contextAfter lib config [] scanned)).1 =
      (matchFile lib config f []).1 :=
  (matchFile_fits lib (contextAfter_fits (fits_nil _) scanned) f).1

theorem matchedFiles_of_fits (fits : Fits config.logVariablePattern timePattern)
    (directory : List LogFile) :
    matchedFiles lib config timePattern directory =
      directory.filter fun f => (matchFile lib config f []).1 := by
  induction directory generalizing timePattern with
  | nil => rfl
  | cons f directory ih =>
    obtain ⟨same, fits⟩ := matchFile_fits lib fits f
    simp only [matchedFiles, same, ih fits, List.filter_cons]

/-- So the files that match are those that match alone. -/
theorem matchedFiles_eq_filter (lib : WatchdogLibrary) (config : LogFilesWatchdogConfig)
    (directory : List LogFile) :
    matchedFiles lib config [] directory =
      directory.filter fun f => (matchFile lib config f []).1 :=
  matchedFiles_of_fits (fits_nil _) directory

end ServerLib.LogFilesWatchdog
