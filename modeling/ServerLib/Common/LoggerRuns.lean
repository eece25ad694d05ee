import ServerLib.Common.Logger
import ServerLib.Foundation.Transition

/-!
# A logger over all calls

What the appenders get, and in which format it is written. The settings that go into the format
are refused as soon as there is a destination of boost's log, so all its records are written
alike; only a statement that was begun before can bring a message of other details. A second
destination frees the source that the first one still writes to: whether that is noticed depends
on the messages that come to the first one. The numbers of the messages are taken when the
statements begin, so they arrive in order if the statements end in the order in which they began.
-/
namespace ServerLib

open Transition

/-- The source that an appender writes to. -/
def LogAppender.source : LogAppender → Option Nat
  | boost source => some source
  | _ => none

/-- The field is part of the format that is made with these details. -/
def LogField.shown (details : Int32) : LogField → Bool
  | appName => passes details LogDetail.appName.code
  | timestamp => passes details LogDetail.time.code
  | severity => passes details LogDetail.level.code
  | threadId | threadName => passes details LogDetail.threadInfo.code
  | message => true
  | file | line => passes details LogDetail.sourceCode.code

/-- The format of the sink asks for the field. -/
def LogSink.names (sink : LogSink) (field : LogField) : Bool :=
  field.digit ∈ placeholders sink.formatter

/-- A format asks for what the details do not leave out. -/
theorem mem_placeholders_formatter (details : Int32) (field : LogField) :
    field.digit ∈ placeholders (formatter details) ↔ field.shown details = true := by
  unfold formatter formatPart hasFront LogField.shown
  -- the format depends on five bits of the details
  generalize passes details LogDetail.appName.code = appName
  generalize passes details LogDetail.time.code = time
  generalize passes details LogDetail.level.code = level
  generalize passes details LogDetail.threadInfo.code = threadInfo
  generalize passes details LogDetail.sourceCode.code = sourceCode
  revert appName time level threadInfo sourceCode
  cases field with
  | _ => decide +kernel

/-- A sink that is made as the settings are. -/
structure LogSink.Fits (sink : LogSink) (details : Int32) (timeFormat : List UInt8)
    (autoflush : Bool) : Prop where
  names : ∀ field, sink.names field = field.shown details
  timeFormat : sink.timeFormat = sinkTimeFormat details timeFormat
  autoFlush : ∀ flush, sink.autoFlush = some flush → flush = autoflush

/-- What is in a record; the time and the severity are there for any sink. -/
def LogRecord.has (r : LogRecord) : LogField → Bool
  | .appName => passes r.details LogDetail.appName.code
  | .threadId | .threadName =>
    passes r.details LogDetail.threadInfo.code && r.message.thread.isSome
  | .file => passes r.details LogDetail.sourceCode.code && r.message.source.isSome
  | .line => r.message.source.isSome
  | .timestamp | .severity | .message => true

/-- A record has the fields that its sink asks for, and its message no other ones. -/
structure LogRecord.Fits (r : LogRecord) (s : Logger) : Prop where
  sink : ∃ sink, r.sink = some sink ∧ sink.Fits s.detailsFilter s.timeFormat s.autoflush ∧
    (∀ field, sink.names field = true → r.has field = true) ∧
    r.message.source.isSome = sink.names .file ∧ r.message.thread.isSome = sink.names .threadId

/-- The message is as the details say. -/
structure LogMessage.Fits (m : LogMessage) (details : Int32) : Prop where
  source : m.source.isSome = passes details LogDetail.sourceCode.code
  thread : m.thread.isSome = passes details LogDetail.threadInfo.code

/-- A message that fits the details gives a record that fits the sink. -/
theorem LogMessage.Fits.record {m : LogMessage} {s : Logger} (fits : m.Fits s.detailsFilter)
    {sink : LogSink} (made : sink.Fits s.detailsFilter s.timeFormat s.autoflush)
    (text : List UInt8) : LogRecord.Fits ⟨some sink, s.detailsFilter, { m with text }⟩ s where
  sink := by
    refine ⟨sink, rfl, made, fun field named => ?_, ?_, ?_⟩
    · rw [made.names] at named
      cases field with
      | appName => exact named
      | threadId | threadName => exact Bool.and_eq_true_iff.mpr ⟨named, fits.thread.trans named⟩
      | file => exact Bool.and_eq_true_iff.mpr ⟨named, fits.source.trans named⟩
      | line => exact fits.source.trans named
      | timestamp | severity | message => rfl
    · rw [made.names]
      exact fits.source
    · rw [made.names]
      exact fits.thread

theorem LogRecord.Fits.congr {r : LogRecord} {s s' : Logger} (fits : r.Fits s)
    (details : s'.detailsFilter = s.detailsFilter) (timeFormat : s'.timeFormat = s.timeFormat)
    (autoflush : s'.autoflush = s.autoflush) : r.Fits s' := by
  obtain ⟨sink⟩ := fits
  rw [← details, ← timeFormat, ← autoflush] at sink
  exact ⟨sink⟩

namespace Logger

/-- What has come to the appender at a place. -/
def receivedBy (s : Logger) (place : Nat) : List LogMessage :=
  (s.received.filter fun entry => entry.1 = place).map Prod.snd

variable {sourceDir : Option (List UInt8)} {s s' : Logger}

/-- What a setter can do, and those that read the environment. -/
inductive Configured (s : Logger) : Logger → Prop where
  | level (levelFilter : Int32) : Configured s { s with levelFilter }
  | details (detailsFilter : Int32) (free : s.boostImpl = none) :
      Configured s { s with detailsFilter }
  | format (autoflush : Bool) (timeFormat : List UInt8) (free : s.boostImpl = none) :
      Configured s { s with autoflush, timeFormat }

/-- What a call can do. -/
inductive Changed (sourceDir : Option (List UInt8)) (s : Logger) : Logger → Prop where
  | configured {s' : Logger} (configured : Configured s s') : Changed sourceDir s s'
  | switch (logsOn : Bool) : Changed sourceDir s { s with logsOn }
  | destination (appender : LogAppender) (plain : appender.source = none) (logsOn : Bool) :
      Changed sourceDir s { s with appenders := s.appenders ++ [appender], logsOn }
  | boost (autoFlush : Option Bool) (fits : ∀ flush, autoFlush = some flush → flush = s.autoflush) :
      Changed sourceDir s { s.addBoostLogDestination autoFlush with logsOn := true }
  | opened (site : LogSite) : Changed sourceDir s (s.beginMessage sourceDir site)
  | message (k : Nat) (m : LogMessage) (is : s.opened[k]? = some m) (text : List UInt8)
      (throws : Nat → Bool) : Changed sourceDir s
        ({ s with opened := s.opened.eraseIdx k }.write { m with text } throws)
  | abandoned (k : Nat) : Changed sourceDir s { s with opened := s.opened.eraseIdx k }

theorem configured_self (s : Logger) : Configured s s := .level s.levelFilter

theorem configured_setLevel (s : Logger) (filter : Int32) :
    Configured s (s.setLevel filter).state := by
  unfold setLevel
  split
  · exact .level filter
  · exact configured_self s

theorem configured_setDetails (s : Logger) (filter : Int32) :
    Configured s (s.setDetails filter).state := by
  unfold setDetails
  split
  · exact configured_self s
  next free =>
    split
    · exact .details filter (Option.not_isSome_iff_eq_none.mp free)
    · exact configured_self s

theorem configured_setLevelFromEnvironment (s : Logger) (value : Option (List UInt8)) :
    Configured s (s.setLevelFromEnvironment value).state := by
  unfold setLevelFromEnvironment
  split
  · exact configured_self s
  · repeat' split
    all_goals first | exact configured_setLevel s _ | exact configured_self s

theorem configured_setDetailsFromEnvironment (s : Logger) (value : Option (List UInt8)) :
    Configured s (s.setDetailsFromEnvironment value).state := by
  unfold setDetailsFromEnvironment
  split
  · exact configured_self s
  · split
    · exact configured_setDetails s _
    · exact configured_self s

theorem configured_setAutoflush (s : Logger) (flush : Bool) :
    Configured s (s.setAutoflush flush).state := by
  unfold setAutoflush
  split
  · exact configured_self s
  next free =>
    exact .format flush s.timeFormat (Option.not_isSome_iff_eq_none.mp free)

theorem configured_setTimeFormat (s : Logger) (timeFormat : Option (List UInt8)) :
    Configured s (s.setTimeFormat timeFormat).state := by
  unfold setTimeFormat
  split
  · exact configured_self s
  next free =>
    split
    next text =>
      split
      · exact .format s.autoflush text (Option.not_isSome_iff_eq_none.mp free)
      · exact configured_self s
    · exact configured_self s

theorem changed_perform (s : Logger) (c : LogCall) :
    Changed sourceDir s (s.perform sourceDir c).state := by
  cases c with
  | initCliLog => exact .boost (some s.autoflush) fun flush is => (Option.some.inj is).symm
  | initFileLog => exact .boost none fun flush is => by cases is
  | initSysLog => exact .destination .syslog rfl true
  | setLevel filter => exact .configured (configured_setLevel s filter)
  | setLevelFromEnvironment value =>
    exact .configured (configured_setLevelFromEnvironment s value)
  | setDetails filter => exact .configured (configured_setDetails s filter)
  | setDetailsFromEnvironment value =>
    exact .configured (configured_setDetailsFromEnvironment s value)
  | setAutoflush flush => exact .configured (configured_setAutoflush s flush)
  | setTimeFormat timeFormat => exact .configured (configured_setTimeFormat s timeFormat)
  | lock => exact .switch false
  | unlock => exact .switch true
  | addDestination => exact .destination .custom rfl s.logsOn
  | log site =>
    simp only [perform]
    split
    · exact .opened site
    · exact .configured (configured_self s)
  | stream site =>
    simp only [perform]
    split
    · exact .opened site
    · exact .configured (configured_self s)
  | write k text throws =>
    simp only [perform, endMessage]
    split
    next m is => exact .message k m is text throws
    · exact .configured (configured_self s)
  | abandon k => exact .abandoned k

/-! ### The loop over the appenders -/

/-- The appenders that are called, up to the first one that throws. -/
def reached (throws : Nat → Bool) : Nat → List LogAppender → List LogAppender
  | _, [] => []
  | place, appender :: appenders =>
    appender :: if throws place then [] else reached throws (place + 1) appenders

/-- All appenders are called. -/
def callAll (m : LogMessage) (s : Logger) : Nat → List LogAppender → Logger
  | _, [] => s
  | place, appender :: appenders => callAll m (s.call place appender m) (place + 1) appenders

theorem callAppenders_eq_callAll (m : LogMessage) (throws : Nat → Bool) (s : Logger) (place : Nat)
    (appenders : List LogAppender) :
    callAppenders m throws s place appenders =
      callAll m s place (reached throws place appenders) := by
  induction appenders generalizing s place with
  | nil => rfl
  | cons appender appenders ih =>
    rw [callAppenders, reached, callAll]
    split
    · rfl
    · exact ih _ _

theorem getElem?_reached {throws : Nat → Bool} {place i : Nat} {appenders : List LogAppender}
    {appender : LogAppender} :
    (reached throws place appenders)[i]? = some appender ↔
      appenders[i]? = some appender ∧ ∀ j, j < i → throws (place + j) = false := by
  induction appenders generalizing place i with
  | nil => simp [reached]
  | cons first appenders ih =>
    rw [reached]
    cases i with
    | zero => simp
    | succ i =>
      have split_ : (∀ j, j < i + 1 → throws (place + j) = false) ↔
          throws place = false ∧ ∀ j, j < i → throws (place + 1 + j) = false := by
        rw [Nat.forall_lt_succ_left]
        simp only [Nat.add_zero, Nat.add_assoc, Nat.add_comm 1]
      rw [List.getElem?_cons_succ, List.getElem?_cons_succ, split_]
      cases throws place with
      | true => simp
      | false => simpa using ih

theorem call_eq (s : Logger) (place : Nat) (appender : LogAppender) (m : LogMessage) :
    ∃ records dangled, s.call place appender m =
      { s with received := s.received ++ [(place, m)], records, dangled } := by
  unfold call
  split
  · exact ⟨_, _, rfl⟩
  · exact ⟨_, _, rfl⟩

theorem callAll_eq (m : LogMessage) (s : Logger) (place : Nat) (appenders : List LogAppender) :
    ∃ received records dangled, callAll m s place appenders =
      { s with received, records, dangled } := by
  induction appenders generalizing s place with
  | nil => exact ⟨_, _, _, rfl⟩
  | cons appender appenders ih =>
    obtain ⟨records, dangled, called⟩ := call_eq s place appender m
    obtain ⟨received, records, dangled, is⟩ := ih (s.call place appender m) (place + 1)
    rw [callAll, is, called]
    exact ⟨_, _, _, rfl⟩

/-- Records come from the appenders of boost's log only. -/
theorem mem_records_callAll {m : LogMessage} {s : Logger} {place : Nat}
    {appenders : List LogAppender} {r : LogRecord}
    (member : r ∈ (callAll m s place appenders).records) :
    r ∈ s.records ∨
      r = ⟨s.sink, s.detailsFilter, m⟩ ∧ ∃ appender ∈ appenders, appender.source ≠ none := by
  induction appenders generalizing s place with
  | nil => exact .inl member
  | cons appender appenders ih =>
    rcases ih member with here | ⟨new, other, later, boost⟩
    · cases appender with
      | boost source =>
        rcases List.mem_append.mp here with old | new
        · exact .inl old
        · exact .inr ⟨List.mem_singleton.mp new, .boost source, List.mem_cons_self,
            Option.some_ne_none source⟩
      | syslog => exact .inl here
      | custom => exact .inl here
    · obtain ⟨records, dangled, called⟩ := call_eq s place appender m
      rw [called] at new
      exact .inr ⟨new, other, List.mem_cons_of_mem appender later, boost⟩

theorem dangled_callAll {m : LogMessage} {s : Logger} {place : Nat}
    {appenders : List LogAppender} :
    (callAll m s place appenders).dangled = true ↔
      s.dangled = true ∨ ∃ source, .boost source ∈ appenders ∧ s.boostImpl ≠ some source := by
  induction appenders generalizing s place with
  | nil => simp [callAll]
  | cons appender appenders ih =>
    obtain ⟨records, dangled, called⟩ := call_eq s place appender m
    have same : (s.call place appender m).boostImpl = s.boostImpl := by rw [called]
    rw [callAll, ih, same]
    cases appender with
    | boost source => simp [call, or_assoc, or_and_right, exists_or]
    | syslog => simp [call]
    | custom => simp [call]

theorem receivedBy_callAll (m : LogMessage) (s : Logger) (place : Nat)
    (appenders : List LogAppender) (q : Nat) :
    (callAll m s place appenders).receivedBy q =
      s.receivedBy q ++ if place ≤ q ∧ q < place + appenders.length then [m] else [] := by
  induction appenders generalizing s place with
  | nil =>
    rw [if_neg (by simp), List.append_nil]
    rfl
  | cons appender appenders ih =>
    obtain ⟨records, dangled, called⟩ := call_eq s place appender m
    have here : (s.call place appender m).receivedBy q =
        s.receivedBy q ++ if place = q then [m] else [] := by
      rw [called, receivedBy, receivedBy, List.filter_append, List.map_append]
      by_cases same : place = q
      · simp [same]
      · simp [same]
    rw [callAll, ih, here, List.append_assoc]
    congr 1
    by_cases same : place = q
    · subst same
      simp
    · have rest : (place + 1 ≤ q ∧ q < place + 1 + appenders.length) ↔
          (place ≤ q ∧ q < place + (appender :: appenders).length) := by
        rw [List.length_cons]
        omega
      rw [if_neg same, List.nil_append]
      simp only [rest]

/-- The appenders that a message of the level comes to. -/
def called (s : Logger) (level : LogLevel) (throws : Nat → Bool) : List LogAppender :=
  if s.logsOn ∧ s.isNotFiltered level then reached throws 0 s.appenders else []

theorem write_eq_callAll (s : Logger) (m : LogMessage) (throws : Nat → Bool) :
    s.write m throws = callAll m s 0 (s.called m.level throws) := by
  unfold called write
  split
  · exact callAppenders_eq_callAll m throws s 0 s.appenders
  · rfl

theorem write_eq (s : Logger) (m : LogMessage) (throws : Nat → Bool) :
    ∃ received records dangled, s.write m throws = { s with received, records, dangled } := by
  rw [write_eq_callAll]
  exact callAll_eq _ _ _ _

theorem mem_of_mem_reached {throws : Nat → Bool} {place : Nat} {appenders : List LogAppender}
    {appender : LogAppender} (member : appender ∈ reached throws place appenders) :
    appender ∈ appenders := by
  obtain ⟨i, at_⟩ := List.mem_iff_getElem?.mp member
  exact List.mem_of_getElem? (getElem?_reached.mp at_).1

theorem mem_records_write {m : LogMessage} {throws : Nat → Bool} {r : LogRecord}
    (member : r ∈ (s.write m throws).records) :
    r ∈ s.records ∨ r = ⟨s.sink, s.detailsFilter, m⟩ ∧
      ∃ appender ∈ s.appenders, appender.source ≠ none := by
  rw [write_eq_callAll] at member
  rcases mem_records_callAll member with old | ⟨new, appender, called, boost⟩
  · exact .inl old
  · refine .inr ⟨new, appender, ?_, boost⟩
    unfold Logger.called at called
    split at called
    · exact mem_of_mem_reached called
    · cases called

/-! ### One format for all records -/

/-- The sources are numbered in the order of their appenders, and the last one is the one that is
not freed. The sink is as the settings say, and without a source there is neither a sink nor a
record. -/
structure Sound (s : Logger) : Prop where
  numbered : s.appenders.filterMap LogAppender.source = List.range s.sources
  boostImpl : s.boostImpl = if s.sources = 0 then none else some (s.sources - 1)
  sink : ∀ sink, s.sink = some sink → sink.Fits s.detailsFilter s.timeFormat s.autoflush
  present : s.sources ≠ 0 → s.sink ≠ none
  silent : s.sources = 0 → s.sink = none ∧ s.records = []

theorem Sound.sources_ne_zero (sound : s.Sound) {appender : LogAppender}
    (member : appender ∈ s.appenders) (boost : appender.source ≠ none) : s.sources ≠ 0 := by
  intro none_
  obtain ⟨source, is⟩ := Option.ne_none_iff_exists'.mp boost
  have listed : source ∈ s.appenders.filterMap LogAppender.source :=
    List.mem_filterMap.mpr ⟨appender, member, is⟩
  rw [sound.numbered, none_] at listed
  cases listed

theorem Sound.of_free (sound : s.Sound) (free : s.boostImpl = none) : s.sources = 0 := by
  by_contra some_
  rw [sound.boostImpl, if_neg some_] at free
  cases free

theorem changed_step {c : LogCall} (stepped : s.step sourceDir c = some s') :
    Changed sourceDir s s' := by
  rw [← Option.some.inj stepped]
  exact changed_perform s c

theorem sound_start : ({} : Logger).Sound where
  numbered := rfl
  boostImpl := rfl
  sink _ is := by cases is
  present some_ := absurd rfl some_
  silent _ := ⟨rfl, rfl⟩

theorem Sound.addBoostLogDestination (sound : s.Sound) {autoFlush : Option Bool}
    (fits : ∀ flush, autoFlush = some flush → flush = s.autoflush) :
    ({ s.addBoostLogDestination autoFlush with logsOn := true } : Logger).Sound where
  numbered := by
    simp [Logger.addBoostLogDestination, List.filterMap_append, sound.numbered, LogAppender.source,
      List.range_succ]
  boostImpl := by simp [Logger.addBoostLogDestination]
  sink _ is := by
    rw [← Option.some.inj is]
    refine ⟨fun field => ?_, rfl, fits⟩
    rw [Bool.eq_iff_iff, LogSink.names, decide_eq_true_iff]
    exact mem_placeholders_formatter s.detailsFilter field
  present _ := Option.some_ne_none _
  silent none_ := absurd none_ (Nat.succ_ne_zero s.sources)

theorem sound_step (s : Logger) (c : LogCall) (s' : Logger) (sound : s.Sound)
    (stepped : s.step sourceDir c = some s') : s'.Sound := by
  -- details and format change only before boost's log has been set up
  have unmade (free : s.boostImpl = none) {sink : LogSink} : s.sink ≠ some sink := by
    rw [(sound.silent (sound.of_free free)).1]
    exact Option.some_ne_none sink |>.symm
  cases changed_step stepped with
  | configured configured =>
    cases configured with
    | level levelFilter => exact { sound with }
    | details detailsFilter free =>
      exact { sound with sink := fun sink is => absurd is (unmade free) }
    | format autoflush timeFormat free =>
      exact { sound with sink := fun sink is => absurd is (unmade free) }
  | switch logsOn => exact { sound with }
  | destination appender plain logsOn =>
    refine { sound with numbered := ?_ }
    simp [List.filterMap_append, sound.numbered, plain]
  | boost autoFlush fits => exact sound.addBoostLogDestination fits
  | opened site => exact { sound with }
  | message k m here text throws =>
    have origin :=
      @mem_records_write { s with opened := s.opened.eraseIdx k } { m with text } throws
    obtain ⟨received, records, dangled, is⟩ :=
      write_eq { s with opened := s.opened.eraseIdx k } { m with text } throws
    rw [is] at origin ⊢
    refine { sound with silent := fun none_ => ⟨(sound.silent none_).1, ?_⟩ }
    rw [List.eq_nil_iff_forall_not_mem]
    intro r member
    rcases origin member with old | ⟨-, appender, inside, boost⟩
    -- without a source there is no appender of boost's log, which alone makes records
    · rw [(sound.silent none_).2] at old
      cases old
    · exact sound.sources_ne_zero inside boost none_
  | abandoned k => exact { sound with }

/-- No details are set while the text of a log statement is being evaluated. -/
def Settled (s : Logger) : LogCall → Prop
  | .setDetails _ | .setDetailsFromEnvironment _ => s.opened = []
  | _ => True

instance Settled.decidable (s : Logger) : (c : LogCall) → Decidable (s.Settled c)
  | .setDetails _ | .setDetailsFromEnvironment _ => inferInstanceAs (Decidable (s.opened = []))
  | .initCliLog | .initFileLog | .initSysLog | .setLevel _ | .setLevelFromEnvironment _
  | .setAutoflush _ | .setTimeFormat _ | .lock | .unlock | .addDestination | .log _ | .stream _
  | .write _ _ _ | .abandon _ => inferInstanceAs (Decidable True)

/-- The records and the messages that are still open are as the settings say. -/
structure Fitting (s : Logger) : Prop extends s.Sound where
  records : ∀ r ∈ s.records, r.Fits s
  opened : ∀ m ∈ s.opened, m.Fits s.detailsFilter

/-- Only the setters of the details change them. -/
theorem Settled.detailsFilter {c : LogCall} (settled : s.Settled c)
    (stepped : s.step sourceDir c = some s') :
    s'.detailsFilter = s.detailsFilter ∨ s.opened = [] := by
  rw [← Option.some.inj stepped]
  cases c with
  | setDetails filter => exact .inr settled
  | setDetailsFromEnvironment value => exact .inr settled
  | setLevel filter =>
    left
    simp only [perform, setLevel]
    split
    · rfl
    · rfl
  | setLevelFromEnvironment value =>
    left
    simp only [perform, setLevelFromEnvironment, setLevel]
    repeat' split
    all_goals rfl
  | setAutoflush flush =>
    left
    simp only [perform, setAutoflush]
    split
    · rfl
    · rfl
  | setTimeFormat timeFormat =>
    left
    simp only [perform, setTimeFormat]
    repeat' split
    all_goals rfl
  | log site =>
    left
    simp only [perform]
    split
    · rfl
    · rfl
  | stream site =>
    left
    simp only [perform]
    split
    · rfl
    · rfl
  | write k text throws =>
    left
    simp only [perform, endMessage]
    split
    next m is =>
      obtain ⟨received, records, dangled, is⟩ :=
        write_eq { s with opened := s.opened.eraseIdx k } { m with text } throws
      rw [is]
      rfl
    · rfl
  | initCliLog | initFileLog | initSysLog | lock | unlock | addDestination | abandon _ =>
    exact .inl rfl

theorem isSome_ite_some {α : Type} (shown : Bool) (a : α) :
    (if shown = true then some a else none).isSome = shown := by
  cases shown with
  | true => rfl
  | false => rfl

/-- The message of a statement that begins has the next number and fits the details. -/
theorem beginMessage_eq (sourceDir : Option (List UInt8)) (s : Logger) (site : LogSite) :
    ∃ m, s.beginMessage sourceDir site =
        { s with idCounter := s.idCounter + 1, opened := s.opened ++ [m] } ∧
      m.id = s.idCounter ∧ m.Fits s.detailsFilter :=
  ⟨_, rfl, rfl, isSome_ite_some _ _, isSome_ite_some _ _⟩

theorem fitting_step (s : Logger) (c : LogCall) (s' : Logger) (fitting : s.Fitting)
    (settled : s.Settled c) (stepped : s.step sourceDir c = some s') : s'.Fitting := by
  have sound : s'.Sound := sound_step s c s' fitting.toSound stepped
  have details := settled.detailsFilter stepped
  have none_ (free : s.boostImpl = none) : s.records = [] :=
    (fitting.silent (fitting.of_free free)).2
  -- as long as the settings are free nothing has been written with them
  have unwritten (free : s.boostImpl = none) {s' : Logger} : ∀ r ∈ s.records, r.Fits s' := by
    rw [none_ free]
    exact fun r member => by cases member
  have same {s' : Logger} (details : s'.detailsFilter = s.detailsFilter)
      (timeFormat : s'.timeFormat = s.timeFormat) (autoflush : s'.autoflush = s.autoflush) :
      ∀ r ∈ s.records, r.Fits s' :=
    fun r member => (fitting.records r member).congr details timeFormat autoflush
  cases changed_step stepped with
  | configured configured =>
    cases configured with
    | level levelFilter => exact ⟨sound, same rfl rfl rfl, fitting.opened⟩
    | details detailsFilter free =>
      refine ⟨sound, unwritten free, fun m member => ?_⟩
      -- no statement has taken its fields with the old details
      rcases details with kept | nothing
      · rw [kept]
        exact fitting.opened m member
      · rw [nothing] at member
        cases member
    | format autoflush timeFormat free => exact ⟨sound, unwritten free, fitting.opened⟩
  | switch logsOn => exact ⟨sound, same rfl rfl rfl, fitting.opened⟩
  | destination appender plain logsOn => exact ⟨sound, same rfl rfl rfl, fitting.opened⟩
  | boost autoFlush fits => exact ⟨sound, same rfl rfl rfl, fitting.opened⟩
  | opened site =>
    obtain ⟨first, is, -, fits⟩ := beginMessage_eq sourceDir s site
    rw [is] at sound ⊢
    refine ⟨sound, same rfl rfl rfl, fun m member => ?_⟩
    rcases List.mem_append.mp member with old | new
    · exact fitting.opened m old
    · rw [List.mem_singleton.mp new]
      exact fits
  | message k m here text throws =>
    have origin :=
      @mem_records_write { s with opened := s.opened.eraseIdx k } { m with text } throws
    obtain ⟨received, records, dangled, is⟩ :=
      write_eq { s with opened := s.opened.eraseIdx k } { m with text } throws
    rw [is] at origin sound ⊢
    refine ⟨sound, fun r member => ?_, fun m' member => ?_⟩
    · rcases origin member with old | ⟨rfl, appender, inside, boost⟩
      · exact (fitting.records r old).congr rfl rfl rfl
      -- the message took its fields with the details that the sink's format was made of
      · have some_ := fitting.present (fitting.sources_ne_zero inside boost)
        obtain ⟨sink, made⟩ := Option.ne_none_iff_exists'.mp some_
        have fits := (fitting.opened m (List.mem_of_getElem? here)).record
          (fitting.sink sink made) text
        rw [← made] at fits
        exact fits.congr rfl rfl rfl
    · exact fitting.opened m' (List.mem_of_mem_eraseIdx member)
  | abandoned k =>
    refine ⟨sound, same rfl rfl rfl, fun m member => ?_⟩
    exact fitting.opened m (List.mem_of_mem_eraseIdx member)

/-- What a destination of boost's log writes has the fields that the format of its sink asks for,
and everything is written alike: the sink has been made with the settings that the logger has
now. -/
theorem records_fit {calls : List LogCall} (settled : Meets (step sourceDir) Settled {} calls)
    (visited : Visits (step sourceDir) {} calls s) : ∀ r ∈ s.records, r.Fits s := by
  have nothing (r : LogRecord) (member : r ∈ ({} : Logger).records) : r.Fits {} := by cases member
  have unopened (m : LogMessage) (member : m ∈ ({} : Logger).opened) :
      m.Fits ({} : Logger).detailsFilter := by cases member
  have fitting : s.Fitting :=
    visits_invariant fitting_step ⟨sound_start, nothing, unopened⟩ settled visited
  exact fitting.records

private def quiet : Nat → Bool := fun _ => false

private def refused : List LogCall :=
  [.setDetails 33, .initCliLog, .log { level := .info }, .write 0 (ascii "a") quiet, .setDetails 0,
    .setTimeFormat (some (ascii "%H:%M")), .setDetailsFromEnvironment (some (ascii "1")),
    .stream { level := .fatal }, .write 0 (ascii "b") quiet]

/-- The settings are refused once there is a destination of boost's log. -/
theorem records_fit_refused :
    ∃ s, run (step none) {} refused = some s ∧ s.records.length = 2 ∧ s.detailsFilter = 33 ∧
      ∀ r ∈ s.records, r.Fits s := by
  have ran : (run (step none) {} refused).map (fun s => (s.records.length, s.detailsFilter)) =
      some (2, 33) := by decide +kernel
  obtain ⟨s, is, fields⟩ := Option.map_eq_some_iff.mp ran
  obtain ⟨count, details⟩ := Prod.mk.inj fields
  have settled : Meets (step none) Settled {} refused := by decide +kernel
  exact ⟨s, is, count, details, records_fit settled (visits_of_run is)⟩

/-! ### The freed source -/

/-- There is an appender of boost's log at the place. -/
def boostAt (s : Logger) (place : Nat) : Prop :=
  ∃ source, s.appenders[place]? = some (.boost source)

/-- The appenders that throw at the message of a call, if it writes one. -/
def writes (s : Logger) : LogCall → Option (Nat → Bool)
  | .write k _ throws =>
    match s.opened[k]? with
    | some m => if s.logsOn && s.isNotFiltered m.level then some throws else none
    | none => none
  | _ => none

/-- No message comes to an appender of boost's log that has another one behind it. -/
def SafeToWrite (s : Logger) (c : LogCall) : Prop :=
  ∀ throws, s.writes c = some throws → ∀ place later, place < later → s.boostAt place →
    s.boostAt later → ∃ before, before < place ∧ throws before = true

/-- A source has been freed exactly if there is an appender for a later one. -/
theorem Sound.stale_iff (sound : s.Sound) {place source : Nat}
    (at_ : s.appenders[place]? = some (.boost source)) :
    s.boostImpl ≠ some source ↔ ∃ later, place < later ∧ s.boostAt later := by
  obtain ⟨inside, is⟩ := List.getElem?_eq_some_iff.mp at_
  have whole : s.appenders =
      s.appenders.take place ++ .boost source :: s.appenders.drop (place + 1) := by
    rw [← is, ← List.drop_eq_getElem_cons, List.take_append_drop]
  have numbered := sound.numbered
  have own : (LogAppender.boost source).source = some source := rfl
  rw [whole, List.filterMap_append, List.filterMap_cons_some own] at numbered
  -- the source is the number of the appenders of its kind in front of it
  have count := congrArg List.length numbered
  rw [List.length_append, List.length_cons, List.length_range] at count
  have number : ((s.appenders.take place).filterMap LogAppender.source).length = source := by
    have there := congrArg (fun l => l[((s.appenders.take place).filterMap
      LogAppender.source).length]?) numbered
    simp only [List.getElem?_append_right (Nat.le_refl _), Nat.sub_self,
      List.getElem?_cons_zero] at there
    rw [List.getElem?_range (by omega)] at there
    exact (Option.some.inj there).symm
  have last : s.boostImpl ≠ some source ↔
      (s.appenders.drop (place + 1)).filterMap LogAppender.source ≠ [] := by
    rw [sound.boostImpl, if_neg (by omega), Ne, Option.some.injEq, Ne, ← List.length_eq_zero_iff]
    omega
  rw [last]
  constructor
  · intro some_
    obtain ⟨source', member⟩ := List.exists_mem_of_ne_nil _ some_
    obtain ⟨appender, later, boost⟩ := List.mem_filterMap.mp member
    obtain ⟨i, at'⟩ := List.mem_iff_getElem?.mp later
    rw [List.getElem?_drop] at at'
    cases appender with
    | boost other => exact ⟨place + 1 + i, by omega, other, at'⟩
    | _ => cases boost
  · rintro ⟨later, behind, other, at'⟩
    refine List.ne_nil_of_mem (List.mem_filterMap.mpr ⟨.boost other, ?_, rfl⟩)
    rw [List.mem_iff_getElem?]
    refine ⟨later - (place + 1), ?_⟩
    rw [List.getElem?_drop, Nat.add_sub_cancel' behind]
    exact at'

theorem dangled_write (s : Logger) (m : LogMessage) (throws : Nat → Bool) :
    (s.write m throws).dangled = true ↔ s.dangled = true ∨
      (s.logsOn = true ∧ s.isNotFiltered m.level = true) ∧
        ∃ source, .boost source ∈ reached throws 0 s.appenders ∧ s.boostImpl ≠ some source := by
  rw [write_eq_callAll, dangled_callAll, called]
  by_cases writes : s.logsOn = true ∧ s.isNotFiltered m.level = true
  · simp [writes]
  · simp [writes]

theorem dangled_perform (s : Logger) (c : LogCall) :
    (s.perform sourceDir c).state.dangled = true ↔ s.dangled = true ∨
      ∃ throws, s.writes c = some throws ∧
        ∃ source, .boost source ∈ reached throws 0 s.appenders ∧ s.boostImpl ≠ some source := by
  have quiet {s' : Logger} (configured : Configured s s') : s'.dangled = s.dangled := by
    cases configured with
    | _ => rfl
  cases c with
  | log site =>
    simp only [perform]
    split
    · simp [writes, Outcome.state, beginMessage, createMessage]
    · simp [writes, Outcome.state]
  | stream site =>
    simp only [perform]
    split
    · simp [writes, Outcome.state, beginMessage, createMessage]
    · simp [writes, Outcome.state]
  | write k text throws =>
    simp only [perform, endMessage, writes]
    have same (level : LogLevel) :
        ({ s with opened := s.opened.eraseIdx k } : Logger).isNotFiltered level =
          s.isNotFiltered level := rfl
    cases s.opened[k]? with
    | some m => simp [Outcome.state, dangled_write, same, and_assoc]
    | none => simp [Outcome.state]
  | setLevel filter => simp [perform, writes, quiet (configured_setLevel s filter)]
  | setLevelFromEnvironment value =>
    simp [perform, writes, quiet (configured_setLevelFromEnvironment s value)]
  | setDetails filter => simp [perform, writes, quiet (configured_setDetails s filter)]
  | setDetailsFromEnvironment value =>
    simp [perform, writes, quiet (configured_setDetailsFromEnvironment s value)]
  | setAutoflush flush => simp [perform, writes, quiet (configured_setAutoflush s flush)]
  | setTimeFormat timeFormat =>
    simp [perform, writes, quiet (configured_setTimeFormat s timeFormat)]
  | _ => simp [perform, writes, Outcome.state, addBoostLogDestination]

/-- A call uses a freed source exactly if it is not safe to write. -/
theorem Sound.dangled_step (sound : s.Sound) (fresh : s.dangled = false) {c : LogCall}
    (stepped : s.step sourceDir c = some s') : s'.dangled = false ↔ s.SafeToWrite c := by
  rw [← Option.some.inj stepped, ← Bool.not_eq_true, dangled_perform, fresh]
  constructor
  · intro unharmed throws writes place later behind at_ boostLater
    by_contra nobody
    obtain ⟨source, here⟩ := at_
    apply unharmed
    refine .inr ⟨throws, writes, source, ?_, (sound.stale_iff here).mpr ⟨later, behind, boostLater⟩⟩
    rw [List.mem_iff_getElem?]
    refine ⟨place, getElem?_reached.mpr ⟨here, fun j below => ?_⟩⟩
    rw [Nat.zero_add, Bool.eq_false_iff]
    exact fun throws_ => nobody ⟨j, below, throws_⟩
  · rintro safe (harmed | ⟨throws, writes, source, called, stale⟩)
    · cases harmed
    · obtain ⟨place, at_⟩ := List.mem_iff_getElem?.mp called
      obtain ⟨here, before⟩ := getElem?_reached.mp at_
      obtain ⟨later, behind, boostLater⟩ := (sound.stale_iff here).mp stale
      obtain ⟨j, below, throws_⟩ := safe throws writes place later behind ⟨source, here⟩ boostLater
      have quiet := before j below
      rw [Nat.zero_add, throws_] at quiet
      cases quiet

structure Unharmed (s : Logger) : Prop where
  sound : s.Sound
  fresh : s.dangled = false

theorem unharmed_step (s : Logger) (c : LogCall) (s' : Logger) (unharmed : s.Unharmed)
    (safe : s.SafeToWrite c) (stepped : s.step sourceDir c = some s') : s'.Unharmed :=
  ⟨sound_step s c s' unharmed.sound stepped,
    (unharmed.sound.dangled_step unharmed.fresh stepped).mpr safe⟩

theorem dangled_of_not_safe (sourceDir : Option (List UInt8)) (s : Logger) (c : LogCall)
    (unharmed : s.Unharmed) (risky : ¬ s.SafeToWrite c) :
    ∃ s', s.step sourceDir c = some s' ∧ ¬ s'.dangled = false :=
  ⟨_, rfl, fun still => risky ((unharmed.sound.dangled_step unharmed.fresh rfl).mp still)⟩

/-- No source that was freed is used exactly as long as no message comes to an appender of
boost's log that another one has replaced. -/
theorem undangled_iff (sourceDir : Option (List UInt8)) (calls : List LogCall) :
    (∀ s, Visits (step sourceDir) {} calls s → s.dangled = false) ↔
      Meets (step sourceDir) SafeToWrite {} calls :=
  always_iff unharmed_step (fun _ unharmed => unharmed.fresh) (dangled_of_not_safe sourceDir) calls
    ⟨sound_start, rfl⟩

/-! ### The order of the messages -/

/-- No appender gets a message twice, nor one that the appender in front of it does not get. -/
structure Delivered (s : Logger) : Prop where
  once : ∀ place, ((s.receivedBy place).map LogMessage.id).Nodup
  sublist : ∀ place, (s.receivedBy (place + 1)).Sublist (s.receivedBy place)

/-- Every appender gets its messages in the order of their numbers. -/
def InOrder (s : Logger) : Prop :=
  ∀ place, (s.receivedBy place).Pairwise fun m m' => m.id < m'.id

/-- The numbers that have been given are below the counter, those of the open statements are in
order, and no appender has got one of these. -/
structure Counted (s : Logger) : Prop extends s.Delivered where
  below : ∀ place, ∀ m ∈ s.receivedBy place, m.id < s.idCounter
  opened : s.opened.Pairwise fun m m' => m.id < m'.id
  openedBelow : ∀ m ∈ s.opened, m.id < s.idCounter
  apart : ∀ place, ∀ m ∈ s.receivedBy place, ∀ m' ∈ s.opened, m.id ≠ m'.id

/-- No open statement has been overtaken. -/
structure InTurn (s : Logger) : Prop extends s.Counted where
  inOrder : s.InOrder
  front : ∀ place, ∀ m ∈ s.receivedBy place, ∀ m' ∈ s.opened, m.id < m'.id

theorem receivedBy_of_same (received : s'.received = s.received) :
    s'.receivedBy = s.receivedBy := by
  funext place
  rw [receivedBy, receivedBy, received]

theorem Counted.of_same (counted : s.Counted) (received : s'.received = s.received)
    (idCounter : s'.idCounter = s.idCounter) (opened : s'.opened = s.opened) : s'.Counted := by
  obtain ⟨⟨once, sublist⟩, below, increasing, openedBelow, apart⟩ := counted
  rw [← receivedBy_of_same received] at once sublist below apart
  rw [← opened] at increasing openedBelow apart
  rw [← idCounter] at below openedBelow
  exact ⟨⟨once, sublist⟩, below, increasing, openedBelow, apart⟩

theorem InTurn.of_same (inTurn : s.InTurn) (received : s'.received = s.received)
    (idCounter : s'.idCounter = s.idCounter) (opened : s'.opened = s.opened) : s'.InTurn := by
  refine ⟨inTurn.toCounted.of_same received idCounter opened, ?_, ?_⟩
  · rw [InOrder, receivedBy_of_same received]
    exact inTurn.inOrder
  · rw [receivedBy_of_same received, opened]
    exact inTurn.front

theorem lt_succ_counter (fits : s.idCounter.toNat + 1 < sizeMax) :
    s.idCounter < s.idCounter + 1 := by
  have kept : (s.idCounter + 1).toNat = s.idCounter.toNat + 1 := by
    rw [UInt64.toNat_add]
    exact Nat.mod_eq_of_lt fits
  rw [UInt64.lt_iff_toNat_lt, kept]
  exact Nat.lt_succ_self _

/-- A statement that begins takes the next number. -/
theorem Counted.begins (counted : s.Counted) (fits : s.idCounter.toNat + 1 < sizeMax)
    (site : LogSite) : (s.beginMessage sourceDir site).Counted := by
  have next := lt_succ_counter fits
  obtain ⟨first, is, number, -⟩ := beginMessage_eq sourceDir s site
  rw [is]
  refine ⟨⟨counted.once, counted.sublist⟩, ?_, ?_, ?_, ?_⟩
  · exact fun place m member => UInt64.lt_trans (counted.below place m member) next
  · refine List.pairwise_append.mpr ⟨counted.opened, List.pairwise_singleton _ _, ?_⟩
    intro m member m' new
    rw [List.mem_singleton.mp new, number]
    exact counted.openedBelow m member
  · intro m member
    rcases List.mem_append.mp member with old | new
    · exact UInt64.lt_trans (counted.openedBelow m old) next
    · rw [List.mem_singleton.mp new, number]
      exact next
  · intro place m received m' member
    rcases List.mem_append.mp member with old | new
    · exact counted.apart place m received m' old
    · rw [List.mem_singleton.mp new, number]
      exact UInt64.ne_of_lt (counted.below place m received)

theorem receivedBy_write (s : Logger) (m : LogMessage) (throws : Nat → Bool) (place : Nat) :
    (s.write m throws).receivedBy place =
      s.receivedBy place ++ if place < (s.called m.level throws).length then [m] else [] := by
  rw [write_eq_callAll, receivedBy_callAll, Nat.zero_add]
  simp only [Nat.zero_le, true_and]

theorem mem_of_mem_ite_singleton {p : Prop} [Decidable p] {α : Type} {a b : α}
    (member : a ∈ if p then [b] else []) : a = b := by
  split at member
  · exact List.mem_singleton.mp member
  · cases member

/-- What is left of the open statements lies around the one that has ended. -/
theorem Counted.ne_of_mem_eraseIdx (counted : s.Counted) {k : Nat} {m m' : LogMessage}
    (here : s.opened[k]? = some m) (member : m' ∈ s.opened.eraseIdx k) : m.id ≠ m'.id := by
  obtain ⟨inside, is⟩ := List.getElem?_eq_some_iff.mp here
  have distinct := List.pairwise_iff_getElem.mp counted.opened
  obtain ⟨i, other, at_⟩ := List.mem_eraseIdx_iff_getElem.mp member
  obtain ⟨apart, rfl⟩ := at_
  rw [← is]
  rcases Nat.lt_or_gt_of_ne apart with before | behind
  · exact (UInt64.ne_of_lt (distinct i k other inside before)).symm
  · exact UInt64.ne_of_lt (distinct k i inside other behind)

/-- A statement that ends hands its message to an initial part of the appenders. -/
theorem Counted.ends (counted : s.Counted) {k : Nat} {m : LogMessage}
    (here : s.opened[k]? = some m) (text : List UInt8) (throws : Nat → Bool) :
    ({ s with opened := s.opened.eraseIdx k }.write { m with text } throws).Counted := by
  have inside := List.mem_of_getElem? here
  have received := receivedBy_write { s with opened := s.opened.eraseIdx k } { m with text } throws
  obtain ⟨received', records, dangled, is⟩ :=
    write_eq { s with opened := s.opened.eraseIdx k } { m with text } throws
  rw [is] at received ⊢
  have left {m' : LogMessage} (member : m' ∈ s.opened.eraseIdx k) : m' ∈ s.opened :=
    List.mem_of_mem_eraseIdx member
  refine ⟨⟨fun place => ?_, fun place => ?_⟩, fun place m' member => ?_, ?_, ?_, ?_⟩
  · rw [received, List.map_append, List.nodup_append']
    refine ⟨counted.once place, ?_, ?_⟩
    · split
      · exact List.nodup_singleton _
      · exact List.nodup_nil
    · rintro id old new
      obtain ⟨m₁, received₁, rfl⟩ := List.mem_map.mp old
      obtain ⟨m₂, added, same⟩ := List.mem_map.mp new
      rw [mem_of_mem_ite_singleton added] at same
      exact counted.apart place m₁ received₁ m inside same.symm
  · rw [received, received]
    apply (counted.sublist place).append
    by_cases further : place + 1 <
        (({ s with opened := s.opened.eraseIdx k } : Logger).called m.level throws).length
    · rw [if_pos further, if_pos (Nat.lt_of_succ_lt further)]
    · rw [if_neg further]
      exact List.nil_sublist _
  · rw [received] at member
    rcases List.mem_append.mp member with old | new
    · exact counted.below place m' old
    · rw [mem_of_mem_ite_singleton new]
      exact counted.openedBelow m inside
  · exact counted.opened.sublist (List.eraseIdx_sublist s.opened k)
  · exact fun m' member => counted.openedBelow m' (left member)
  · intro place m₁ member m₂ member'
    rw [received] at member
    rcases List.mem_append.mp member with old | new
    · exact counted.apart place m₁ old m₂ (left member')
    · rw [mem_of_mem_ite_singleton new]
      have apart : m.id ≠ m₂.id := counted.ne_of_mem_eraseIdx here member'
      exact apart

/-- A statement that is left without a message is forgotten. -/
theorem Counted.abandons (counted : s.Counted) (k : Nat) :
    ({ s with opened := s.opened.eraseIdx k } : Logger).Counted := by
  have left {m : LogMessage} (member : m ∈ s.opened.eraseIdx k) : m ∈ s.opened :=
    List.mem_of_mem_eraseIdx member
  exact
    { counted with
      opened := counted.opened.sublist (List.eraseIdx_sublist s.opened k)
      openedBelow := fun m member => counted.openedBelow m (left member)
      apart := fun place m received m' member => counted.apart place m received m' (left member) }

/-- The counter of the messages does not wrap. -/
def CounterFits (s : Logger) (_ : LogCall) : Prop := s.idCounter.toNat + 1 < sizeMax

instance CounterFits.decidable (s : Logger) (c : LogCall) : Decidable (s.CounterFits c) :=
  inferInstanceAs (Decidable (s.idCounter.toNat + 1 < sizeMax))

/-- The statement that ends is the one that began first of those that are open. -/
def EndsFirst (_ : Logger) : LogCall → Prop
  | .write k _ _ => k = 0
  | _ => True

instance EndsFirst.decidable (s : Logger) : (c : LogCall) → Decidable (s.EndsFirst c)
  | .write k _ _ => inferInstanceAs (Decidable (k = 0))
  | .initCliLog | .initFileLog | .initSysLog | .setLevel _ | .setLevelFromEnvironment _
  | .setDetails _ | .setDetailsFromEnvironment _ | .setAutoflush _ | .setTimeFormat _ | .lock
  | .unlock | .addDestination | .log _ | .stream _ | .abandon _ =>
    inferInstanceAs (Decidable True)

theorem counted_step (s : Logger) (c : LogCall) (s' : Logger) (counted : s.Counted)
    (fits : s.CounterFits c) (stepped : s.step sourceDir c = some s') : s'.Counted := by
  cases changed_step stepped with
  | configured configured =>
    cases configured with
    | _ => exact counted.of_same rfl rfl rfl
  | opened site => exact counted.begins fits site
  | message k m here text throws => exact counted.ends here text throws
  | abandoned k => exact counted.abandons k
  | _ => exact counted.of_same rfl rfl rfl

/-- The statement that began first ends: its number is behind those that have been written and in
front of those that are open. -/
theorem InTurn.ends (inTurn : s.InTurn) {m : LogMessage} (here : s.opened[0]? = some m)
    (text : List UInt8) (throws : Nat → Bool) :
    ({ s with opened := s.opened.eraseIdx 0 }.write { m with text } throws).InTurn := by
  have counted := inTurn.toCounted.ends here text throws
  have inside := List.mem_of_getElem? here
  have received := receivedBy_write { s with opened := s.opened.eraseIdx 0 } { m with text } throws
  obtain ⟨received', records, dangled, is⟩ :=
    write_eq { s with opened := s.opened.eraseIdx 0 } { m with text } throws
  rw [is] at received counted ⊢
  refine ⟨counted, fun place => ?_, fun place m₁ member m₂ member' => ?_⟩
  · rw [received, List.pairwise_append]
    refine ⟨inTurn.inOrder place, ?_, fun m₁ old m₂ new => ?_⟩
    · split
      · exact List.pairwise_singleton _ _
      · exact List.Pairwise.nil
    · rw [mem_of_mem_ite_singleton new]
      exact inTurn.front place m₁ old m inside
  · have increasing := inTurn.opened
    cases opened : s.opened with
    | nil =>
      rw [opened] at inside
      cases inside
    | cons first rest =>
      rw [opened] at here increasing
      obtain rfl : first = m := Option.some.inj here
      simp only [opened, List.eraseIdx_cons_zero] at member'
      rw [received] at member
      rcases List.mem_append.mp member with old | new
      · exact inTurn.front place m₁ old m₂ (opened ▸ List.mem_cons_of_mem _ member')
      · rw [mem_of_mem_ite_singleton new]
        exact List.rel_of_pairwise_cons increasing member'

theorem InTurn.configured (inTurn : s.InTurn) (configured : Configured s s') : s'.InTurn := by
  cases configured with
  | _ => exact inTurn.of_same rfl rfl rfl

theorem inTurn_step (s : Logger) (c : LogCall) (s' : Logger) (inTurn : s.InTurn)
    (ok : s.CounterFits c ∧ s.EndsFirst c) (stepped : s.step sourceDir c = some s') :
    s'.InTurn := by
  obtain ⟨fits, first⟩ := ok
  cases c with
  | write k text throws =>
    obtain rfl : k = 0 := first
    obtain rfl := Option.some.inj stepped
    simp only [perform, endMessage]
    split
    next m here => exact inTurn.ends here text throws
    · exact inTurn
  | abandon k =>
    obtain rfl := Option.some.inj stepped
    refine ⟨inTurn.toCounted.abandons k, inTurn.inOrder, fun place m received m' member => ?_⟩
    exact inTurn.front place m received m' (List.mem_of_mem_eraseIdx member)
  | log site | stream site =>
    obtain rfl := Option.some.inj stepped
    simp only [perform]
    split
    · have counted : (s.beginMessage sourceDir site).Counted := inTurn.toCounted.begins fits site
      obtain ⟨first, is, number, -⟩ := beginMessage_eq sourceDir s site
      rw [is] at counted ⊢
      refine ⟨counted, inTurn.inOrder, fun place m received m' member => ?_⟩
      rcases List.mem_append.mp member with old | new
      · exact inTurn.front place m received m' old
      · rw [List.mem_singleton.mp new, number]
        exact inTurn.below place m received
    · exact inTurn
  | setLevel filter =>
    obtain rfl := Option.some.inj stepped
    exact inTurn.configured (configured_setLevel s filter)
  | setLevelFromEnvironment value =>
    obtain rfl := Option.some.inj stepped
    exact inTurn.configured (configured_setLevelFromEnvironment s value)
  | setDetails filter =>
    obtain rfl := Option.some.inj stepped
    exact inTurn.configured (configured_setDetails s filter)
  | setDetailsFromEnvironment value =>
    obtain rfl := Option.some.inj stepped
    exact inTurn.configured (configured_setDetailsFromEnvironment s value)
  | setAutoflush flush =>
    obtain rfl := Option.some.inj stepped
    exact inTurn.configured (configured_setAutoflush s flush)
  | setTimeFormat timeFormat =>
    obtain rfl := Option.some.inj stepped
    exact inTurn.configured (configured_setTimeFormat s timeFormat)
  | initCliLog | initFileLog | initSysLog | lock | unlock | addDestination =>
    obtain rfl := Option.some.inj stepped
    exact inTurn.of_same rfl rfl rfl

theorem inTurn_start : ({} : Logger).InTurn where
  once _ := List.nodup_nil
  sublist _ := List.Sublist.refl _
  below _ _ member := by cases member
  opened := List.Pairwise.nil
  openedBelow _ member := by cases member
  apart _ _ member := by cases member
  inOrder _ := List.Pairwise.nil
  front _ _ member := by cases member

/-- While the counter does not wrap no appender gets a message twice, nor one that the appender in
front of it does not get; and each gets them in the order of the numbers if the statements also end
in the order in which they began. -/
theorem messages_in_order {calls : List LogCall}
    (fits : Meets (step sourceDir) CounterFits {} calls)
    (visited : Visits (step sourceDir) {} calls s) :
    s.Delivered ∧ (Meets (step sourceDir) EndsFirst {} calls → s.InOrder) := by
  have counted : s.Counted :=
    visits_invariant counted_step inTurn_start.toCounted fits visited
  refine ⟨counted.toDelivered, fun first => ?_⟩
  have inTurn : s.InTurn :=
    visits_invariant inTurn_step inTurn_start (fits.and first) visited
  exact inTurn.inOrder

private def interrupted : List LogCall :=
  [.addDestination, .addDestination, .unlock, .log { level := .info }, .write 0 [] quiet,
    .log { level := .error }, .log { level := .info }, .write 0 [] fun place => place = 0,
    .write 0 [] quiet, .setLevel 16, .stream { level := .fatal }, .write 0 [] quiet,
    .log { level := .fatal }, .log { level := .fatal }, .abandon 0, .write 0 [] quiet]

/-- The first appender throws at the second message, whose text was evaluated while the third
statement began; the fourth statement is a stream, which the filter of the level `trace` leaves
out; the text of the fifth one cannot be evaluated. -/
theorem messages_in_order_interrupted :
    ∃ s, run (step none) {} interrupted = some s ∧
      (s.receivedBy 0).map LogMessage.id = [0, 1, 2, 4] ∧
      (s.receivedBy 1).map LogMessage.id = [0, 2, 4] ∧ s.Delivered ∧ s.InOrder := by
  have ran : (run (step none) {} interrupted).map (fun s =>
      ((s.receivedBy 0).map LogMessage.id, (s.receivedBy 1).map LogMessage.id)) =
      some ([0, 1, 2, 4], [0, 2, 4]) := by decide +kernel
  obtain ⟨s, is, fields⟩ := Option.map_eq_some_iff.mp ran
  obtain ⟨first, second⟩ := Prod.mk.inj fields
  have fits : Meets (step none) CounterFits {} interrupted := by decide +kernel
  have ends : Meets (step none) EndsFirst {} interrupted := by decide +kernel
  obtain ⟨delivered, inOrder⟩ := messages_in_order fits (visits_of_run is)
  exact ⟨s, is, first, second, delivered, inOrder ends⟩

end Logger

end ServerLib
