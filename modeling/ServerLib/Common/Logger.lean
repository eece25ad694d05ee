import ServerLib.Common.Asserts
import ServerLib.Common.Strings

/-!
# The logger

`logger` hands its messages to a list of appenders. One kind of them goes through the core of
boost's log, which has one sink, and through a source that the logger owns; each new destination
of this kind replaces both the sink and the source. The format of a sink is made when it is added,
out of the details that the logger leaves out at that time.

A log statement has two moments. At the first one it takes a number and whatever the details ask
for; then its text is evaluated, in which anything may happen, also other log statements, of this
thread or of another one; at the second one it is written. Writing is one step: no message is
written while another one is on its way through the appenders. The stream message of `LOG` is made
in its place, as compilers do, and destroyed once.
-/
namespace ServerLib

/-- `logger::level` -/
inductive LogLevel where
  | fatal | error | warning | info | debug | trace
  deriving DecidableEq, Repr

def LogLevel.code : LogLevel → Int32
  | fatal => 0x0
  | error => 0x1
  | warning => 0x2
  | info => 0x4
  | debug => 0x8
  | trace => 0x10

/-- `logger::details`, by what is left out. -/
inductive LogDetail where
  | appName | time | microseconds | level | threadInfo | sourceCode
  deriving DecidableEq, Repr

def LogDetail.code : LogDetail → Int32
  | appName => 0x1
  | time => 0x2
  | microseconds => 0x4
  | level => 0x8
  | threadInfo => 0x10
  | sourceCode => 0x20

/-- `~filter & code` -/
def passes (filter code : Int32) : Bool := ~~~filter &&& code != 0

/-- The place of a log statement, and what it runs in. -/
structure LogSite where
  level : LogLevel
  file : List UInt8 := []
  line : Int32 := 0
  func : List UInt8 := []
  threadId : UInt64 := 0
  threadName : List UInt8 := []

/-- `logger::log_message`; what the details leave out is not set. -/
structure LogMessage where
  id : UInt64
  level : LogLevel
  source : Option (List UInt8 × Int32 × List UInt8)
  thread : Option (UInt64 × List UInt8)
  text : List UInt8
  deriving DecidableEq, Repr

/-- A sink in the core of boost's log. -/
structure LogSink where
  formatter : List UInt8
  timeFormat : List UInt8
  /-- Set for the sink of `init_cli_log` only. -/
  autoFlush : Option Bool
  deriving DecidableEq, Repr

/-- What an appender of boost's log puts into a record. -/
structure LogRecord where
  sink : Option LogSink
  details : Int32
  message : LogMessage
  deriving DecidableEq, Repr

/-- The entries of `_appenders`; sources are numbered in the order in which they are made. -/
inductive LogAppender where
  | boost (source : Nat)
  | syslog
  | custom
  deriving DecidableEq, Repr

/-- A logger with the counter of its messages. `opened` has the messages of the log statements
whose text is being evaluated. `received` are the calls of the appenders, by their place in the
list; `dangled` says that a source has been used that was freed. -/
structure Logger where
  levelFilter : Int32 := 0
  detailsFilter : Int32 := 1
  autoflush : Bool := false
  timeFormat : List UInt8 := ascii "%Y-%m-%dT%H:%M:%S"
  logsOn : Bool := false
  appenders : List LogAppender := []
  boostImpl : Option Nat := none
  sources : Nat := 0
  sink : Option LogSink := none
  idCounter : UInt64 := 0
  opened : List LogMessage := []
  received : List (Nat × LogMessage) := []
  records : List LogRecord := []
  dangled : Bool := false

/-- `throws` are the places of the appenders that throw. -/
inductive LogCall where
  | initCliLog
  | initFileLog
  | initSysLog
  | setLevel (filter : Int32)
  | setLevelFromEnvironment (value : Option (List UInt8))
  | setDetails (filter : Int32)
  | setDetailsFromEnvironment (value : Option (List UInt8))
  | setAutoflush (flush : Bool)
  | setTimeFormat (timeFormat : Option (List UInt8))
  | lock
  | unlock
  | addDestination
  /-- `LOG_LOG`, up to its argument -/
  | log (site : LogSite)
  /-- `LOG`, up to its stream -/
  | stream (site : LogSite)
  /-- The text of one of the open statements is there, and `write` is called. -/
  | write (k : Nat) (text : List UInt8) (throws : Nat → Bool)
  /-- The evaluation of the text throws, and `LOG_LOG` is left without a `write`. -/
  | abandon (k : Nat)

/-- The loop of `trim_file_path`: `left` characters may still be taken, and `root` is what is left
of the directory to compare with. -/
def trimLoop : (left : Nat) → (root : Option (List UInt8)) → List UInt8 → List UInt8
  | 0, _, _ | _, _, [] => []
  | left + 1, none, ch :: file => ch :: trimLoop left none file
  | left + 1, some [], _ :: file => trimLoop (left + 1) none file
  | left + 1, some (c :: root), ch :: file =>
    -- the character that differs is skipped as well
    trimLoop (left + 1) (if ch = c then some root else none) file

/-- `trim_file_path`; both sizes are those of the arrays, with the NUL at the end. Without a
directory the NUL is taken over. -/
def trimFilePath (sourceDir : Option (List UInt8)) (file : List UInt8) : List UInt8 :=
  let fileSize := file.length + 1
  match sourceDir with
  | some root =>
    let rootSize := root.length + 1
    trimLoop (if rootSize < fileSize then fileSize - rootSize else fileSize) (some root) file
  | none => file ++ [0]

/-- The arguments of a formatter, in their order. -/
inductive LogField where
  | appName | timestamp | severity | threadId | threadName | message | file | line
  deriving DecidableEq, Repr

/-- The digit by which a format names the field. -/
def LogField.digit : LogField → UInt8
  | appName => 49
  | timestamp => 50
  | severity => 51
  | threadId => 52
  | threadName => 53
  | message => 54
  | file => 55
  | line => 56

/-- What stands between two percent signs in a format, where it is one character. -/
def placeholders : List UInt8 → List UInt8
  | 37 :: c :: 37 :: format => c :: placeholders format
  | _ :: format => placeholders format
  | [] => []

/-- A part of the format that the details may leave out. -/
def formatPart (details : Int32) (detail : LogDetail) (text : String) : List UInt8 :=
  if passes details detail.code then ascii text else []

/-- There is something in front of the text of a message. -/
def hasFront (details : Int32) : Bool :=
  passes details LogDetail.appName.code || passes details LogDetail.time.code ||
    passes details LogDetail.level.code || passes details LogDetail.threadInfo.code

/-- What the formatter of a new sink is made of. -/
def formatter (details : Int32) : List UInt8 :=
  formatPart details .appName "%1%: " ++ formatPart details .time "%2% " ++
    formatPart details .level "[%3%]" ++ formatPart details .threadInfo "[%4%-%5%]" ++
    (if hasFront details then ascii " " else []) ++ ascii "%6%" ++
    formatPart details .sourceCode " (from %7%:%8%)"

def sinkTimeFormat (details : Int32) (timeFormat : List UInt8) : List UInt8 :=
  timeFormat ++ if passes details LogDetail.microseconds.code then ascii ".%f" else []

/-- Where `strtol` to base 10 stops: at the start if there are no digits. -/
def strtolRest (s : List UInt8) : List UInt8 :=
  let (_, rest) := stripSign (s.dropWhile isSpace)
  if leadingDigits 10 rest = [] then s else rest.drop (leadingDigits 10 rest).length

namespace Logger

def addBoostLogDestination (s : Logger) (autoFlush : Option Bool) : Logger :=
  { s with
    sink := some
      { formatter := formatter s.detailsFilter
        timeFormat := sinkTimeFormat s.detailsFilter s.timeFormat
        autoFlush }
    -- the source before is freed; the appender made for it stays
    boostImpl := some s.sources
    sources := s.sources + 1
    appenders := s.appenders ++ [.boost s.sources] }

def isNotFiltered (s : Logger) (level : LogLevel) : Bool :=
  level.code == 0 || passes s.levelFilter level.code

def setLevel (s : Logger) (filter : Int32) : Outcome Logger :=
  if 0 ≤ filter ∧ filter ≤ 31 then .returned { s with levelFilter := filter }
  else .thrown ⟨"filter >= 0 && filter <= max_filter", ""⟩ s

def setDetails (s : Logger) (filter : Int32) : Outcome Logger :=
  if s.boostImpl.isSome then
    .thrown ⟨"!_boost_impl", "Details should be set before boost appender creation"⟩ s
  else if 0 ≤ filter ∧ filter ≤ 63 then .returned { s with detailsFilter := filter }
  else .thrown ⟨"filter >= 0 && filter <= max_filter", ""⟩ s

def setLevelFromEnvironment (s : Logger) : Option (List UInt8) → Outcome Logger
  | none => .returned s
  | some value =>
    -- the `long` becomes an `int`
    if strtolRest value = [] then s.setLevel (Int32.ofInt (strtol 10 value))
    else if (ascii "TRACE").isPrefixOf value then s.setLevel 0
    else if (ascii "DEBUG").isPrefixOf value then s.setLevel 16
    else if (ascii "INF").isPrefixOf value then s.setLevel 24
    else if (ascii "WARN").isPrefixOf value then s.setLevel 28
    else if (ascii "ERR").isPrefixOf value then s.setLevel 30
    else .thrown ⟨"false", "Invalid enviroment variable value for logger level"⟩ s

def setDetailsFromEnvironment (s : Logger) : Option (List UInt8) → Outcome Logger
  | none => .returned s
  | some value =>
    if strtolRest value = [] then s.setDetails (Int32.ofInt (strtol 10 value))
    else .thrown ⟨"false", "Invalid enviroment variable value for details"⟩ s

def setAutoflush (s : Logger) (flush : Bool) : Outcome Logger :=
  if s.boostImpl.isSome then
    .thrown ⟨"!_boost_impl", "Autoflush option should be set before boost appender creation"⟩ s
  else .returned { s with autoflush := flush }

def setTimeFormat (s : Logger) (timeFormat : Option (List UInt8)) : Outcome Logger :=
  if s.boostImpl.isSome then
    .thrown ⟨"!_boost_impl", "Time format should be set before boost appender creation"⟩ s
  else
    match timeFormat with
    | some text =>
      if 1 < text.length then .returned { s with timeFormat := text }
      else .thrown ⟨"time_format && strlen(time_format) > 1", "Invalid time format"⟩ s
    | none => .thrown ⟨"time_format && strlen(time_format) > 1", "Invalid time format"⟩ s

/-- The message, and the logger with the counter moved on. -/
def createMessage (sourceDir : Option (List UInt8)) (s : Logger) (site : LogSite) :
    LogMessage × Logger :=
  ({ id := s.idCounter
     level := site.level
     source :=
       if passes s.detailsFilter LogDetail.sourceCode.code then
         some (trimFilePath sourceDir site.file, site.line, site.func)
       else none
     thread :=
       if passes s.detailsFilter LogDetail.threadInfo.code then
         some (site.threadId, site.threadName)
       else none
     text := [] },
    { s with idCounter := s.idCounter + 1 })

/-- One appender is called. -/
def call (s : Logger) (place : Nat) (appender : LogAppender) (m : LogMessage) : Logger :=
  let s := { s with received := s.received ++ [(place, m)] }
  match appender with
  | .boost source =>
    { s with
      records := s.records ++ [⟨s.sink, s.detailsFilter, m⟩]
      dangled := s.dangled || s.boostImpl != some source }
  | _ => s

/-- The loop of `write`, which an exception ends. -/
def callAppenders (m : LogMessage) (throws : Nat → Bool) (s : Logger) :
    Nat → List LogAppender → Logger
  | _, [] => s
  | place, appender :: appenders =>
    if throws place then s.call place appender m
    else callAppenders m throws (s.call place appender m) (place + 1) appenders

def write (s : Logger) (m : LogMessage) (throws : Nat → Bool) : Logger :=
  if s.logsOn ∧ s.isNotFiltered m.level then callAppenders m throws s 0 s.appenders else s

/-- The first moment of a log statement. -/
def beginMessage (sourceDir : Option (List UInt8)) (s : Logger) (site : LogSite) : Logger :=
  let (m, s) := createMessage sourceDir s site
  { s with opened := s.opened ++ [m] }

/-- The second one, also for `LOG`, where the stream message is destroyed. -/
def endMessage (s : Logger) (k : Nat) (text : List UInt8) (throws : Nat → Bool) : Logger :=
  match s.opened[k]? with
  | some m => { s with opened := s.opened.eraseIdx k }.write { m with text } throws
  | none => s

/-- A member function is called, or a log statement begins or ends. -/
def perform (sourceDir : Option (List UInt8)) (s : Logger) : LogCall → Outcome Logger
  | .initCliLog => .returned { s.addBoostLogDestination (some s.autoflush) with logsOn := true }
  | .initFileLog => .returned { s.addBoostLogDestination none with logsOn := true }
  | .initSysLog => .returned { s with appenders := s.appenders ++ [.syslog], logsOn := true }
  | .setLevel filter => s.setLevel filter
  | .setLevelFromEnvironment value => s.setLevelFromEnvironment value
  | .setDetails filter => s.setDetails filter
  | .setDetailsFromEnvironment value => s.setDetailsFromEnvironment value
  | .setAutoflush flush => s.setAutoflush flush
  | .setTimeFormat timeFormat => s.setTimeFormat timeFormat
  | .lock => .returned { s with logsOn := false }
  | .unlock => .returned { s with logsOn := true }
  | .addDestination => .returned { s with appenders := s.appenders ++ [.custom] }
  | .log site =>
    .returned (if s.isNotFiltered site.level then s.beginMessage sourceDir site else s)
  | .stream site =>
    -- the macro asks for the level `trace`, whatever the level of the message is
    .returned (if s.isNotFiltered .trace then s.beginMessage sourceDir site else s)
  | .write k text throws => .returned (s.endMessage k text throws)
  | .abandon k => .returned { s with opened := s.opened.eraseIdx k }

/-- A caller goes on after an exception. -/
def step (sourceDir : Option (List UInt8)) (s : Logger) (c : LogCall) : Option Logger :=
  some (s.perform sourceDir c).state

end Logger

end ServerLib
