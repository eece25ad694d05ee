import ServerLib.Common.InputStream

/-!
# Stored stack dumps

After a crash the stack trace is written to a file behind a magic text, and the next start of the
program reads it again (`emergency_helper.cpp`). The file is read in blocks of the magic text's
size. The condition of the loop is the result of the read that it makes itself, or that the read
of the turn before has delivered something: so the last block, which is not a full one, is not
lost.

What `boost::stacktrace` makes of a raw dump is a parameter here.
-/
namespace ServerLib

/-- `MAGIC_FOR_DUMP_FMT`, with the NUL behind the literal. -/
def magicForDumpFmt : List UInt8 := ascii "~stack trace:\n\n" ++ [0]

/-! ### Reading without formatting -/

/-- A `std::ifstream`, with how many characters its last `read` has delivered. -/
structure FileInput extends InputStream where
  gcount : Nat := 0
  deriving DecidableEq, Repr

/-- `s.read(buff, n)`. The characters go to the front of the buffer. A stream that has failed, or
has come to its end, delivers none. -/
def FileInput.read (s : FileInput) (buff : List UInt8) (n : Nat) : FileInput × List UInt8 :=
  if s.good then
    let got := s.rest.take n
    let short := decide (got.length < n)
    ({ rest := s.rest.drop n, eof := short, fail := short, gcount := got.length },
      got ++ buff.drop got.length)
  else ({ s with fail := true, gcount := 0 }, buff)

namespace FileInput

variable {s : FileInput} {n : Nat}

theorem read_full (good : s.good = true) (enough : n ≤ s.rest.length) (buff : List UInt8) :
    s.read buff n = ({ rest := s.rest.drop n, gcount := n }, s.rest.take n ++ buff.drop n) := by
  have got : (s.rest.take n).length = n := by
    rw [List.length_take, Nat.min_eq_left enough]
  simp only [read, if_pos good, got, Nat.lt_irrefl, decide_false]

theorem read_last (good : s.good = true) (less : s.rest.length < n) (buff : List UInt8) :
    s.read buff n = ({ rest := [], eof := true, fail := true, gcount := s.rest.length },
      s.rest ++ buff.drop s.rest.length) := by
  have short : s.rest.length ≤ n := Nat.le_of_lt less
  simp only [read, if_pos good, List.take_of_length_le short, List.drop_of_length_le short, less,
    decide_true]

theorem read_bad (bad : s.good = false) (buff : List UInt8) (n : Nat) :
    s.read buff n = ({ s with fail := true, gcount := 0 }, buff) := by
  simp only [read, bad, Bool.false_eq_true, if_false]

end FileInput

/-! ### Files -/

structure Files where
  content : String → Option (List UInt8)
  readable : String → Bool
  /-- A file of that name can be opened for writing, or made. -/
  writable : String → Bool
  removable : String → Bool

namespace Files

def fileExists (files : Files) (path : String) : Bool := (files.content path).isSome

def setContent (files : Files) (path : String) (content : Option (List UInt8)) : Files :=
  { files with content := Function.update files.content path content }

/-- The constructor of `std::ifstream` -/
def openInput (files : Files) (path : String) : Option FileInput :=
  if files.readable path then (files.content path).map fun content => { rest := content } else none

/-- The constructor of `std::ofstream`, which truncates the file. -/
def openOutput (files : Files) (path : String) : Option Files :=
  if files.writable path then some (files.setContent path (some [])) else none

/-- `out.write` on the stream that is open for `path` -/
def write (files : Files) (path : String) (bytes : List UInt8) : Files :=
  files.setContent path (some ((files.content path).getD [] ++ bytes))

/-- `boost::filesystem::remove` with what it throws caught. -/
def remove (files : Files) (path : String) : Files :=
  if files.removable path then files.setContent path none else files

/-- A file that can be read holds the bytes. -/
def Holds (files : Files) (path : String) (bytes : List UInt8) : Prop :=
  files.openInput path = some { rest := bytes }

end Files

/-- What `boost::stacktrace` inserts into a stream for the content of a raw dump, which may not have
been opened, and the text of the exception that has stopped it. -/
class StacktraceText where
  insert : Option (List UInt8) → List UInt8 × Option (List UInt8)

/-! ### The copying of a stored dump -/

/-- The variables of the loop. -/
structure DumpReading where
  input : FileInput
  buff : List UInt8
  bytesRead : Nat
  ss : List UInt8 := []

namespace DumpReading

/-- The condition of the loop, which reads. -/
def condition (r : DumpReading) : DumpReading × Bool :=
  let (input, buff) := r.input.read r.buff magicForDumpFmt.length
  ({ r with input, buff }, !input.fail || decide (0 < r.bytesRead))

def body (r : DumpReading) : DumpReading :=
  let bytesRead := r.input.gcount
  { r with
    bytesRead
    ss := if 0 < bytesRead then r.ss ++ r.buff.take (bytesRead % 2 ^ 32) else r.ss }

/-! ### The turns of the loop -/

variable {r : DumpReading}

theorem magic_length : magicForDumpFmt.length = 16 := by decide

/-- A full block is taken. -/
theorem turn_full (good : r.input.good = true) (enough : 16 ≤ r.input.rest.length) :
    r.condition.2 = true ∧ r.condition.1.body =
      { input := { rest := r.input.rest.drop 16, gcount := 16 }
        buff := r.input.rest.take 16 ++ r.buff.drop 16
        bytesRead := 16
        ss := r.ss ++ r.input.rest.take 16 } := by
  have taken : (r.input.rest.take 16 ++ r.buff.drop 16).take 16 = r.input.rest.take 16 :=
    List.take_left' (by rw [List.length_take, Nat.min_eq_left enough])
  simp only [condition, body, magic_length, FileInput.read_full good enough]
  exact ⟨rfl, by simp [taken]⟩

/-- What is left is less than a block, and the stream has failed behind it. -/
theorem turn_last (good : r.input.good = true) (less : r.input.rest.length < 16) :
    r.condition.2 = decide (0 < r.bytesRead) ∧ r.condition.1.body =
      { input := { rest := [], eof := true, fail := true, gcount := r.input.rest.length }
        buff := r.input.rest ++ r.buff.drop r.input.rest.length
        bytesRead := r.input.rest.length
        ss := r.ss ++ r.input.rest } := by
  have small : r.input.rest.length % 2 ^ 32 = r.input.rest.length := Nat.mod_eq_of_lt (by omega)
  simp only [condition, body, magic_length, FileInput.read_last good less]
  refine ⟨by simp, ?_⟩
  rw [small, List.take_left]
  split
  · rfl
  next none_left => rw [List.length_eq_zero_iff.mp (by omega : r.input.rest.length = 0)]; simp

/-- A stream that has failed delivers nothing. -/
theorem turn_bad (bad : r.input.good = false) :
    r.condition.2 = decide (0 < r.bytesRead) ∧ r.condition.1.body =
      { r with input := { r.input with fail := true, gcount := 0 }, bytesRead := 0 } := by
  simp only [condition, body, FileInput.read_bad bad]
  exact ⟨by simp, by simp⟩

/-- A turn takes a block; behind the last one there may be a turn that takes nothing. -/
def turnsLeft (r : DumpReading) : Nat :=
  if r.input.good then r.input.rest.length + 2 else if 0 < r.bytesRead then 1 else 0

theorem turnsLeft_of_bad (bad : r.input.good = false) :
    r.turnsLeft = if 0 < r.bytesRead then 1 else 0 := by
  simp only [turnsLeft, bad, Bool.false_eq_true, if_false]

theorem turnsLeft_decreases (goesOn : r.condition.2 = true) :
    r.condition.1.body.turnsLeft < r.turnsLeft := by
  cases good : r.input.good with
  | false =>
    obtain ⟨counted, left⟩ := turn_bad good
    rw [goesOn] at counted
    have some_read : 0 < r.bytesRead := of_decide_eq_true counted.symm
    have fails : r.condition.1.body.input.good = false := by simp [left, InputStream.good]
    rw [turnsLeft_of_bad good, if_pos some_read, turnsLeft_of_bad fails, left]
    exact Nat.zero_lt_one
  | true =>
    have now : r.turnsLeft = r.input.rest.length + 2 := if_pos good
    by_cases enough : 16 ≤ r.input.rest.length
    · have left := (turn_full good enough).2
      have next : r.condition.1.body.turnsLeft = r.condition.1.body.input.rest.length + 2 :=
        if_pos (by rw [left]; rfl)
      rw [now, next, left, List.length_drop]
      omega
    · have left := (turn_last good (by omega)).2
      have fails : r.condition.1.body.input.good = false := by simp [left, InputStream.good]
      rw [now, turnsLeft_of_bad fails]
      split <;> omega

/-- The loop `for (; input.read(buff, sizeof(buff)) || bytes_read > 0;)` -/
def copyBlocks (r : DumpReading) : DumpReading :=
  if r.condition.2 then r.condition.1.body.copyBlocks else r.condition.1
termination_by r.turnsLeft
decreasing_by exact turnsLeft_decreases ‹_›

/-- What is still to be copied. -/
def pending (r : DumpReading) : List UInt8 := if r.input.good then r.input.rest else []

theorem pending_of_good (good : r.input.good = true) : r.pending = r.input.rest := if_pos good

theorem pending_of_bad (bad : r.input.good = false) : r.pending = [] := by
  simp only [pending, bad, Bool.false_eq_true, if_false]

/-- A turn moves what it takes to the end of what has been copied. -/
theorem turn_pending (r : DumpReading) :
    r.condition.1.body.ss ++ r.condition.1.body.pending = r.ss ++ r.pending := by
  cases good : r.input.good with
  | false =>
    have left := (turn_bad good).2
    have fails : r.condition.1.body.input.good = false := by simp [left, InputStream.good]
    rw [pending_of_bad good, pending_of_bad fails, left]
  | true =>
    rw [pending_of_good good]
    by_cases enough : 16 ≤ r.input.rest.length
    · have left := (turn_full good enough).2
      have goes : r.condition.1.body.input.good = true := by simp [left, InputStream.good]
      rw [pending_of_good goes, left, List.append_assoc, List.take_append_drop]
    · have left := (turn_last good (by omega)).2
      have fails : r.condition.1.body.input.good = false := by simp [left, InputStream.good]
      rw [pending_of_bad fails, left, List.append_nil]

/-- A good stream has delivered something in the turn before. So the condition holds for the last
block too, whose read fails. -/
def Delivered (r : DumpReading) : Prop := r.input.good = true → 0 < r.bytesRead

theorem turn_delivered (r : DumpReading) : r.condition.1.body.Delivered := by
  intro goes
  cases good : r.input.good with
  | false => simp [(turn_bad good).2, InputStream.good] at goes
  | true =>
    by_cases enough : 16 ≤ r.input.rest.length
    · simp [(turn_full good enough).2]
    · simp [(turn_last good (by omega)).2, InputStream.good] at goes

/-- Nothing is left where the loop ends. -/
theorem end_pending (delivered : r.Delivered) (ends : r.condition.2 ≠ true) : r.pending = [] := by
  cases good : r.input.good with
  | false => exact pending_of_bad good
  | true =>
    exfalso
    apply ends
    by_cases enough : 16 ≤ r.input.rest.length
    · exact (turn_full good enough).1
    · rw [(turn_last good (by omega)).1]
      exact decide_eq_true (delivered good)

/-- The loop copies everything that has not been read. -/
theorem copyBlocks_ss (delivered : r.Delivered) : r.copyBlocks.ss = r.ss ++ r.pending := by
  induction r using copyBlocks.induct with
  | case1 r goesOn ih =>
    rw [copyBlocks, if_pos goesOn, ih (turn_delivered r), turn_pending]
  | case2 r ends =>
    rw [copyBlocks, if_neg ends, end_pending delivered ends, List.append_nil]
    rfl

end DumpReading

/-! ### Saving and loading -/

variable [StacktraceText]

/-- The text of a raw dump, and the files behind it. -/
def loadRawStdump (files : Files) (rawDumpFilePath : String) (remove : Bool) :
    List UInt8 × Files :=
  if files.fileExists rawDumpFilePath then
    let (text, exception) :=
      StacktraceText.insert ((files.openInput rawDumpFilePath).map fun ifs => ifs.rest)
    (text ++ exception.getD [] ++ [10],
      if remove then files.remove rawDumpFilePath else files)
  else ([], files)

def saveDemangledStdump (files : Files) (rawDumpFilePath demangledFilePath : String) :
    Bool × Files :=
  if files.fileExists rawDumpFilePath then
    let (demangled, files) := loadRawStdump files rawDumpFilePath false
    if demangled = [] then (false, files)
    else
      match files.openOutput demangledFilePath with
      | none => (false, files)
      | some files =>
        let files := files.write demangledFilePath magicForDumpFmt
        (true, files.write demangledFilePath demangled)
  else (false, files)

def loadStdump (files : Files) (dumpFilePath : String) (remove : Bool) : List UInt8 × Files :=
  match files.openInput dumpFilePath with
  | none => ([], files)
  | some input =>
    -- the first read fills the buffer or fails, so its first content does not matter
    let (input, buff) := input.read [] magicForDumpFmt.length
    if input.fail then ([], files)
    else
      let bytesRead := input.gcount
      let (dump, files) :=
        if bytesRead = magicForDumpFmt.length ∧ buff.take bytesRead = magicForDumpFmt then
          (DumpReading.copyBlocks { input, buff, bytesRead } |>.ss, files)
        else loadRawStdump files dumpFilePath false
      (dump, if remove then files.remove dumpFilePath else files)

variable {files : Files} {path : String}

/-- The dump behind the magic text is loaded, and the file is removed if that is asked for. -/
theorem loadStdump_eq {dump : List UInt8} (held : files.Holds path (magicForDumpFmt ++ dump))
    (remove : Bool) :
    loadStdump files path remove = (dump, if remove then files.remove path else files) := by
  have enough : magicForDumpFmt.length ≤ (magicForDumpFmt ++ dump).length := by simp
  have block : magicForDumpFmt.take magicForDumpFmt.length = magicForDumpFmt := List.take_length
  rw [Files.Holds] at held
  simp only [loadStdump, held]
  rw [FileInput.read_full rfl enough]
  simp only [List.take_left, List.drop_left, List.drop_nil, List.append_nil, block, and_self,
    if_true, Bool.false_eq_true, if_false]
  -- the magic text counts as the block of the turn before the first one
  rw [DumpReading.copyBlocks_ss (fun _ => Nat.succ_pos _), List.nil_append]
  rfl

theorem loadRawStdump_files (files : Files) (path : String) :
    (loadRawStdump files path false).2 = files := by
  unfold loadRawStdump
  split <;> rfl

/-- What is stored is the magic text and the demangled dump, which is not empty. -/
theorem saveDemangledStdump_eq {raw : String} {saved : Files}
    (stored : saveDemangledStdump files raw path = (true, saved)) :
    (loadRawStdump files raw false).1 ≠ [] ∧
      saved.content path = some (magicForDumpFmt ++ (loadRawStdump files raw false).1) ∧
      saved.readable = files.readable := by
  unfold saveDemangledStdump at stored
  split at stored
  · have kept := loadRawStdump_files files raw
    generalize loadRawStdump files raw false = loaded at stored kept
    obtain ⟨demangled, files⟩ := loaded
    cases kept
    dsimp only at stored
    split at stored
    · cases stored
    next some_text =>
      unfold Files.openOutput at stored
      split at stored
      · cases stored
      next out opened =>
        split at opened
        · cases opened
          cases stored
          exact ⟨some_text, by simp [Files.write, Files.setContent], rfl⟩
        · cases opened
  · cases stored

/-- A dump of any length comes back as it is, and what is saved is such a dump. -/
theorem stored_dumps_load (files : Files) (path : String) (remove : Bool) :
    (∀ dump, files.Holds path (magicForDumpFmt ++ dump) →
      loadStdump files path remove = (dump, if remove then files.remove path else files)) ∧
    ∀ raw saved, saveDemangledStdump files raw path = (true, saved) →
      saved.content path = some (magicForDumpFmt ++ (loadRawStdump files raw false).1) ∧
        (files.readable path = true →
          (loadStdump saved path remove).1 = (loadRawStdump files raw false).1) := by
  refine ⟨fun dump held => loadStdump_eq held remove, fun raw saved stored => ?_⟩
  obtain ⟨-, content, readable⟩ := saveDemangledStdump_eq stored
  refine ⟨content, fun opens => ?_⟩
  have held : saved.Holds path (magicForDumpFmt ++ (loadRawStdump files raw false).1) := by
    rw [Files.Holds, Files.openInput, readable, if_pos opens, content]
    rfl
  rw [loadStdump_eq held]

omit [StacktraceText] in
/-- A dump of one character, saved and loaded again. -/
theorem stored_dumps_load_saved :
    ∃ (files saved : Files) (lib : StacktraceText),
      @saveDemangledStdump lib files "raw" "dump" = (true, saved) ∧
        (@loadStdump lib saved "dump" true).1 = [97, 10] := by
  let text : StacktraceText := ⟨fun content => (content.getD [], none)⟩
  let files : Files :=
    { content := fun path => if path = "raw" then some [97] else none
      readable := fun _ => true
      writable := fun _ => true
      removable := fun _ => true }
  exact ⟨files, _, text, rfl, ((stored_dumps_load files "dump" true).2 "raw" _ rfl).2 rfl⟩

end ServerLib
