import ServerLib.Foundation.Transition

/-!
# `spawn`: the end of a child

The system keeps a child that has ended until it is waited for; behind that its number may be
given to another process. `spawn` waits for its child as long as it has no status, and sends
signals to the number at any time. A `waitpid` that blocks can be interrupted: it then leaves the
variable for the status as it was, which is to say uninitialised, and its result is not looked at.

The object is used by one thread. The system, and what signals do to the child, are the other
actions.
-/
namespace ServerLib

open Transition

/-- The signals that can end a process. -/
structure TermSignal where
  number : UInt8
  range : 0 < number ∧ number < 127
  deriving DecidableEq

/-- How a process ends. -/
inductive ChildEnding where
  | exited (code : UInt8)
  | killed (signal : TermSignal) (coreDumped : Bool)
  deriving DecidableEq

def intOfByte (b : UInt8) : Int32 := b.toUInt32.toInt32

/-- The status that `waitpid` stores. -/
def ChildEnding.status : ChildEnding → Int32
  | exited code => intOfByte code <<< 8
  | killed signal coreDumped => intOfByte signal.number ||| if coreDumped then 0x80 else 0

def wIfExited (status : Int32) : Bool := status &&& 0x7f == 0

def wExitStatus (status : Int32) : Int32 := (status &&& 0xff00) >>> 8

/-- The conversion to `signed char` takes the value 0x7f out, which is for stopped children. -/
def wIfSignaled (status : Int32) : Bool := (0 : Int8) < ((status &&& 0x7f) + 1).toInt8 >>> 1

def wTermSig (status : Int32) : Int32 := status &&& 0x7f

/-- A child as the system sees it. -/
inductive ChildState where
  | running
  | ended (ending : ChildEnding)
  /-- it has been waited for; `reused` if its number is that of another process -/
  | reaped (ending : ChildEnding) (reused : Bool)
  deriving DecidableEq

/-- A `spawn` with its child. `signaled` says that the thread is still to wait in `send_signal`,
`misdirected` that a signal went to another process. -/
structure Spawn where
  child : ChildState := .running
  returnStatus : Int32 := -1
  signaled : Bool := false
  destroyed : Bool := false
  misdirected : Bool := false
  deriving DecidableEq

inductive SpawnCall where
  | wait
  /-- the `waitpid` of a `wait` fails, and this is what the variable holds -/
  | interrupted (garbage : Int32)
  | poll
  /-- the first half of `send_signal` -/
  | kill
  | destroy
  /-- the `waitpid` of the destructor fails -/
  | abandon
  /-- the child ends -/
  | ends (ending : ChildEnding)
  /-- the number of the child is given to another process -/
  | reuse
  /-- that process ends -/
  | release

namespace Spawn

def sigcode (s : Spawn) : Int32 :=
  if s.returnStatus < 0 then s.returnStatus
  else if wIfSignaled s.returnStatus then wTermSig s.returnStatus
  else 0

def returncode (s : Spawn) : Int32 :=
  if s.returnStatus < 0 then s.returnStatus
  else if wIfExited s.returnStatus then wExitStatus s.returnStatus
  else s.sigcode

/-- `wait`, once it comes back: a child that has ended is reaped. -/
def wait (s : Spawn) : Option Spawn :=
  if s.returnStatus = -1 then
    match s.child with
    | .running => none
    | .ended ending => some { s with child := .reaped ending false, returnStatus := ending.status }
    -- there is no such child, and the variable is not set
    | .reaped _ _ => none
  else some s

def poll (s : Spawn) : Spawn :=
  if s.returnStatus = -1 then
    match s.child with
    | .ended ending => { s with child := .reaped ending false, returnStatus := ending.status }
    | _ => s
  else s

def step (s : Spawn) : SpawnCall → Option Spawn
  | .wait => if s.destroyed then none else s.wait.map fun s => { s with signaled := false }
  | .interrupted garbage =>
    if s.destroyed = false ∧ s.returnStatus = -1 then
      some { s with returnStatus := garbage, signaled := false }
    else none
  | .poll => if s.destroyed ∨ s.signaled then none else some s.poll
  | .kill =>
    if s.destroyed ∨ s.signaled then none
    else
      match s.child with
      | .reaped _ reused =>
        some { s with signaled := true, misdirected := s.misdirected || reused }
      | _ => some { s with signaled := true }
  | .destroy =>
    if s.destroyed ∨ s.signaled then none
    -- `if (!poll()) wait()`
    else s.poll.wait.map fun s => { s with destroyed := true }
  | .abandon =>
    if s.destroyed ∨ s.signaled ∨ s.poll.returnStatus ≠ -1 then none
    else some { s.poll with destroyed := true }
  | .ends ending =>
    match s.child with
    | .running => some { s with child := .ended ending }
    | _ => none
  | .reuse =>
    match s.child with
    | .reaped ending false => some { s with child := .reaped ending true }
    | _ => none
  | .release =>
    match s.child with
    | .reaped ending true => some { s with child := .reaped ending false }
    | _ => none

/-! ### What is reported -/

end Spawn

theorem forall_byte {P : UInt8 → Prop} (all : ∀ n : Fin 256, P (UInt8.ofNat n)) (b : UInt8) :
    P b := by
  have here := all ⟨b.toNat, b.toNat_lt⟩
  rwa [UInt8.ofNat_toNat] at here

/-- What `returncode` and `sigcode` make of a status. -/
structure Decodes (status code signal : Int32) : Prop where
  nonneg : (0 : Int32) ≤ status
  code : (if wIfExited status then wExitStatus status else wTermSig status) = code
  signal : (if wIfSignaled status then wTermSig status else 0) = signal
  signaled : wIfExited status = !wIfSignaled status

instance Decodes.decidable (status code signal : Int32) : Decidable (Decodes status code signal) :=
  decidable_of_iff
    ((0 : Int32) ≤ status ∧
      (if wIfExited status then wExitStatus status else wTermSig status) = code ∧
      (if wIfSignaled status then wTermSig status else 0) = signal ∧
      wIfExited status = !wIfSignaled status)
    ⟨fun ⟨a, b, c, d⟩ => ⟨a, b, c, d⟩, fun ⟨a, b, c, d⟩ => ⟨a, b, c, d⟩⟩

namespace ChildEnding

/-- The code of the exit, or the signal. -/
def code : ChildEnding → Int32
  | exited code => intOfByte code
  | killed signal _ => intOfByte signal.number

def signal : ChildEnding → Int32
  | exited _ => 0
  | killed signal _ => intOfByte signal.number

theorem decodes (ending : ChildEnding) : Decodes ending.status ending.code ending.signal := by
  cases ending with
  | exited code =>
    revert code
    apply forall_byte
    decide +kernel
  | killed signal coreDumped =>
    obtain ⟨number, range⟩ := signal
    have all : ∀ number : UInt8, 0 < number ∧ number < 127 → ∀ coreDumped : Bool,
        Decodes (intOfByte number ||| if coreDumped then 0x80 else 0) (intOfByte number)
          (intOfByte number) := by
      apply forall_byte
      decide +kernel
    exact all number range coreDumped

theorem status_ne (ending : ChildEnding) : ending.status ≠ -1 := by
  intro same
  have nonneg := ending.decodes.nonneg
  rw [same] at nonneg
  exact absurd nonneg (by decide)

end ChildEnding

namespace Spawn

/-- A status that is known is that of the child, which has been reaped. -/
structure Truthful (s : Spawn) : Prop where
  known : s.returnStatus ≠ -1 → ∃ ending reused, s.child = .reaped ending reused ∧
    s.returncode = ending.code ∧ s.sigcode = ending.signal

/-- The child is reaped exactly if its status is known, and the status is that of the child. -/
structure Sound (s : Spawn) : Prop where
  unknown : s.returnStatus = -1 → ∀ ending reused, s.child ≠ .reaped ending reused
  known : s.returnStatus ≠ -1 → ∃ ending reused, s.child = .reaped ending reused ∧
    s.returnStatus = ending.status

variable {s s' : Spawn}

theorem Sound.truthful (sound : s.Sound) : s.Truthful := by
  refine ⟨fun known => ?_⟩
  obtain ⟨ending, reused, child, status⟩ := sound.known known
  obtain ⟨nonneg, code, signal, signaled⟩ := ending.decodes
  have counts : ¬ s.returnStatus < 0 := by
    rw [status, Int32.not_lt]
    exact nonneg
  have sig : s.sigcode = ending.signal := by
    rw [sigcode, if_neg counts, status]
    exact signal
  refine ⟨ending, reused, child, ?_, sig⟩
  rw [returncode, if_neg counts, sig, status, ← code]
  cases exits : wIfExited ending.status with
  | true => rfl
  | false =>
    rw [exits, Bool.false_eq, Bool.not_eq_false'] at signaled
    rw [← signal, if_pos signaled]

/-- The child is waited for. -/
def reap (s : Spawn) (ending : ChildEnding) : Spawn :=
  { s with child := .reaped ending false, returnStatus := ending.status }

theorem wait_eq_some (waited : s.wait = some s') :
    s' = s ∧ s.returnStatus ≠ -1 ∨ ∃ ending, s' = s.reap ending := by
  unfold wait at waited
  split at waited
  · split at waited
    · cases waited
    next ending _ =>
      exact .inr ⟨ending, (Option.some.inj waited).symm⟩
    · cases waited
  next known => exact .inl ⟨(Option.some.inj waited).symm, known⟩

theorem poll_cases (s : Spawn) : s.poll = s ∨ ∃ ending, s.poll = s.reap ending := by
  unfold poll
  split
  · split
    next ending _ => exact .inr ⟨ending, rfl⟩
    · exact .inl rfl
  · exact .inl rfl

theorem Sound.reap (s : Spawn) (ending : ChildEnding) : (s.reap ending).Sound where
  unknown same := absurd same ending.status_ne
  known _ := ⟨ending, false, rfl, rfl⟩

/-- Nothing has been done to the child or the status. -/
theorem Sound.of_same (sound : s.Sound) (child : s'.child = s.child)
    (returnStatus : s'.returnStatus = s.returnStatus) : s'.Sound := by
  refine ⟨?_, ?_⟩
  · rw [child, returnStatus]
    exact sound.unknown
  · rw [child, returnStatus]
    exact sound.known

theorem Sound.wait (sound : s.Sound) (waited : s.wait = some s') : s'.Sound := by
  rcases wait_eq_some waited with ⟨rfl, -⟩ | ⟨ending, rfl⟩
  · exact sound
  · exact .reap s ending

theorem Sound.poll (sound : s.Sound) : s.poll.Sound := by
  rcases poll_cases s with same | ⟨ending, reaps⟩
  · rw [same]
    exact sound
  · rw [reaps]
    exact .reap s ending

/-- No `waitpid` of a `wait` is interrupted, or its variable holds the value for an unknown
status. -/
def Uninterrupted (s : Spawn) (a : SpawnCall) : Prop :=
  ∀ garbage, a = .interrupted garbage → s.destroyed = false → s.returnStatus = -1 → garbage = -1

theorem sound_step (s : Spawn) (a : SpawnCall) (s' : Spawn) (sound : s.Sound)
    (whole : s.Uninterrupted a) (stepped : s.step a = some s') : s'.Sound := by
  cases a with
  | wait =>
    simp only [step, Option.ite_none_left_eq_some] at stepped
    obtain ⟨next, waited, rfl⟩ := Option.map_eq_some_iff.mp stepped.2
    exact (sound.wait waited).of_same rfl rfl
  | interrupted garbage =>
    simp only [step, Option.ite_none_right_eq_some, Option.some.injEq] at stepped
    obtain ⟨⟨alive, unknown⟩, rfl⟩ := stepped
    exact sound.of_same rfl ((whole garbage rfl alive unknown).trans unknown.symm)
  | poll =>
    simp only [step, Option.ite_none_left_eq_some] at stepped
    rw [← Option.some.inj stepped.2]
    exact sound.poll
  | kill =>
    simp only [step, Option.ite_none_left_eq_some] at stepped
    obtain ⟨-, stepped⟩ := stepped
    split at stepped
    · rw [← Option.some.inj stepped]
      exact sound.of_same rfl rfl
    · rw [← Option.some.inj stepped]
      exact sound.of_same rfl rfl
  | destroy =>
    simp only [step, Option.ite_none_left_eq_some] at stepped
    obtain ⟨next, waited, rfl⟩ := Option.map_eq_some_iff.mp stepped.2
    exact (sound.poll.wait waited).of_same rfl rfl
  | abandon =>
    simp only [step, Option.ite_none_left_eq_some, Option.some.injEq] at stepped
    obtain ⟨-, rfl⟩ := stepped
    exact sound.poll.of_same rfl rfl
  | ends ending =>
    simp only [step] at stepped
    split at stepped
    next running =>
      rw [← Option.some.inj stepped]
      refine ⟨fun _ _ _ there => ?_, fun known => ?_⟩
      -- a child that ends is a zombie, and its status is not known yet
      · cases there
      · obtain ⟨_, _, reaped, _⟩ := sound.known known
        rw [running] at reaped
        cases reaped
    · cases stepped
  | reuse =>
    simp only [step] at stepped
    split at stepped
    next ending reaped =>
      rw [← Option.some.inj stepped]
      refine ⟨fun unknown => absurd reaped (sound.unknown unknown ending false), fun known => ?_⟩
      obtain ⟨ending', reused, child, status⟩ := sound.known known
      rw [reaped] at child
      cases child
      exact ⟨ending, true, rfl, status⟩
    · cases stepped
  | release =>
    simp only [step] at stepped
    split at stepped
    next ending reaped =>
      rw [← Option.some.inj stepped]
      refine ⟨fun unknown => absurd reaped (sound.unknown unknown ending true), fun known => ?_⟩
      obtain ⟨ending', reused, child, status⟩ := sound.known known
      rw [reaped] at child
      cases child
      exact ⟨ending, false, rfl, status⟩
    · cases stepped

theorem untruthful_of_interrupted (s : Spawn) (a : SpawnCall) (sound : s.Sound)
    (broken : ¬ s.Uninterrupted a) : ∃ s', s.step a = some s' ∧ ¬ s'.Truthful := by
  simp only [Uninterrupted, not_forall] at broken
  obtain ⟨garbage, rfl, alive, unknown, wrong⟩ := broken
  refine ⟨_, if_pos ⟨alive, unknown⟩, fun truthful => ?_⟩
  obtain ⟨ending, reused, child, -⟩ := truthful.known wrong
  exact sound.unknown unknown ending reused child

theorem sound_start : ({} : Spawn).Sound where
  unknown _ _ _ there := by cases there
  known known := absurd rfl known

/-- The codes are those of the child in every run exactly if no `waitpid` of a `wait` is
interrupted with something else in its variable. -/
theorem codes_truthful_iff (calls : List SpawnCall) :
    (∀ s, Visits step {} calls s → s.Truthful) ↔ Meets step Uninterrupted {} calls :=
  always_iff sound_step (fun _ sound => sound.truthful) untruthful_of_interrupted calls sound_start

/-! ### Where signals go -/

/-- No signal has gone to another process, and a child whose object is gone has been reaped. -/
structure Orderly (s : Spawn) : Prop where
  directed : s.misdirected = false
  reaped : s.destroyed = true → ∃ ending reused, s.child = .reaped ending reused

/-- What keeps a `spawn` orderly. -/
structure Kept (s : Spawn) : Prop where
  sound : s.Sound
  directed : s.misdirected = false
  known : s.destroyed = true → s.returnStatus ≠ -1

private def terminated : List SpawnCall :=
  [.poll, .kill, .ends (.killed ⟨15, by decide⟩ false), .wait, .reuse, .destroy, .release]

end Spawn

end ServerLib
