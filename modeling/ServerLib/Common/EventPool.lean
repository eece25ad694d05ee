import ServerLib.Common.Atomics
import ServerLib.Foundation.Threads
import ServerLib.Foundation.Transition

/-!
# The start of an `event_pool`

`start` posts a handler and creates the threads of the pool. Each thread registers its id and
decreases `_waiting_threads` before it runs the service; the handler that one of them gets to
call waits until there is nobody left to wait for, and sets the run state and notifies the
observers then.

The handler waits in a compare-exchange that writes 0 over 0, and may fail for no reason. It
takes the 0 that it is left with for a sign that it is not needed.
-/
namespace ServerLib

open Transition Threads

inductive PoolHandler where
  /-- the one that `start` posts -/
  | started
  | user
  deriving DecidableEq, Repr

/-- Where a thread of the pool is. -/
inductive PoolThread where
  | created
  /-- has registered its id -/
  | registered
  /-- in `run`, between two handlers -/
  | idle
  | handling
  /-- in the loop of the handler of `start` -/
  | waiting
  /-- behind the loop -/
  | setting
  /-- has set the run state -/
  | notifying
  | ended
  deriving DecidableEq, Repr

/-- The thread has decreased the number of those that are waited for. -/
def PoolThread.arrived : PoolThread → Bool
  | .created | .registered => false
  | _ => true

def PoolThread.hasId : PoolThread → Bool
  | .created => false
  | _ => true

/-- The thread is in the handler of `start`. -/
def PoolThread.starts : PoolThread → Bool
  | .waiting | .setting | .notifying => true
  | _ => false

/-- Where the thread is that starts and stops the pool. -/
inductive PoolCaller where
  | outside
  /-- in the loop of `start` that creates the threads -/
  | creating
  /-- in `stop`, joining the threads -/
  | joining
  deriving DecidableEq, Repr

/-- The handler of `start` has been left, when the run state and the notifications so far were
these, and so many threads had registered. -/
structure HandlerExit where
  isRun : Bool
  notified : Nat
  registered : Nat
  deriving DecidableEq, Repr

structure EventPool where
  nbThreads : Nat
  isRunning : Bool := false
  isRun : Bool := false
  waitingThreads : Nat := 0
  threadIds : List Nat := []
  threads : List PoolThread := []
  service : List PoolHandler := []
  caller : PoolCaller := .outside
  /-- how often the observers have been notified since the last reset -/
  notified : Nat := 0
  exits : List HandlerExit := []
  deriving DecidableEq, Repr

inductive PoolAction where
  | start
  /-- `start` creates a thread, or returns. -/
  | create
  /-- `start` cannot create a thread, and stops the pool. -/
  | fail
  | stop
  /-- `stop` has joined the threads. -/
  | join
  | post
  /-- A thread of the pool goes on. -/
  | thread (i : Nat) (spurious : Bool)
  deriving DecidableEq, Repr

namespace EventPool

/-- A pool of that many threads. -/
def make (nbThreads : Nat) : EventPool := { nbThreads }

def stopLoop (w : EventPool) : EventPool := { w with isRunning := false, caller := .joining }

/-- The end of `stop`, with `reset`. -/
def reset (w : EventPool) : EventPool :=
  { make w.nbThreads with exits := w.exits }

def move (w : EventPool) (i : Nat) (thread : PoolThread) : EventPool :=
  { w with threads := w.threads.set i thread }

/-- The handler of `start` is left. -/
def leaveHandler (w : EventPool) (i : Nat) : EventPool :=
  { w.move i .idle with
    exits := w.exits ++ [⟨w.isRun, w.notified, w.threadIds.length⟩] }

/-- One turn of the loop in the handler of `start`. -/
def waitTurn (w : EventPool) (i : Nat) (spurious : Bool) : EventPool :=
  let exchange := compareExchangeWeak spurious w.waitingThreads 0 0
  let w := { w with waitingThreads := exchange.value }
  if exchange.through then w.move i .setting
  -- `if (!waiting_threads) return;`
  else if exchange.expected = 0 then w.leaveHandler i
  else w

def threadStep (w : EventPool) (i : Nat) (spurious : Bool) : PoolThread → Option EventPool
  | .created => some { w.move i .registered with threadIds := w.threadIds ++ [i] }
  | .registered => some { w.move i .idle with waitingThreads := w.waitingThreads - 1 }
  | .idle =>
    if ¬ w.isRunning then some (w.move i .ended)
    else
      match w.service with
      | [] => none
      | .started :: rest => some { w.move i .waiting with service := rest }
      | .user :: rest => some { w.move i .handling with service := rest }
  | .handling => some (w.move i .idle)
  | .waiting => some (w.waitTurn i spurious)
  | .setting => some { w.move i .notifying with isRun := true }
  | .notifying => some ({ w with notified := w.notified + 1 }.leaveHandler i)
  | .ended => none

def step (w : EventPool) : PoolAction → Option EventPool
  | .start =>
    if w.caller ≠ .outside then none
    else if w.isRunning then some w
    else
      some { w with
        isRunning := true
        waitingThreads := w.nbThreads
        service := w.service ++ [.started]
        caller := .creating }
  | .create =>
    if w.caller ≠ .creating then none
    else if w.threads.length < w.nbThreads then some { w with threads := w.threads ++ [.created] }
    else some { w with caller := .outside }
  | .fail => if w.caller = .creating then some w.stopLoop else none
  | .stop =>
    if w.caller ≠ .outside then none else if w.isRunning then some w.stopLoop else some w
  | .join => if w.caller = .joining ∧ ∀ t ∈ w.threads, t = .ended then some w.reset else none
  | .post => some { w with service := w.service ++ [.user] }
  | .thread i spurious => w.threads[i]?.bind (w.threadStep i spurious)

/-- The handler of `start` has been left only when it had set the run state, had notified the
observers once, and all threads had registered. -/
def NeverGaveUp (w : EventPool) : Prop :=
  ∀ e ∈ w.exits, e.isRun ∧ e.notified = 1 ∧ e.registered = w.nbThreads

instance (w : EventPool) : Decidable w.NeverGaveUp :=
  inferInstanceAs (Decidable (∀ e ∈ w.exits, _))

/-- The exchange of the handler does not fail on the value that it expects. -/
def NotSpurious (w : EventPool) : PoolAction → Prop
  | .thread i true => w.threads[i]? = some .waiting → w.waitingThreads ≠ 0
  | _ => True

instance (w : EventPool) : DecidablePred w.NotSpurious := fun a => by
  unfold NotSpurious
  split <;> infer_instance

/-- What holds between `start` and the end of `stop`. One handler of `start` waits, is being called
or has notified; it gets behind its loop when all threads have arrived. -/
structure Starting (w : EventPool) : Prop where
  few : w.threads.length ≤ w.nbThreads
  waits : w.waitingThreads + w.threads.countP PoolThread.arrived = w.nbThreads
  ids : w.threadIds.length = w.threads.countP PoolThread.hasId
  once : w.service.count .started + w.threads.count .waiting + w.threads.count .setting +
    w.threads.count .notifying + w.notified = 1
  before : w.isRun = false → w.notified + w.threads.count .notifying = 0
  behind : w.isRun →
    w.service.count .started + w.threads.count .waiting + w.threads.count .setting = 0
  all : 0 < w.threads.count .setting + w.threads.count .notifying → w.waitingThreads = 0

/-- What holds outside of that. -/
structure Idle (w : EventPool) : Prop where
  threads : w.threads = []
  ids : w.threadIds = []
  run : w.isRun = false
  notified : w.notified = 0
  service : w.service.count .started = 0
  outside : w.caller = .outside

def Active (w : EventPool) : Prop := w.isRunning ∨ w.caller = .joining

structure Sound (w : EventPool) : Prop where
  past : w.NeverGaveUp
  creating : w.caller = .creating → w.isRunning
  starting : w.Active → w.Starting
  idle : ¬ w.Active → w.Idle

variable {w w' : EventPool}

/-- `start` creates one more thread. -/
theorem Starting.create (starting : w.Starting) (room : w.threads.length < w.nbThreads) :
    Starting { w with threads := w.threads ++ [.created] } := by
  obtain ⟨few, waits, ids, once, before, behind, all⟩ := starting
  constructor <;> simp [PoolThread.arrived, PoolThread.hasId] <;> grind

theorem Starting.post (starting : w.Starting) :
    Starting { w with service := w.service ++ [.user] } := by
  obtain ⟨few, waits, ids, once, before, behind, all⟩ := starting
  constructor <;> simp <;> grind

theorem Idle.post (idle : w.Idle) : Idle { w with service := w.service ++ [.user] } :=
  { idle with service := by simp [idle.service] }

/-- How the numbers that the invariant is about change with a step of one thread. -/
theorem tally_move {threads : List PoolThread} {i : Nat} {old : PoolThread}
    (here : threads[i]? = some old) (new : PoolThread) :
    let moved := threads.set i new
    moved.countP PoolThread.arrived + (if old.arrived then 1 else 0) =
        threads.countP PoolThread.arrived + (if new.arrived then 1 else 0) ∧
      moved.countP PoolThread.hasId + (if old.hasId then 1 else 0) =
        threads.countP PoolThread.hasId + (if new.hasId then 1 else 0) ∧
      moved.count .waiting + (if old == .waiting then 1 else 0) =
        threads.count .waiting + (if new == .waiting then 1 else 0) ∧
      moved.count .setting + (if old == .setting then 1 else 0) =
        threads.count .setting + (if new == .setting then 1 else 0) ∧
      moved.count .notifying + (if old == .notifying then 1 else 0) =
        threads.count .notifying + (if new == .notifying then 1 else 0) ∧
      moved.length = threads.length :=
  ⟨countP_move here new _, countP_move here new _, countP_move here new _, countP_move here new _,
    countP_move here new _, List.length_set⟩

/-- When nobody is waited for all threads have registered. -/
theorem Starting.registered (starting : w.Starting) (none_ : w.waitingThreads = 0) :
    w.threadIds.length = w.nbThreads := by
  have waits := starting.waits
  have few := starting.few
  -- a thread arrives behind its registration
  have more : w.threads.countP PoolThread.arrived ≤ w.threads.countP PoolThread.hasId := by
    refine List.countP_mono_left fun t _ => ?_
    cases t <;> simp [PoolThread.arrived, PoolThread.hasId]
  have most : w.threads.countP PoolThread.hasId ≤ w.threads.length := List.countP_le_length
  rw [starting.ids]
  omega

/-- The handler goes on waiting. -/
theorem waitTurn_waits (waited : w.waitingThreads ≠ 0) (i : Nat) (spurious : Bool) :
    w.waitTurn i spurious = w := by
  simp [waitTurn, compareExchangeWeak_other waited, waited]

theorem waitTurn_done (nobody : w.waitingThreads = 0) (i : Nat) :
    w.waitTurn i false = w.move i .setting := by
  simp [waitTurn, nobody, compareExchangeWeak_same, move]

theorem waitTurn_gives_up (nobody : w.waitingThreads = 0) (i : Nat) :
    w.waitTurn i true = w.leaveHandler i := by
  simp [waitTurn, nobody, compareExchangeWeak_spurious, leaveHandler, move]

/-- The exchange is a test of whether somebody is waited for, if it does not fail spuriously. -/
theorem waitTurn_cases {i : Nat} {spurious : Bool} (here : w.threads[i]? = some .waiting)
    (fair : w.NotSpurious (.thread i spurious)) :
    w.waitTurn i spurious = w ∨
      (w.waitingThreads = 0 ∧ w.waitTurn i spurious = w.move i .setting) := by
  by_cases nobody : w.waitingThreads = 0
  · cases spurious with
    | true => exact absurd nobody (fair here)
    | false => exact .inr ⟨nobody, waitTurn_done nobody i⟩
  · exact .inl (waitTurn_waits nobody i spurious)

/-- A thread between two handlers ends, or calls the next one. -/
theorem idle_step_cases {i : Nat} {spurious : Bool}
    (stepped : w.threadStep i spurious .idle = some w') :
    w' = w.move i .ended ∨ ∃ h rest new, w.service = h :: rest ∧
      (h = .started ∧ new = .waiting ∨ h = .user ∧ new = .handling) ∧
      w' = { w.move i new with service := rest } := by
  simp only [threadStep] at stepped
  split at stepped
  · exact .inl (Option.some.inj stepped).symm
  · split at stepped
    · exact nomatch stepped
    next rest queue =>
      exact .inr ⟨_, rest, .waiting, queue, .inl ⟨rfl, rfl⟩, (Option.some.inj stepped).symm⟩
    next rest queue =>
      exact .inr ⟨_, rest, .handling, queue, .inr ⟨rfl, rfl⟩, (Option.some.inj stepped).symm⟩

theorem Starting.register (starting : w.Starting) {i : Nat}
    (here : w.threads[i]? = some .created) :
    Starting { w.move i .registered with threadIds := w.threadIds ++ [i] } := by
  have tally := tally_move here .registered
  simp [PoolThread.arrived, PoolThread.hasId] at tally
  obtain ⟨few, waits, ids, once, before, behind, all⟩ := starting
  constructor <;> simp [move] <;> grind

theorem Starting.arrive (starting : w.Starting) {i : Nat}
    (here : w.threads[i]? = some .registered) :
    Starting { w.move i .idle with waitingThreads := w.waitingThreads - 1 } := by
  have tally := tally_move here .idle
  -- one more has arrived, so this one was waited for
  have inside : (w.threads.set i .idle).countP PoolThread.arrived ≤ _ := List.countP_le_length
  simp [PoolThread.arrived, PoolThread.hasId] at tally inside
  obtain ⟨few, waits, ids, once, before, behind, all⟩ := starting
  constructor <;> simp [move] <;> grind

/-- A thread goes on outside of the handler of `start`. -/
theorem Starting.elsewhere (starting : w.Starting) {i : Nat} {old new : PoolThread}
    (here : w.threads[i]? = some old) (arrived : old.arrived ∧ new.arrived)
    (apart : old.starts = false ∧ new.starts = false) : (w.move i new).Starting := by
  have tally := tally_move here new
  have hasId : old.hasId ∧ new.hasId := by
    cases old <;> cases new <;> simp_all [PoolThread.arrived, PoolThread.hasId]
  simp only [arrived, hasId] at tally
  obtain ⟨few, waits, ids, once, before, behind, all⟩ := starting
  constructor <;> simp only [move] <;> grind [PoolThread.starts]

/-- A thread calls a handler. -/
theorem Starting.call (starting : w.Starting) {i : Nat} (here : w.threads[i]? = some .idle)
    {h : PoolHandler} {rest : List PoolHandler} (queue : w.service = h :: rest)
    {new : PoolThread} (called : h = .started ∧ new = .waiting ∨ h = .user ∧ new = .handling) :
    Starting { w.move i new with service := rest } := by
  have tally := tally_move here new
  obtain ⟨few, waits, ids, once, before, behind, all⟩ := starting
  rw [queue, List.count_cons] at once behind
  rcases called with ⟨rfl, rfl⟩ | ⟨rfl, rfl⟩
  · simp [PoolThread.arrived, PoolThread.hasId] at tally
    constructor <;> simp [move] <;> grind
  · simp [PoolThread.arrived, PoolThread.hasId] at tally
    constructor <;> simp [move] <;> grind

/-- There is nobody left to wait for. -/
theorem Starting.pass (starting : w.Starting) {i : Nat} (here : w.threads[i]? = some .waiting)
    (nobody : w.waitingThreads = 0) : (w.move i .setting).Starting := by
  have tally := tally_move here .setting
  simp [PoolThread.arrived, PoolThread.hasId] at tally
  obtain ⟨few, waits, ids, once, before, behind, all⟩ := starting
  constructor <;> simp [move] <;> grind

theorem Starting.set (starting : w.Starting) {i : Nat} (here : w.threads[i]? = some .setting) :
    Starting { w.move i .notifying with isRun := true } := by
  have tally := tally_move here .notifying
  simp [PoolThread.arrived, PoolThread.hasId] at tally
  obtain ⟨few, waits, ids, once, before, behind, all⟩ := starting
  constructor <;> simp [move] <;> grind

theorem Starting.notify (starting : w.Starting) {i : Nat}
    (here : w.threads[i]? = some .notifying) :
    ({ w with notified := w.notified + 1 }.leaveHandler i).Starting := by
  have tally := tally_move here .idle
  simp [PoolThread.arrived, PoolThread.hasId] at tally
  obtain ⟨few, waits, ids, once, before, behind, all⟩ := starting
  constructor <;> simp [move, leaveHandler] <;> grind

/-- One thread goes on, and the exchange of the handler of `start` does not fail on the value that
it expects. -/
theorem Starting.threadStep (starting : w.Starting) {i : Nat} {old : PoolThread} {spurious : Bool}
    (here : w.threads[i]? = some old) (fair : w.NotSpurious (.thread i spurious))
    (stepped : w.threadStep i spurious old = some w') : w'.Starting := by
  cases old with
  | created => exact Option.some.inj stepped ▸ starting.register here
  | registered => exact Option.some.inj stepped ▸ starting.arrive here
  | idle =>
    obtain rfl | ⟨h, rest, new, queue, called, rfl⟩ := idle_step_cases stepped
    · exact starting.elsewhere here ⟨rfl, rfl⟩ ⟨rfl, rfl⟩
    · exact starting.call here queue called
  | handling =>
    obtain rfl := Option.some.inj stepped
    exact starting.elsewhere here ⟨rfl, rfl⟩ ⟨rfl, rfl⟩
  | waiting =>
    obtain rfl := Option.some.inj stepped
    rcases waitTurn_cases here fair with same | ⟨nobody, passed⟩
    · rw [same]
      exact starting
    · rw [passed]
      exact starting.pass here nobody
  | setting => exact Option.some.inj stepped ▸ starting.set here
  | notifying => exact Option.some.inj stepped ▸ starting.notify here
  | ended => exact nomatch stepped

/-- What is shared with the other threads and stays as it is when one thread goes on. -/
theorem threadStep_same {i : Nat} {old : PoolThread} {spurious : Bool}
    (stepped : w.threadStep i spurious old = some w') :
    w'.nbThreads = w.nbThreads ∧ w'.isRunning = w.isRunning ∧ w'.caller = w.caller := by
  cases old <;> simp only [threadStep, waitTurn] at stepped <;> grind [move, leaveHandler]

/-- Where the handler of `start` notifies, it has set the run state, nobody has notified before
it, and all threads have registered. -/
theorem Starting.exit_of_notifying (starting : w.Starting) {i : Nat}
    (here : w.threads[i]? = some .notifying) :
    w.isRun ∧ w.notified = 0 ∧ w.threadIds.length = w.nbThreads := by
  have some_ : 0 < w.threads.count .notifying :=
    List.count_pos_iff.mpr (List.mem_of_getElem? here)
  have once := starting.once
  refine ⟨?_, by omega, starting.registered (starting.all (by omega))⟩
  by_contra stopped
  have before := starting.before (Bool.eq_false_iff.mpr stopped)
  omega

theorem Starting.neverGaveUp (starting : w.Starting) (past : w.NeverGaveUp) {i : Nat}
    {old : PoolThread} {spurious : Bool} (here : w.threads[i]? = some old)
    (fair : w.NotSpurious (.thread i spurious))
    (stepped : w.threadStep i spurious old = some w') : w'.NeverGaveUp := by
  have same := threadStep_same stepped
  unfold NeverGaveUp
  rw [same.1]
  cases old with
  | idle =>
    obtain rfl | ⟨_, _, _, _, _, rfl⟩ := idle_step_cases stepped
    · exact past
    · exact past
  | waiting =>
    obtain rfl := Option.some.inj stepped
    rcases waitTurn_cases here fair with same | ⟨-, passed⟩
    · rw [same]
      exact past
    · rw [passed]
      exact past
  | notifying =>
    obtain rfl := Option.some.inj stepped
    obtain ⟨isRun, first, registered⟩ := starting.exit_of_notifying here
    intro e left
    rcases List.mem_append.mp left with earlier | last
    · exact past e earlier
    · obtain rfl := List.mem_singleton.mp last
      exact ⟨isRun, congrArg (· + 1) first, registered⟩
  | ended => exact nomatch stepped
  | _ =>
    obtain rfl := Option.some.inj stepped
    exact past

theorem sound_make (nbThreads : Nat) : (make nbThreads).Sound where
  past := nofun
  creating := nofun
  starting active := by simp [Active, make] at active
  idle _ := ⟨rfl, rfl, rfl, rfl, rfl, rfl⟩

/-- Nothing is left of a start when `stop` returns. -/
theorem sound_reset (sound : w.Sound) : w.reset.Sound where
  past := sound.past
  creating := nofun
  starting active := by simp [Active, make, reset] at active
  idle _ := ⟨rfl, rfl, rfl, rfl, rfl, rfl⟩

theorem Active.creating (sound : w.Sound) (creating : w.caller = .creating) : w.Active :=
  .inl (sound.creating creating)

/-- `stop` does not touch what the handler of `start` looks at. -/
theorem sound_stopLoop (sound : w.Sound) (active : w.Active) : w.stopLoop.Sound where
  past := sound.past
  creating := nofun
  starting _ := { sound.starting active with }
  idle passive := absurd (.inr rfl) passive

theorem sound_start (sound : w.Sound) (outside : w.caller = .outside) (idle : ¬ w.isRunning) :
    Sound { w with
      isRunning := true
      waitingThreads := w.nbThreads
      service := w.service ++ [.started]
      caller := .creating } where
  past := sound.past
  creating _ := rfl
  starting _ := by
    -- nothing is left of an earlier start
    have passive : ¬ w.Active := not_or.mpr ⟨idle, by simp [outside]⟩
    obtain ⟨threads, ids, run, notified, service, _⟩ := sound.idle passive
    constructor <;> simp [threads, ids, run, notified, service]
  idle passive := absurd (.inl rfl) passive

theorem sound_create (sound : w.Sound) (creating : w.caller = .creating)
    (room : w.threads.length < w.nbThreads) :
    Sound { w with threads := w.threads ++ [.created] } where
  past := sound.past
  creating := sound.creating
  starting active := (sound.starting active).create room
  idle passive := absurd (Active.creating sound creating) passive

/-- `start` has created all threads. -/
theorem sound_return (sound : w.Sound) (creating : w.caller = .creating) :
    Sound { w with caller := .outside } where
  past := sound.past
  creating := nofun
  starting _ := { sound.starting (Active.creating sound creating) with }
  idle passive := absurd (.inl (sound.creating creating)) passive

theorem Sound.active (sound : w.Sound) {i : Nat} {old : PoolThread}
    (here : w.threads[i]? = some old) : w.Active := by
  -- threads there are only between `start` and the end of `stop`
  by_contra passive
  rw [(sound.idle passive).threads] at here
  exact nomatch here

theorem sound_threadStep (sound : w.Sound) {i : Nat} {old : PoolThread} {spurious : Bool}
    (here : w.threads[i]? = some old) (fair : w.NotSpurious (.thread i spurious))
    (stepped : w.threadStep i spurious old = some w') : w'.Sound := by
  obtain ⟨-, running, caller⟩ := threadStep_same stepped
  have active := sound.active here
  have starting := sound.starting active
  refine ⟨starting.neverGaveUp sound.past here fair stepped, ?_,
    fun _ => starting.threadStep here fair stepped, fun passive => ?_⟩
  · rw [running, caller]
    exact sound.creating
  · rw [Active, running, caller] at passive
    exact absurd active passive

theorem sound_step (sound : w.Sound) {a : PoolAction} (fair : w.NotSpurious a)
    (stepped : w.step a = some w') : w'.Sound := by
  cases a with
  | start =>
    simp only [step, Option.ite_none_left_eq_some] at stepped
    obtain ⟨outside, stepped⟩ := stepped
    split at stepped
    · exact Option.some.inj stepped ▸ sound
    next idle => exact Option.some.inj stepped ▸ sound_start sound (not_not.mp outside) idle
  | create =>
    simp only [step, Option.ite_none_left_eq_some] at stepped
    obtain ⟨creating, stepped⟩ := stepped
    split at stepped
    next room => exact Option.some.inj stepped ▸ sound_create sound (not_not.mp creating) room
    · exact Option.some.inj stepped ▸ sound_return sound (not_not.mp creating)
  | fail =>
    simp only [step, Option.ite_none_right_eq_some] at stepped
    obtain ⟨creating, stepped⟩ := stepped
    exact Option.some.inj stepped ▸ sound_stopLoop sound (.creating sound creating)
  | stop =>
    simp only [step, Option.ite_none_left_eq_some] at stepped
    obtain ⟨-, stepped⟩ := stepped
    split at stepped
    next running => exact Option.some.inj stepped ▸ sound_stopLoop sound (.inl running)
    · exact Option.some.inj stepped ▸ sound
  | join =>
    simp only [step, Option.ite_none_right_eq_some] at stepped
    exact Option.some.inj stepped.2 ▸ sound_reset sound
  | post =>
    obtain rfl := Option.some.inj stepped
    exact
      { past := sound.past
        creating := sound.creating
        starting := fun active => (sound.starting active).post
        idle := fun passive => (sound.idle passive).post }
  | thread i spurious =>
    obtain ⟨old, here, stepped⟩ := Option.bind_eq_some_iff.mp stepped
    exact sound_threadStep sound here fair stepped

/-- A failure for no reason at the end of the waiting leaves the handler before the run state is
set. -/
theorem gives_up_of_spurious (sound : w.Sound) {a : PoolAction} (spurious : ¬ w.NotSpurious a) :
    ∃ w', w.step a = some w' ∧ ¬ w'.NeverGaveUp := by
  obtain ⟨i, rfl, here, nobody⟩ :
      ∃ i, a = .thread i true ∧ w.threads[i]? = some .waiting ∧ w.waitingThreads = 0 := by
    unfold NotSpurious at spurious
    split at spurious
    · next i => exact ⟨i, rfl, by simpa using spurious⟩
    · exact absurd trivial spurious
  have active := sound.active here
  have some_ : 0 < w.threads.count .waiting :=
    List.count_pos_iff.mpr (List.mem_of_getElem? here)
  -- the handler of `start` is still in its loop, so nobody has set the run state
  have stopped : ¬ w.isRun := fun isRun => by
    have behind := (sound.starting active).behind isRun
    omega
  refine ⟨w.leaveHandler i, ?_, fun never => ?_⟩
  · rw [step, here, Option.bind_some, threadStep, waitTurn_gives_up nobody]
  · exact stopped (never _ (List.mem_append_right _ (List.mem_singleton_self _))).1

/-- The handler of `start` never gives up exactly if its exchange never fails on the value that it
expects. -/
theorem never_gives_up_iff (nbThreads : Nat) (acts : List PoolAction) :
    (∀ w, Visits step (make nbThreads) acts w → w.NeverGaveUp) ↔
      Meets step NotSpurious (make nbThreads) acts :=
  always_iff (fun _ _ _ sound fair stepped => sound_step sound fair stepped)
    (fun _ sound => sound.past) (fun _ _ sound => gives_up_of_spurious sound) acts
    (sound_make nbThreads)

end EventPool

end ServerLib
