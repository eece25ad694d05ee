import Mathlib.Data.List.Basic
import ServerLib.Common.Asserts
import ServerLib.Foundation.Transition

/-!
# The queue of an `event_loop`

`register_queue` wraps a callback: the queue's size is increased at once, and decreased when the
wrapped callback has been called. The io_service calls what is posted first in, first out, one at
a time; `start` posts a handler like any other, which sets `_is_run` and notifies the observers.
`reset` sets the size to zero and replaces the io_service, with all that it has not called.

A loop runs in a thread of its own or in the thread that calls `start`. In the second case `stop`
is called by one of the loop's own callbacks, which goes on behind it.

Callbacks are values, each given to one call. `post` moves out of what it is given, and what a
caller finds in a callback that it posts a second time is left out.
-/
namespace ServerLib

open Transition

/-- Who has registered a callback. -/
inductive CallbackOf where
  /-- `start` -/
  | started
  /-- `post(callback)` -/
  | posted
  /-- `post(duration, callback)` -/
  | delayed
  deriving DecidableEq, Repr

/-- A registered callback. Callbacks are numbered in the order of their posts. -/
structure Posted where
  number : Nat
  origin : CallbackOf
  deriving DecidableEq, Repr

/-- What the loop's thread is in. -/
inductive Frame where
  /-- `run`, until its service is stopped -/
  | run (open_ : Bool)
  /-- a callback, and how many resets there had been when it was called -/
  | callback (posted : Posted) (life : Nat)
  deriving DecidableEq, Repr

def Frame.isCallback : Frame → Bool
  | .callback _ _ => true
  | .run _ => false

/-- `run` does not call another handler when the service has been stopped. -/
def Frame.stopped : Frame → Frame
  | .run _ => .run false
  | frame => frame

/-- A callback was called, when `is_run` was so and the observers had been notified or not. -/
structure CallbackCall where
  posted : Posted
  isRun : Bool
  notified : Bool
  deriving DecidableEq, Repr

structure QueuedLoop where
  runInSeparateThread : Bool
  isRunning : Bool := false
  isRun : Bool := false
  queueSize : UInt64 := 0
  service : List Posted := []
  /-- the deadline timers that have not expired -/
  timers : List Posted := []
  /-- what the loop's thread is in, the innermost first -/
  stack : List Frame := []
  /-- `start` has not posted its handler yet -/
  starting : Bool := false
  /-- `stop` waits for the loop's thread -/
  joining : Bool := false
  /-- `_thread` is a thread that nobody has joined and nobody will -/
  unjoined : Bool := false
  /-- since the last reset `start` has posted its handler -/
  launched : Bool := false
  /-- since the last reset the observers have been notified -/
  notified : Bool := false
  life : Nat := 0
  /-- how many posts have returned, callbacks have ended and callbacks were discarded -/
  returned : Nat := 0
  finished : Nat := 0
  discarded : Nat := 0
  called : List CallbackCall := []
  deriving DecidableEq, Repr

inductive QueuedLoopAction where
  | post
  | postAfter (ms : Int)
  /-- A deadline timer expires. -/
  | expire (i : Nat)
  /-- `start`, up to the post of its handler. -/
  | start
  /-- `start`, from the post of its handler on. -/
  | launch
  /-- The service calls the next handler. -/
  | fire
  /-- A callback returns. -/
  | finish
  /-- A callback throws. -/
  | throwOut
  /-- `stop`; for a loop with its own thread, from another one. -/
  | stop
  /-- `stop`, called by a callback in the loop's own thread. -/
  | stopInside
  /-- `run` returns. -/
  | leave
  /-- `stop` has joined the loop's thread. -/
  | join
  deriving DecidableEq, Repr

/-- The assertion on durations. -/
def checkDuration (ms : Int) : Option LogicError :=
  if 0 < ms then none
  else some ⟨"ms.count() > 0", "1 millisecond is minimum timer accuracy"⟩

namespace QueuedLoop

def create (runInSeparateThread : Bool) : QueuedLoop := { runInSeparateThread }

/-- The callbacks that have been called and not returned. -/
def executing (w : QueuedLoop) : Nat := w.stack.countP Frame.isCallback

/-- The callbacks that wait or have not returned. -/
def outstanding (w : QueuedLoop) : Nat := w.service.length + w.timers.length + w.executing

/-- The wrapper that `register_queue` puts around a callback. -/
def wrap (w : QueuedLoop) (origin : CallbackOf) : Posted := ⟨w.returned, origin⟩

def registerQueue (w : QueuedLoop) : QueuedLoop := { w with queueSize := w.queueSize + 1 }

def postFrom (w : QueuedLoop) (origin : CallbackOf) : QueuedLoop :=
  { w.registerQueue with
    service := w.service ++ [w.wrap origin]
    returned := w.returned + 1 }

def post (w : QueuedLoop) : QueuedLoop := w.postFrom .posted

/-- `post(duration, callback)`. The callback is registered before the duration is looked at. -/
def postAfter (w : QueuedLoop) (ms : Int) : Outcome QueuedLoop :=
  match checkDuration ms with
  | some error => .thrown error w.registerQueue
  | none =>
    .returned { w.registerQueue with
      timers := w.timers ++ [w.wrap .delayed]
      returned := w.returned + 1 }

/-- `reset`, behind `stop_loop`. -/
def reset (w : QueuedLoop) : QueuedLoop :=
  { w with
    isRunning := false
    isRun := false
    queueSize := 0
    service := []
    timers := []
    stack := w.stack.map Frame.stopped
    starting := false
    joining := false
    launched := false
    notified := false
    life := w.life + 1
    discarded := w.discarded + w.service.length + w.timers.length }

/-- `stop_loop` -/
def stopLoop (w : QueuedLoop) : QueuedLoop :=
  { w with isRunning := false, stack := w.stack.map Frame.stopped }

/-- `start` posts its handler and runs the service, here or in a new thread. -/
def launch (w : QueuedLoop) : QueuedLoop :=
  { w.postFrom .started with
    starting := false
    launched := true
    stack := .run true :: w.stack }

/-- The thread is in `run`, and not in a callback that it has called. -/
def inRun (w : QueuedLoop) : Bool :=
  match w.stack with
  | .run _ :: _ => true
  | _ => false

/-- The handler of `start` sets `_is_run` and then notifies the observers. -/
def fire (w : QueuedLoop) (p : Posted) (rest : List Posted) : QueuedLoop :=
  { w with
    service := rest
    stack := .callback p w.life :: w.stack
    called := w.called ++ [⟨p, w.isRun, w.notified⟩]
    isRun := w.isRun || p.origin == .started }

/-- The wrapper goes on when its callback has returned. -/
def finish (w : QueuedLoop) (p : Posted) (life : Nat) (frames : List Frame) : QueuedLoop :=
  { w with
    stack := frames
    queueSize := w.queueSize - 1
    finished := w.finished + 1
    notified := w.notified || (p.origin == .started && life == w.life) }

/-- The handler of `start` that stops the loop when an exception comes out of `run`. -/
def unwind (w : QueuedLoop) (frames : List Frame) : QueuedLoop :=
  let w := { w with stack := frames, finished := w.finished + 1 }
  if w.isRunning then w.reset else w

/-- `none` where the action is not possible, or the process ends with it. -/
def step (w : QueuedLoop) : QueuedLoopAction → Option QueuedLoop
  | .post => some w.post
  | .postAfter ms => some (w.postAfter ms).state
  | .expire i =>
    w.timers[i]?.map fun p =>
      { w with timers := w.timers.eraseIdx i, service := w.service ++ [p] }
  | .start =>
    if w.isRunning then some w
    -- a `stop` under way, or the calling thread is not free
    else if w.joining ∨ (w.runInSeparateThread = false ∧ w.inRun) then none
    else some { w with isRunning := true, starting := true }
  -- a thread that nobody has joined ends the process where it is replaced
  | .launch => if w.starting ∧ w.unjoined = false then some w.launch else none
  | .fire =>
    match w.stack, w.service with
    | .run true :: _, p :: rest => some (w.fire p rest)
    | _, _ => none
  | .finish =>
    match w.stack with
    | .callback p life :: frames => some (w.finish p life frames)
    | _ => none
  | .throwOut =>
    match w.stack with
    -- out of the function of a thread it ends the process
    | .callback _ _ :: .run _ :: frames =>
      if w.runInSeparateThread then none else some (w.unwind frames)
    | _ => none
  | .stop =>
    if ¬ w.isRunning then some w
    else if w.starting then none
    else if w.runInSeparateThread then some { w.stopLoop with joining := true }
    else some w.reset
  | .stopInside =>
    if ¬ w.runInSeparateThread then none
    else
      match w.stack with
      | .callback _ _ :: _ =>
        if ¬ w.isRunning then some w
        else if w.starting then none
        -- `join` throws, and `reset` is not reached
        else some { w.stopLoop with unjoined := true }
      | _ => none
  | .leave =>
    match w.stack with
    | .run false :: frames => some { w with stack := frames }
    | _ => none
  | .join => if w.joining ∧ w.stack = [] then some w.reset else none

/-- What a step can do, and when. -/
inductive Stepped (w : QueuedLoop) : QueuedLoopAction → QueuedLoop → Prop where
  | post : Stepped w .post w.post
  | postAfter (ms : Int) : Stepped w (.postAfter ms) (w.postAfter ms).state
  | expire {i : Nat} {p : Posted} (here : w.timers[i]? = some p) :
    Stepped w (.expire i)
      { w with timers := w.timers.eraseIdx i, service := w.service ++ [p] }
  | startRunning : Stepped w .start w
  | start (idle : ¬ w.isRunning) (calm : w.joining = false)
      (free : w.runInSeparateThread = false → w.inRun = false) :
    Stepped w .start { w with isRunning := true, starting := true }
  | launch (begun : w.starting) (joined : w.unjoined = false) : Stepped w .launch w.launch
  | fire {p : Posted} {rest : List Posted} {frames : List Frame}
      (inside : w.stack = .run true :: frames) (queued : w.service = p :: rest) :
    Stepped w .fire (w.fire p rest)
  | finish {p : Posted} {life : Nat} {frames : List Frame}
      (inside : w.stack = .callback p life :: frames) : Stepped w .finish (w.finish p life frames)
  | throwOut {p : Posted} {life : Nat} {open_ : Bool} {frames : List Frame}
      (inside : w.stack = .callback p life :: .run open_ :: frames)
      (own : w.runInSeparateThread = false) : Stepped w .throwOut (w.unwind frames)
  | stopIdle : Stepped w .stop w
  | stopJoining (separate : w.runInSeparateThread) (begun : w.starting = false) :
    Stepped w .stop { w.stopLoop with joining := true }
  | stop (running : w.isRunning) (begun : w.starting = false)
      (own : w.runInSeparateThread = false) : Stepped w .stop w.reset
  | stopInsideIdle : Stepped w .stopInside w
  | stopInside (separate : w.runInSeparateThread) (begun : w.starting = false) :
    Stepped w .stopInside { w.stopLoop with unjoined := true }
  | leave {frames : List Frame} (inside : w.stack = .run false :: frames) :
    Stepped w .leave { w with stack := frames }
  | join (joining : w.joining) (ended : w.stack = []) : Stepped w .join w.reset

theorem stepped_of_step {w w' : QueuedLoop} {a : QueuedLoopAction} (step : w.step a = some w') :
    Stepped w a w' := by
  cases a with
  | post =>
    cases step
    exact .post
  | postAfter ms =>
    cases step
    exact .postAfter ms
  | expire i =>
    obtain ⟨p, here, rfl⟩ := Option.map_eq_some_iff.mp step
    exact .expire here
  | start =>
    simp only [QueuedLoop.step] at step
    split at step
    · cases step
      exact .startRunning
    next idle =>
      simp only [Option.ite_none_left_eq_some, Option.some.injEq, not_or, not_and] at step
      obtain ⟨⟨calm, free⟩, rfl⟩ := step
      exact .start idle (Bool.eq_false_iff.mpr calm) fun own => Bool.eq_false_iff.mpr (free own)
  | launch =>
    simp only [QueuedLoop.step, Option.ite_none_right_eq_some, Option.some.injEq] at step
    obtain ⟨⟨begun, joined⟩, rfl⟩ := step
    exact .launch begun joined
  | fire =>
    simp only [QueuedLoop.step] at step
    split at step
    next inside queued =>
      cases step
      exact .fire inside queued
    · cases step
  | finish =>
    simp only [QueuedLoop.step] at step
    split at step
    next inside =>
      cases step
      exact .finish inside
    · cases step
  | throwOut =>
    simp only [QueuedLoop.step] at step
    split at step
    next inside =>
      simp only [Option.ite_none_left_eq_some, Option.some.injEq] at step
      obtain ⟨own, rfl⟩ := step
      exact .throwOut inside (Bool.eq_false_iff.mpr own)
    · cases step
  | stop =>
    simp only [QueuedLoop.step] at step
    split at step
    · cases step
      exact .stopIdle
    next running =>
      simp only [Option.ite_none_left_eq_some] at step
      obtain ⟨begun, step⟩ := step
      split at step
      next separate =>
        cases step
        exact .stopJoining separate (Bool.eq_false_iff.mpr begun)
      next own =>
        cases step
        exact .stop (not_not.mp running) (Bool.eq_false_iff.mpr begun) (Bool.eq_false_iff.mpr own)
  | stopInside =>
    simp only [QueuedLoop.step, Option.ite_none_left_eq_some] at step
    obtain ⟨separate, step⟩ := step
    split at step
    · split at step
      · cases step
        exact .stopInsideIdle
      · simp only [Option.ite_none_left_eq_some, Option.some.injEq] at step
        obtain ⟨begun, rfl⟩ := step
        exact .stopInside (not_not.mp separate) (Bool.eq_false_iff.mpr begun)
    · cases step
  | leave =>
    simp only [QueuedLoop.step] at step
    split at step
    next inside =>
      cases step
      exact .leave inside
    · cases step
  | join =>
    simp only [QueuedLoop.step, Option.ite_none_right_eq_some, Option.some.injEq] at step
    obtain ⟨⟨joining, ended⟩, rfl⟩ := step
    exact .join joining ended

@[simp] theorem executing_reset (w : QueuedLoop) : w.reset.executing = w.executing := by
  simp only [executing, reset, List.countP_map]
  congr 1
  funext frame
  cases frame <;> rfl

@[simp] theorem executing_stopLoop (w : QueuedLoop) : w.stopLoop.executing = w.executing :=
  executing_reset w

end QueuedLoop

end ServerLib
