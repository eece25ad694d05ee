import Mathlib.Data.List.Basic
import ServerLib.Foundation.Transition

/-!
# `application_impl::run`

Two threads take part: the main thread, which runs the main loop and then joins the signal
thread, and the signal thread, which waits for signals. On a terminating signal the signal
thread sets `_signal_thread_terminating`, and if the main loop is running it posts the exit
notification there, waits for it and stops the application. When the main loop has stopped
the main thread notifies itself, unless that flag is set.

A step is what a thread does between two accesses to what they share, where the loop's `post`,
`start` and `stop` count as one access each: they take effect at one moment, in the order in which
the threads come to them. Two of them at the same time, for which the source has no lock, are not
described.

A loop that has been stopped drops what is posted to it, so an exit notification that is posted,
and not run when another stop gets in, is never run. And if the flag is set but the loop does not
run when the signal thread looks, both threads leave the notification to the other one.
-/
namespace ServerLib

open Transition

inductive ControlSignal where
  | usr1
  | usr2
  deriving DecidableEq, Repr

/-- `__signal_data`. -/
inductive SignalData where
  | null
  | fail (signo : Int)
  | exit (signo : Int)
  | usersignal (signal : ControlSignal)
  deriving DecidableEq, Repr

def sigusr1 : Int := 10

def sigusr2 : Int := 12

def sigterm : Int := 15

def exitFailureSigBase : Int := 128

/-- What the application takes from the C library below it. -/
structure Platform where
  isFailSignal : Int → Bool
  exitCodeError : Int

def processSignal (platform : Platform) (signal : Int) : SignalData :=
  if platform.isFailSignal signal then .fail signal
  else if signal = sigusr1 then .usersignal .usr1
  else if signal = sigusr2 then .usersignal .usr2
  else .exit signal

/-- What is posted to the main loop. -/
inductive MainHandler where
  /-- the one that `start` posts -/
  | started
  /-- by `application_main_loop::stop` on another thread -/
  | stop
  /-- by `process_exit` -/
  | exit (signo : Int)
  /-- by `process_control` -/
  | control (signal : ControlSignal)
  /-- by other code -/
  | user
  deriving DecidableEq, Repr

def MainHandler.isExit : MainHandler → Bool
  | .exit _ => true
  | _ => false

structure MainLoop where
  isRunning : Bool := false
  service : List MainHandler := []
  deriving DecidableEq, Repr

namespace MainLoop

def post (l : MainLoop) (handler : MainHandler) : MainLoop :=
  { l with service := l.service ++ [handler] }

/-- `start`, up to the point where the handlers are run. -/
def start (l : MainLoop) : MainLoop :=
  if l.isRunning then l else { l.post .started with isRunning := true }

/-- `event_loop::stop` on the main thread. The service is replaced by a new one. -/
def stop (l : MainLoop) : MainLoop := if l.isRunning then {} else l

/-- The exit notifications that wait in the loop. -/
def exits (l : MainLoop) : Nat := l.service.countP MainHandler.isExit

@[simp] theorem post_isRunning (l : MainLoop) (h : MainHandler) :
    (l.post h).isRunning = l.isRunning := rfl

@[simp] theorem start_isRunning (l : MainLoop) : l.start.isRunning = true := by
  unfold start
  split <;> simp_all

@[simp] theorem stop_isRunning (l : MainLoop) : l.stop.isRunning = false := by
  unfold stop
  split <;> simp_all

@[simp] theorem exits_post (l : MainLoop) (h : MainHandler) :
    (l.post h).exits = l.exits + if h.isExit then 1 else 0 := by
  simp [exits, post]

@[simp] theorem exits_start (l : MainLoop) : l.start.exits = l.exits := by
  unfold start
  split <;> simp [exits, post, MainHandler.isExit]

/-- A loop that is stopped forgets what was posted to it. -/
theorem exits_stop (l : MainLoop) : l.stop.exits = if l.isRunning then 0 else l.exits := by
  unfold stop
  split <;> rfl

end MainLoop

/-- Where the main thread is in `run_impl`. -/
inductive MainThread where
  | initiating
  /-- has returned before there was a main loop -/
  | left
  | starting
  /-- between two handlers -/
  | looping
  | handler (h : MainHandler)
  /-- behind `_main_el.start()` -/
  | stopping
  /-- in `join`, in the branch for a terminating signal thread -/
  | joining
  /-- in `join`, having sent `SIGTERM` -/
  | killing
  /-- in the callbacks that `_exit_observer.notify(0)` calls -/
  | notifying
  | joined
  /-- `run` has returned (`none`), or `_exit` was called -/
  | returned (exitCode : Option Int)
  deriving DecidableEq, Repr

/-- Where the signal thread is in its lambda. -/
inductive SignalThread where
  | initiating
  /-- has returned before it waited for a signal -/
  | left
  | waiting
  /-- at the start of `process_handler` -/
  | handling
  /-- at the start of `process_exit` -/
  | exiting (signo : Int)
  /-- at `_main_el.wait` -/
  | posting (signo : Int)
  /-- in `_main_el.wait`, until the handler has run -/
  | awaiting (signo : Int)
  /-- at `stop` -/
  | stopping (signo : Int)
  | ended
  deriving DecidableEq, Repr

def SignalThread.over : SignalThread → Bool
  | .left | .ended => true
  | _ => false

structure ApplicationImpl where
  mainEl : MainLoop := {}
  signalThreadInitiated : Bool := false
  signalThreadTerminating : Bool := false
  exitCode : Int
  anyExitSubscriber : Bool
  anyControlSubscriber : Bool
  main : MainThread := .initiating
  signalThread : SignalThread := .initiating
  lastSignalData : SignalData := .null
  pending : List Int := []
  /-- the promise that `_main_el.wait` waits for -/
  promise : Bool := false
  /-- the arguments of the calls of `_exit_observer.notify` -/
  exitNotified : List Int := []
  deriving DecidableEq, Repr

inductive AppAction where
  /-- `compare_exchange_weak` may fail for no reason. -/
  | mainThread (spurious : Bool)
  | signalThread (spurious : Bool)
  /-- A signal arrives. -/
  | raise (signal : Int)
  /-- The signal thread gets one of the signals that have arrived. -/
  | take (signal : Int)
  /-- `application::stop`, called by a callback on the main thread. -/
  | stop (exitCode : Int)
  /-- `application::stop`, called by another thread. -/
  | stopFrom (exitCode : Int)
  /-- Another thread posts to the main loop. -/
  | post

namespace ApplicationImpl

/-- An application before `run_impl`. -/
def create (anyExitSubscriber anyControlSubscriber : Bool) (exitCode : Int) :
    ApplicationImpl where
  exitCode := exitCode
  anyExitSubscriber := anyExitSubscriber
  anyControlSubscriber := anyControlSubscriber

/-- The main loop calls a handler. The callbacks are entered with this step. -/
def enter (s : ApplicationImpl) (h : MainHandler) : ApplicationImpl :=
  match h with
  | .exit signo => { s with main := .handler h, exitNotified := s.exitNotified ++ [signo] }
  | _ => { s with main := .handler h }

/-- A handler comes to its end. -/
def finish (s : ApplicationImpl) (h : MainHandler) : ApplicationImpl :=
  match h with
  | .exit _ => { s with main := .looping, promise := true }
  | .stop => { s with main := .looping, mainEl := s.mainEl.stop }
  | _ => { s with main := .looping }

/-- The end of `run_impl`, from `cleanup` on. -/
def leave (platform : Platform) (s : ApplicationImpl) : ApplicationImpl :=
  { s with
    signalThreadInitiated := false
    signalThreadTerminating := false
    main := .returned <|
      if s.exitCode = 0 then none
      else if s.exitCode < 0 then some platform.exitCodeError
      else some s.exitCode }

def mainStep (platform : Platform) (spurious : Bool) (s : ApplicationImpl) :
    Option ApplicationImpl :=
  match s.main with
  | .initiating =>
    if ¬ s.signalThreadInitiated then some s
    -- `if (expected) return` takes a failure for no reason for the flag
    else if spurious then some { s with main := .left }
    else some { s with main := .starting }
  | .starting => some { s with main := .looping, mainEl := s.mainEl.start }
  | .looping =>
    if ¬ s.mainEl.isRunning then some { s with main := .stopping }
    else
      match s.mainEl.service with
      | [] => none
      | h :: rest => some (enter { s with mainEl := { s.mainEl with service := rest } } h)
  | .handler h => some (s.finish h)
  | .stopping =>
    -- read once, before the signal thread is joined
    if s.signalThreadTerminating then some { s with main := .joining }
    else some { s with main := .killing, pending := s.pending ++ [sigterm] }
  | .joining => if s.signalThread.over then some { s with main := .joined } else none
  | .killing =>
    if s.signalThread.over then
      -- `_exit_observer.notify(0)`
      some { s with main := .notifying, exitNotified := s.exitNotified ++ [0] }
    else none
  | .notifying => some { s with main := .joined }
  | .joined => some (s.leave platform)
  | .left | .returned _ => none

/-- The end of the loop's body in the signal thread. -/
def handled (s : ApplicationImpl) : ApplicationImpl :=
  { s with signalThread := if s.signalThreadTerminating then .ended else .waiting }

def processControl (signal : ControlSignal) (s : ApplicationImpl) : ApplicationImpl :=
  if s.anyControlSubscriber then { s with mainEl := s.mainEl.post (.control signal) } else s

def signalStep (spurious : Bool) (s : ApplicationImpl) : Option ApplicationImpl :=
  match s.signalThread with
  | .initiating =>
    if s.signalThreadInitiated then some s
    else if spurious then some { s with signalThread := .left }
    else some { s with signalThread := .waiting, signalThreadInitiated := true }
  | .handling =>
    match s.lastSignalData with
    | .exit signo =>
      some { s with signalThread := .exiting signo, signalThreadTerminating := true }
    | .usersignal signal => some (s.processControl signal).handled
    | _ => some s.handled
  | .exiting signo =>
    -- `_main_el.is_running()` is read once, too
    if ¬ s.mainEl.isRunning then some s.handled
    else if s.anyExitSubscriber then some { s with signalThread := .posting signo }
    else some { s with signalThread := .stopping signo }
  | .posting signo =>
    some { s with signalThread := .awaiting signo, mainEl := s.mainEl.post (.exit signo) }
  | .awaiting signo => if s.promise then some { s with signalThread := .stopping signo } else none
  | .stopping signo =>
    some (handled { s with
      exitCode := exitFailureSigBase + signo
      mainEl := s.mainEl.post .stop })
  | .left | .waiting | .ended => none

/-- Callbacks of the user run on the main thread. -/
def callsBack (s : ApplicationImpl) : Bool :=
  match s.main with
  | .handler .stop => false
  | .handler _ | .notifying => true
  | _ => false

def step (platform : Platform) (s : ApplicationImpl) : AppAction → Option ApplicationImpl
  | .mainThread spurious => s.mainStep platform spurious
  | .signalThread spurious => s.signalStep spurious
  | .raise signal => some { s with pending := s.pending ++ [signal] }
  | .take signal =>
    if s.signalThread = .waiting ∧ signal ∈ s.pending then
      some { s with
        signalThread := .handling
        pending := s.pending.erase signal
        lastSignalData := processSignal platform signal }
    else none
  | .stop exitCode =>
    if s.callsBack then some { s with exitCode := exitCode, mainEl := s.mainEl.stop } else none
  | .stopFrom exitCode => some { s with exitCode := exitCode, mainEl := s.mainEl.post .stop }
  | .post => some { s with mainEl := s.mainEl.post .user }

end ApplicationImpl

end ServerLib
