import Mathlib.Logic.Function.Basic
import ServerLib.Common.Asserts
import ServerLib.Foundation.Transition

/-!
# `event_loop` in a thread of its own

`is_this_loop` compares the calling thread with `_id`. That member is written in `reset` only,
by the thread that constructs the loop and by threads that stop it; the thread that `start`
creates does not write it. So while the loop runs `_id` names a thread that is not the loop's,
unless the new thread has been given the id of that one again.

Calls are steps, and the loop's thread runs the posted handlers one at a time. `start` and
`stop` are not called at the same time: what they change is not protected.
-/
namespace ServerLib

open Transition

/-- A sink of an observable, and whether it was subscribed with the loop. -/
structure Subscription where
  sink : Nat
  onLoop : Bool
  deriving DecidableEq, Repr

/-- What is posted to the loop. -/
inductive Handler where
  /-- the one that `start` posts -/
  | started
  | call (sink : Subscription)
  deriving DecidableEq, Repr

structure EventLoop (τ : Type) where
  id : τ
  isRunning : Bool := false
  isRun : Bool := false
  thread : Option τ := none
  service : List Handler := []

namespace EventLoop

variable {τ : Type} [DecidableEq τ]

/-- `reset`, on the thread `t`. -/
def reset (t : τ) : EventLoop τ := { id := t }

def isThisLoop (l : EventLoop τ) (t : τ) : Bool := l.id == t

def post (l : EventLoop τ) (handler : Handler) : EventLoop τ :=
  { l with service := l.service ++ [handler] }

end EventLoop

/-- A call of a sink: the thread that made it, and the thread of the loop if it was running. -/
structure Execution (τ : Type) where
  subscription : Subscription
  thread : τ
  own : Option τ
  deriving DecidableEq, Repr

/-- The loop, the threads that have not ended, and the calls of sinks so far. -/
structure LoopWorld (τ : Type) where
  loop : EventLoop τ
  alive : τ → Bool
  executed : List (Execution τ) := []
  terminated : Bool := false

inductive LoopAction (τ : Type) where
  | begin (t : τ)
  | finish (t : τ)
  /-- The thread that is created, if one is, gets the id `created`. -/
  | start (t created : τ)
  | stop (t : τ)
  /-- `simple_observable::notify` (`notify_ref` if not `asyncAllowed`). -/
  | notify (t : τ) (observers : List Subscription) (asyncAllowed : Bool)
  /-- `observable::notify`, with the entries of those that have unsubscribed. -/
  | notifyObservers (t : τ) (observers : List (Option Subscription))
  | runHandler

namespace LoopWorld

variable {τ : Type} [DecidableEq τ]

/-- A loop that `creator` has constructed. -/
def create (creator : τ) (others : τ → Bool) : LoopWorld τ where
  loop := .reset creator
  alive t := t == creator || others t

/-- The thread that runs the handlers. -/
def own (w : LoopWorld τ) : Option τ := if w.loop.isRunning then w.loop.thread else none

def call (w : LoopWorld τ) (t : τ) (sub : Subscription) : LoopWorld τ :=
  { w with executed := w.executed ++ [⟨sub, t, w.own⟩] }

/-- `notify_item_impl`; `observable` has the same lines without the assertion. -/
def notifyItem (w : LoopWorld τ) (t : τ) (asyncAllowed : Bool) (sub : Subscription) :
    Outcome (LoopWorld τ) :=
  if sub.onLoop && !w.loop.isThisLoop t then
    if asyncAllowed then .returned { w with loop := w.loop.post (.call sub) }
    else .thrown ⟨"async_allowed", "Async mode is not allowed"⟩ w
  else .returned (w.call t sub)

def notifyImpl (t : τ) (asyncAllowed : Bool) :
    List Subscription → LoopWorld τ → Outcome (LoopWorld τ)
  | [], w => .returned w
  | sub :: subs, w => (w.notifyItem t asyncAllowed sub).bind (notifyImpl t asyncAllowed subs)

/-- `start` of a loop that is not running. -/
def launch (w : LoopWorld τ) (created : τ) : LoopWorld τ :=
  { w with
    loop := { w.loop.post .started with isRunning := true, thread := some created }
    alive := Function.update w.alive created true }

def step (w : LoopWorld τ) (a : LoopAction τ) : Option (LoopWorld τ) :=
  if w.terminated then none
  else
    match a with
    | .begin t =>
      if w.alive t then none else some { w with alive := Function.update w.alive t true }
    | .finish t =>
      if w.alive t ∧ w.own ≠ some t then
        some { w with alive := Function.update w.alive t false }
      else none
    | .start t created =>
      if ¬ w.alive t then none
      else if w.loop.isRunning then some w
      -- the ids of two threads that run differ
      else if w.alive created then none
      -- the destructor of a thread that has not been joined
      else if w.loop.thread.isSome then some { w with terminated := true }
      else some (w.launch created)
    | .stop t =>
      if ¬ w.alive t then none
      else if ¬ w.loop.isRunning then some w
      else
        -- `_thread->join()`, and then `reset()` on the thread that stops the loop
        match w.loop.thread with
        | none => some { w with loop := .reset t }
        | some own =>
          -- a thread that joins itself gets an exception, and `reset` is not reached
          if own = t then some { w with loop := { w.loop with isRunning := false } }
          else some { w with loop := .reset t, alive := Function.update w.alive own false }
    | .notify t observers asyncAllowed =>
      if w.alive t then some (notifyImpl t asyncAllowed observers w).state else none
    | .notifyObservers t observers =>
      if w.alive t then some (notifyImpl t true (observers.filterMap id) w).state else none
    | .runHandler =>
      match w.own, w.loop.service with
      | some t, handler :: rest =>
        let w := { w with loop := { w.loop with service := rest } }
        match handler with
        | .started => some { w with loop := { w.loop with isRun := true } }
        | .call sub => some (w.call t sub)
      | _, _ => none

/-- While the loop runs, the thread that it takes for its own is the one that runs its
handlers. -/
def Identified (w : LoopWorld τ) : Prop :=
  w.loop.isRunning → ∀ t, w.alive t → (w.loop.isThisLoop t ↔ w.own = some t)

/-- The sinks that were subscribed with the loop were called on its thread, if it was running. -/
def Dispatched (w : LoopWorld τ) : Prop :=
  ∀ e ∈ w.executed, e.subscription.onLoop → ∀ own, e.own = some own → e.thread = own

/-- A thread that is created for the loop has the id that the loop has stored. -/
def ReusesId (w : LoopWorld τ) : LoopAction τ → Prop
  | .start t created =>
    w.terminated = false → w.alive t → w.loop.isRunning = false → w.alive created = false →
      w.loop.thread = none → created = w.loop.id
  | _ => True

structure Sound (w : LoopWorld τ) : Prop where
  named : w.loop.isRunning → w.loop.thread = some w.loop.id
  dispatched : w.Dispatched

theorem identified_of_sound {w : LoopWorld τ} (sound : w.Sound) : w.Identified := by
  intro running t _
  rw [own, if_pos running, sound.named running, EventLoop.isThisLoop, beq_iff_eq,
    Option.some.injEq]

omit [DecidableEq τ] in
theorem dispatched_call {w : LoopWorld τ} (dispatched : w.Dispatched) {t : τ} {sub : Subscription}
    (right : sub.onLoop → ∀ own, w.own = some own → t = own) : (w.call t sub).Dispatched := by
  intro e member onLoop own running
  rcases List.mem_append.mp member with before | now
  · exact dispatched e before onLoop own running
  · rw [List.mem_singleton.mp now] at onLoop running ⊢
    exact right onLoop own running

/-- A sink that is called in place on a loop that names its thread is called there. -/
theorem sound_notifyImpl (t : τ) (asyncAllowed : Bool) (observers : List Subscription)
    {w : LoopWorld τ} (sound : w.Sound) : (notifyImpl t asyncAllowed observers w).state.Sound := by
  induction observers generalizing w with
  | nil => exact sound
  | cons sub subs ih =>
    rw [notifyImpl, notifyItem]
    split
    · split
      · exact ih ⟨sound.named, sound.dispatched⟩
      -- the assertion has thrown, and the sinks behind are not notified
      · exact sound
    next direct =>
      apply ih
      refine ⟨sound.named, dispatched_call sound.dispatched ?_⟩
      -- a sink with the loop is called in place only where the loop is taken for this thread
      intro onLoop own running
      rw [onLoop, Bool.true_and, Bool.not_eq_true', Bool.not_eq_false, EventLoop.isThisLoop,
        beq_iff_eq] at direct
      unfold LoopWorld.own at running
      split at running
      next runs =>
        rw [sound.named runs] at running
        exact direct.symm.trans (Option.some.inj running)
      · cases running

omit [DecidableEq τ] in
/-- Nothing is said about the identity of a loop that does not run. -/
theorem sound_of_idle {w w' : LoopWorld τ} (sound : w.Sound) (idle : w'.loop.isRunning = false)
    (same : w'.executed = w.executed) : w'.Sound := by
  constructor
  · intro running
    rw [idle] at running
    cases running
  · rw [Dispatched, same]
    exact sound.dispatched

theorem sound_start {w w' : LoopWorld τ} (sound : w.Sound) {t created : τ}
    (reuses : w.ReusesId (.start t created)) (lives : w.terminated = false)
    (stepped : w.step (.start t created) = some w') : w'.Sound := by
  simp only [step, lives, Bool.false_eq_true, if_false, Option.ite_none_left_eq_some] at stepped
  obtain ⟨calls, stepped⟩ := stepped
  split at stepped
  · cases stepped
    exact sound
  next idle =>
    simp only [Option.ite_none_left_eq_some] at stepped
    obtain ⟨fresh, stepped⟩ := stepped
    split at stepped
    · cases stepped
      exact ⟨sound.named, sound.dispatched⟩
    next unjoined =>
      -- the loop gets its thread here, and keeps the id it has
      cases stepped
      have same : created = w.loop.id :=
        reuses lives (not_not.mp calls) (Bool.eq_false_iff.mpr idle)
          (Bool.eq_false_iff.mpr fresh) (Option.not_isSome_iff_eq_none.mp unjoined)
      exact ⟨fun _ => congrArg some same, sound.dispatched⟩

theorem sound_stop {w w' : LoopWorld τ} (sound : w.Sound) {t : τ} (lives : w.terminated = false)
    (stepped : w.step (.stop t) = some w') : w'.Sound := by
  simp only [step, lives, Bool.false_eq_true, if_false, Option.ite_none_left_eq_some] at stepped
  obtain ⟨-, stepped⟩ := stepped
  split at stepped
  · cases stepped
    exact sound
  · split at stepped
    · cases stepped
      exact sound_of_idle sound rfl rfl
    · split at stepped <;> cases stepped
      · exact sound_of_idle sound rfl rfl
      · exact sound_of_idle sound rfl rfl

theorem sound_runHandler {w w' : LoopWorld τ} (sound : w.Sound) (lives : w.terminated = false)
    (stepped : w.step .runHandler = some w') : w'.Sound := by
  simp only [step, lives, Bool.false_eq_true, if_false] at stepped
  split at stepped
  next t handler rest runs _ =>
    cases handler with
    | started =>
      cases stepped
      exact ⟨sound.named, sound.dispatched⟩
    | call sub =>
      -- what was posted is called by the loop's thread whatever the loop's id is
      cases stepped
      refine ⟨sound.named, dispatched_call sound.dispatched ?_⟩
      intro _ own running
      exact Option.some.inj (runs.symm.trans running)
  · cases stepped

theorem sound_step (w : LoopWorld τ) (a : LoopAction τ) (w' : LoopWorld τ) (sound : w.Sound)
    (reuses : w.ReusesId a) (stepped : w.step a = some w') : w'.Sound := by
  have lives : w.terminated = false := by
    by_contra terminated
    simp [step, terminated] at stepped
  cases a with
  | start t created => exact sound_start sound reuses lives stepped
  | stop t => exact sound_stop sound lives stepped
  | runHandler => exact sound_runHandler sound lives stepped
  | begin t =>
    simp only [step, lives, Bool.false_eq_true, if_false, Option.ite_none_left_eq_some,
      Option.some.injEq] at stepped
    obtain ⟨-, rfl⟩ := stepped
    exact ⟨sound.named, sound.dispatched⟩
  | finish t =>
    simp only [step, lives, Bool.false_eq_true, if_false, Option.ite_none_right_eq_some,
      Option.some.injEq] at stepped
    obtain ⟨-, rfl⟩ := stepped
    exact ⟨sound.named, sound.dispatched⟩
  | notify t observers asyncAllowed =>
    simp only [step, lives, Bool.false_eq_true, if_false, Option.ite_none_right_eq_some,
      Option.some.injEq] at stepped
    obtain ⟨-, rfl⟩ := stepped
    exact sound_notifyImpl t asyncAllowed observers sound
  | notifyObservers t observers =>
    simp only [step, lives, Bool.false_eq_true, if_false, Option.ite_none_right_eq_some,
      Option.some.injEq] at stepped
    obtain ⟨-, rfl⟩ := stepped
    exact sound_notifyImpl t true _ sound

theorem sound_create (creator : τ) (others : τ → Bool) : (create creator others).Sound := by
  constructor
  · intro running
    cases running
  · intro e member
    cases member

/-- A loop whose thread has another id does not know it. -/
theorem not_identified_of_start {w : LoopWorld τ} {a : LoopAction τ} (differs : ¬ w.ReusesId a) :
    ∃ w', w.step a = some w' ∧ ¬ w'.Identified := by
  cases a with
  | start t created =>
    simp only [ReusesId, Classical.not_imp] at differs
    obtain ⟨lives, calls, idle, fresh, unjoined, other⟩ := differs
    refine ⟨w.launch created, by simp [step, lives, calls, idle, fresh, unjoined],
      fun identified => ?_⟩
    have knows := (identified rfl created (Function.update_self _ _ _)).mpr rfl
    rw [EventLoop.isThisLoop, beq_iff_eq] at knows
    exact other knows.symm
  | _ => exact absurd trivial differs

/-- In every life of a loop its identity and the dispatch of sinks are right exactly as long as
every thread that is created for it reuses the id that the loop has stored. -/
theorem identified_iff (creator : τ) (others : τ → Bool) (acts : List (LoopAction τ)) :
    (∀ w, Visits step (create creator others) acts w → w.Identified ∧ w.Dispatched) ↔
      Meets step ReusesId (create creator others) acts := by
  refine always_iff sound_step (fun w sound => ⟨identified_of_sound sound, sound.dispatched⟩)
    ?_ acts (sound_create creator others)
  intro w a _ differs
  obtain ⟨w', stepped, lost⟩ := not_identified_of_start differs
  exact ⟨w', stepped, fun both => lost both.1⟩

/-- Thread 0 makes and starts a loop, which then runs in thread 1: thread 0 is taken for the
loop's, thread 1 is not, and a sink that was subscribed with the loop is called on thread 0. -/
theorem creator_is_taken_for_the_loop :
    ∃ w : LoopWorld Nat,
      run step (create 0 fun _ => false) [.start 0 1, .notify 0 [⟨7, true⟩] true] = some w ∧
      w.loop.isRunning = true ∧ w.own = some 1 ∧
      w.loop.isThisLoop 0 = true ∧ w.loop.isThisLoop 1 = false ∧
      w.executed = [⟨⟨7, true⟩, 0, some 1⟩] ∧ ¬ w.Identified ∧ ¬ w.Dispatched := by
  refine ⟨_, rfl, rfl, rfl, rfl, rfl, rfl, fun identified => ?_, fun dispatched => ?_⟩
  · have zero := (identified rfl 0 rfl).mp rfl
    revert zero
    decide
  · have zero := dispatched ⟨⟨7, true⟩, 0, some 1⟩ (List.mem_singleton_self _) rfl 1 rfl
    revert zero
    decide

end LoopWorld

end ServerLib
