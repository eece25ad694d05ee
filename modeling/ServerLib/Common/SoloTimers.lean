import ServerLib.Common.Timers

/-!
# `solo_timer_t`

A solo timer wraps a timer and the loop that executes its closures. `start` does not start the
timer: it registers an observer that will, and starts the loop. The loop notifies its observers
once, when it begins; so what is registered later is called in no life of the loop. `stop` stops
the loop, which discards the closures and the observers.

`armed` is the callback of the closure that is live. What is to be armed is that of the last start
if no stop follows it and, with a timer for a single shot, it has not been called back. A timer on
a loop that runs all the time meets this; a solo timer does as long as it is not started between
the beginning of its loop and a stop.

The callbacks are values of the calls; that `start` moves them out of what its caller has is left
out.
-/
namespace ServerLib

open Transition

/-- What is left to call back when a live closure has done so. -/
def TimerKind.spend {κ : Type} [DecidableEq κ] (kind : TimerKind) (due : Option κ) (callback : κ) :
    Option κ :=
  match kind with
  | .singleShot => if due = some callback then none else due
  | .periodical => due

theorem TimerKind.mem_of_mem_spend {κ : Type} [DecidableEq κ] {kind : TimerKind} {due : Option κ}
    {callback n : κ} (left : n ∈ kind.spend due callback) : n ∈ due := by
  cases kind with
  | singleShot =>
    simp only [TimerKind.spend] at left
    split at left
    next => cases left
    next => exact left
  | periodical => exact left

namespace TimerWorld

variable {κ : Type}

/-- The callback of the closure with a number. -/
def callbackOf (timerId : Nat) (service : List (TimerClosure κ)) : Option κ :=
  (service.find? fun c => timerId == c.timerId).map TimerClosure.callback

/-- The callback of the live closure. -/
def armed (w : TimerWorld κ) : Option κ := callbackOf w.currentTimerId w.service

theorem callbackOf_eq_none {timerId : Nat} {service : List (TimerClosure κ)}
    (other : ∀ c ∈ service, c.timerId ≠ timerId) : callbackOf timerId service = none := by
  rw [callbackOf, Option.map_eq_none_iff]
  apply List.find?_eq_none.mpr
  intro c member same
  exact other c member (beq_iff_eq.mp same).symm

theorem callbackOf_append (timerId : Nat) (front back : List (TimerClosure κ)) :
    callbackOf timerId (front ++ back) =
      (callbackOf timerId front).or (callbackOf timerId back) := by
  unfold callbackOf
  rw [List.find?_append, Option.map_or]

theorem callbackOf_cons_self (c : TimerClosure κ) (back : List (TimerClosure κ)) :
    callbackOf c.timerId (c :: back) = some c.callback := by
  unfold callbackOf
  rw [List.find?_cons_of_pos]
  · exact Option.map_some ..
  · exact beq_self_eq_true _

theorem callbackOf_cons_ne {timerId : Nat} {c : TimerClosure κ} (other : c.timerId ≠ timerId)
    (back : List (TimerClosure κ)) : callbackOf timerId (c :: back) = callbackOf timerId back := by
  unfold callbackOf
  rw [List.find?_cons_of_neg]
  intro same
  exact other (beq_iff_eq.mp same).symm

variable {w : TimerWorld κ}

/-- No closure has a number that has not been given. -/
theorem Kept.callbackOf_next (kept : w.Kept) :
    callbackOf (w.currentTimerId + 1) w.service = none := by
  apply callbackOf_eq_none
  intro c member same
  have below := kept.timerId_le member
  omega

theorem Kept.armed_renew (kept : w.Kept) (event : TimerEvent) : (w.renew event).armed = none :=
  kept.callbackOf_next

theorem Kept.armed_start (kept : w.Kept) {duration : Int} (long : 0 < duration) (callback : κ) :
    (w.start duration callback).state.armed = some callback := by
  simp only [TimerWorld.start, checkDuration, if_pos long, Outcome.state, armed]
  rw [callbackOf_append]
  simp only [TimerWorld.renew]
  rw [kept.callbackOf_next, Option.none_or]
  exact callbackOf_cons_self ⟨w.currentTimerId + 1, duration, callback, w.history.length⟩ []

theorem start_destroyed (w : TimerWorld κ) (duration : Int) (callback : κ) :
    (w.start duration callback).state.destroyed = w.destroyed := by
  unfold TimerWorld.start
  split <;> rfl

theorem execute_destroyed (w : TimerWorld κ) (c : TimerClosure κ) :
    (w.execute c).destroyed = w.destroyed := by
  unfold TimerWorld.execute
  split
  next live =>
    simp only
    split
    next => rfl
    next =>
      by_cases long : 0 < c.duration
      · simp only [TimerWorld.start, checkDuration, if_pos long]
        rfl
      · simp only [TimerWorld.start, checkDuration, if_neg long]
        rfl
  next dead => rfl

/-- A start with a duration that is refused calls off what was there. -/
theorem Kept.armed_start_refused (kept : w.Kept) {duration : Int} (short : ¬ 0 < duration)
    (callback : κ) : (w.start duration callback).state.armed = none := by
  simp only [TimerWorld.start, checkDuration, if_neg short, Outcome.state]
  exact kept.armed_renew .refused

theorem Kept.armed_destroyed (kept : w.Kept) (destroyed : w.destroyed) : w.armed = none := by
  apply callbackOf_eq_none
  intro c member number
  have live : w.live c := beq_iff_eq.mpr number.symm
  rw [kept.not_destroyed member live] at destroyed
  cases destroyed

/-- The closures around one of them, none of which has its number. -/
theorem Kept.around (kept : w.Kept) {i : Nat} {c : TimerClosure κ}
    (here : w.service[i]? = some c) :
    ∃ front back, w.service = front ++ c :: back ∧ w.service.eraseIdx i = front ++ back ∧
      callbackOf c.timerId front = none ∧ callbackOf c.timerId back = none := by
  obtain ⟨inside, rfl⟩ := List.getElem?_eq_some_iff.mp here
  have parts : w.service = w.service.take i ++ w.service[i] :: w.service.drop (i + 1) := by
    rw [← List.drop_eq_getElem_cons inside, List.take_append_drop]
  have increasing := kept.increasing
  rw [parts] at increasing
  obtain ⟨-, later, earlier⟩ := List.pairwise_append.mp increasing
  refine ⟨_, _, parts, List.eraseIdx_eq_take_drop_succ .., ?_, ?_⟩
  · apply callbackOf_eq_none
    intro d member
    exact Nat.ne_of_lt (earlier d member _ List.mem_cons_self)
  · apply callbackOf_eq_none
    intro d member
    exact Nat.ne_of_gt ((List.pairwise_cons.mp later).1 d member)

theorem Kept.execute (kept : w.Kept) {i : Nat} {c : TimerClosure κ}
    (here : w.service[i]? = some c) :
    ({ w with service := w.service.eraseIdx i }.execute c).Kept := by
  have same : { w with service := w.service.eraseIdx i }.live c = w.live c := rfl
  cases live : w.live c with
  | true =>
    have invoked := kept.invoked here live
    have alive := kept.not_destroyed (List.mem_of_getElem? here) live
    simp only [TimerWorld.execute, same, live, if_true]
    split
    next single =>
      have taken := kept.drop i rfl fun _ (_ : TimerEvent.invoke c.posted = _) =>
        kept.latest_of_live (List.mem_of_getElem? here) live
      exact ⟨taken.counted, taken.posted, taken.increasing, taken.gone, taken.past, taken.defined⟩
    next periodical =>
      have started := (invoked.start alive c.duration c.callback).toKept
      split
      next thrown =>
        rw [thrown] at started
        exact started
      next returned =>
        rw [returned] at started
        exact ⟨started.counted, started.posted, started.increasing, started.gone, started.past,
          started.defined⟩
  | false =>
    simp only [TimerWorld.execute, same, live, Bool.false_eq_true, if_false]
    exact kept.drop i rfl fun _ invoked => by cases invoked

/-- What is armed when a closure has been executed. -/
theorem Kept.armed_execute [DecidableEq κ] (kept : w.Kept) {i : Nat} {c : TimerClosure κ}
    (here : w.service[i]? = some c) :
    ({ w with service := w.service.eraseIdx i }.execute c).armed =
      if w.live c then w.kind.spend w.armed c.callback else w.armed := by
  obtain ⟨front, back, whole, rest, ahead, behind⟩ := kept.around here
  have same : { w with service := w.service.eraseIdx i }.live c = w.live c := rfl
  cases live : w.live c with
  | true =>
    have number : w.currentTimerId = c.timerId := beq_iff_eq.mp live
    have armed_here : w.armed = some c.callback := by
      rw [armed, number, whole, callbackOf_append, ahead, Option.none_or, callbackOf_cons_self]
    have invoked := kept.invoked here live
    -- the duration was checked when the closure was posted
    have long := (kept.posted c (List.mem_of_getElem? here)).2.2
    rw [armed_here]
    simp only [TimerWorld.execute, same, live, if_true]
    cases kind : w.kind with
    | singleShot =>
      simp only [TimerKind.spend, if_true, armed]
      rw [number, rest, callbackOf_append, ahead, behind]
      exact Option.none_or
    | periodical =>
      rw [kind] at invoked
      have again := invoked.armed_start long c.callback
      simp only [TimerKind.spend, TimerWorld.start, checkDuration, if_pos long] at again ⊢
      exact again
  | false =>
    have other : c.timerId ≠ w.currentTimerId := by
      intro number
      rw [TimerWorld.live, number, beq_self_eq_true] at live
      cases live
    simp only [TimerWorld.execute, same, live, Bool.false_eq_true, if_false, armed]
    rw [rest, whole, callbackOf_append, callbackOf_append, callbackOf_cons_ne other]

/-- What is to be armed behind an action. -/
def dueBehind [DecidableEq κ] (w : TimerWorld κ) (due : Option κ) : TimerAction κ → Option κ
  | .start _ callback => some callback
  | .stop | .destroy => none
  | .execute i =>
    match w.service[i]? with
    | some c => if w.live c then w.kind.spend due c.callback else due
    | none => due
  | .finish => due

/-- A start is made with a duration that is not refused. -/
def Accepted (_ : TimerWorld κ) : TimerAction κ → Prop
  | .start duration _ => 0 < duration
  | _ => True

instance (w : TimerWorld κ) : DecidablePred w.Accepted
  | .start duration _ => inferInstanceAs (Decidable (0 < duration))
  | .stop | .destroy | .execute _ | .finish => .isTrue trivial

end TimerWorld

/-- A timer on a loop that runs all the time. -/
structure PlainTimer (κ : Type) where
  timer : TimerWorld κ
  /-- the callback of the last start, if no stop follows it and it is not spent -/
  due : Option κ := none

namespace PlainTimer

variable {κ : Type} [DecidableEq κ]

def create (kind : TimerKind) : PlainTimer κ := { timer := TimerWorld.create kind }

def step (w : PlainTimer κ) (a : TimerAction κ) : Option (PlainTimer κ) :=
  (w.timer.step a).map fun timer => { timer, due := w.timer.dueBehind w.due a }

/-- Nothing else is armed than what is due. -/
structure Sound (w : PlainTimer κ) : Prop where
  kept : w.timer.Kept
  armed : w.timer.armed = w.due

omit [DecidableEq κ] in
theorem sound_create (kind : TimerKind) : (create kind : PlainTimer κ).Sound :=
  ⟨(TimerWorld.sound_create kind).toKept, rfl⟩

theorem sound_step (w : PlainTimer κ) (a : TimerAction κ) (w' : PlainTimer κ) (sound : w.Sound)
    (accepted : w.timer.Accepted a) (stepped : w.step a = some w') : w'.Sound := by
  obtain ⟨timer, moved, rfl⟩ := Option.map_eq_some_iff.mp stepped
  have kept := sound.kept
  cases a with
  | start duration callback =>
    simp only [TimerWorld.step, Option.ite_none_left_eq_some, Option.some.injEq] at moved
    obtain ⟨alive, rfl⟩ := moved
    exact ⟨(kept.start (Bool.eq_false_iff.mpr alive) duration callback).toKept,
      kept.armed_start accepted callback⟩
  | stop =>
    simp only [TimerWorld.step, Option.ite_none_left_eq_some, Option.some.injEq] at moved
    obtain ⟨alive, rfl⟩ := moved
    have stopped : w.timer.stop.Sound := kept.renew rfl (by decide) (Bool.eq_false_iff.mpr alive)
    exact ⟨stopped.toKept, kept.armed_renew .stop⟩
  | destroy =>
    simp only [TimerWorld.step, Option.ite_none_left_eq_some, Option.some.injEq] at moved
    obtain ⟨alive, rfl⟩ := moved
    have destroyed := (kept.destroy (Bool.eq_false_iff.mpr alive)).toKept
    exact ⟨destroyed, destroyed.armed_destroyed rfl⟩
  | execute i =>
    simp only [TimerWorld.step, Option.ite_none_left_eq_some, Option.map_eq_some_iff] at moved
    obtain ⟨free, c, here, rfl⟩ := moved
    refine ⟨kept.execute here, ?_⟩
    rw [kept.armed_execute here, TimerWorld.dueBehind, here, sound.armed]
  | finish =>
    simp only [TimerWorld.step, Option.ite_none_right_eq_some, Option.some.injEq] at moved
    obtain ⟨-, rfl⟩ := moved
    exact ⟨⟨kept.counted, kept.posted, kept.increasing, kept.gone, kept.past, kept.defined⟩,
      sound.armed⟩

end PlainTimer

/-- A registered observer: the duration and the callback it starts the timer with. Callbacks are
numbered in the order of the starts. -/
structure SoloObserver where
  duration : Int
  callback : Nat
  deriving DecidableEq, Repr

/-- A solo timer and its dedicated loop. -/
structure SoloTimer where
  /-- the timer that is wrapped, and what the service of the loop holds of it -/
  timer : TimerWorld Nat
  isRunning : Bool := false
  startObservers : List SoloObserver := []
  /-- the service holds the handler that notifies the observers -/
  launching : Bool := false
  /-- that handler is executed: the observers that it has still to call -/
  notifying : List SoloObserver := []
  /-- `stop` waits for the loop's thread -/
  joining : Bool := false
  /-- an exception has come out of the loop's thread -/
  terminated : Bool := false
  starts : Nat := 0
  /-- the callback of the last start, if no stop follows it and it is not spent -/
  due : Option Nat := none
  deriving DecidableEq, Repr

inductive SoloAction where
  | start (duration : Int)
  /-- `stop`, up to where it joins the loop's thread -/
  | stop
  /-- The loop's thread has ended, and `stop` resets the loop. -/
  | join
  /-- The loop executes the handler of its start, which copies the observers. -/
  | launch
  /-- The handler calls the next of the observers. -/
  | notify
  /-- The loop executes one of the timer's closures. -/
  | execute (i : Nat)
  /-- The callback returns. -/
  | finish
  deriving DecidableEq, Repr

/-- What is done without a call from outside. -/
def SoloAction.ofLoop : SoloAction → Bool
  | .start _ | .stop => false
  | _ => true

namespace SoloTimer

def create (kind : TimerKind) : SoloTimer := { timer := TimerWorld.create kind }

/-- `on_start`, and the loop's `start`, which returns at once if the loop is running. -/
def start (w : SoloTimer) (duration : Int) : SoloTimer :=
  let w := { w with
    startObservers := w.startObservers ++ [⟨duration, w.starts⟩]
    starts := w.starts + 1
    due := some w.starts }
  if w.isRunning then w else { w with isRunning := true, launching := true }

/-- `reset` -/
def reset (w : SoloTimer) : SoloTimer :=
  { w with
    timer := { w.timer with service := [] }
    isRunning := false
    startObservers := []
    launching := false
    joining := false }

/-- The loop's thread is in no handler. -/
def free (w : SoloTimer) : Bool := w.notifying.isEmpty && w.timer.running.isNone

/-- An observer starts the timer. What it throws ends the process. -/
def notify (w : SoloTimer) (observer : SoloObserver) (rest : List SoloObserver) : SoloTimer :=
  match w.timer.start observer.duration observer.callback with
  | .returned timer => { w with timer, notifying := rest }
  | .thrown _ timer => { w with timer, notifying := [], terminated := true }

def perform (w : SoloTimer) : SoloAction → Option SoloTimer
  -- the thread that calls `stop` and `start` is in `stop`
  | .start duration => if w.joining then none else some (w.start duration)
  | .stop =>
    if w.joining then none
    else if w.isRunning then some { w with isRunning := false, joining := true, due := none }
    else some { w with due := none }
  | .join => if w.joining ∧ w.free then some w.reset else none
  -- the service does not execute another handler when it has been stopped
  | .launch =>
    if w.isRunning ∧ w.free ∧ w.launching then
      some { w with notifying := w.startObservers, launching := false }
    else none
  | .notify =>
    match w.notifying with
    | [] => none
    | observer :: rest => some (w.notify observer rest)
  | .execute i =>
    if w.isRunning ∧ w.free then
      w.timer.service[i]?.map fun c =>
        { w with
          timer := { w.timer with service := w.timer.service.eraseIdx i }.execute c
          due := if w.timer.live c then w.timer.kind.spend w.due c.callback else w.due }
    else none
  | .finish =>
    if w.timer.running.isSome then some { w with timer := { w.timer with running := none } }
    else none

def step (w : SoloTimer) (a : SoloAction) : Option SoloTimer :=
  if w.terminated then none else w.perform a

/-- The loop has processed its queue. -/
def Settled (w : SoloTimer) : Prop :=
  w.joining = false ∧ w.launching = false ∧ w.notifying = []

/-- Whatever the loop does by itself, what is armed when it has processed its queue is due. -/
def ArmsDue (w : SoloTimer) : Prop :=
  ∀ acts : List SoloAction, (∀ a ∈ acts, a.ofLoop) → ∀ w', run step w acts = some w' →
    w'.Settled → w'.timer.armed = w'.due

/-- A start is made with a duration that is not refused, when the loop is stopped or has not
copied its observers yet. -/
def StartsInTime (w : SoloTimer) : SoloAction → Prop
  | .start duration => w.joining = false → 0 < duration ∧ (w.isRunning → w.launching)
  | _ => True

instance (w : SoloTimer) : DecidablePred w.StartsInTime
  | .start duration =>
    inferInstanceAs (Decidable (w.joining = false → 0 < duration ∧ (w.isRunning → w.launching)))
  | .stop | .join | .launch | .notify | .execute _ | .finish => .isTrue trivial

/-! ### What the loop arms when it is left alone -/

/-- What is armed when observers have been called. -/
def armedBehind : Option Nat → List SoloObserver → Option Nat
  | armed, [] => armed
  | _, observer :: rest =>
    if 0 < observer.duration then armedBehind (some observer.callback) rest else none

/-- The observers that are still to be called. -/
def pending (w : SoloTimer) : List SoloObserver :=
  w.notifying ++ if w.launching then w.startObservers else []

def willArm (w : SoloTimer) : Option Nat := armedBehind w.timer.armed w.pending

theorem armedBehind_concat {observers : List SoloObserver} {observer : SoloObserver}
    (accepted : ∀ o ∈ observers, 0 < o.duration) (long : 0 < observer.duration)
    (armed : Option Nat) :
    armedBehind armed (observers ++ [observer]) = some observer.callback := by
  induction observers generalizing armed with
  | nil =>
    rw [List.nil_append, armedBehind, if_pos long]
    rfl
  | cons first rest ih =>
    rw [List.cons_append, armedBehind, if_pos (accepted first List.mem_cons_self)]
    exact ih (fun o member => accepted o (List.mem_cons_of_mem first member)) _

/-- An observer whose duration is refused ends the process, if no one has done so before. -/
theorem armedBehind_concat_short (observers : List SoloObserver) {observer : SoloObserver}
    (short : ¬ 0 < observer.duration) (armed : Option Nat) :
    armedBehind armed (observers ++ [observer]) = none := by
  induction observers generalizing armed with
  | nil => rw [List.nil_append, armedBehind, if_neg short]
  | cons first rest ih =>
    rw [List.cons_append, armedBehind]
    split
    next => exact ih _
    next => rfl

variable {w w' : SoloTimer}

theorem notify_long {observer : SoloObserver} (long : 0 < observer.duration)
    (rest : List SoloObserver) :
    w.notify observer rest =
      { w with
        timer := (w.timer.start observer.duration observer.callback).state
        notifying := rest } := by
  simp only [notify, TimerWorld.start, checkDuration, if_pos long, Outcome.state]

theorem notify_short {observer : SoloObserver} (short : ¬ 0 < observer.duration)
    (rest : List SoloObserver) :
    w.notify observer rest =
      { w with
        timer := (w.timer.start observer.duration observer.callback).state
        notifying := []
        terminated := true } := by
  simp only [notify, TimerWorld.start, checkDuration, if_neg short, Outcome.state]

/-- What the copied observers leave is what was expected of them. -/
theorem settle_notifying (notifying : List SoloObserver) (w : SoloTimer) (kept : w.timer.Kept)
    (alive : w.timer.destroyed = false) (working : w.terminated = false)
    (calm : w.joining = false) (launched : w.launching = false) :
    ∃ acts : List SoloAction, (∀ a ∈ acts, a.ofLoop) ∧
      ∃ w', run step { w with notifying } acts = some w' ∧ w'.Settled ∧ w'.due = w.due ∧
        w'.timer.armed = armedBehind w.timer.armed notifying := by
  induction notifying generalizing w with
  | nil => exact ⟨[], nofun, { w with notifying := [] }, rfl, ⟨calm, launched, rfl⟩, rfl, rfl⟩
  | cons observer rest ih =>
    have stepped : step { w with notifying := observer :: rest } .notify =
        some ({ w with notifying := observer :: rest }.notify observer rest) := by
      rw [step, if_neg (Bool.eq_false_iff.mp working)]
      rfl
    have started := (kept.start alive observer.duration observer.callback).toKept
    by_cases long : 0 < observer.duration
    · rw [notify_long long] at stepped
      obtain ⟨acts, own, w', ran, settled, due, armed⟩ := ih
        { w with timer := (w.timer.start observer.duration observer.callback).state } started
        ((TimerWorld.start_destroyed ..).trans alive) working calm launched
      refine ⟨.notify :: acts, ?_, w', ?_, settled, due, ?_⟩
      · exact List.forall_mem_cons.mpr ⟨rfl, own⟩
      · rw [run_cons, stepped]
        exact ran
      · rw [armed, armedBehind, if_pos long, kept.armed_start long]
    · rw [notify_short long] at stepped
      have ran := run_cons step { w with notifying := observer :: rest } .notify []
      rw [stepped] at ran
      refine ⟨[.notify], List.forall_mem_singleton.mpr rfl, _, ran, ⟨calm, launched, rfl⟩, rfl, ?_⟩
      rw [armedBehind, if_neg long]
      exact kept.armed_start_refused long observer.callback

/-- Left alone, the loop arms what is expected. -/
theorem settle (w : SoloTimer) (kept : w.timer.Kept) (alive : w.timer.destroyed = false)
    (working : w.terminated = false) (calm : w.joining = false)
    (ready : w.launching → w.isRunning ∧ w.notifying = [] ∧ w.timer.running = none) :
    ∃ acts : List SoloAction, (∀ a ∈ acts, a.ofLoop) ∧
      ∃ w', run step w acts = some w' ∧ w'.Settled ∧ w'.due = w.due ∧
        w'.timer.armed = w.willArm := by
  cases launching : w.launching with
  | false =>
    have settled := settle_notifying w.notifying w kept alive working calm launching
    have all : w.pending = w.notifying := by simp only [pending, launching]; exact List.append_nil _
    rw [willArm, all]
    exact settled
  | true =>
    obtain ⟨running, copied, unused⟩ := ready launching
    have all : w.pending = w.startObservers := by simp [pending, launching, copied]
    have stepped : w.step .launch =
        some { w with notifying := w.startObservers, launching := false } := by
      simp [step, perform, working, running, free, copied, unused, launching]
    obtain ⟨acts, own, w', ran, settled⟩ := settle_notifying w.startObservers
      { w with launching := false } kept alive working calm rfl
    refine ⟨.launch :: acts, List.forall_mem_cons.mpr ⟨rfl, own⟩, w', ?_, ?_⟩
    · rw [run_cons, stepped]
      exact ran
    · rw [willArm, all]
      exact settled

/-- What holds as long as the starts are in time. -/
structure Sound (w : SoloTimer) : Prop where
  kept : w.timer.Kept
  alive : w.timer.destroyed = false
  working : w.terminated = false
  accepted : ∀ o ∈ w.startObservers ++ w.notifying, 0 < o.duration
  armed : w.joining = false → w.willArm = w.due
  stopped : w.joining → w.isRunning = false ∧ w.due = none
  /-- The handler of the loop's start is executed before anything else. -/
  first : w.launching → w.notifying = [] ∧ w.timer.service = [] ∧ w.timer.running = none
  idle : w.isRunning = false → w.joining = false →
    w.launching = false ∧ w.notifying = [] ∧ w.timer.service = [] ∧ w.timer.running = none
  counted : ∀ n ∈ w.due, n < w.starts

theorem sound_create (kind : TimerKind) : (create kind).Sound where
  kept := (TimerWorld.sound_create kind).toKept
  alive := rfl
  working := rfl
  accepted := nofun
  armed _ := rfl
  stopped := nofun
  first := nofun
  idle _ _ := ⟨rfl, rfl, rfl, rfl⟩
  counted := nofun

theorem start_fields (w : SoloTimer) (duration : Int) :
    (w.start duration).timer = w.timer ∧ (w.start duration).terminated = w.terminated ∧
      (w.start duration).joining = w.joining ∧ (w.start duration).notifying = w.notifying ∧
      (w.start duration).due = some w.starts := by
  unfold start
  cases w.isRunning <;> simp

/-- A start in time is one of those that the loop will make when it begins. -/
theorem start_eq {duration : Int} (inTime : w.isRunning → w.launching) :
    w.start duration = { w with
      startObservers := w.startObservers ++ [⟨duration, w.starts⟩]
      starts := w.starts + 1
      due := some w.starts
      isRunning := true
      launching := true } := by
  unfold start
  cases running : w.isRunning with
  | true =>
    rw [inTime running]
    rfl
  | false => rfl

theorem Sound.ready (sound : w.Sound) (calm : w.joining = false)
    (inTime : w.isRunning → w.launching) :
    w.notifying = [] ∧ w.timer.service = [] ∧ w.timer.running = none := by
  cases running : w.isRunning with
  | true => exact sound.first (inTime running)
  | false => exact (sound.idle running calm).2

theorem Sound.start (sound : w.Sound) (calm : w.joining = false) {duration : Int}
    (long : 0 < duration) (inTime : w.isRunning → w.launching) : (w.start duration).Sound := by
  -- nothing has been copied or posted yet, so the new observer will be called last
  have ready := sound.ready calm inTime
  have accepted : ∀ o ∈ w.startObservers, 0 < o.duration :=
    fun o member => sound.accepted o (List.mem_append_left _ member)
  rw [start_eq inTime]
  exact {
    kept := sound.kept
    alive := sound.alive
    working := sound.working
    accepted := by
      intro o member
      rw [ready.1, List.append_nil] at member
      rcases List.mem_append.mp member with before | new
      · exact accepted o before
      · rw [List.mem_singleton.mp new]
        exact long
    armed := by
      intro _
      simp only [willArm, pending, ready.1, List.nil_append, if_true]
      exact armedBehind_concat accepted long _
    stopped := fun joining => absurd (calm.symm.trans joining) (by decide)
    first := fun _ => ready
    idle := nofun
    counted := by
      intro n this
      rw [← Option.some.inj this]
      exact Nat.lt_succ_self _ }

theorem Sound.stop (sound : w.Sound) :
    { w with isRunning := false, joining := true, due := none }.Sound :=
  { sound with
    armed := nofun
    stopped := fun _ => ⟨rfl, rfl⟩
    idle := nofun
    counted := nofun }

/-- A loop that is not running is not stopped again. -/
theorem Sound.stop_idle (sound : w.Sound) (calm : w.joining = false) (idle : w.isRunning = false) :
    { w with due := none }.Sound := by
  obtain ⟨launching, notifying, service, running⟩ := sound.idle idle calm
  exact { sound with
    armed := by
      intro _
      simp only [willArm, pending, launching, notifying, TimerWorld.armed, service]
      rfl
    stopped := fun joining => absurd (calm.symm.trans joining) (by decide)
    counted := nofun }

theorem Sound.join (sound : w.Sound) (joining : w.joining) (free : w.free) : w.reset.Sound := by
  simp only [SoloTimer.free, Bool.and_eq_true, List.isEmpty_iff, Option.isNone_iff_eq_none] at free
  obtain ⟨notifying, running⟩ := free
  have kept := sound.kept
  exact {
    kept := ⟨kept.counted, nofun, .nil, kept.gone, kept.past, kept.defined⟩
    alive := sound.alive
    working := sound.working
    accepted := by
      intro o member
      rw [show w.reset.notifying = [] from notifying] at member
      cases member
    armed := by
      intro _
      rw [show w.reset.due = none from (sound.stopped joining).2]
      simp only [willArm, pending, reset, notifying, TimerWorld.armed]
      rfl
    stopped := nofun
    first := nofun
    idle := fun _ _ => ⟨rfl, notifying, rfl, running⟩
    counted := sound.counted }

theorem Sound.launch (sound : w.Sound) (running : w.isRunning) (launching : w.launching) :
    { w with notifying := w.startObservers, launching := false }.Sound := by
  obtain ⟨copied, -, -⟩ := sound.first launching
  exact { sound with
    accepted := by
      intro o member
      exact sound.accepted o (List.mem_append_left _ ((List.mem_append.mp member).elim id id))
    armed := by
      intro calm
      rw [← sound.armed calm]
      simp [willArm, pending, launching, copied]
    first := nofun
    idle := fun idle => absurd (idle.symm.trans running) (by decide) }

theorem Sound.notify (sound : w.Sound) {observer : SoloObserver} {rest : List SoloObserver}
    (notifying : w.notifying = observer :: rest) : (w.notify observer rest).Sound := by
  have kept := sound.kept
  have alive := sound.alive
  have long : 0 < observer.duration :=
    sound.accepted observer (List.mem_append_right _ (notifying ▸ List.mem_cons_self))
  have launching : w.launching = false := by
    rw [Bool.eq_false_iff]
    intro launching
    cases notifying.symm.trans (sound.first launching).1
  rw [notify_long long]
  exact { sound with
    kept := (kept.start alive _ _).toKept
    alive := (TimerWorld.start_destroyed ..).trans alive
    accepted := by
      intro o member
      apply sound.accepted o
      rw [notifying]
      exact (List.mem_append.mp member).elim (List.mem_append_left _)
        fun later => List.mem_append_right _ (List.mem_cons_of_mem observer later)
    armed := by
      intro calm
      rw [← sound.armed calm]
      simp only [willArm, pending, launching, notifying, List.cons_append, armedBehind, if_pos long,
        kept.armed_start long]
    first := fun this => absurd (launching.symm.trans this) (by decide)
    idle := by
      intro idle calm
      cases notifying.symm.trans (sound.idle idle calm).2.1 }

/-- A closure is executed in a loop that has called its observers. -/
theorem Sound.execute (sound : w.Sound) (running : w.isRunning) (free : w.free) {i : Nat}
    {c : TimerClosure Nat} (here : w.timer.service[i]? = some c) :
    { w with
      timer := { w.timer with service := w.timer.service.eraseIdx i }.execute c
      due := if w.timer.live c then w.timer.kind.spend w.due c.callback else w.due }.Sound := by
  simp only [SoloTimer.free, Bool.and_eq_true, List.isEmpty_iff] at free
  have kept := sound.kept
  -- there are closures only when the observers have been called
  have launching : w.launching = false := by
    rw [Bool.eq_false_iff]
    intro launching
    rw [(sound.first launching).2.1] at here
    cases here
  have calm : w.joining = false := by
    rw [Bool.eq_false_iff]
    intro joining
    cases running.symm.trans (sound.stopped joining).1
  have before := sound.armed calm
  simp only [willArm, pending, launching, free.1] at before
  exact { sound with
    kept := kept.execute here
    alive := (TimerWorld.execute_destroyed ..).trans sound.alive
    armed := by
      intro _
      simp only [willArm, pending, launching, free.1]
      show TimerWorld.armed _ = _
      rw [kept.armed_execute here, ← before]
      rfl
    stopped := fun joining => absurd (calm.symm.trans joining) (by decide)
    first := fun this => absurd (launching.symm.trans this) (by decide)
    idle := fun idle => absurd (idle.symm.trans running) (by decide)
    counted := by
      intro n left
      apply sound.counted n
      split at left
      next => exact TimerKind.mem_of_mem_spend left
      next => exact left }

theorem Sound.finish (sound : w.Sound) :
    { w with timer := { w.timer with running := none } }.Sound := by
  have kept := sound.kept
  exact { sound with
    kept := ⟨kept.counted, kept.posted, kept.increasing, kept.gone, kept.past, kept.defined⟩
    first := fun launching => ⟨(sound.first launching).1, (sound.first launching).2.1, rfl⟩
    idle := by
      intro idle calm
      obtain ⟨launching, notifying, service, -⟩ := sound.idle idle calm
      exact ⟨launching, notifying, service, rfl⟩ }

theorem sound_step (w : SoloTimer) (a : SoloAction) (w' : SoloTimer) (sound : w.Sound)
    (ok : w.StartsInTime a) (stepped : w.step a = some w') : w'.Sound := by
  simp only [step, Option.ite_none_left_eq_some] at stepped
  obtain ⟨-, stepped⟩ := stepped
  cases a with
  | start duration =>
    simp only [perform, Option.ite_none_left_eq_some, Option.some.injEq] at stepped
    obtain ⟨calm, rfl⟩ := stepped
    have calm := Bool.eq_false_iff.mpr calm
    exact sound.start calm (ok calm).1 (ok calm).2
  | stop =>
    simp only [perform, Option.ite_none_left_eq_some] at stepped
    obtain ⟨calm, stepped⟩ := stepped
    split at stepped
    next running =>
      cases stepped
      exact sound.stop
    next idle =>
      cases stepped
      exact sound.stop_idle (Bool.eq_false_iff.mpr calm) (Bool.eq_false_iff.mpr idle)
  | join =>
    simp only [perform, Option.ite_none_right_eq_some, Option.some.injEq] at stepped
    obtain ⟨⟨joining, free⟩, rfl⟩ := stepped
    exact sound.join joining free
  | launch =>
    simp only [perform, Option.ite_none_right_eq_some, Option.some.injEq] at stepped
    obtain ⟨⟨running, -, launching⟩, rfl⟩ := stepped
    exact sound.launch running launching
  | notify =>
    simp only [perform] at stepped
    split at stepped
    · cases stepped
    next notifying =>
      cases stepped
      exact sound.notify notifying
  | execute i =>
    simp only [perform, Option.ite_none_right_eq_some, Option.map_eq_some_iff] at stepped
    obtain ⟨⟨running, free⟩, c, here, rfl⟩ := stepped
    exact sound.execute running free here
  | finish =>
    simp only [perform, Option.ite_none_right_eq_some, Option.some.injEq] at stepped
    obtain ⟨-, rfl⟩ := stepped
    exact sound.finish

/-- What the loop does by itself is in time. -/
theorem meets_of_ofLoop {acts : List SoloAction} (own : ∀ a ∈ acts, a.ofLoop) (w : SoloTimer) :
    Meets step StartsInTime w acts := by
  induction acts generalizing w with
  | nil => trivial
  | cons a acts ih =>
    obtain ⟨first, rest⟩ := List.forall_mem_cons.mp own
    refine ⟨?_, fun next _ => ih rest next⟩
    cases a with
    | start => cases first
    | _ => trivial

theorem Sound.armsDue (sound : w.Sound) : w.ArmsDue := by
  intro acts own w' ran ⟨calm, launched, notified⟩
  have after : w'.Sound :=
    visits_invariant sound_step sound (meets_of_ofLoop own w) (visits_of_run ran)
  have armed := after.armed calm
  simp only [willArm, pending, launched, notified] at armed
  exact armed

/-- A start that is late, or has a duration that is refused, is not what will be armed. -/
theorem Sound.willArm_start (sound : w.Sound) (calm : w.joining = false) {duration : Int}
    (bad : ¬ (0 < duration ∧ (w.isRunning → w.launching))) :
    (w.start duration).willArm ≠ some w.starts := by
  by_cases inTime : w.isRunning → w.launching
  · have short : ¬ 0 < duration := fun long => bad ⟨long, inTime⟩
    have expected : (w.start duration).willArm = none := by
      rw [start_eq inTime]
      simp only [willArm, pending, (sound.ready calm inTime).1, if_true, List.nil_append]
      exact armedBehind_concat_short _ short _
    rw [expected]
    nofun
  · -- the observers have been copied, and all that was due came from a start before
    obtain ⟨running, launched⟩ := Classical.not_imp.mp inTime
    have expected : (w.start duration).willArm = w.willArm := by
      simp [SoloTimer.start, willArm, pending, running, launched]
    rw [expected, sound.armed calm]
    intro this
    exact Nat.lt_irrefl _ (sound.counted _ this)

theorem breaks (w : SoloTimer) (a : SoloAction) (sound : w.Sound) (bad : ¬ w.StartsInTime a) :
    ∃ w', w.step a = some w' ∧ ¬ w'.ArmsDue := by
  cases a with
  | start duration =>
    simp only [StartsInTime, Classical.not_imp] at bad
    obtain ⟨calm, bad⟩ := bad
    have unexpected := sound.willArm_start calm bad
    refine ⟨w.start duration, by simp [step, perform, sound.working, calm], fun always => ?_⟩
    -- left alone, the loop does not arm the callback of this start
    obtain ⟨timer, terminated, joining, notifying, due⟩ := start_fields w duration
    have ready : (w.start duration).launching → (w.start duration).isRunning ∧
        (w.start duration).notifying = [] ∧ (w.start duration).timer.running = none := by
      intro launching
      by_cases inTime : w.isRunning → w.launching
      · rw [notifying, timer]
        have ready := sound.ready calm inTime
        exact ⟨by rw [start_eq inTime], ready.1, ready.2.2⟩
      · obtain ⟨running, launched⟩ := Classical.not_imp.mp inTime
        simp [SoloTimer.start, running, launched] at launching
    obtain ⟨acts, own, w', ran, settled, same, armed⟩ := settle (w.start duration)
      (timer ▸ sound.kept) (timer ▸ sound.alive) (terminated.trans sound.working)
      (joining.trans calm) ready
    apply unexpected
    rw [← armed, always acts own w' ran settled, same, due]
  | _ => exact absurd trivial bad

/-- A timer on a loop that runs all the time arms the callback of the last start if no stop
follows it and it is not spent. So does a solo timer, whatever its loop does and when, exactly as
long as each start is made with a duration that is not refused, and while the loop is stopped or
has not copied its observers yet. -/
theorem arms_due_iff (kind : TimerKind) (acts : List SoloAction) :
    (∀ (κ : Type) (_ : DecidableEq κ) (calls : List (TimerAction κ)) (w : PlainTimer κ),
      Meets PlainTimer.step (fun w => w.timer.Accepted) (PlainTimer.create kind) calls →
      Visits PlainTimer.step (PlainTimer.create kind) calls w → w.timer.armed = w.due) ∧
    ((∀ w, Visits step (create kind) acts w → w.ArmsDue) ↔
      Meets step StartsInTime (create kind) acts) := by
  constructor
  · intro κ _ calls w accepted visited
    have sound : w.Sound :=
      visits_invariant PlainTimer.sound_step (PlainTimer.sound_create kind) accepted visited
    exact sound.armed
  · exact always_iff sound_step (fun w => Sound.armsDue) breaks acts (sound_create kind)

/-- A solo timer is started, stopped while its loop begins, and started twice. -/
def startAndStop : List SoloAction :=
  [.start 5, .launch, .stop, .notify, .join, .start 7, .start 9, .launch, .notify, .notify]

/-- The same calls to a timer on a loop that runs all the time. -/
def startAndStopPlain : List (TimerAction Nat) := [.start 5 0, .stop, .start 7 1, .start 9 2]

theorem arms_due_iff_restart :
    (∃ w, run PlainTimer.step (PlainTimer.create .singleShot) startAndStopPlain = some w ∧
      w.timer.armed = some 2 ∧ w.timer.armed = w.due) ∧
    ∃ w, run step (create .singleShot) startAndStop = some w ∧ w.Settled ∧
      w.timer.armed = some 2 ∧ w.ArmsDue := by
  obtain ⟨plain, solo⟩ := arms_due_iff .singleShot startAndStop
  constructor
  · have armed := plain Nat inferInstance startAndStopPlain _ (by decide) (visits_of_run rfl)
    exact ⟨_, rfl, rfl, armed⟩
  · exact ⟨_, rfl, ⟨rfl, rfl, rfl⟩, rfl, solo.mpr (by decide) _ (visits_of_run rfl)⟩

/-- The one-shot timer is started when its loop has begun: what is due is the new callback, and
the old one is armed. -/
theorem late_start_lost : ∃ w,
    run step (create .singleShot) [.start 1000, .launch, .notify, .start 1000] = some w ∧
      w.Settled ∧ w.timer.armed = some 0 ∧ w.due = some 1 ∧ ¬ w.ArmsDue := by
  refine ⟨_, rfl, ⟨rfl, rfl, rfl⟩, rfl, rfl, fun always => ?_⟩
  have same := always [] nofun _ rfl ⟨rfl, rfl, rfl⟩
  cases same

end SoloTimer

end ServerLib
