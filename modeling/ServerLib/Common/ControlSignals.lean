import ServerLib.Common.Application

/-!
# Control signals

`SIGUSR1` and `SIGUSR2` reach the callbacks of `on_control` by way of the main loop: the signal
thread takes a signal, and posts a handler that calls them. In between the loop may be stopped,
and drops what waits in it; and without a callback nothing is posted. What has been called, what
waits in the loop and what the signal thread has in hand is what it has taken, in this order, as
long as neither happens to a control signal.
-/
namespace ServerLib

open Transition

def SignalData.controls : SignalData → List ControlSignal
  | .usersignal signal => [signal]
  | _ => []

def MainHandler.control? : MainHandler → Option ControlSignal
  | .control signal => some signal
  | _ => none

namespace MainLoop

/-- The control signals that wait in the loop. -/
def controls (l : MainLoop) : List ControlSignal := l.service.filterMap MainHandler.control?

@[simp] theorem controls_post (l : MainLoop) (h : MainHandler) :
    (l.post h).controls = l.controls ++ h.control?.toList := by
  unfold controls post
  cases h <;> simp [MainHandler.control?]

@[simp] theorem controls_start (l : MainLoop) : l.start.controls = l.controls := by
  unfold start
  split
  · rfl
  · exact (controls_post l .started).trans (List.append_nil _)

theorem controls_stop (l : MainLoop) :
    l.stop.controls = if l.isRunning then [] else l.controls := by
  unfold stop
  split <;> rfl

end MainLoop

namespace ApplicationImpl

variable {platform : Platform} {s s' : ApplicationImpl} {a : AppAction}

/-- What the signal thread has in hand. -/
def handed (s : ApplicationImpl) : List ControlSignal :=
  match s.signalThread with
  | .handling => s.lastSignalData.controls
  | _ => []

/-- The control signals that have been taken, and whose callbacks have not been called. -/
def waiting (s : ApplicationImpl) : List ControlSignal := s.mainEl.controls ++ s.handed

/-- The callbacks are called with this signal. -/
def notifies (s : ApplicationImpl) : AppAction → List ControlSignal
  | .mainThread _ =>
    if s.main = .looping ∧ s.mainEl.isRunning then
      (s.mainEl.service.head?.bind MainHandler.control?).toList
    else []
  | _ => []

/-- The signal thread takes this signal. -/
def takes (platform : Platform) : AppAction → List ControlSignal
  | .take signal => (processSignal platform signal).controls
  | _ => []

/-- The loop is not stopped while a control signal waits in it, and the signal thread has a
callback for what it has in hand. -/
def NoneLost (s : ApplicationImpl) : AppAction → Prop
  | .mainThread _ => s.main = .handler .stop → s.mainEl.isRunning → s.mainEl.controls = []
  | .stop _ => s.callsBack → s.mainEl.isRunning → s.mainEl.controls = []
  | .signalThread _ => s.handed ≠ [] → s.anyControlSubscriber
  | _ => True

instance (s : ApplicationImpl) : DecidablePred s.NoneLost
  | .mainThread _ | .stop _ => inferInstanceAs (Decidable (_ → _ → _))
  | .signalThread _ => inferInstanceAs (Decidable (_ → _))
  | .raise _ | .take _ | .stopFrom _ | .post => inferInstanceAs (Decidable True)

theorem controls_stop_of_kept (kept : s.mainEl.isRunning → s.mainEl.controls = []) :
    s.mainEl.stop.controls = s.mainEl.controls := by
  rw [MainLoop.controls_stop]
  split
  next runs => exact (kept runs).symm
  next => rfl

theorem handed_of_free (free : s.signalThread ≠ .handling) : s.handed = [] := by
  unfold handed
  split
  next handling => exact absurd handling free
  next => rfl

theorem waiting_of_free (free : s.signalThread ≠ .handling) (free' : s'.signalThread ≠ .handling)
    (same : s'.mainEl.controls = s.mainEl.controls) : s'.waiting = s.waiting := by
  rw [waiting, waiting, handed_of_free free, handed_of_free free', same]

@[simp] theorem handed_handled (s : ApplicationImpl) : s.handled.handed = [] := by
  unfold handled handed
  cases s.signalThreadTerminating <;> rfl

@[simp] theorem mainEl_handled (s : ApplicationImpl) : s.handled.mainEl = s.mainEl := rfl

@[simp] theorem waiting_enter (s : ApplicationImpl) (h : MainHandler) :
    (s.enter h).waiting = s.waiting := by
  cases h <;> rfl

/-- What is first in the loop, and the rest. -/
theorem waiting_cons {h : MainHandler} {rest : List MainHandler}
    (queue : s.mainEl.service = h :: rest) :
    s.waiting = h.control?.toList ++
      waiting { s with mainEl := { s.mainEl with service := rest } } := by
  unfold waiting MainLoop.controls
  rw [queue, ← List.append_assoc]
  cases is : h.control? <;> simp [is, handed]

theorem waiting_finish {h : MainHandler}
    (kept : h = .stop → s.mainEl.isRunning → s.mainEl.controls = []) :
    (s.finish h).waiting = s.waiting := by
  cases h with
  | stop =>
    have same := controls_stop_of_kept (kept rfl)
    change s.mainEl.stop.controls ++ s.handed = _
    rw [same]
    rfl
  | _ => rfl

theorem notifies_of_not_looping (outside : s.main ≠ .looping) (spurious : Bool) :
    s.notifies (.mainThread spurious) = [] := by
  exact if_neg fun loops => outside loops.1

/-- The main thread calls what is first in the loop. -/
theorem waiting_mainStep {spurious : Bool} (kept : s.NoneLost (.mainThread spurious))
    (stepped : s.mainStep platform spurious = some s') :
    s.notifies (.mainThread spurious) ++ s'.waiting = s.waiting := by
  unfold mainStep at stepped
  cases place : s.main with
  | looping =>
    simp only [place] at stepped
    split at stepped
    next idle =>
      cases stepped
      have nothing : s.notifies (.mainThread spurious) = [] := if_neg fun runs => idle runs.2
      rw [nothing]
      rfl
    next runs =>
      split at stepped
      next => cases stepped
      next h rest queue =>
        cases stepped
        have calls : s.notifies (.mainThread spurious) = h.control?.toList := by
          rw [notifies, if_pos ⟨place, not_not.mp runs⟩, queue]
          rfl
        rw [calls, waiting_enter, waiting_cons queue, place]
  | handler h =>
    simp only [place, Option.some.injEq] at stepped
    subst stepped
    rw [notifies_of_not_looping (by simp [place]), List.nil_append]
    apply waiting_finish
    rintro rfl
    exact kept place
  | starting =>
    rw [notifies_of_not_looping (by simp [place]), List.nil_append]
    simp only [place, Option.some.injEq] at stepped
    subst stepped
    simp [waiting, handed]
  | initiating | stopping | joining | killing =>
    rw [notifies_of_not_looping (by simp [place]), List.nil_append]
    simp only [place] at stepped
    repeat' split at stepped
    all_goals cases stepped
    all_goals rfl
  | notifying | joined =>
    rw [notifies_of_not_looping (by simp [place]), List.nil_append]
    simp only [place] at stepped
    cases stepped
    rfl
  | left | returned =>
    simp only [place] at stepped
    cases stepped

/-- The signal thread posts what it has in hand. -/
theorem waiting_signalStep {spurious : Bool} (kept : s.handed ≠ [] → s.anyControlSubscriber)
    (stepped : s.signalStep spurious = some s') : s'.waiting = s.waiting := by
  unfold signalStep at stepped
  cases place : s.signalThread with
  | handling =>
    have inHand : s.handed = s.lastSignalData.controls := by rw [handed, place]
    simp only [place] at stepped
    cases data : s.lastSignalData with
    | usersignal signal =>
      rw [inHand, data] at kept
      have subscribed := kept (List.cons_ne_nil _ _)
      simp only [data, processControl, subscribed, if_true, Option.some.injEq] at stepped
      subst stepped
      simp [waiting, inHand, data, SignalData.controls, MainHandler.control?]
    | exit signo =>
      simp only [data, Option.some.injEq] at stepped
      subst stepped
      rw [waiting, waiting, inHand, data, handed_of_free (by simp)]
      rfl
    | _ =>
      simp only [data, Option.some.injEq] at stepped
      subst stepped
      simp [waiting, inHand, data, SignalData.controls]
  | exiting signo =>
    have free : s.signalThread ≠ .handling := by simp [place]
    simp only [place] at stepped
    repeat' split at stepped
    all_goals cases stepped
    · exact waiting_of_free free (by unfold handled; split <;> simp) rfl
    · exact waiting_of_free free (by simp) rfl
    · exact waiting_of_free free (by simp) rfl
  | posting signo =>
    simp only [place, Option.some.injEq] at stepped
    subst stepped
    exact waiting_of_free (by simp [place]) (by simp) (by simp [MainHandler.control?])
  | stopping signo =>
    simp only [place, Option.some.injEq] at stepped
    subst stepped
    apply waiting_of_free (by simp [place]) (by unfold handled; split <;> simp)
    simp [MainHandler.control?]
  | initiating =>
    have free : s.signalThread ≠ .handling := by simp [place]
    simp only [place] at stepped
    repeat' split at stepped
    all_goals cases stepped
    · rfl
    · exact waiting_of_free free (by simp) rfl
    · exact waiting_of_free free (by simp) rfl
  | awaiting signo =>
    simp only [place] at stepped
    split at stepped
    · cases stepped
      exact waiting_of_free (by simp [place]) (by simp) rfl
    · cases stepped
  | left | waiting | ended =>
    simp only [place] at stepped
    cases stepped

/-- What is called and what waits then is what has waited, and what is taken. -/
theorem waiting_step (kept : s.NoneLost a) (stepped : s.step platform a = some s') :
    s.notifies a ++ s'.waiting = s.waiting ++ takes platform a := by
  cases a with
  | mainThread spurious => exact (waiting_mainStep kept stepped).trans (List.append_nil _).symm
  | signalThread spurious =>
    exact (waiting_signalStep kept stepped).trans (List.append_nil _).symm
  | raise signal =>
    cases stepped
    exact (List.append_nil _).symm
  | take signal =>
    simp only [step, Option.ite_none_right_eq_some, Option.some.injEq] at stepped
    obtain ⟨⟨free, -⟩, rfl⟩ := stepped
    have empty : s.handed = [] := handed_of_free (by simp [free])
    rw [waiting, waiting, empty, List.append_nil]
    rfl
  | stop exitCode =>
    simp only [step, Option.ite_none_right_eq_some, Option.some.injEq] at stepped
    obtain ⟨callsBack, rfl⟩ := stepped
    have same := controls_stop_of_kept (kept callsBack)
    change s.mainEl.stop.controls ++ s.handed = _
    rw [same]
    exact (List.append_nil _).symm
  | stopFrom exitCode =>
    cases stepped
    simp [notifies, takes, waiting, handed, MainHandler.control?]
  | post =>
    cases stepped
    simp [notifies, takes, waiting, handed, MainHandler.control?]

/-- Otherwise some of what has waited is gone. -/
theorem waiting_lost (lost : ¬ s.NoneLost a) :
    ∃ s', s.step platform a = some s' ∧ s.notifies a = [] ∧ takes platform a = [] ∧
      s'.waiting.Sublist s.waiting ∧ s'.waiting ≠ s.waiting := by
  -- the loop is stopped with something in it
  have drops : ∀ s' : ApplicationImpl, s.mainEl.isRunning → s.mainEl.controls ≠ [] →
      s'.mainEl = s.mainEl.stop → s'.handed = s.handed →
      s'.waiting.Sublist s.waiting ∧ s'.waiting ≠ s.waiting := by
    intro s' runs some_ stopped same
    rw [waiting, waiting, stopped, same, MainLoop.controls_stop, if_pos runs, List.nil_append]
    refine ⟨List.sublist_append_right _ _, fun equal => some_ ?_⟩
    exact List.append_left_eq_self.mp equal.symm
  match a with
  | .mainThread spurious =>
    simp only [NoneLost, Classical.not_imp] at lost
    obtain ⟨stops, runs, some_⟩ := lost
    refine ⟨s.finish .stop, by simp only [step, mainStep, stops], ?_, rfl,
      drops _ runs some_ rfl rfl⟩
    exact notifies_of_not_looping (by simp [stops]) spurious
  | .stop exitCode =>
    simp only [NoneLost, Classical.not_imp] at lost
    obtain ⟨callsBack, runs, some_⟩ := lost
    exact ⟨_, if_pos callsBack, rfl, rfl, drops _ runs some_ rfl rfl⟩
  | .signalThread spurious =>
    simp only [NoneLost, Classical.not_imp] at lost
    obtain ⟨inHand, unsubscribed⟩ := lost
    have place : s.signalThread = .handling := by
      by_contra free
      exact inHand (handed_of_free free)
    have is : s.handed = s.lastSignalData.controls := by rw [handed, place]
    cases data : s.lastSignalData with
    | usersignal signal =>
      refine ⟨s.handled, ?_, rfl, rfl, ?_⟩
      · simp only [step, signalStep, place, data, processControl, if_neg unsubscribed]
      · rw [waiting, waiting, handed_handled, mainEl_handled, List.append_nil]
        exact ⟨List.sublist_append_left _ _, fun equal => inHand
          (List.append_right_eq_self.mp equal.symm)⟩
    | _ => exact absurd (by rw [is, data]; rfl) inHand
  | .raise _ | .take _ | .stopFrom _ | .post => exact absurd trivial lost

end ApplicationImpl

/-- An application, the control signals that its signal thread has taken, and those that the
callbacks have been called with. -/
structure ControlLog where
  app : ApplicationImpl
  taken : List ControlSignal := []
  notified : List ControlSignal := []

namespace ControlLog

variable {platform : Platform} {l l' : ControlLog}

def step (platform : Platform) (l : ControlLog) (a : AppAction) : Option ControlLog :=
  (l.app.step platform a).map fun app =>
    { app
      taken := l.taken ++ ApplicationImpl.takes platform a
      notified := l.notified ++ l.app.notifies a }

def create (anyExitSubscriber anyControlSubscriber : Bool) (exitCode : Int) : ControlLog where
  app := .create anyExitSubscriber anyControlSubscriber exitCode

/-- Nothing is lost, and nothing is out of turn. -/
def Complete (l : ControlLog) : Prop := l.notified ++ l.app.waiting = l.taken

theorem complete_step (l : ControlLog) (a : AppAction) (l' : ControlLog) (complete : l.Complete)
    (kept : l.app.NoneLost a) (stepped : l.step platform a = some l') : l'.Complete := by
  obtain ⟨app, moved, rfl⟩ := Option.map_eq_some_iff.mp stepped
  have conserved := ApplicationImpl.waiting_step kept moved
  calc l.notified ++ l.app.notifies a ++ app.waiting
      = l.notified ++ (l.app.waiting ++ ApplicationImpl.takes platform a) := by
        rw [List.append_assoc, conserved]
    _ = l.taken ++ ApplicationImpl.takes platform a := by rw [← List.append_assoc, complete]

/-- In every run the callbacks are called with all control signals that are taken, in their order,
exactly if none is lost by a stop or for want of a callback. -/
theorem complete_iff (platform : Platform) (anyExitSubscriber anyControlSubscriber : Bool)
    (exitCode : Int) (acts : List AppAction) :
    (∀ l, Visits (step platform) (create anyExitSubscriber anyControlSubscriber exitCode) acts l →
        l.Complete) ↔
      Meets (step platform) (fun l a => l.app.NoneLost a)
        (create anyExitSubscriber anyControlSubscriber exitCode) acts := by
  have begins : (create anyExitSubscriber anyControlSubscriber exitCode).Complete := rfl
  apply always_iff complete_step (fun _ complete => complete) _ acts begins
  intro l a complete lost
  obtain ⟨app, stepped, quiet, nothing, -, changed⟩ := ApplicationImpl.waiting_lost lost
  refine ⟨_, Option.map_eq_some_iff.mpr ⟨app, stepped, rfl⟩, fun still => changed ?_⟩
  rw [Complete, quiet, nothing, List.append_nil, List.append_nil, ← complete] at still
  exact List.append_cancel_left still

/-- Whatever is lost, the callbacks are never called out of turn, or twice for a signal. -/
theorem notified_in_order {anyExitSubscriber anyControlSubscriber : Bool} {exitCode : Int}
    {acts : List AppAction}
    (visited : Visits (step platform) (create anyExitSubscriber anyControlSubscriber exitCode)
      acts l) : (l.notified ++ l.app.waiting).Sublist l.taken := by
  apply visited.invariant _ (List.Sublist.refl _)
  intro l a l' ordered stepped
  obtain ⟨app, moved, rfl⟩ := Option.map_eq_some_iff.mp stepped
  by_cases kept : l.app.NoneLost a
  · have conserved := ApplicationImpl.waiting_step kept moved
    simp only [List.append_assoc, conserved]
    rw [← List.append_assoc]
    exact ordered.append (List.Sublist.refl _)
  · obtain ⟨app', moved', quiet, nothing, fewer, -⟩ := ApplicationImpl.waiting_lost kept
    cases moved.symm.trans moved'
    simp only [quiet, nothing, List.append_nil]
    exact ((List.Sublist.refl _).append fewer).trans ordered

private def stoppedInCallback : List AppAction :=
  [.signalThread false, .raise 10, .raise 12, .take 10, .signalThread false, .mainThread false,
    .mainThread false, .mainThread false, .take 12, .signalThread false, .stop 0, .raise 10,
    .take 10, .signalThread false]

/-- The callback of the first signal stops the application, when the second one waits in the loop;
the third one is posted to a loop that has been stopped. -/
theorem notified_in_order_stopped :
    ∃ l, run (step ⟨fun _ => false, 1⟩) (create false true 0) stoppedInCallback = some l ∧
      l.notified = [.usr1] ∧ l.taken = [.usr1, .usr2, .usr1] ∧
      (l.notified ++ l.app.waiting).Sublist l.taken := by
  have ran : (run (step ⟨fun _ => false, 1⟩) (create false true 0) stoppedInCallback).map
      (fun l => (l.notified, l.taken)) = some ([.usr1], [.usr1, .usr2, .usr1]) := by decide +kernel
  obtain ⟨l, is, logs⟩ := Option.map_eq_some_iff.mp ran
  obtain ⟨notified, taken⟩ := Prod.mk.injEq .. ▸ logs
  exact ⟨l, is, notified, taken, notified_in_order (visits_of_run is)⟩

end ControlLog

end ServerLib
