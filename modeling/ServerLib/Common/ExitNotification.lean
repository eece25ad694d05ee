import ServerLib.Common.Application

/-!
# The exit notification

Each of the two threads leaves the notification to the other one if it finds a flag set: the
main thread looks at `_signal_thread_terminating`, and the signal thread at whether the main
loop runs. What is kept, step by step, is that the one notification is in the loop or has been
called as soon as the signal thread has posted it, and that nothing has been before. The two
places where that can fail are the steps in the condition `InOrder`.
-/
namespace ServerLib

open Transition

def MainThread.pastJoin : MainThread → Bool
  | .notifying | .joined | .returned _ => true
  | _ => false

def MainThread.inLoop : MainThread → Bool
  | .looping | .handler _ => true
  | _ => false

def MainThread.notifiesExit : MainThread → Bool
  | .handler (.exit _) => true
  | _ => false

theorem MainThread.not_pastJoin_of_inLoop {m : MainThread} (loops : m.inLoop) :
    m.pastJoin = false := by
  cases m <;> first | rfl | cases loops

/-- `process_exit` looks whether the main loop runs. -/
def SignalThread.looks : SignalThread → Bool
  | .exiting _ => true
  | _ => false

namespace ApplicationImpl

/-- The main thread joins the signal thread, and that one waits for a handler that will not be
called. -/
def Deadlocked (s : ApplicationImpl) : Prop :=
  (s.main = .joining ∨ s.main = .killing) ∧
    (∃ signo, s.signalThread = .awaiting signo) ∧ s.promise = false

/-- The exit callbacks have been notified once when the signal thread has been joined. -/
def NotifiedOnce (s : ApplicationImpl) : Prop :=
  s.main.pastJoin → s.exitNotified.length = 1

/-- The signal thread has seen the main loop running, and its notification has not been called. -/
def exitUnderWay (s : ApplicationImpl) : Bool :=
  match s.signalThread with
  | .posting _ => true
  | _ => s.mainEl.exits ≠ 0

/-- The main loop is not stopped while an exit notification is under way, and where the signal
thread looks at it it runs, or the main thread has already taken the notification on itself. -/
def InOrder (s : ApplicationImpl) : AppAction → Prop
  | .mainThread _ => s.main = .handler .stop → s.mainEl.isRunning → s.exitUnderWay = false
  | .stop _ => s.callsBack → s.mainEl.isRunning → s.exitUnderWay = false
  | .signalThread _ => s.signalThread.looks → s.mainEl.isRunning ∨ s.main = .killing
  | _ => True

instance (s : ApplicationImpl) : DecidablePred s.InOrder := fun a => by
  cases a <;> unfold InOrder <;> infer_instance

/-- The exit notifications that wait in the loop and those that have been called. -/
def due (s : ApplicationImpl) : Nat := s.mainEl.exits + s.exitNotified.length

/-- What holds where the signal thread is. Until it posts nothing has been notified, and from
then on the one notification is in the loop or has been called. -/
def Stage (s : ApplicationImpl) : Prop :=
  match s.signalThread with
  | .initiating | .left =>
    s.due = 0 ∧ s.main = .initiating ∧ s.signalThreadInitiated = false ∧
      s.signalThreadTerminating = false
  | .waiting | .handling =>
    s.due = 0 ∧ s.main ≠ .joining ∧ s.main.pastJoin = false ∧ s.signalThreadTerminating = false
  | .exiting _ => s.due = 0 ∧ s.main.pastJoin = false ∧ s.signalThreadTerminating
  | .posting _ => s.due = 0 ∧ s.mainEl.isRunning ∧ s.signalThreadTerminating
  | .awaiting _ =>
    s.due = 1 ∧ s.main ≠ .killing ∧ s.main.pastJoin = false ∧ s.signalThreadTerminating ∧
      (s.mainEl.exits ≠ 0 → s.mainEl.isRunning) ∧
      (s.promise = false → s.mainEl.exits ≠ 0 ∨ s.main.notifiesExit)
  | .stopping _ =>
    s.exitNotified.length = 1 ∧ s.mainEl.exits = 0 ∧ s.main ≠ .killing ∧
      s.main.pastJoin = false ∧ s.signalThreadTerminating
  | .ended =>
    s.mainEl.exits = 0 ∧ (s.main = .killing → s.exitNotified = []) ∧
      (s.main ≠ .killing → s.exitNotified.length = 1) ∧
      (s.main.pastJoin = false → s.signalThreadTerminating)

structure Sound (s : ApplicationImpl) : Prop where
  subscribed : s.anyExitSubscriber
  running : s.mainEl.isRunning → s.main.inLoop
  called : s.promise ∨ s.main.notifiesExit → s.exitNotified ≠ []
  stage : s.Stage

variable {platform : Platform} {s s' : ApplicationImpl}

theorem Sound.notified (sound : s.Sound) : s.NotifiedOnce := by
  intro past
  have stage := sound.stage
  have running := sound.running
  unfold Stage at stage
  split at stage <;> grind [MainThread.pastJoin, MainThread.not_pastJoin_of_inLoop]

theorem Sound.not_deadlocked (sound : s.Sound) : ¬ s.Deadlocked := by
  rintro ⟨joins, ⟨signo, waits⟩, unkept⟩
  have stage := sound.stage
  have running := sound.running
  rw [Stage, waits] at stage
  grind [MainThread.pastJoin, MainThread.inLoop, MainThread.notifiesExit]

theorem Sound.idle (sound : s.Sound) (outside : s.main.inLoop = false) :
    s.mainEl.isRunning = false := by
  by_contra runs
  rw [sound.running (Bool.not_eq_false _ ▸ runs)] at outside
  cases outside

theorem Sound.reload (sound : s.Sound) {el : MainLoop} {exitCode : Int} {data : SignalData}
    {pending : List Int} (exits : el.exits = s.mainEl.exits)
    (running : el.isRunning = s.mainEl.isRunning) :
    Sound { s with
      mainEl := el, exitCode := exitCode, lastSignalData := data, pending := pending } := by
  refine ⟨sound.subscribed, fun runs => sound.running (running ▸ runs), sound.called, ?_⟩
  have stage := sound.stage
  unfold Stage due at stage ⊢
  simp only [exits, running]
  exact stage

/-- The main thread goes on, without a notification. -/
theorem Sound.move (sound : s.Sound) {el : MainLoop} {m : MainThread} {initiated : Bool}
    {pending : List Int} (begun : s.main = .initiating → s.signalThreadInitiated)
    (before : s.main ≠ .killing ∧ s.main.pastJoin = false) (past : m.pastJoin = false)
    (joins : m = .joining → s.signalThreadTerminating)
    (kills : m = .killing → s.signalThreadTerminating = false)
    (calls : m.notifiesExit = s.main.notifiesExit) (running : el.isRunning → m.inLoop)
    (exits : el.exits = s.mainEl.exits)
    (keeps : s.mainEl.isRunning → el.isRunning ∨ s.exitUnderWay = false) :
    Sound { s with
      mainEl := el, main := m, signalThreadInitiated := initiated, pending := pending } := by
  refine ⟨sound.subscribed, running, ?_, ?_⟩
  · rw [calls]
    exact sound.called
  · -- the signal thread has not moved, so the same line of `Stage` is to be shown
    have stage := sound.stage
    unfold Stage due exitUnderWay at *
    simp only [exits, calls]
    split at stage <;> grind

theorem Sound.ended_of_pastJoin (sound : s.Sound) (past : s.main.pastJoin) :
    s.signalThread = .ended := by
  have stage := sound.stage
  have running := sound.running
  unfold Stage at stage
  split at stage <;> grind [MainThread.pastJoin, MainThread.not_pastJoin_of_inLoop]

/-- A notification in the loop is one that the signal thread waits for. -/
theorem Sound.awaiting (sound : s.Sound) (queued : s.mainEl.exits ≠ 0) :
    ∃ signo, s.signalThread = .awaiting signo := by
  have stage := sound.stage
  unfold Stage due at stage
  split at stage <;> grind

theorem Sound.enter (sound : s.Sound) {h : MainHandler} {rest : List MainHandler}
    (loops : s.main = .looping) (runs : s.mainEl.isRunning)
    (queued : s.mainEl.service = h :: rest) :
    (ApplicationImpl.enter { s with mainEl := { s.mainEl with service := rest } } h).Sound := by
  have counted : s.mainEl.exits =
      ({ s.mainEl with service := rest } : MainLoop).exits + if h.isExit then 1 else 0 := by
    rw [MainLoop.exits, queued, List.countP_cons]
    rfl
  have plain : h.isExit = false →
      Sound { s with mainEl := { s.mainEl with service := rest }, main := .handler h } := by
    intro other
    rw [other] at counted
    apply sound.move <;> simp_all [MainThread.pastJoin, MainThread.inLoop, MainThread.notifiesExit]
    cases h <;> simp_all [MainHandler.isExit]
  cases h with
  | exit signo =>
    -- the notification leaves the queue and has been called: what is due stays one
    obtain ⟨awaited, waits⟩ := sound.awaiting (by rw [counted]; simp [MainHandler.isExit])
    have stage := sound.stage
    rw [Stage, waits] at stage
    refine ⟨sound.subscribed, fun _ => rfl, by simp [ApplicationImpl.enter], ?_⟩
    simp only [Stage, ApplicationImpl.enter, waits]
    simp only [due, MainHandler.isExit, if_true] at stage counted ⊢
    grind [MainThread.pastJoin, MainThread.notifiesExit]
  | _ => exact plain rfl

theorem Sound.stopLoop (sound : s.Sound) {m : MainThread} (inside : s.main.inLoop)
    (loops : m.inLoop) (calls : m.notifiesExit = s.main.notifiesExit)
    (ordered : s.mainEl.isRunning → s.exitUnderWay = false) :
    Sound { s with mainEl := s.mainEl.stop, main := m } := by
  -- a running loop forgets its handlers, but there is no notification among them
  have exits : s.mainEl.stop.exits = s.mainEl.exits := by
    rw [MainLoop.exits_stop]
    split
    next runs =>
      have none_under_way := ordered runs
      unfold exitUnderWay at none_under_way
      split at none_under_way <;> simp_all
    · rfl
  have before : s.main ≠ .initiating ∧ s.main ≠ .killing := by
    constructor <;> (intro same; rw [same] at inside; cases inside)
  refine sound.move (fun same => absurd same before.1)
    ⟨before.2, MainThread.not_pastJoin_of_inLoop inside⟩
    (MainThread.not_pastJoin_of_inLoop loops) ?_ ?_ calls (fun _ => loops) exits
    (fun runs => .inr (ordered runs))
  · rintro rfl
    cases loops
  · rintro rfl
    cases loops

theorem Sound.finish (sound : s.Sound) {h : MainHandler} (inside : s.main = .handler h)
    (ordered : h = .stop → s.mainEl.isRunning → s.exitUnderWay = false) : (s.finish h).Sound := by
  cases h with
  | exit signo =>
    have due := sound.called (.inr (by rw [inside]; rfl))
    have stage := sound.stage
    -- with the promise the signal thread may go on
    refine ⟨sound.subscribed, fun _ => rfl, fun _ => due, ?_⟩
    unfold Stage ApplicationImpl.finish ApplicationImpl.due at *
    split at stage <;> simp_all [MainThread.pastJoin]
  | stop => exact sound.stopLoop (by rw [inside]; rfl) rfl (by rw [inside]; rfl) (ordered rfl)
  | _ =>
    apply sound.move <;> simp_all [MainThread.pastJoin, MainThread.inLoop, MainThread.notifiesExit]

/-- The signal thread has been joined, and the one notification has been called. -/
theorem Sound.join (sound : s.Sound) {m : MainThread} {notified : List Int}
    {initiated terminating : Bool} (ended : s.signalThread = .ended)
    (outside : s.main.inLoop = false) (past : m.pastJoin) (once : notified.length = 1) :
    Sound { s with
      main := m, exitNotified := notified, signalThreadInitiated := initiated,
      signalThreadTerminating := terminating } := by
  have stage := sound.stage
  rw [Stage, ended] at stage
  refine ⟨sound.subscribed, ?_, ?_, ?_⟩
  · intro runs
    rw [sound.idle outside] at runs
    cases runs
  · rintro - rfl
    cases once
  · simp only [Stage, ended]
    refine ⟨stage.1, ?_, fun _ => once, ?_⟩
    · rintro rfl
      cases past
    · intro unjoined
      rw [past] at unjoined
      cases unjoined

theorem Sound.ended_of_over (sound : s.Sound) (gone : s.signalThread.over)
    (begun : s.main ≠ .initiating) : s.signalThread = .ended := by
  have stage := sound.stage
  unfold Stage at stage
  split at stage <;> simp_all [SignalThread.over]

theorem sound_mainStep {spurious : Bool} (sound : s.Sound)
    (ordered : s.InOrder (.mainThread spurious))
    (stepped : s.mainStep platform spurious = some s') : s'.Sound := by
  unfold mainStep at stepped
  split at stepped
  next initiating =>
    have idle := sound.idle (by rw [initiating]; rfl)
    split at stepped
    · cases stepped
      exact sound
    next begun =>
      have begun : s.signalThreadInitiated := not_not.mp begun
      split at stepped <;> cases stepped <;> apply sound.move <;>
        simp_all [MainThread.pastJoin, MainThread.notifiesExit]
  next starting =>
    cases stepped
    apply sound.move <;> simp_all [MainThread.pastJoin, MainThread.notifiesExit, MainThread.inLoop]
  next looping =>
    split at stepped
    · cases stepped
      apply sound.move <;> simp_all [MainThread.pastJoin, MainThread.notifiesExit]
    next runs =>
      split at stepped
      · cases stepped
      next h rest queued =>
        cases stepped
        exact sound.enter looping (not_not.mp runs) queued
  next h inside =>
    cases stepped
    exact sound.finish inside (fun same => ordered (same ▸ inside))
  next stopping =>
    have idle := sound.idle (by rw [stopping]; rfl)
    split at stepped <;> cases stepped <;> apply sound.move <;>
      simp_all [MainThread.pastJoin, MainThread.notifiesExit]
  next joining =>
    simp only [Option.ite_none_right_eq_some, Option.some.injEq] at stepped
    obtain ⟨gone, rfl⟩ := stepped
    have ended := sound.ended_of_over gone (by simp [joining])
    -- the signal thread has notified before it ended
    have stage := sound.stage
    rw [Stage, ended] at stage
    exact sound.join ended (by rw [joining]; rfl) rfl (stage.2.2.1 (by simp [joining]))
  next killing =>
    simp only [Option.ite_none_right_eq_some, Option.some.injEq] at stepped
    obtain ⟨gone, rfl⟩ := stepped
    have ended := sound.ended_of_over gone (by simp [killing])
    -- the signal thread has not notified, so this is the only call
    have stage := sound.stage
    rw [Stage, ended] at stage
    apply sound.join ended (by rw [killing]; rfl) rfl
    rw [stage.2.1 killing]
    rfl
  next notifying =>
    cases stepped
    have past : s.main.pastJoin := by rw [notifying]; rfl
    apply sound.join (sound.ended_of_pastJoin past) (by rw [notifying]; rfl) rfl
    exact sound.notified past
  next joined =>
    cases stepped
    have past : s.main.pastJoin := by rw [joined]; rfl
    apply sound.join (sound.ended_of_pastJoin past) (by rw [joined]; rfl) rfl
    exact sound.notified past
  · cases stepped
  · cases stepped

theorem Sound.wait (sound : s.Sound) (handling : s.signalThread = .handling) : s.handled.Sound := by
  have stage := sound.stage
  rw [Stage, handling] at stage
  refine ⟨sound.subscribed, sound.running, sound.called, ?_⟩
  simp only [handled, stage.2.2.2, Bool.false_eq_true, if_false, Stage]
  exact ⟨stage.1, stage.2.1, stage.2.2.1, trivial⟩

theorem Sound.processControl (sound : s.Sound) (signal : ControlSignal) :
    (s.processControl signal).Sound := by
  unfold ApplicationImpl.processControl
  split
  · exact sound.reload (MainLoop.exits_post _ _) rfl
  · exact sound

/-- `process_exit` finds the main loop stopped. The thread ends without a notification, and leaves
it to the main thread. -/
theorem Sound.give_up (sound : s.Sound) {signo : Int} (exiting : s.signalThread = .exiting signo)
    (killing : s.main = .killing) : s.handled.Sound := by
  have stage := sound.stage
  rw [Stage, exiting] at stage
  obtain ⟨due, unjoined, terminating⟩ := stage
  refine ⟨sound.subscribed, sound.running, sound.called, ?_⟩
  obtain ⟨none_posted, none_called⟩ := Nat.add_eq_zero_iff.mp due
  simp only [handled, terminating, if_true, Stage]
  exact ⟨none_posted, fun _ => List.length_eq_zero_iff.mp none_called,
    fun other => absurd killing other, fun _ => trivial⟩

/-- The notification is posted. The loop has been running since the thread looked at it. -/
theorem Sound.post (sound : s.Sound) {signo : Int} (posting : s.signalThread = .posting signo) :
    Sound { s with
      signalThread := .awaiting signo, mainEl := s.mainEl.post (.exit signo) } := by
  have stage := sound.stage
  rw [Stage, posting] at stage
  obtain ⟨due, runs, terminating⟩ := stage
  have inside := sound.running runs
  have posted : (s.mainEl.post (.exit signo)).exits = s.mainEl.exits + 1 :=
    MainLoop.exits_post _ _
  refine ⟨sound.subscribed, sound.running, sound.called, ?_⟩
  refine ⟨?_, ?_, MainThread.not_pastJoin_of_inLoop inside, terminating, fun _ => runs,
    fun _ => .inl ?_⟩
  · simp only [ApplicationImpl.due, posted] at due ⊢
    omega
  · intro same
    rw [same] at inside
    cases inside
  · simp [posted]

/-- The handler has run, so the notification has left the loop. -/
theorem Sound.awake (sound : s.Sound) {signo : Int} (awaiting : s.signalThread = .awaiting signo)
    (kept : s.promise) : Sound { s with signalThread := .stopping signo } := by
  have stage := sound.stage
  rw [Stage, awaiting] at stage
  obtain ⟨due, unkilled, unjoined, terminating, -⟩ := stage
  have called : s.exitNotified.length ≠ 0 :=
    fun none_called => sound.called (.inl kept) (List.length_eq_zero_iff.mp none_called)
  unfold ApplicationImpl.due at due
  exact ⟨sound.subscribed, sound.running, sound.called, by simp only; omega, by simp only; omega,
    unkilled, unjoined, terminating⟩

/-- The thread stops the application and ends. -/
theorem Sound.stop (sound : s.Sound) {signo : Int} (stopping : s.signalThread = .stopping signo) :
    Sound (handled { s with
      exitCode := exitFailureSigBase + signo
      mainEl := s.mainEl.post .stop }) := by
  have stage := sound.stage
  rw [Stage, stopping] at stage
  obtain ⟨once, none_posted, unkilled, unjoined, terminating⟩ := stage
  refine ⟨sound.subscribed, sound.running, sound.called, ?_⟩
  simp only [handled, terminating, if_true, Stage]
  refine ⟨?_, fun killing => absurd killing unkilled, fun _ => once, fun _ => trivial⟩
  rw [MainLoop.exits_post, none_posted]
  rfl

theorem sound_signalStep {spurious : Bool} (sound : s.Sound)
    (ordered : s.InOrder (.signalThread spurious))
    (stepped : s.signalStep spurious = some s') : s'.Sound := by
  have stage := sound.stage
  unfold signalStep at stepped
  split at stepped
  next initiating =>
    split at stepped
    · cases stepped
      exact sound
    · rw [Stage, initiating] at stage
      split at stepped <;> cases stepped <;>
        refine ⟨sound.subscribed, sound.running, sound.called, ?_⟩ <;>
        simp_all [Stage, due, MainThread.pastJoin]
  next handling =>
    split at stepped <;> cases stepped
    · rw [Stage, handling] at stage
      exact ⟨sound.subscribed, sound.running, sound.called, stage.1, stage.2.2.1, rfl⟩
    next signal _ =>
      apply (sound.processControl signal).wait
      unfold ApplicationImpl.processControl
      split <;> exact handling
    · exact sound.wait handling
  next signo exiting =>
    rw [Stage, exiting] at stage
    split at stepped
    next idle =>
      cases stepped
      have killing : s.main = .killing := (ordered (by rw [exiting]; rfl)).resolve_left idle
      exact sound.give_up exiting killing
    next runs =>
      rw [if_pos sound.subscribed] at stepped
      cases stepped
      exact ⟨sound.subscribed, sound.running, sound.called, stage.1, not_not.mp runs, stage.2.2⟩
  next signo posting =>
    cases stepped
    exact sound.post posting
  next signo awaiting =>
    simp only [Option.ite_none_right_eq_some, Option.some.injEq] at stepped
    obtain ⟨kept, rfl⟩ := stepped
    exact sound.awake awaiting kept
  next signo stopping =>
    cases stepped
    exact sound.stop stopping
  all_goals cases stepped

theorem sound_step (s : ApplicationImpl) (a : AppAction) (s' : ApplicationImpl) (sound : s.Sound)
    (ordered : s.InOrder a) (stepped : s.step platform a = some s') : s'.Sound := by
  cases a with
  | mainThread spurious => exact sound_mainStep sound ordered stepped
  | signalThread spurious => exact sound_signalStep sound ordered stepped
  | raise signal =>
    cases stepped
    exact sound.reload rfl rfl
  | take signal =>
    simp only [step, Option.ite_none_right_eq_some, Option.some.injEq] at stepped
    obtain ⟨⟨waiting, -⟩, rfl⟩ := stepped
    have stage := sound.stage
    rw [Stage, waiting] at stage
    exact ⟨sound.subscribed, sound.running, sound.called, stage⟩
  | stop exitCode =>
    simp only [step, Option.ite_none_right_eq_some, Option.some.injEq] at stepped
    obtain ⟨calls, rfl⟩ := stepped
    by_cases runs : s.mainEl.isRunning
    · have inside := sound.running runs
      exact (sound.stopLoop inside inside rfl (ordered calls)).reload rfl rfl
    · rw [MainLoop.stop, if_neg runs]
      exact sound.reload rfl rfl
  | stopFrom exitCode =>
    cases stepped
    exact sound.reload (MainLoop.exits_post _ _) rfl
  | post =>
    cases stepped
    exact sound.reload (MainLoop.exits_post _ _) rfl

theorem sound_create (anyControlSubscriber : Bool) (exitCode : Int) :
    (create true anyControlSubscriber exitCode).Sound where
  subscribed := rfl
  running := nofun
  called := by simp [create, MainThread.notifiesExit]
  stage := ⟨rfl, rfl, rfl, rfl⟩

/-- In every run whose steps keep the order the exit callbacks are notified once, and the
threads do not wait for each other. -/
theorem exit_notified_once (platform : Platform) (anyControlSubscriber : Bool) (exitCode : Int)
    (acts : List AppAction)
    (ordered : Meets (step platform) InOrder (create true anyControlSubscriber exitCode) acts) :
    ∀ s, Visits (step platform) (create true anyControlSubscriber exitCode) acts s →
      s.NotifiedOnce ∧ ¬ s.Deadlocked := by
  intro s visited
  have sound := visits_invariant sound_step (sound_create anyControlSubscriber exitCode) ordered
    visited
  exact ⟨sound.notified, sound.not_deadlocked⟩

/-- A signal arrives when the main loop runs, and nothing else happens. -/
def exitBySignal : List AppAction :=
  [.signalThread false, .mainThread false, .mainThread false, .mainThread false,
    .mainThread false, .raise sigterm, .take sigterm, .signalThread false,
    .signalThread false, .signalThread false, .mainThread false, .mainThread false,
    .signalThread false, .signalThread false, .mainThread false, .mainThread false,
    .mainThread false, .mainThread false, .mainThread false]

theorem exit_notified_once_of_signal :
    ∃ s, run (step ⟨fun _ => false, 1⟩) (create true false 0) exitBySignal = some s ∧
      s.main = .joined ∧ s.NotifiedOnce ∧ ¬ s.Deadlocked :=
  ⟨_, rfl, rfl, exit_notified_once ⟨fun _ => false, 1⟩ false 0 exitBySignal (by decide) _
    (visits_of_run rfl)⟩

/-- A callback stops the application when a signal has just arrived. If the signal thread has
set its flag and not yet looked at the loop nobody is notified; if it has posted its
notification both threads wait for ever. -/
theorem exit_notification_is_lost :
    (∃ s, run (step ⟨fun _ => false, 1⟩) (create true false 0)
        [.signalThread false, .mainThread false, .mainThread false, .mainThread false,
          .raise sigterm, .take sigterm, .signalThread false, .stop 0, .mainThread false,
          .mainThread false, .signalThread false, .mainThread false, .mainThread false] = some s ∧
      s.main = .joined ∧ s.exitNotified = [] ∧ ¬ s.NotifiedOnce) ∧
    (∃ s, run (step ⟨fun _ => false, 1⟩) (create true false 0)
        [.signalThread false, .mainThread false, .mainThread false, .mainThread false,
          .raise sigterm, .take sigterm, .signalThread false, .signalThread false,
          .signalThread false, .stop 0, .mainThread false, .mainThread false,
          .mainThread false] = some s ∧
      s.Deadlocked ∧ ∀ spurious, s.mainStep ⟨fun _ => false, 1⟩ spurious = none ∧
        s.signalStep spurious = none) := by
  constructor
  · refine ⟨_, rfl, rfl, rfl, fun once => ?_⟩
    cases once rfl
  · exact ⟨_, rfl, ⟨.inl rfl, ⟨15, rfl⟩, rfl⟩, fun spurious => ⟨rfl, rfl⟩⟩

end ApplicationImpl

end ServerLib
