import ServerLib.Common.ExitNotification

/-!
# The exit status

`run_impl` ends the signal thread with a `SIGTERM` of its own, for which `process_exit` would set
an exit code and notify the exit callbacks. It does neither, as the main loop does not run any
more then: without a terminating signal from outside the status is that of the last `stop`, and
the exit callbacks are notified once, of no signal.
-/
namespace ServerLib

open Transition

/-- The main loop has come to its end. -/
def MainThread.leaving : MainThread → Bool
  | .stopping | .joining | .killing | .notifying | .joined | .returned _ => true
  | _ => false

/-- `run_impl` has sent its `SIGTERM`. -/
def MainThread.killed : MainThread → Bool
  | .killing | .notifying | .joined | .returned _ => true
  | _ => false

/-- The signal thread has found the main loop running. -/
def SignalThread.goesAhead : SignalThread → Bool
  | .posting _ | .awaiting _ | .stopping _ => true
  | _ => false

/-- The signal is one that is to end the application. -/
def Platform.Terminates (platform : Platform) (signal : Int) : Prop :=
  ∃ signo, processSignal platform signal = .exit signo

/-- What `run_impl` makes of the exit code; `none` if it returns. -/
def exitStatus (platform : Platform) (exitCode : Int) : Option Int :=
  if exitCode = 0 then none
  else if exitCode < 0 then some platform.exitCodeError
  else some exitCode

/-- The exit code that `application::stop` has been called with last. -/
def lastCode : Int → List AppAction → Int
  | code, [] => code
  | _, .stop code :: acts | _, .stopFrom code :: acts => lastCode code acts
  | code, _ :: acts => lastCode code acts

namespace ApplicationImpl

/-- No terminating signal has come but the one that `run_impl` has sent itself. -/
structure Undisturbed (platform : Platform) (s : ApplicationImpl) : Prop where
  stopped : s.main.leaving → s.mainEl.isRunning = false
  calm : s.main.killed = false →
    (∀ signal ∈ s.pending, ¬ platform.Terminates signal) ∧
      (∀ signo, s.lastSignalData ≠ .exit signo) ∧
      s.signalThreadTerminating = false ∧ ∀ signo, s.signalThread ≠ .exiting signo
  waits : s.signalThread.goesAhead = false
  unposted : s.mainEl.exits = 0
  uncalled : s.main.notifiesExit = false
  unjoined : s.main ≠ .joining
  notified : s.exitNotified = if s.main.pastJoin then [0] else []

variable {platform : Platform} {s s' : ApplicationImpl}

theorem undisturbed_create (anyExitSubscriber anyControlSubscriber : Bool) (exitCode : Int) :
    (create anyExitSubscriber anyControlSubscriber exitCode).Undisturbed platform where
  stopped leaving := by cases leaving
  calm _ := by simp [create]
  waits := rfl
  unposted := rfl
  uncalled := rfl
  unjoined := by simp [create]
  notified := rfl

/-- The main thread goes on, or its loop is changed, on the same side of its `SIGTERM`. -/
theorem Undisturbed.move (sound : s.Undisturbed platform) {m : MainThread} {el : MainLoop}
    (stopped : m.leaving → el.isRunning = false) (unposted : el.exits = 0)
    (uncalled : m.notifiesExit = false) (unjoined : m ≠ .joining)
    (killed : m.killed = s.main.killed) (past : m.pastJoin = s.main.pastJoin) :
    Undisturbed platform { s with main := m, mainEl := el } where
  stopped := stopped
  calm early := sound.calm (killed ▸ early)
  waits := sound.waits
  unposted := unposted
  uncalled := uncalled
  unjoined := unjoined
  notified := by
    rw [past]
    exact sound.notified

/-- The main thread is behind its `SIGTERM`. -/
theorem Undisturbed.toKilled (sound : s.Undisturbed platform) {m : MainThread}
    {initiated terminating : Bool} {pending notified : List Int} (killed : m.killed = true)
    (leaving : s.main.leaving) (uncalled : m.notifiesExit = false) (unjoined : m ≠ .joining)
    (once : notified = if m.pastJoin then [0] else []) :
    Undisturbed platform { s with
      main := m, signalThreadInitiated := initiated, signalThreadTerminating := terminating,
      pending := pending, exitNotified := notified } where
  stopped _ := sound.stopped leaving
  calm early := by
    rw [killed] at early
    cases early
  waits := sound.waits
  unposted := sound.unposted
  uncalled := uncalled
  unjoined := unjoined
  notified := once

theorem exits_stop_eq_zero {el : MainLoop} (none_ : el.exits = 0) : el.stop.exits = 0 := by
  rw [MainLoop.exits_stop, none_, ite_self]

theorem Undisturbed.enter (sound : s.Undisturbed platform) {h : MainHandler}
    {rest : List MainHandler} (loops : s.main = .looping)
    (queued : s.mainEl.service = h :: rest) :
    (ApplicationImpl.enter { s with mainEl := { s.mainEl with service := rest } } h).Undisturbed
      platform := by
  have unposted := sound.unposted
  rw [MainLoop.exits, queued, List.countP_cons, Nat.add_eq_zero_iff] at unposted
  obtain ⟨others, this⟩ := unposted
  -- none of the queued handlers is an exit, the first one neither
  have plain : h.isExit = false := by
    cases exits : h.isExit with
    | false => rfl
    | true =>
      rw [exits] at this
      cases this
  have entered : Undisturbed platform
      { s with main := .handler h, mainEl := { s.mainEl with service := rest } } := by
    apply sound.move
    · intro leaving
      cases leaving
    · exact others
    · cases h with
      | exit _ => cases plain
      | _ => rfl
    · exact MainThread.noConfusion
    · rw [loops]
      rfl
    · rw [loops]
      rfl
  cases h with
  | exit _ => cases plain
  | _ => exact entered

theorem undisturbed_mainStep {spurious : Bool} (sound : s.Undisturbed platform)
    (stepped : s.mainStep platform spurious = some s') : s'.Undisturbed platform := by
  unfold mainStep at stepped
  cases at_ : s.main with
  | initiating =>
    simp only [at_] at stepped
    split at stepped
    · exact Option.some.inj stepped ▸ sound
    · split at stepped
      all_goals
        obtain rfl := Option.some.inj stepped
        apply sound.move (by simp [MainThread.leaving]) sound.unposted rfl (by simp)
          <;> rw [at_] <;> rfl
  | starting =>
    simp only [at_, Option.some.injEq] at stepped
    subst stepped
    apply sound.move (by simp [MainThread.leaving]) _ rfl (by simp)
    · rw [at_]
      rfl
    · rw [at_]
      rfl
    · rw [MainLoop.exits_start, sound.unposted]
  | looping =>
    simp only [at_] at stepped
    split at stepped
    next ended =>
      obtain rfl := Option.some.inj stepped
      apply sound.move (fun _ => Bool.not_eq_true _ ▸ ended) sound.unposted rfl (by simp)
        <;> rw [at_] <;> rfl
    · split at stepped
      · cases stepped
      next h rest queued =>
        obtain rfl := Option.some.inj stepped
        exact sound.enter at_ queued
  | handler h =>
    simp only [at_, Option.some.injEq] at stepped
    subst stepped
    have uncalled := sound.uncalled
    rw [at_] at uncalled
    have loops : ∀ el : MainLoop, el.exits = 0 →
        Undisturbed platform { s with main := .looping, mainEl := el } := by
      intro el unposted
      apply sound.move (by simp [MainThread.leaving]) unposted rfl (by simp) <;> rw [at_] <;> rfl
    cases h with
    | exit _ => cases uncalled
    | stop => exact loops s.mainEl.stop (exits_stop_eq_zero sound.unposted)
    | _ => exact loops s.mainEl sound.unposted
  | stopping =>
    -- the flag is not set, so the signal thread is sent a `SIGTERM`
    have early : s.main.killed = false := by
      rw [at_]
      rfl
    simp only [at_, (sound.calm early).2.2.1, Bool.false_eq_true, if_false,
      Option.some.injEq] at stepped
    subst stepped
    apply sound.toKilled (m := .killing) rfl (by simp [at_, MainThread.leaving]) rfl (by simp)
    rw [sound.notified, at_]
    rfl
  | joining => exact absurd at_ sound.unjoined
  | killing =>
    simp only [at_, Option.ite_none_right_eq_some, Option.some.injEq] at stepped
    obtain ⟨-, rfl⟩ := stepped
    apply sound.toKilled (m := .notifying) rfl (by simp [at_, MainThread.leaving]) rfl (by simp)
    rw [sound.notified, at_]
    rfl
  | notifying =>
    simp only [at_, Option.some.injEq] at stepped
    subst stepped
    apply sound.toKilled (m := .joined) rfl (by simp [at_, MainThread.leaving]) rfl (by simp)
    rw [sound.notified, at_]
    rfl
  | joined =>
    simp only [at_, Option.some.injEq] at stepped
    subst stepped
    apply sound.toKilled (m := .returned _) rfl (by simp [at_, MainThread.leaving]) rfl (by simp)
    rw [sound.notified, at_]
    rfl
  | left | returned _ =>
    simp only [at_] at stepped
    cases stepped

/-- The signal thread goes on. -/
theorem Undisturbed.attend (sound : s.Undisturbed platform) {t : SignalThread}
    {initiated terminating : Bool} {data : SignalData} {pending : List Int}
    (waits : t.goesAhead = false)
    (calm : s.main.killed = false → (∀ signal ∈ pending, ¬ platform.Terminates signal) ∧
      (∀ signo, data ≠ .exit signo) ∧ terminating = false ∧ ∀ signo, t ≠ .exiting signo) :
    Undisturbed platform { s with
      signalThread := t, signalThreadInitiated := initiated,
      signalThreadTerminating := terminating, lastSignalData := data, pending := pending } :=
  { sound with calm, waits }

theorem Undisturbed.handled (sound : s.Undisturbed platform) :
    s.handled.Undisturbed platform := by
  apply sound.attend
  · split <;> rfl
  · intro early
    obtain ⟨pending, data, terminating, -⟩ := sound.calm early
    refine ⟨pending, data, terminating, fun signo => ?_⟩
    split <;> exact SignalThread.noConfusion

/-- Something is posted to the main loop, but no exit notification. -/
theorem Undisturbed.post (sound : s.Undisturbed platform) {h : MainHandler}
    (plain : h.isExit = false) (exitCode : Int) :
    Undisturbed platform { s with mainEl := s.mainEl.post h, exitCode := exitCode } := by
  have posted : (s.mainEl.post h).exits = 0 := by
    rw [MainLoop.exits_post, sound.unposted, plain]
    rfl
  exact { sound with unposted := posted }

theorem MainThread.leaving_of_killed {m : MainThread} (killed : m.killed = true) :
    m.leaving = true := by
  cases m <;> first | rfl | cases killed

theorem undisturbed_signalStep {spurious : Bool} (sound : s.Undisturbed platform)
    (stepped : s.signalStep spurious = some s') : s'.Undisturbed platform := by
  have waits := sound.waits
  unfold signalStep at stepped
  cases at_ : s.signalThread with
  | initiating =>
    simp only [at_] at stepped
    have goesOn : ∀ (t : SignalThread) (initiated : Bool), t.goesAhead = false →
        (∀ signo, t ≠ .exiting signo) → Undisturbed platform
          { s with signalThread := t, signalThreadInitiated := initiated } := by
      intro t initiated behind other
      apply sound.attend behind
      intro early
      obtain ⟨pending, data, terminating, -⟩ := sound.calm early
      exact ⟨pending, data, terminating, other⟩
    split at stepped
    · exact Option.some.inj stepped ▸ sound
    · split at stepped
      · exact Option.some.inj stepped ▸ goesOn .left s.signalThreadInitiated rfl (by simp)
      · exact Option.some.inj stepped ▸ goesOn .waiting true rfl (by simp)
  | handling =>
    simp only [at_] at stepped
    cases data : s.lastSignalData with
    | exit signo =>
      simp only [data, Option.some.injEq] at stepped
      subst stepped
      -- this is the signal of `run_impl` itself
      exact sound.attend rfl fun early => absurd data ((sound.calm early).2.1 signo)
    | usersignal signal =>
      simp only [data, Option.some.injEq] at stepped
      subst stepped
      apply Undisturbed.handled
      unfold processControl
      split
      · exact sound.post rfl s.exitCode
      · exact sound
    | null | fail _ =>
      simp only [data, Option.some.injEq] at stepped
      subst stepped
      exact sound.handled
  | exiting signo =>
    simp only [at_] at stepped
    have killed : s.main.killed = true := by
      by_contra early
      exact (sound.calm (Bool.not_eq_true _ ▸ early)).2.2.2 signo at_
    rw [sound.stopped (MainThread.leaving_of_killed killed)] at stepped
    exact Option.some.inj stepped ▸ sound.handled
  | posting _ | awaiting _ | stopping _ =>
    rw [at_] at waits
    cases waits
  | left | waiting | ended =>
    simp only [at_] at stepped
    cases stepped

theorem undisturbed_step {a : AppAction} (sound : s.Undisturbed platform)
    (outside : ∀ signal, a = .raise signal → ¬ platform.Terminates signal)
    (stepped : s.step platform a = some s') : s'.Undisturbed platform := by
  cases a with
  | mainThread spurious => exact undisturbed_mainStep sound stepped
  | signalThread spurious => exact undisturbed_signalStep sound stepped
  | raise signal =>
    obtain rfl := Option.some.inj stepped
    apply sound.attend sound.waits
    -- before the own `SIGTERM` only this signal is new, and it does not terminate
    intro early
    obtain ⟨pending, others⟩ := sound.calm early
    refine ⟨fun other member => ?_, others⟩
    rcases List.mem_append.mp member with old | new
    · exact pending other old
    · exact List.mem_singleton.mp new ▸ outside signal rfl
  | take signal =>
    simp only [step, Option.ite_none_right_eq_some, Option.some.injEq] at stepped
    obtain ⟨⟨-, member⟩, rfl⟩ := stepped
    apply sound.attend rfl
    intro early
    -- none of the signals that are pending terminates, so that the one taken does not
    obtain ⟨pending, -, terminating, -⟩ := sound.calm early
    refine ⟨fun other among => pending other (List.mem_of_mem_erase among), ?_, terminating, ?_⟩
    · exact fun signo exits => pending signal member ⟨signo, exits⟩
    · exact fun _ => SignalThread.noConfusion
  | stop exitCode =>
    simp only [step, Option.ite_none_right_eq_some, Option.some.injEq] at stepped
    obtain ⟨-, rfl⟩ := stepped
    exact { sound with
      stopped := fun _ => MainLoop.stop_isRunning s.mainEl
      unposted := exits_stop_eq_zero sound.unposted }
  | stopFrom exitCode =>
    obtain rfl := Option.some.inj stepped
    exact sound.post rfl exitCode
  | post =>
    obtain rfl := Option.some.inj stepped
    exact sound.post rfl s.exitCode

/-! ### The code -/

/-- The main thread is about to return from `run_impl`, and does. -/
def Returns (s : ApplicationImpl) (a : AppAction) : Prop :=
  s.main = .joined ∧ ∃ spurious, a = .mainThread spurious

/-- `run_impl` returns in the step behind `done`. -/
def ReturnsBehind (platform : Platform) (s : ApplicationImpl) (acts done : List AppAction) :
    Prop :=
  ∃ a later joined, acts = done ++ a :: later ∧ run (step platform) s done = some joined ∧
    joined.Returns a

theorem exitCode_enter (s : ApplicationImpl) (h : MainHandler) :
    (s.enter h).exitCode = s.exitCode ∧ (s.enter h).main = .handler h := by
  cases h <;> exact ⟨rfl, rfl⟩

theorem exitCode_finish (s : ApplicationImpl) (h : MainHandler) :
    (s.finish h).exitCode = s.exitCode ∧ (s.finish h).main = .looping := by
  cases h <;> exact ⟨rfl, rfl⟩

/-- The main thread does not set the code, and returns with it. -/
theorem exitCode_mainStep {spurious : Bool} (stepped : s.mainStep platform spurious = some s') :
    s'.exitCode = s.exitCode ∧ ∀ status, s'.main = .returned status →
      s.main = .joined ∧ status = exitStatus platform s.exitCode := by
  unfold mainStep at stepped
  cases at_ : s.main with
  | looping =>
    simp only [at_] at stepped
    split at stepped
    · obtain rfl := Option.some.inj stepped
      exact ⟨rfl, fun _ returned => by cases returned⟩
    · split at stepped
      · cases stepped
      · obtain rfl := Option.some.inj stepped
        obtain ⟨same, handles⟩ := exitCode_enter { s with mainEl := { s.mainEl with
          service := _ } } _
        exact ⟨same, fun _ returned => by cases handles.symm.trans returned⟩
  | handler h =>
    simp only [at_, Option.some.injEq] at stepped
    subst stepped
    obtain ⟨same, loops⟩ := exitCode_finish s h
    exact ⟨same, fun _ returned => by cases loops.symm.trans returned⟩
  | joined =>
    simp only [at_, Option.some.injEq] at stepped
    subst stepped
    exact ⟨rfl, fun _ returned => ⟨rfl, (MainThread.returned.inj returned).symm⟩⟩
  | initiating | stopping =>
    simp only [at_] at stepped
    split at stepped
    · obtain rfl := Option.some.inj stepped
      exact ⟨rfl, fun _ returned => by simp_all⟩
    · repeat' split at stepped
      all_goals
        obtain rfl := Option.some.inj stepped
        exact ⟨rfl, fun _ returned => by cases returned⟩
  | starting | notifying =>
    simp only [at_, Option.some.injEq] at stepped
    subst stepped
    exact ⟨rfl, fun _ returned => by cases returned⟩
  | joining | killing =>
    simp only [at_, Option.ite_none_right_eq_some, Option.some.injEq] at stepped
    obtain ⟨-, rfl⟩ := stepped
    exact ⟨rfl, fun _ returned => by cases returned⟩
  | left | returned _ =>
    simp only [at_] at stepped
    cases stepped

/-- The signal thread sets the code only where it has found the main loop running. -/
theorem exitCode_signalStep {spurious : Bool} (waits : s.signalThread.goesAhead = false)
    (stepped : s.signalStep spurious = some s') :
    s'.exitCode = s.exitCode ∧ s'.main = s.main := by
  unfold signalStep at stepped
  cases at_ : s.signalThread with
  | initiating =>
    simp only [at_] at stepped
    repeat' split at stepped
    all_goals
      obtain rfl := Option.some.inj stepped
      exact ⟨rfl, rfl⟩
  | handling =>
    simp only [at_] at stepped
    split at stepped
    · obtain rfl := Option.some.inj stepped
      exact ⟨rfl, rfl⟩
    · obtain rfl := Option.some.inj stepped
      unfold processControl
      split <;> exact ⟨rfl, rfl⟩
    · obtain rfl := Option.some.inj stepped
      exact ⟨rfl, rfl⟩
  | exiting _ =>
    simp only [at_] at stepped
    repeat' split at stepped
    all_goals
      obtain rfl := Option.some.inj stepped
      exact ⟨rfl, rfl⟩
  | posting _ | awaiting _ | stopping _ =>
    rw [at_] at waits
    cases waits
  | left | waiting | ended =>
    simp only [at_] at stepped
    cases stepped

theorem exitCode_step {a : AppAction} (sound : s.Undisturbed platform)
    (stepped : s.step platform a = some s') :
    s'.exitCode = lastCode s.exitCode [a] ∧ ∀ status, s'.main = .returned status →
      s.main = .returned status ∨ (s.Returns a ∧ status = exitStatus platform s.exitCode) := by
  cases a with
  | mainThread spurious =>
    obtain ⟨same, returned⟩ := exitCode_mainStep stepped
    refine ⟨same, fun status is => .inr ?_⟩
    obtain ⟨joined, made⟩ := returned status is
    exact ⟨⟨joined, spurious, rfl⟩, made⟩
  | signalThread spurious =>
    obtain ⟨same, main⟩ := exitCode_signalStep sound.waits stepped
    exact ⟨same, fun status is => .inl (main.symm.trans is)⟩
  | take signal =>
    simp only [step, Option.ite_none_right_eq_some, Option.some.injEq] at stepped
    obtain ⟨-, rfl⟩ := stepped
    exact ⟨rfl, fun _ => .inl⟩
  | stop exitCode =>
    simp only [step, Option.ite_none_right_eq_some, Option.some.injEq] at stepped
    obtain ⟨-, rfl⟩ := stepped
    exact ⟨rfl, fun _ => .inl⟩
  | raise _ | stopFrom _ | post =>
    obtain rfl := Option.some.inj stepped
    exact ⟨rfl, fun _ => .inl⟩

theorem lastCode_cons (code : Int) (a : AppAction) (acts : List AppAction) :
    lastCode code (a :: acts) = lastCode (lastCode code [a]) acts := by
  cases a <;> rfl

/-- The run lemma, from any undisturbed state on. -/
theorem Undisturbed.run (sound : s.Undisturbed platform) {acts : List AppAction}
    (outside : ∀ signal, .raise signal ∈ acts → ¬ platform.Terminates signal)
    (ran : Transition.run (step platform) s acts = some s') :
    s'.Undisturbed platform ∧ s'.exitCode = lastCode s.exitCode acts ∧
      ∀ status, s'.main = .returned status → s.main = .returned status ∨
        ∃ done, ReturnsBehind platform s acts done ∧
          status = exitStatus platform (lastCode s.exitCode done) := by
  induction acts generalizing s with
  | nil =>
    obtain rfl := Option.some.inj ran
    exact ⟨sound, rfl, fun _ => .inl⟩
  | cons a acts ih =>
    obtain ⟨next, stepped, rest⟩ := Option.bind_eq_some_iff.mp ran
    have kept := undisturbed_step sound
      (fun signal is => outside signal (is ▸ List.mem_cons_self)) stepped
    obtain ⟨code, returns⟩ := exitCode_step sound stepped
    -- the first step accounts for its own code, the rest goes on from there
    obtain ⟨sound', code', returned⟩ :=
      ih kept (fun signal member => outside signal (List.mem_cons_of_mem a member)) rest
    rw [code] at code' returned
    refine ⟨sound', by rw [code', ← lastCode_cons], fun status is => ?_⟩
    rcases returned status is with early | ⟨done, ⟨b, later, joined, split, before, last⟩, made⟩
    · -- it has returned in this very step, or before
      refine (returns status early).imp_right fun ⟨now, made⟩ => ?_
      exact ⟨[], ⟨a, acts, s, rfl, rfl, now⟩, made⟩
    · refine .inr ⟨a :: done, ⟨b, later, joined, ?_, ?_, last⟩, ?_⟩
      · rw [split, List.cons_append]
      · rw [run_cons, stepped]
        exact before
      · rw [lastCode_cons, made]

/-- Without a terminating signal from outside the exit code is that of the last `stop`, the exit
callbacks are notified once, and the status is made of the code at the time of the return. -/
theorem exits_with_last_code (anyExitSubscriber anyControlSubscriber : Bool) (exitCode : Int)
    {acts : List AppAction}
    (outside : ∀ signal, .raise signal ∈ acts → ¬ platform.Terminates signal)
    (ran : run (step platform) (create anyExitSubscriber anyControlSubscriber exitCode) acts =
      some s) :
    s.exitCode = lastCode exitCode acts ∧
      s.exitNotified = (if s.main.pastJoin then [0] else []) ∧
      ∀ status, s.main = .returned status → ∃ done,
        ReturnsBehind platform (create anyExitSubscriber anyControlSubscriber exitCode) acts done ∧
          status = exitStatus platform (lastCode exitCode done) := by
  have begins : (create anyExitSubscriber anyControlSubscriber exitCode).Undisturbed platform :=
    undisturbed_create anyExitSubscriber anyControlSubscriber exitCode
  obtain ⟨sound, code, returned⟩ := begins.run outside ran
  refine ⟨code, sound.notified, fun status is => ?_⟩
  rcases returned status is with early | ended
  · cases early
  · exact ended

private def posix : Platform := ⟨fun signal => signal = 11, 1⟩

/-- A control signal comes, and two callbacks stop the application. -/
private def stoppedTwice : List AppAction :=
  [.signalThread false, .mainThread false, .mainThread false, .raise sigusr1, .mainThread false,
    .stop 7, .take sigusr1, .mainThread false, .signalThread false, .mainThread false, .stopFrom 3,
    .mainThread false, .take sigterm, .signalThread false, .signalThread false, .mainThread false,
    .mainThread false, .mainThread false, .stopFrom 5]

theorem exits_with_last_code_stopped_twice :
    ∃ s, run (step posix) (create true true 0) stoppedTwice = some s ∧
      s.main = .returned (some 3) ∧ s.exitCode = lastCode 0 stoppedTwice ∧
      s.exitNotified = (if s.main.pastJoin then [0] else []) ∧
      ∃ done, ReturnsBehind posix (create true true 0) stoppedTwice done ∧
        some 3 = exitStatus posix (lastCode 0 done) := by
  have ran : (run (step posix) (create true true 0) stoppedTwice).map main =
      some (.returned (some 3)) := by decide +kernel
  obtain ⟨s, is, returned⟩ := Option.map_eq_some_iff.mp ran
  have outside : ∀ signal, AppAction.raise signal ∈ stoppedTwice → ¬ posix.Terminates signal := by
    intro signal member
    have only : signal = sigusr1 := by simpa [stoppedTwice] using member
    rintro ⟨signo, ends⟩
    rw [only] at ends
    cases ends
  obtain ⟨code, notified, ended⟩ := exits_with_last_code true true 0 outside is
  exact ⟨s, is, returned, code, notified, ended _ returned⟩

end ApplicationImpl

end ServerLib
