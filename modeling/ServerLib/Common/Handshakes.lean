import ServerLib.Common.Application
import ServerLib.Common.EventPool

/-!
# The handshakes at the start of an application and of a pool

The signal thread sets `_signal_thread_initiated`, and the main thread waits for it. Both do so
in a loop around a compare-exchange, and leave `run_impl` when the exchange has failed on the
value that it expects. That is what a failure for no reason looks like.
-/
namespace ServerLib

open Transition

namespace ApplicationImpl

def Returned (s : ApplicationImpl) : Prop := ∃ exitCode, s.main = .returned exitCode

/-- The signal thread is behind its loop only with `_signal_thread_initiated` set, as long as
`run_impl` has not returned. The main thread is behind its loop only to start the main loop. -/
structure Handshaken (s : ApplicationImpl) : Prop where
  initiated : s.signalThread ≠ .initiating → s.signalThreadInitiated ∨ s.Returned
  starting : s.main ≠ .left

/-- The exchange does not fail on the value that it expects. -/
def NotSpurious (s : ApplicationImpl) : AppAction → Prop
  | .mainThread true => s.main = .initiating → s.signalThreadInitiated = false
  | .signalThread true => s.signalThread = .initiating → s.signalThreadInitiated
  | _ => True

instance (s : ApplicationImpl) : DecidablePred s.NotSpurious := fun a => by
  unfold NotSpurious
  split <;> infer_instance

structure InStep (s : ApplicationImpl) : Prop where
  handshaken : s.Handshaken
  fresh : s.signalThread = .initiating → s.signalThreadInitiated = false ∧ s.main = .initiating

variable {platform : Platform} {s s' : ApplicationImpl}

theorem inStep_create (anyExitSubscriber anyControlSubscriber : Bool) (exitCode : Int) :
    (create anyExitSubscriber anyControlSubscriber exitCode).InStep where
  handshaken := ⟨fun begun => absurd rfl begun, nofun⟩
  fresh _ := ⟨rfl, rfl⟩

/-- Behind its loop the main thread keeps the flag until it returns. -/
theorem mainStep_past {spurious : Bool} (past : s.main ≠ .initiating)
    (stepped : s.mainStep platform spurious = some s') :
    ¬ s.Returned ∧ s'.signalThread = s.signalThread ∧ s'.main ≠ .left ∧
      (s'.signalThreadInitiated = s.signalThreadInitiated ∨ s'.Returned) := by
  unfold mainStep at stepped
  cases main : s.main with
  | initiating => exact absurd main past
  | looping =>
    simp only [main] at stepped
    split at stepped
    · cases stepped
      simp [Returned, main]
    · split at stepped
      · exact nomatch stepped
      next h _ _ =>
        cases stepped
        cases h <;> simp [Returned, main, enter]
  | handler h =>
    simp only [main] at stepped
    cases stepped
    cases h <;> simp [Returned, main, finish]
  | left | returned _ =>
    simp only [main] at stepped
    exact nomatch stepped
  | _ =>
    simp only [main] at stepped
    grind [Returned, leave]

theorem mainStep_initiating {spurious : Bool} (initiating : s.main = .initiating)
    (fair : s.NotSpurious (.mainThread spurious))
    (stepped : s.mainStep platform spurious = some s') :
    s' = s ∨ s.signalThreadInitiated ∧ s' = { s with main := .starting } := by
  simp only [mainStep, initiating] at stepped
  split at stepped
  · exact .inl (Option.some.inj stepped).symm
  next begun =>
    have begun := not_not.mp begun
    cases spurious with
    | true => simp [NotSpurious, initiating, begun] at fair
    | false => exact .inr ⟨begun, by simpa using stepped.symm⟩

theorem signalStep_past {spurious : Bool} (past : s.signalThread ≠ .initiating)
    (stepped : s.signalStep spurious = some s') :
    s'.main = s.main ∧ s'.signalThreadInitiated = s.signalThreadInitiated ∧
      s'.signalThread ≠ .initiating := by
  unfold signalStep at stepped
  split at stepped <;> grind [handled, processControl]

theorem signalStep_initiating {spurious : Bool} (initiating : s.signalThread = .initiating)
    (unset : s.signalThreadInitiated = false) (fair : s.NotSpurious (.signalThread spurious))
    (stepped : s.signalStep spurious = some s') :
    s' = { s with signalThread := .waiting, signalThreadInitiated := true } := by
  cases spurious with
  | true => simp [NotSpurious, initiating, unset] at fair
  | false => simpa [signalStep, initiating, unset] using stepped.symm

theorem inStep_mainStep {spurious : Bool} (inStep : s.InStep)
    (fair : s.NotSpurious (.mainThread spurious))
    (stepped : s.mainStep platform spurious = some s') : s'.InStep := by
  obtain ⟨⟨initiated, starting⟩, fresh⟩ := inStep
  by_cases initiating : s.main = .initiating
  · obtain rfl | ⟨begun, rfl⟩ := mainStep_initiating initiating fair stepped
    · exact ⟨⟨initiated, starting⟩, fresh⟩
    · refine ⟨⟨fun _ => .inl begun, nofun⟩, fun waits => ?_⟩
      -- the flag is not set while the signal thread is in its loop
      rw [(fresh waits).1] at begun
      exact nomatch begun
  · obtain ⟨running, same, inside, flag⟩ := mainStep_past initiating stepped
    refine ⟨⟨fun begun => ?_, inside⟩, fun waits => ?_⟩
    · rcases flag with flag | returned
      · exact .inl (flag ▸ (initiated (same ▸ begun)).resolve_right running)
      · exact .inr returned
    · exact absurd (fresh (same ▸ waits)).2 initiating

theorem inStep_signalStep {spurious : Bool} (inStep : s.InStep)
    (fair : s.NotSpurious (.signalThread spurious))
    (stepped : s.signalStep spurious = some s') : s'.InStep := by
  obtain ⟨⟨initiated, starting⟩, fresh⟩ := inStep
  by_cases initiating : s.signalThread = .initiating
  · obtain rfl := signalStep_initiating initiating (fresh initiating).1 fair stepped
    exact ⟨⟨fun _ => .inl rfl, starting⟩, nofun⟩
  · obtain ⟨main, flag, begun⟩ := signalStep_past initiating stepped
    refine ⟨⟨fun _ => ?_, main ▸ starting⟩, fun waits => absurd waits begun⟩
    rw [flag, Returned, main]
    exact initiated initiating

/-- Steps that neither of the two threads takes in its loop. -/
theorem InStep.of_same (inStep : s.InStep) (main : s'.main = s.main)
    (flag : s'.signalThreadInitiated = s.signalThreadInitiated)
    (signalThread : s'.signalThread = s.signalThread ∨
      s.signalThread ≠ .initiating ∧ s'.signalThread ≠ .initiating) : s'.InStep := by
  obtain ⟨⟨initiated, starting⟩, fresh⟩ := inStep
  refine ⟨⟨fun begun => ?_, main ▸ starting⟩, fun waits => ?_⟩
  · rw [flag, Returned, main]
    rcases signalThread with same | past
    · exact initiated (same ▸ begun)
    · exact initiated past.1
  · rw [flag, main]
    rcases signalThread with same | past
    · exact fresh (same ▸ waits)
    · exact absurd waits past.2

theorem inStep_step {a : AppAction} (inStep : s.InStep) (fair : s.NotSpurious a)
    (stepped : s.step platform a = some s') : s'.InStep := by
  cases a with
  | mainThread spurious => exact inStep_mainStep inStep fair stepped
  | signalThread spurious => exact inStep_signalStep inStep fair stepped
  | take signal =>
    simp only [step, Option.ite_none_right_eq_some, Option.some.injEq] at stepped
    obtain ⟨⟨waiting, _⟩, rfl⟩ := stepped
    exact inStep.of_same rfl rfl (.inr ⟨by simp [waiting], nofun⟩)
  | stop exitCode =>
    simp only [step, Option.ite_none_right_eq_some, Option.some.injEq] at stepped
    obtain ⟨_, rfl⟩ := stepped
    exact inStep.of_same rfl rfl (.inl rfl)
  | _ =>
    cases stepped
    exact inStep.of_same rfl rfl (.inl rfl)

/-- A failure for no reason leaves `run_impl` on the thread that it is on. -/
theorem unshaken_of_spurious {a : AppAction} (inStep : s.InStep) (spurious : ¬ s.NotSpurious a) :
    ∃ s', s.step platform a = some s' ∧ ¬ s'.Handshaken := by
  unfold NotSpurious at spurious
  split at spurious
  · -- the main thread takes the flag for unset, and does not start the main loop
    obtain ⟨initiating, begun⟩ := Classical.not_imp.mp spurious
    refine ⟨{ s with main := .left }, ?_, fun shaken => shaken.starting rfl⟩
    simp [step, mainStep, initiating, begun]
  · -- the signal thread takes it for set, and the main thread is still waiting
    obtain ⟨initiating, unset⟩ := Classical.not_imp.mp spurious
    refine ⟨{ s with signalThread := .left }, ?_, fun shaken => ?_⟩
    · simp [step, signalStep, initiating, unset]
    · rcases shaken.initiated nofun with begun | ⟨exitCode, returned⟩
      · exact unset begun
      · rw [(inStep.fresh initiating).2] at returned
        exact nomatch returned
  · exact absurd trivial spurious

theorem handshaken_iff (platform : Platform) (anyExitSubscriber anyControlSubscriber : Bool)
    (exitCode : Int) (acts : List AppAction) :
    let s₀ := create anyExitSubscriber anyControlSubscriber exitCode
    (∀ s, Visits (step platform) s₀ acts s → s.Handshaken) ↔
      Meets (step platform) NotSpurious s₀ acts :=
  always_iff (fun _ _ _ inStep fair stepped => inStep_step inStep fair stepped)
    (fun _ inStep => inStep.handshaken) (fun _ _ inStep => unshaken_of_spurious inStep) acts
    (inStep_create anyExitSubscriber anyControlSubscriber exitCode)

end ApplicationImpl

/-- The handshakes of a pool and of an application never give up early exactly if none of their
exchanges fails on the value that it expects. -/
theorem handshakes_complete_iff (nbThreads : Nat) (poolActs : List PoolAction)
    (platform : Platform) (anyExitSubscriber anyControlSubscriber : Bool) (exitCode : Int)
    (appActs : List AppAction) :
    let pool := EventPool.make nbThreads
    let app := ApplicationImpl.create anyExitSubscriber anyControlSubscriber exitCode
    ((∀ w, Visits EventPool.step pool poolActs w → w.NeverGaveUp) ↔
        Meets EventPool.step EventPool.NotSpurious pool poolActs) ∧
      ((∀ s, Visits (ApplicationImpl.step platform) app appActs s → s.Handshaken) ↔
        Meets (ApplicationImpl.step platform) ApplicationImpl.NotSpurious app appActs) :=
  ⟨EventPool.never_gives_up_iff nbThreads poolActs,
    ApplicationImpl.handshaken_iff platform anyExitSubscriber anyControlSubscriber exitCode appActs⟩

/-- One thread in the pool, and the exchange of the handler of `start` fails with nobody left to
wait for. In the application the signal thread fails, or the main thread does behind it. -/
theorem spurious_failures_give_up :
    (∃ w, Visits EventPool.step (.make 1) [.start, .create, .thread 0 false, .thread 0 false,
      .thread 0 false, .thread 0 true] w ∧ ¬ w.NeverGaveUp) ∧
    (∃ s, Visits (ApplicationImpl.step ⟨fun _ => false, 1⟩) (.create true false 0)
      [.signalThread true] s ∧ ¬ s.Handshaken) ∧
    ∃ s, Visits (ApplicationImpl.step ⟨fun _ => false, 1⟩) (.create true false 0)
      [.signalThread false, .mainThread true] s ∧ ¬ s.Handshaken := by
  refine ⟨⟨_, visits_of_run rfl, fun never => ?_⟩, ⟨_, visits_of_run rfl, fun shaken => ?_⟩,
    ⟨_, visits_of_run rfl, fun shaken => shaken.starting rfl⟩⟩
  · exact nomatch (never _ (List.mem_singleton_self _)).1
  · exact (shaken.initiated nofun).elim nofun nofun

end ServerLib
