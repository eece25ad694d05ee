import Mathlib.Algebra.Group.Nat.Defs
import ServerLib.Common.QueuedLoop

/-!
# `queue_size()`

The size is increased where a callback is registered and decreased where it has returned, so it
counts the callbacks in between unless something comes in between that does neither. There are
two such things: a post that throws behind `register_queue`, and a `reset` that is made by one
of the callbacks that are still to be counted down.
-/
namespace ServerLib

open Transition

namespace QueuedLoop

/-- `queue_size()` is the number of the posts that have returned, less those whose callback has
ended and those that were discarded. -/
def Counts (w : QueuedLoop) : Prop :=
  w.queueSize.toNat + (w.finished + w.discarded) = w.returned

instance (w : QueuedLoop) : Decidable w.Counts := by
  unfold Counts
  infer_instance

/-- A duration is one millisecond at least, a loop in the calling thread is not stopped while one
of its callbacks is executed, and there are never 2^64 callbacks. -/
def KeepsCount (w : QueuedLoop) : QueuedLoopAction → Prop
  | .post => w.outstanding + 1 < 2 ^ 64
  | .postAfter ms => 0 < ms ∧ w.outstanding + 1 < 2 ^ 64
  | .launch => w.starting → w.unjoined = false → w.outstanding + 1 < 2 ^ 64
  | .stop =>
    w.runInSeparateThread = false → w.isRunning → w.starting = false → w.executing = 0
  | _ => True

instance (w : QueuedLoop) : DecidablePred w.KeepsCount := fun a => by
  cases a <;> unfold KeepsCount <;> infer_instance

/-- The calling thread is in `run` once at most, and a callback it has called is executed while
the loop runs. -/
def InCallingThread (w : QueuedLoop) : Prop :=
  match w.stack with
  | [] => w.starting → w.isRunning
  | [.run open_] => w.starting = false ∧ (open_ → w.isRunning)
  | [.callback _ _, .run true] => w.isRunning ∧ w.starting = false
  | _ => False

structure Sound (w : QueuedLoop) : Prop where
  counted : w.queueSize.toNat = w.outstanding
  booked : w.finished + w.discarded + w.outstanding = w.returned
  shape : w.runInSeparateThread = false → w.InCallingThread
  joins : w.joining → w.runInSeparateThread

variable {w w' : QueuedLoop}

theorem counts_of_sound (sound : w.Sound) : w.Counts := by
  have booked := sound.booked
  rw [Counts, sound.counted]
  omega

/-- A callback that is registered is counted, if there is a number for it. -/
theorem toNat_registerQueue (sound : w.Sound) (room : w.outstanding + 1 < 2 ^ 64) :
    w.registerQueue.queueSize.toNat = w.outstanding + 1 := by
  have counted := sound.counted
  simp only [registerQueue, UInt64.toNat_add, UInt64.toNat_one]
  omega

theorem sound_postFrom (sound : w.Sound) (room : w.outstanding + 1 < 2 ^ 64)
    (origin : CallbackOf) : (w.postFrom origin).Sound := by
  have outstanding : (w.postFrom origin).outstanding = w.outstanding + 1 := by
    simp only [QueuedLoop.outstanding, postFrom, registerQueue, executing, List.length_append,
      List.length_singleton]
    omega
  have booked := sound.booked
  refine ⟨(toNat_registerQueue sound room).trans outstanding.symm, ?_, sound.shape, sound.joins⟩
  rw [outstanding]
  simp only [postFrom, registerQueue]
  omega

theorem sound_postAfter (sound : w.Sound) {ms : Int} (long : 0 < ms)
    (room : w.outstanding + 1 < 2 ^ 64) : (w.postAfter ms).state.Sound := by
  have counted := toNat_registerQueue sound room
  have booked := sound.booked
  simp only [postAfter, checkDuration, if_pos long, Outcome.state]
  refine ⟨?_, ?_, sound.shape, sound.joins⟩
  · rw [counted]
    simp only [outstanding, registerQueue, executing, List.length_append, List.length_singleton]
    omega
  · simp only [outstanding, registerQueue, executing, List.length_append,
      List.length_singleton] at booked ⊢
    omega

/-- A reset discards what waits, and nothing else is counted. -/
theorem sound_reset (booked : w.finished + w.discarded + w.outstanding = w.returned)
    (idle : w.executing = 0)
    (shape : w.runInSeparateThread = false → w.reset.InCallingThread) : w.reset.Sound := by
  -- there is nothing outstanding behind it, as no callback is being executed
  have waiting : w.reset.outstanding = 0 := by
    simp only [outstanding, executing_reset, idle]
    rfl
  refine ⟨by rw [waiting]; rfl, ?_, shape, nofun⟩
  rw [waiting]
  unfold outstanding at booked
  simp only [reset]
  omega

theorem sound_fire (sound : w.Sound) {p : Posted} {rest : List Posted} {frames : List Frame}
    (inside : w.stack = .run true :: frames) (queued : w.service = p :: rest) :
    (w.fire p rest).Sound := by
  -- the callback is executed now instead of waiting
  have outstanding : (w.fire p rest).outstanding = w.outstanding := by
    simp only [QueuedLoop.outstanding, executing, fire, queued, List.length_cons,
      List.countP_cons, Frame.isCallback, if_true]
    omega
  refine ⟨sound.counted.trans outstanding.symm, ?_, fun own => ?_, sound.joins⟩
  · rw [outstanding]
    exact sound.booked
  · have shape := sound.shape own
    simp only [InCallingThread, inside, fire] at shape ⊢
    cases frames with
    | nil => exact ⟨shape.2 rfl, shape.1⟩
    | cons => exact shape.elim

theorem sound_finish (sound : w.Sound) {p : Posted} {life : Nat} {frames : List Frame}
    (inside : w.stack = .callback p life :: frames) : (w.finish p life frames).Sound := by
  have outstanding : (w.finish p life frames).outstanding + 1 = w.outstanding := by
    simp only [QueuedLoop.outstanding, executing, finish, inside, List.countP_cons,
      Frame.isCallback, if_true]
    omega
  have counted := sound.counted
  have booked := sound.booked
  refine ⟨?_, ?_, fun own => ?_, sound.joins⟩
  · -- there is a callback to be counted down
    have positive : (1 : UInt64) ≤ w.queueSize := by
      rw [UInt64.le_iff_toNat_le, UInt64.toNat_one]
      omega
    simp only [finish, UInt64.toNat_sub_of_le _ _ positive, UInt64.toNat_one] at outstanding ⊢
    omega
  · simp only [finish] at outstanding ⊢
    omega
  · have shape := sound.shape own
    simp only [InCallingThread, inside, finish] at shape ⊢
    split at shape <;> simp_all

/-- A callback that throws in the calling thread takes the loop down with it. -/
theorem sound_unwind (sound : w.Sound) (own : w.runInSeparateThread = false) {p : Posted}
    {life : Nat} {open_ : Bool} {frames : List Frame}
    (inside : w.stack = .callback p life :: .run open_ :: frames) : (w.unwind frames).Sound := by
  have shape := sound.shape own
  have booked := sound.booked
  -- it is the only one, and the loop is running
  obtain ⟨rfl, runs, begun⟩ : frames = [] ∧ w.isRunning ∧ w.starting = false := by
    simp only [InCallingThread, inside] at shape
    split at shape <;> simp_all
  simp only [unwind, runs, if_true]
  apply sound_reset
  · simp only [outstanding, executing, inside, List.countP_cons, List.countP_nil,
      Frame.isCallback, if_true, Bool.false_eq_true, if_false] at booked ⊢
    omega
  · rfl
  · intro _
    simp only [InCallingThread, reset, List.map_nil]
    intro starting
    cases starting

/-- A loop with its own thread is stopped. Nothing is discarded before the thread is joined. -/
theorem sound_stopLoop (sound : w.Sound) (separate : w.runInSeparateThread)
    (joining unjoined : Bool) : { w.stopLoop with joining, unjoined }.Sound := by
  have outstanding : { w.stopLoop with joining, unjoined }.outstanding = w.outstanding :=
    congrArg (w.service.length + w.timers.length + ·) (executing_stopLoop w)
  refine ⟨sound.counted.trans outstanding.symm, ?_, fun own => ?_, fun _ => separate⟩
  · rw [outstanding]
    exact sound.booked
  · exact absurd (separate.symm.trans own) (by decide)

/-- A callback goes from the timers to the service. -/
theorem sound_expire (sound : w.Sound) {i : Nat} {p : Posted} (here : w.timers[i]? = some p) :
    { w with timers := w.timers.eraseIdx i, service := w.service ++ [p] }.Sound := by
  obtain ⟨inside, -⟩ := List.getElem?_eq_some_iff.mp here
  have counted := sound.counted
  have booked := sound.booked
  refine ⟨?_, ?_, sound.shape, sound.joins⟩ <;>
    simp only [outstanding, executing, List.length_append, List.length_singleton,
      List.length_eraseIdx_of_lt inside] at * <;> omega

/-- A loop in the calling thread is started when that is in no loop. -/
theorem sound_start (sound : w.Sound) (idle : ¬ w.isRunning)
    (free : w.runInSeparateThread = false → w.inRun = false) :
    { w with isRunning := true, starting := true }.Sound := by
  refine ⟨sound.counted, sound.booked, fun own => ?_, sound.joins⟩
  have shape := sound.shape own
  have outside := free own
  simp only [InCallingThread, inRun] at shape outside ⊢
  split at shape <;> simp_all

theorem sound_launch (sound : w.Sound) (begun : w.starting)
    (room : w.outstanding + 1 < 2 ^ 64) : w.launch.Sound := by
  have posted := sound_postFrom sound room .started
  refine ⟨posted.counted, posted.booked, fun own => ?_, sound.joins⟩
  have shape := sound.shape own
  simp only [InCallingThread, launch, postFrom, registerQueue] at shape ⊢
  split at shape <;> simp_all

theorem sound_leave (sound : w.Sound) {frames : List Frame}
    (inside : w.stack = .run false :: frames) : { w with stack := frames }.Sound := by
  have outstanding : { w with stack := frames }.outstanding = w.outstanding := by
    simp only [QueuedLoop.outstanding, executing, inside, List.countP_cons, Frame.isCallback,
      Bool.false_eq_true, if_false, Nat.add_zero]
  refine ⟨sound.counted.trans outstanding.symm, ?_, fun own => ?_, sound.joins⟩
  · rw [outstanding]
    exact sound.booked
  · have shape := sound.shape own
    simp only [InCallingThread, inside] at shape ⊢
    split at shape <;> simp_all

/-- A loop in the calling thread is stopped outside of its callbacks. -/
theorem sound_stop (sound : w.Sound) (own : w.runInSeparateThread = false)
    (idle : w.executing = 0) : w.reset.Sound := by
  apply sound_reset sound.booked idle
  intro _
  -- outside of its callbacks the calling thread may still be in `run`
  have shape := sound.shape own
  simp only [InCallingThread, reset, executing] at shape idle ⊢
  split at shape <;> simp_all [Frame.isCallback, Frame.stopped]

theorem sound_step (w : QueuedLoop) (a : QueuedLoopAction) (w' : QueuedLoop) (sound : w.Sound)
    (keeps : w.KeepsCount a) (stepped : w.step a = some w') : w'.Sound := by
  cases stepped_of_step stepped with
  | post => exact sound_postFrom sound keeps .posted
  | postAfter ms => exact sound_postAfter sound keeps.1 keeps.2
  | expire here => exact sound_expire sound here
  | startRunning | stopIdle | stopInsideIdle => exact sound
  | start idle _ free => exact sound_start sound idle free
  | launch begun joined => exact sound_launch sound begun (keeps begun joined)
  | fire inside queued => exact sound_fire sound inside queued
  | finish inside => exact sound_finish sound inside
  | throwOut inside own => exact sound_unwind sound own inside
  | stopJoining separate => exact sound_stopLoop sound separate true w.unjoined
  | stop running begun own => exact sound_stop sound own (keeps own running begun)
  | stopInside separate => exact sound_stopLoop sound separate w.joining true
  | leave inside => exact sound_leave sound inside
  | join joining ended =>
    apply sound_reset sound.booked
    · rw [executing, ended]
      rfl
    · intro own
      exact absurd ((sound.joins joining).symm.trans own) (by decide)

theorem sound_create (runInSeparateThread : Bool) : (create runInSeparateThread).Sound where
  counted := rfl
  booked := rfl
  shape _ := nofun
  joins := nofun

/-- What is registered when there are 2^64 - 1 callbacks sets the size to zero. -/
theorem not_counts_of_wrap (sound : w.Sound) (many : ¬ w.outstanding + 1 < 2 ^ 64)
    (origin : CallbackOf) : ¬ (w.postFrom origin).Counts := by
  intro counts
  have counted := sound.counted
  have booked := sound.booked
  have bound := w.queueSize.toNat_lt
  simp only [Counts, postFrom, registerQueue, UInt64.toNat_add, UInt64.toNat_one] at counts
  omega

theorem not_counts_of_postAfter (sound : w.Sound) {ms : Int}
    (lost : ¬ w.KeepsCount (.postAfter ms)) : ¬ (w.postAfter ms).state.Counts := by
  intro counts
  have counted := sound.counted
  have booked := sound.booked
  have bound := w.queueSize.toNat_lt
  simp only [KeepsCount, not_and] at lost
  by_cases long : 0 < ms
  · have many := lost long
    simp only [postAfter, checkDuration, if_pos long, Outcome.state, Counts, registerQueue,
      UInt64.toNat_add, UInt64.toNat_one] at counts
    omega
  · -- the callback has been registered, and the post has thrown
    simp only [postAfter, checkDuration, if_neg long, Outcome.state, Counts, registerQueue,
      UInt64.toNat_add, UInt64.toNat_one] at counts
    omega

/-- The callback that is executed across a reset is no longer counted. -/
theorem not_counts_of_reset (sound : w.Sound) (busy : w.executing ≠ 0) : ¬ w.reset.Counts := by
  intro counts
  have booked := sound.booked
  simp only [Counts, reset, UInt64.toNat_zero, outstanding] at counts booked
  omega

theorem not_counts_of_lost (w : QueuedLoop) (a : QueuedLoopAction) (sound : w.Sound)
    (lost : ¬ w.KeepsCount a) : ∃ w', w.step a = some w' ∧ ¬ w'.Counts := by
  cases a with
  | post => exact ⟨_, rfl, not_counts_of_wrap sound lost .posted⟩
  | postAfter ms => exact ⟨_, rfl, not_counts_of_postAfter sound lost⟩
  | launch =>
    simp only [KeepsCount, Classical.not_imp] at lost
    obtain ⟨begun, unjoined, many⟩ := lost
    exact ⟨w.launch, if_pos ⟨begun, unjoined⟩, not_counts_of_wrap sound many .started⟩
  | stop =>
    simp only [KeepsCount, Classical.not_imp] at lost
    obtain ⟨own, running, begun, busy⟩ := lost
    exact ⟨w.reset, by simp [step, own, running, begun], not_counts_of_reset sound busy⟩
  | _ => exact absurd trivial lost

/-- Through every life of a loop, with its starts, stops and posts in any order, `queue_size()`
is right exactly as long as every step keeps the count. A post that throws leaves it as it is. -/
theorem counts_iff (runInSeparateThread : Bool) (acts : List QueuedLoopAction) :
    (∀ w, Visits step (create runInSeparateThread) acts w → w.Counts) ↔
      Meets step KeepsCount (create runInSeparateThread) acts :=
  always_iff sound_step (fun _ sound => counts_of_sound sound) not_counts_of_lost acts
    (sound_create runInSeparateThread)

/-- A post that throws counts a callback that nobody will call. And in the thread that has called
`start` the callback that stops the loop is counted down from zero. -/
theorem queue_size_is_wrong :
    (∃ w, run step (create true) [.postAfter 0] = some w ∧
      w.queueSize = 1 ∧ w.returned = 0 ∧ ¬ w.Counts) ∧
    ∃ w, run step (create false) [.start, .launch, .fire, .finish, .post, .fire, .stop, .finish] =
        some w ∧
      w.queueSize.toNat = 2 ^ 64 - 1 ∧ w.returned = 2 ∧ w.finished = 2 ∧ ¬ w.Counts := by
  constructor
  · exact ⟨_, rfl, rfl, rfl, by decide⟩
  · exact ⟨_, rfl, rfl, rfl, rfl, by decide⟩

end QueuedLoop

end ServerLib
