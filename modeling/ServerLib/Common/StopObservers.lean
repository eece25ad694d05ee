import Mathlib.Data.List.Nodup
import ServerLib.Common.QueuedLoop

/-!
# `on_stop`

`run` notifies the observers of the stop when its service has returned, and `stop` replaces them,
in `reset`. For a loop in a thread of its own `stop` joins the thread before that, so `run` has
notified them. A loop in the calling thread is stopped by one of its callbacks: the observers are
replaced while `run` still waits for the callback to return, and it is the new ones that are
notified.

What is registered is copied before it is called. The registered callbacks return, and none of
them starts the loop.
-/
namespace ServerLib

open Transition

namespace QueuedLoop

/-! ### The phases of a loop -/

/-- The innermost frames: a `run`, whose service has been stopped or not, and what it calls. -/
inductive InsideRun (open_ : Bool) (frames : List Frame) : List Frame → Prop where
  | run : InsideRun open_ frames (.run open_ :: frames)
  | callback (p : Posted) (life : Nat) :
    InsideRun open_ frames (.callback p life :: .run open_ :: frames)

/-- The services of all these have been stopped. -/
def Closed (frames : List Frame) : Prop := Frame.run true ∉ frames

inductive Phase (w : QueuedLoop) : Prop where
  | idle (stopped : w.isRunning = false) (begun : w.starting = false) (calm : w.joining = false)
      (closed : Closed w.stack)
      (alone : w.runInSeparateThread → w.unjoined = false → w.stack = [])
  | starting (running : w.isRunning) (starting : w.starting) (calm : w.joining = false)
      (closed : Closed w.stack)
      (alone : w.runInSeparateThread → w.unjoined = false → w.stack = [])
  | running (running : w.isRunning) (begun : w.starting = false) (calm : w.joining = false)
      (joined : w.unjoined = false) {frames : List Frame} (closed : Closed frames)
      (inside : InsideRun true frames w.stack) (alone : w.runInSeparateThread → frames = [])
  | joining (separate : w.runInSeparateThread) (stopped : w.isRunning = false)
      (begun : w.starting = false) (joining : w.joining) (joined : w.unjoined = false)
      (inside : w.stack = [] ∨ InsideRun false [] w.stack)

/-- The calling thread is in `start`, up to the post of its handler. -/
def busy (w : QueuedLoop) : Bool := !w.runInSeparateThread && w.starting

variable {w w' : QueuedLoop}

theorem closed_stopped (frames : List Frame) : Closed (frames.map Frame.stopped) := by
  intro member
  obtain ⟨frame, -, same⟩ := List.mem_map.mp member
  cases frame <;> cases same

theorem Closed.tail {frame : Frame} {frames : List Frame} (closed : Closed (frame :: frames)) :
    Closed frames := fun member => closed (List.mem_cons_of_mem frame member)

theorem InsideRun.stopped {frames : List Frame} {stack : List Frame}
    (inside : InsideRun true frames stack) :
    InsideRun false (frames.map Frame.stopped) (stack.map Frame.stopped) := by
  cases inside with
  | run => exact .run
  | callback p life => exact .callback p life

theorem InsideRun.ne_nil {open_ : Bool} {frames stack : List Frame}
    (inside : InsideRun open_ frames stack) : stack ≠ [] := by
  cases inside <;> nofun

/-- What is posted and what expires does not touch the phase. -/
theorem Phase.same (phase : w.Phase) (separate : w'.runInSeparateThread = w.runInSeparateThread)
    (running : w'.isRunning = w.isRunning) (starting : w'.starting = w.starting)
    (joining : w'.joining = w.joining) (unjoined : w'.unjoined = w.unjoined)
    (stack : w'.stack = w.stack) : w'.Phase := by
  cases phase with
  | idle stopped begun calm closed alone =>
    rw [← running] at stopped
    rw [← starting] at begun
    rw [← joining] at calm
    rw [← stack] at closed
    rw [← separate, ← unjoined, ← stack] at alone
    exact .idle stopped begun calm closed alone
  | starting isRunning begun calm closed alone =>
    rw [← running] at isRunning
    rw [← starting] at begun
    rw [← joining] at calm
    rw [← stack] at closed
    rw [← separate, ← unjoined, ← stack] at alone
    exact .starting isRunning begun calm closed alone
  | running isRunning begun calm joined closed inside alone =>
    rw [← running] at isRunning
    rw [← starting] at begun
    rw [← joining] at calm
    rw [← unjoined] at joined
    rw [← stack] at inside
    rw [← separate] at alone
    exact .running isRunning begun calm joined closed inside alone
  | joining own stopped begun joins joined inside =>
    rw [← separate] at own
    rw [← running] at stopped
    rw [← starting] at begun
    rw [← joining] at joins
    rw [← unjoined] at joined
    rw [← stack] at inside
    exact .joining own stopped begun joins joined inside

/-- A loop that has been reset. -/
theorem Phase.reset (alone : w.runInSeparateThread → w.unjoined = false → w.stack = []) :
    w.reset.Phase := by
  refine .idle rfl rfl rfl (closed_stopped _) fun separate joined => ?_
  rw [show w.reset.stack = w.stack.map Frame.stopped from rfl, alone separate joined]
  rfl

theorem Phase.start (phase : w.Phase) (idle : ¬ w.isRunning) (calm : w.joining = false) :
    { w with isRunning := true, starting := true }.Phase := by
  cases phase with
  | idle _ _ _ closed alone => exact .starting rfl rfl calm closed alone
  | starting running => exact absurd running idle
  | running running => exact absurd running idle
  | joining _ _ _ joining => cases calm.symm.trans joining

theorem Phase.launch (phase : w.Phase) (begun : w.starting) (joined : w.unjoined = false) :
    w.launch.Phase := by
  cases phase with
  | starting running _ calm closed alone =>
    exact .running running rfl calm joined closed .run fun separate => alone separate joined
  | idle _ rest | running _ rest | joining _ _ rest => cases rest.symm.trans begun

theorem Phase.fire (phase : w.Phase) {p : Posted} {rest : List Posted} {frames : List Frame}
    (inside : w.stack = .run true :: frames) : (w.fire p rest).Phase := by
  have opened : Frame.run true ∈ w.stack := inside ▸ List.mem_cons_self
  cases phase with
  | idle _ _ _ closed => exact absurd opened closed
  | starting _ _ _ closed => exact absurd opened closed
  | running running begun calm joined closed here alone =>
    rw [inside] at here
    cases here
    -- the open `run` is the one on top
    refine .running running begun calm joined closed ?_ alone
    simp only [QueuedLoop.fire, inside]
    exact .callback p w.life
  | joining _ _ _ _ _ here =>
    rw [inside] at here
    rcases here with here | here <;> cases here

theorem Phase.finish (phase : w.Phase) {p : Posted} {life : Nat} {frames : List Frame}
    (inside : w.stack = .callback p life :: frames) : (w.finish p life frames).Phase := by
  cases phase with
  | idle stopped begun calm closed alone =>
    rw [inside] at closed alone
    exact .idle stopped begun calm closed.tail fun separate joined => nomatch alone separate joined
  | starting running begun calm closed alone =>
    rw [inside] at closed alone
    exact .starting running begun calm closed.tail
      fun separate joined => nomatch alone separate joined
  | running running begun calm joined closed here alone =>
    rw [inside] at here
    cases here
    exact .running running begun calm joined closed .run alone
  | joining separate stopped begun joining joined here =>
    rw [inside] at here
    rcases here with here | here
    · cases here
    · cases here
      exact .joining separate stopped begun joining joined (.inr .run)

/-- `run` is left in a loop that does not run. -/
theorem Phase.leave (phase : w.Phase) {frames : List Frame}
    (inside : w.stack = .run false :: frames) : { w with stack := frames }.Phase := by
  cases phase with
  | idle stopped begun calm closed alone =>
    rw [inside] at closed alone
    exact .idle stopped begun calm closed.tail fun separate joined => nomatch alone separate joined
  | starting running begun calm closed alone =>
    rw [inside] at closed alone
    exact .starting running begun calm closed.tail
      fun separate joined => nomatch alone separate joined
  | running running begun calm joined closed here alone =>
    rw [inside] at here
    cases here
  | joining separate stopped begun joining joined here =>
    rw [inside] at here
    rcases here with here | here
    · cases here
    · cases here
      exact .joining separate stopped begun joining joined (.inl rfl)

/-- An exception comes out of `run`, and `start` stops the loop if it still runs. -/
theorem Phase.unwind (phase : w.Phase) (own : w.runInSeparateThread = false) {p : Posted}
    {life : Nat} {open_ : Bool} {frames : List Frame}
    (inside : w.stack = .callback p life :: .run open_ :: frames) : (w.unwind frames).Phase := by
  unfold QueuedLoop.unwind
  simp only
  split
  next running =>
    apply Phase.reset
    intro separate
    cases own.symm.trans separate
  next idle =>
    cases phase with
    | idle stopped begun calm closed alone =>
      rw [inside] at closed
      exact .idle stopped begun calm closed.tail.tail
        fun separate => nomatch own.symm.trans separate
    | starting running => exact absurd running idle
    | running running => exact absurd running idle
    | joining separate => cases own.symm.trans separate

/-- A loop in the calling thread is not joined. -/
theorem Phase.not_joining (phase : w.Phase) (own : w.runInSeparateThread = false) :
    w.joining = false := by
  cases phase with
  | idle _ _ calm | starting _ _ calm | running _ _ calm => exact calm
  | joining separate => cases own.symm.trans separate

theorem unwind_isRunning (w : QueuedLoop) (frames : List Frame) :
    (w.unwind frames).isRunning = false := by
  unfold QueuedLoop.unwind
  simp only
  split
  next => rfl
  next idle => exact Bool.eq_false_iff.mpr idle

theorem Phase.stopJoining (phase : w.Phase) (running : w.isRunning) (begun : w.starting = false)
    (separate : w.runInSeparateThread) : { w.stopLoop with joining := true }.Phase := by
  cases phase with
  | running _ _ _ joined closed inside alone =>
    have stopped := inside.stopped
    rw [alone separate] at stopped
    exact .joining separate rfl begun rfl joined (.inr stopped)
  | idle stopped | joining _ stopped => cases stopped.symm.trans running
  | starting _ starting => cases begun.symm.trans starting

theorem Phase.stop (phase : w.Phase) (stepped : w.step .stop = some w') : w'.Phase := by
  simp only [QueuedLoop.step] at stepped
  split at stepped
  next idle =>
    cases stepped
    exact phase
  next running =>
    simp only [Option.ite_none_left_eq_some] at stepped
    obtain ⟨begun, stepped⟩ := stepped
    split at stepped
    next separate =>
      cases stepped
      exact phase.stopJoining (not_not.mp running) (Bool.eq_false_iff.mpr begun) separate
    next own =>
      cases stepped
      exact .reset fun separate => absurd separate own

/-- `stop` in the loop's own thread fails where it joins it. -/
theorem Phase.stopInside (phase : w.Phase) (stepped : w.step .stopInside = some w') : w'.Phase := by
  simp only [QueuedLoop.step, Option.ite_none_left_eq_some] at stepped
  obtain ⟨-, stepped⟩ := stepped
  split at stepped
  · split at stepped
    next idle =>
      cases stepped
      exact phase
    next running =>
      simp only [Option.ite_none_left_eq_some, Option.some.injEq] at stepped
      obtain ⟨begun, rfl⟩ := stepped
      cases phase with
      | running _ _ calm =>
        refine .idle rfl (Bool.eq_false_iff.mpr begun) calm (closed_stopped _) ?_
        intro _ joined
        cases joined
      | idle stopped | joining _ stopped => exact absurd stopped (by simpa using running)
      | starting _ starting => exact absurd starting begun
  · cases stepped

theorem unwind_runInSeparateThread (w : QueuedLoop) (frames : List Frame) :
    (w.unwind frames).runInSeparateThread = w.runInSeparateThread := by
  unfold QueuedLoop.unwind
  simp only
  split
  next => rfl
  next => rfl

/-- Where a loop runs is decided when it is created. -/
theorem runInSeparateThread_step {a : QueuedLoopAction} (stepped : w.step a = some w') :
    w'.runInSeparateThread = w.runInSeparateThread := by
  cases stepped_of_step stepped with
  | postAfter ms =>
    unfold QueuedLoop.postAfter
    split
    next => rfl
    next => rfl
  | throwOut => exact unwind_runInSeparateThread w _
  | _ => rfl

theorem phase_step (phase : w.Phase) {a : QueuedLoopAction} (stepped : w.step a = some w') :
    w'.Phase := by
  cases stepped_of_step stepped with
  | post => exact phase.same rfl rfl rfl rfl rfl rfl
  | postAfter ms =>
    unfold QueuedLoop.postAfter
    split
    · exact phase.same rfl rfl rfl rfl rfl rfl
    · exact phase.same rfl rfl rfl rfl rfl rfl
  | expire => exact phase.same rfl rfl rfl rfl rfl rfl
  | startRunning => exact phase
  | start idle calm => exact phase.start idle calm
  | launch begun joined => exact phase.launch begun joined
  | fire inside => exact phase.fire inside
  | finish inside => exact phase.finish inside
  | throwOut inside own => exact phase.unwind own inside
  | leave inside => exact phase.leave inside
  | join _ ended => exact .reset fun _ _ => ended
  | stopIdle | stopJoining | stop => exact phase.stop stepped
  | stopInsideIdle | stopInside => exact phase.stopInside stepped

end QueuedLoop

/-- A callback that has been called by `notify_stop`, and by which run of the loop. -/
structure StopCall where
  start : Nat
  callback : Nat
  deriving DecidableEq, Repr

/-- A start with its stop: the callbacks that were registered when `stop` was called. -/
structure Cycle where
  start : Nat
  callbacks : List Nat
  deriving DecidableEq, Repr

/-- A loop with the observers of its stop. Callbacks and starts are numbered. -/
structure ObservedLoop where
  loop : QueuedLoop
  stopObservers : List Nat := []
  /-- `notify_stop`: the copied observers that it has still to call -/
  notifying : Option (List Nat) := none
  registered : Nat := 0
  starts : Nat := 0
  /-- the starts whose `run` has not returned, the innermost first -/
  runs : List Nat := []
  /-- the observers that there were when the `stop` that joins was called -/
  joined : List Nat := []
  notified : List StopCall := []
  /-- the cycles whose `stop` has returned -/
  stopped : List Cycle := []
  deriving DecidableEq, Repr

inductive ObservedAction where
  | onStop
  /-- The service returns to `run`, which copies the observers of the stop. -/
  | copy
  /-- `run` calls the next of them. -/
  | notify
  | loop (a : QueuedLoopAction)
  deriving DecidableEq, Repr

namespace ObservedLoop

open QueuedLoop

def create (runInSeparateThread : Bool) : ObservedLoop :=
  { loop := QueuedLoop.create runInSeparateThread }

/-- `on_stop` -/
def onStop (w : ObservedLoop) : ObservedLoop :=
  { w with
    stopObservers := w.stopObservers ++ [w.registered]
    registered := w.registered + 1 }

/-- `reset`, when `stop` was called with some observers registered. -/
def reset (w : ObservedLoop) (loop : QueuedLoop) (callbacks : List Nat) : ObservedLoop :=
  { w with loop, stopObservers := [], stopped := w.stopped ++ [⟨w.starts, callbacks⟩] }

/-- What a step of the loop means for the observers of its stop. -/
def follow (w : ObservedLoop) (loop : QueuedLoop) : QueuedLoopAction → Option ObservedLoop
  | .launch => some { w with loop, starts := w.starts + 1, runs := (w.starts + 1) :: w.runs }
  -- `run` does not return before it has called what it has copied
  | .leave =>
    if w.notifying = some [] then some { w with loop, notifying := none, runs := w.runs.tail }
    else none
  -- `notify_stop` is not reached
  | .throwOut =>
    if w.loop.busy then none
    else
      some { w with
        loop
        stopObservers := if w.loop.isRunning then [] else w.stopObservers
        runs := w.runs.tail }
  | .finish => if w.loop.busy then none else some { w with loop }
  | .stop =>
    if ¬ w.loop.isRunning then some { w with loop }
    else if w.loop.runInSeparateThread then some { w with loop, joined := w.stopObservers }
    else some (w.reset loop w.stopObservers)
  | .join => some (w.reset loop w.joined)
  | _ => some { w with loop }

def step (w : ObservedLoop) : ObservedAction → Option ObservedLoop
  | .onStop => some w.onStop
  | .copy =>
    match w.loop.stack with
    | .run false :: _ =>
      if w.loop.busy ∨ w.notifying.isSome then none
      else some { w with notifying := some w.stopObservers }
    | _ => none
  | .notify =>
    match w.notifying, w.runs with
    | some (callback :: rest), start :: _ =>
      some { w with
        notifying := some rest
        notified := w.notified ++ [⟨start, callback⟩] }
    | _, _ => none
  | .loop a => (w.loop.step a).bind fun loop => w.follow loop a

/-- Each callback that was registered when `stop` was called has been called exactly once by the
run that was stopped. -/
def NotifiesOnce (w : ObservedLoop) : Prop :=
  ∀ cycle ∈ w.stopped, ∀ callback ∈ cycle.callbacks,
    w.notified.count ⟨cycle.start, callback⟩ = 1

instance (w : ObservedLoop) : Decidable w.NotifiesOnce := by
  unfold NotifiesOnce
  infer_instance

/-- A loop in the calling thread is stopped when nothing is registered. -/
def StopsUnobserved (w : ObservedLoop) : ObservedAction → Prop
  | .loop .stop =>
    w.loop.runInSeparateThread = false → w.loop.isRunning → w.loop.starting = false →
      w.stopObservers = []
  | _ => True

instance (w : ObservedLoop) : DecidablePred w.StopsUnobserved := fun a => by
  unfold StopsUnobserved
  split <;> infer_instance

/-- What a step can do, and when. -/
inductive Stepped (w : ObservedLoop) : ObservedAction → ObservedLoop → Prop where
  | onStop : Stepped w .onStop w.onStop
  | copy {frames : List Frame} (inside : w.loop.stack = .run false :: frames)
      (free : w.loop.busy = false) (fresh : w.notifying = none) :
    Stepped w .copy { w with notifying := some w.stopObservers }
  | notify {callback start : Nat} {rest runs : List Nat}
      (copied : w.notifying = some (callback :: rest)) (head : w.runs = start :: runs) :
    Stepped w .notify { w with
      notifying := some rest
      notified := w.notified ++ [⟨start, callback⟩] }
  | loop {a : QueuedLoopAction} {loop : QueuedLoop} {w' : ObservedLoop}
      (moved : w.loop.step a = some loop) (followed : w.follow loop a = some w') :
    Stepped w (.loop a) w'

theorem stepped_of_step {w w' : ObservedLoop} {a : ObservedAction} (step : w.step a = some w') :
    Stepped w a w' := by
  cases a with
  | onStop =>
    cases step
    exact .onStop
  | copy =>
    simp only [ObservedLoop.step] at step
    split at step
    next inside =>
      simp only [Option.ite_none_left_eq_some, Option.some.injEq, not_or] at step
      obtain ⟨⟨free, fresh⟩, rfl⟩ := step
      exact .copy inside (Bool.eq_false_iff.mpr free) (Option.not_isSome_iff_eq_none.mp fresh)
    · cases step
  | notify =>
    simp only [ObservedLoop.step] at step
    split at step
    next copied head =>
      cases step
      exact .notify copied head
    · cases step
  | loop a =>
    obtain ⟨loop, moved, followed⟩ := Option.bind_eq_some_iff.mp step
    exact .loop moved followed

/-- The cycle that ends with a step of the loop. -/
theorem follow_cases {w w' : ObservedLoop} {loop : QueuedLoop} {a : QueuedLoopAction}
    (followed : w.follow loop a = some w') :
    w'.loop = loop ∧ w'.notified = w.notified ∧
      (w'.stopped = w.stopped ∨
        a = .join ∧ w'.stopped = w.stopped ++ [⟨w.starts, w.joined⟩] ∨
        a = .stop ∧ w.loop.isRunning ∧ ¬ w.loop.runInSeparateThread ∧
          w'.stopped = w.stopped ++ [⟨w.starts, w.stopObservers⟩]) := by
  cases a with
  | stop =>
    simp only [follow] at followed
    split at followed
    · cases followed
      exact ⟨rfl, rfl, .inl rfl⟩
    next running =>
      split at followed
      · cases followed
        exact ⟨rfl, rfl, .inl rfl⟩
      next own =>
        cases followed
        exact ⟨rfl, rfl, .inr (.inr ⟨rfl, not_not.mp running, own, rfl⟩)⟩
  | join =>
    cases followed
    exact ⟨rfl, rfl, .inr (.inl ⟨rfl, rfl⟩)⟩
  | leave =>
    simp only [follow, Option.ite_none_right_eq_some, Option.some.injEq] at followed
    obtain ⟨-, rfl⟩ := followed
    exact ⟨rfl, rfl, .inl rfl⟩
  | throwOut | finish =>
    simp only [follow, Option.ite_none_left_eq_some, Option.some.injEq] at followed
    obtain ⟨-, rfl⟩ := followed
    exact ⟨rfl, rfl, .inl rfl⟩
  | _ =>
    cases followed
    exact ⟨rfl, rfl, .inl rfl⟩

/-! ### What holds of every run -/

structure Sound (w : ObservedLoop) : Prop where
  phase : w.loop.Phase
  /-- What is copied is called by a `run` whose service has been stopped. -/
  closed : ∀ l ∈ w.notifying, (∃ frames, w.loop.stack = .run false :: frames) ∧
    w.loop.busy = false
  bounded : ∀ c ∈ w.stopObservers, c < w.registered
  nodup : w.stopObservers.Nodup
  copied : ∀ l ∈ w.notifying, l.Nodup ∧ ∀ c ∈ l, c < w.registered
  /-- The observers of a cycle are gone with it. -/
  gone : ∀ cycle ∈ w.stopped, ∀ c ∈ cycle.callbacks,
    c < w.registered ∧ c ∉ w.stopObservers ∧ ∀ l ∈ w.notifying, c ∉ l
  runs : ∀ n ∈ w.runs, n ≤ w.starts
  heard : ∀ call ∈ w.notified, call.start ≤ w.starts
  /-- A run that goes on has notified no one. -/
  quiet : w.loop.isRunning → w.loop.starting = false →
    w.runs.head? = some w.starts ∧ ∀ call ∈ w.notified, call.start < w.starts
  known : ∀ c ∈ w.joined, c < w.registered
  /-- While `stop` joins the thread, the thread has not come to the observers yet, -/
  waits : w.loop.joining → w.loop.stack ≠ [] → w.runs.head? = some w.starts ∧
    (w.notifying = none → w.joined ⊆ w.stopObservers ∧ ∀ call ∈ w.notified, call.start < w.starts)
  /-- has called some of them and will call the others, -/
  calls : w.loop.joining → ∀ l ∈ w.notifying, ∀ c ∈ w.joined,
    w.notified.count ⟨w.starts, c⟩ + l.count c = 1
  /-- or has called them all and has ended. -/
  done : w.loop.joining → w.loop.stack = [] → ∀ c ∈ w.joined,
    w.notified.count ⟨w.starts, c⟩ = 1

theorem sound_create (runInSeparateThread : Bool) : (create runInSeparateThread).Sound where
  phase := .idle rfl rfl rfl nofun fun _ _ => rfl
  closed := nofun
  bounded := nofun
  nodup := .nil
  copied := nofun
  gone := nofun
  runs := nofun
  heard := nofun
  quiet := nofun
  known := nofun
  waits := nofun
  calls := nofun
  done := nofun

variable {w w' : ObservedLoop} {loop : QueuedLoop}

/-- While the loop runs nothing is copied. -/
theorem Sound.notifying_eq_none (sound : w.Sound) (running : w.loop.isRunning)
    (begun : w.loop.starting = false) : w.notifying = none := by
  rw [Option.eq_none_iff_forall_not_mem]
  intro l member
  obtain ⟨⟨frames, inside⟩, -⟩ := sound.closed l member
  cases sound.phase with
  | idle stopped | joining _ stopped => cases stopped.symm.trans running
  | starting _ starting => cases begun.symm.trans starting
  | running _ _ _ _ _ here =>
    rw [inside] at here
    cases here

/-- Steps of the loop that the observers do not notice. -/
theorem Sound.keep (sound : w.Sound) (phase : loop.Phase) (joining : loop.joining = w.loop.joining)
    (running : loop.isRunning → loop.starting = false →
      w.loop.isRunning ∧ w.loop.starting = false)
    (stack : w.loop.joining → (loop.stack = [] ↔ w.loop.stack = []))
    (closed : ∀ l ∈ w.notifying, (∃ frames, loop.stack = .run false :: frames) ∧
      loop.busy = false) : { w with loop }.Sound where
  phase := phase
  closed := closed
  bounded := sound.bounded
  nodup := sound.nodup
  copied := sound.copied
  gone := sound.gone
  runs := sound.runs
  heard := sound.heard
  quiet isRunning begun := sound.quiet (running isRunning begun).1 (running isRunning begun).2
  known := sound.known
  waits joins inside := by
    rw [joining] at joins
    exact sound.waits joins fun ended => inside ((stack joins).mpr ended)
  calls joins := sound.calls (joining ▸ joins)
  done joins ended := by
    rw [joining] at joins
    exact sound.done joins ((stack joins).mp ended)

theorem Sound.onStop (sound : w.Sound) : w.onStop.Sound :=
  { sound with
    bounded := by
      intro c member
      rcases List.mem_append.mp member with before | new
      · exact Nat.lt_succ_of_lt (sound.bounded c before)
      · rw [List.mem_singleton.mp new]
        exact Nat.lt_succ_self _
    nodup := by
      refine List.nodup_append.mpr ⟨sound.nodup, List.nodup_singleton _, ?_⟩
      intro c before d new
      rw [List.mem_singleton.mp new]
      exact Nat.ne_of_lt (sound.bounded c before)
    copied := by
      intro l member
      obtain ⟨nodup, bounded⟩ := sound.copied l member
      exact ⟨nodup, fun c here => Nat.lt_succ_of_lt (bounded c here)⟩
    gone := by
      intro cycle member c here
      obtain ⟨below, away, elsewhere⟩ := sound.gone cycle member c here
      refine ⟨Nat.lt_succ_of_lt below, fun found => ?_, elsewhere⟩
      rcases List.mem_append.mp found with before | new
      · exact away before
      · exact Nat.ne_of_lt below (List.mem_singleton.mp new)
    known := fun c member => Nat.lt_succ_of_lt (sound.known c member)
    waits := by
      intro joins inside
      obtain ⟨head, waits⟩ := sound.waits joins inside
      refine ⟨head, fun fresh => ?_⟩
      obtain ⟨registered, early⟩ := waits fresh
      exact ⟨List.Subset.trans registered (List.subset_append_left _ _), early⟩ }

theorem count_eq_zero {notified : List StopCall} {start : Nat}
    (early : ∀ call ∈ notified, call.start < start) (callback : Nat) :
    notified.count ⟨start, callback⟩ = 0 := by
  apply List.count_eq_zero.mpr
  intro member
  exact Nat.lt_irrefl _ (early _ member)

theorem Sound.copy (sound : w.Sound) {frames : List Frame}
    (inside : w.loop.stack = .run false :: frames) (free : w.loop.busy = false)
    (fresh : w.notifying = none) : { w with notifying := some w.stopObservers }.Sound :=
  { sound with
    closed := fun _ _ => ⟨⟨frames, inside⟩, free⟩
    copied := by
      rintro l ⟨⟩
      exact ⟨sound.nodup, sound.bounded⟩
    gone := by
      intro cycle member c here
      obtain ⟨below, away, -⟩ := sound.gone cycle member c here
      refine ⟨below, away, ?_⟩
      rintro l ⟨⟩
      exact away
    waits := fun joins ended => ⟨(sound.waits joins ended).1, nofun⟩
    calls := by
      rintro joins l ⟨⟩ c member
      have ended : w.loop.stack ≠ [] := by
        rw [inside]
        nofun
      obtain ⟨registered, early⟩ := (sound.waits joins ended).2 fresh
      rw [count_eq_zero early, List.count_eq_one_of_mem sound.nodup (registered member)] }

theorem Sound.notify (sound : w.Sound) {c start : Nat} {rest runs : List Nat}
    (copied : w.notifying = some (c :: rest)) (head : w.runs = start :: runs) :
    { w with
      notifying := some rest
      notified := w.notified ++ [StopCall.mk start c] }.Sound := by
  obtain ⟨⟨frames, inside⟩, free⟩ := sound.closed (c :: rest) copied
  have ended : w.loop.stack ≠ [] := by
    rw [inside]
    nofun
  exact { sound with
    closed := fun _ _ => ⟨⟨frames, inside⟩, free⟩
    copied := by
      rintro l ⟨⟩
      obtain ⟨nodup, bounded⟩ := sound.copied _ copied
      exact ⟨nodup.of_cons, fun d member => bounded d (List.mem_cons_of_mem c member)⟩
    gone := by
      intro cycle member d here
      obtain ⟨below, away, elsewhere⟩ := sound.gone cycle member d here
      refine ⟨below, away, ?_⟩
      rintro l ⟨⟩ found
      exact elsewhere _ copied (List.mem_cons_of_mem c found)
    heard := by
      intro call member
      rcases List.mem_append.mp member with before | new
      · exact sound.heard call before
      · rw [List.mem_singleton.mp new]
        exact sound.runs start (head ▸ List.mem_cons_self)
    quiet := by
      intro running begun
      cases copied.symm.trans (sound.notifying_eq_none running begun)
    waits := fun joins _ => ⟨(sound.waits joins ended).1, nofun⟩
    calls := by
      rintro joins l ⟨⟩ d member
      have last : start = w.starts := by
        have first := (sound.waits joins ended).1
        rw [head] at first
        exact Option.some.inj first
      have before := sound.calls joins _ copied d member
      -- it goes from those that are to be called to those that have been
      rw [List.count_append, last, List.count_singleton]
      rw [List.count_cons] at before
      by_cases same : c = d
      · simp [same] at before ⊢
        omega
      · simp [same] at before ⊢
        omega
    done := fun _ empty => absurd empty ended }

/-- A new `run`, which has copied nothing. -/
theorem Sound.launch (sound : w.Sound) (begun : w.loop.starting)
    (joined : w.loop.unjoined = false) :
    { w with
      loop := w.loop.launch
      starts := w.starts + 1
      runs := (w.starts + 1) :: w.runs }.Sound := by
  have calm : w.loop.joining = false := by
    cases sound.phase with
    | starting _ _ calm => exact calm
    | idle _ rest | running _ rest | joining _ _ rest => cases rest.symm.trans begun
  have fresh : w.notifying = none := by
    rw [Option.eq_none_iff_forall_not_mem]
    intro l member
    obtain ⟨⟨frames, inside⟩, free⟩ := sound.closed l member
    cases sound.phase with
    | starting _ _ _ _ alone =>
      -- a thread of its own has not been created yet, and the calling thread is in `start`
      cases separate : w.loop.runInSeparateThread with
      | true => cases inside.symm.trans (alone separate joined)
      | false =>
        rw [busy, separate, begun] at free
        cases free
    | idle _ rest | running _ rest | joining _ _ rest => cases rest.symm.trans begun
  exact { sound with
    phase := sound.phase.launch begun joined
    closed := fun l member => absurd (fresh.symm.trans member) nofun
    runs := by
      intro n member
      rcases List.mem_cons.mp member with rfl | before
      · exact Nat.le_refl _
      · exact Nat.le_succ_of_le (sound.runs n before)
    heard := fun call member => Nat.le_succ_of_le (sound.heard call member)
    quiet := fun _ _ => ⟨rfl, fun call member => Nat.lt_succ_of_le (sound.heard call member)⟩
    waits := fun joins => absurd (calm.symm.trans joins) (by decide)
    calls := fun joins => absurd (calm.symm.trans joins) (by decide)
    done := fun joins => absurd (calm.symm.trans joins) (by decide) }

/-- `run` has called all that it has copied, and returns. -/
theorem Sound.leave (sound : w.Sound) {frames : List Frame}
    (inside : w.loop.stack = .run false :: frames) (called : w.notifying = some []) :
    { w with
      loop := { w.loop with stack := frames }
      notifying := none
      runs := w.runs.tail }.Sound := by
  have passive : w.loop.isRunning → w.loop.starting = false → False := by
    intro running begun
    cases called.symm.trans (sound.notifying_eq_none running begun)
  have last : w.loop.joining → frames = [] := by
    intro joins
    -- a thread of its own has no other `run`
    cases sound.phase with
    | joining _ _ _ _ _ here =>
      rw [inside] at here
      rcases here with here | here
      · cases here
      · cases here
        rfl
    | idle _ _ calm | starting _ _ calm | running _ _ calm => cases calm.symm.trans joins
  exact { sound with
    phase := sound.phase.leave inside
    closed := nofun
    copied := nofun
    gone := fun cycle member c here =>
      ⟨(sound.gone cycle member c here).1, (sound.gone cycle member c here).2.1, nofun⟩
    runs := fun n member => sound.runs n (List.mem_of_mem_tail member)
    quiet := fun running begun => (passive running begun).elim
    waits := fun joins ended => absurd (last joins) ended
    calls := nofun
    done := fun joins _ c member => sound.calls joins [] called c member }

/-- An exception comes out of `run` before anything is copied. -/
theorem Sound.throwOut (sound : w.Sound) (own : w.loop.runInSeparateThread = false) {p : Posted}
    {life : Nat} {open_ : Bool} {frames : List Frame}
    (inside : w.loop.stack = .callback p life :: .run open_ :: frames) :
    { w with
      loop := w.loop.unwind frames
      stopObservers := if w.loop.isRunning then [] else w.stopObservers
      runs := w.runs.tail }.Sound := by
  -- the callback is on top, so its `run` has copied nothing
  have fresh : w.notifying = none := by
    rw [Option.eq_none_iff_forall_not_mem]
    intro l member
    obtain ⟨⟨frames, there⟩, -⟩ := sound.closed l member
    cases inside.symm.trans there
  have fewer : (if w.loop.isRunning then [] else w.stopObservers) ⊆ w.stopObservers := by
    split
    · exact List.nil_subset _
    · exact List.Subset.refl _
  have phase := sound.phase.unwind own inside
  have stopped := unwind_isRunning w.loop frames
  have calm : (w.loop.unwind frames).joining = false := phase.not_joining (by
    rw [unwind_runInSeparateThread, own])
  exact { sound with
    phase := phase
    closed := fun l member => absurd (fresh.symm.trans member) nofun
    bounded := fun c member => sound.bounded c (fewer member)
    nodup := by
      show List.Nodup (if w.loop.isRunning then [] else w.stopObservers)
      split
      · exact List.nodup_nil
      · exact sound.nodup
    gone := by
      intro cycle member c here
      obtain ⟨below, away, elsewhere⟩ := sound.gone cycle member c here
      exact ⟨below, fun found => away (fewer found), elsewhere⟩
    runs := fun n member => sound.runs n (List.mem_of_mem_tail member)
    quiet := fun running => absurd (stopped.symm.trans running) (by decide)
    waits := fun joins => absurd (calm.symm.trans joins) (by decide)
    calls := fun joins => absurd (calm.symm.trans joins) (by decide)
    done := fun joins => absurd (calm.symm.trans joins) (by decide) }

/-- `stop` of a loop in a thread of its own, up to where it joins the thread. -/
theorem Sound.stopJoining (sound : w.Sound) (running : w.loop.isRunning)
    (begun : w.loop.starting = false) (separate : w.loop.runInSeparateThread) :
    { w with
      loop := { w.loop.stopLoop with joining := true }
      joined := w.stopObservers }.Sound := by
  have fresh := sound.notifying_eq_none running begun
  obtain ⟨head, early⟩ := sound.quiet running begun
  have phase := sound.phase.stopJoining running begun separate
  have inside : w.loop.stack ≠ [] := by
    cases sound.phase with
    | running _ _ _ _ _ here => exact here.ne_nil
    | idle stopped | joining _ stopped => cases stopped.symm.trans running
    | starting _ starting => cases begun.symm.trans starting
  exact { sound with
    phase := phase
    closed := fun l member => absurd (fresh.symm.trans member) nofun
    quiet := nofun
    known := sound.bounded
    waits := fun _ _ => ⟨head, fun _ => ⟨List.Subset.refl _, early⟩⟩
    calls := fun _ l member => absurd (fresh.symm.trans member) nofun
    done := fun _ ended => absurd (List.map_eq_nil_iff.mp ended) inside }

/-- The observers that were registered go with the reset. -/
theorem Sound.reset (sound : w.Sound) (phase : w.loop.reset.Phase) (fresh : w.notifying = none)
    {callbacks : List Nat} (known : ∀ c ∈ callbacks, c < w.registered) :
    (w.reset w.loop.reset callbacks).Sound :=
  { sound with
    phase := phase
    closed := fun l member => absurd (fresh.symm.trans member) nofun
    bounded := nofun
    nodup := .nil
    gone := by
      intro cycle member c here
      refine ⟨?_, nofun, fun l found => absurd (fresh.symm.trans found) nofun⟩
      rcases List.mem_append.mp member with before | new
      · exact (sound.gone cycle before c here).1
      · rw [List.mem_singleton.mp new] at here
        exact known c here
    quiet := nofun
    waits := nofun
    calls := nofun
    done := nofun }

theorem Sound.stop (sound : w.Sound) (moved : w.loop.step .stop = some loop)
    (followed : w.follow loop .stop = some w') : w'.Sound := by
  have phase := sound.phase.stop moved
  simp only [QueuedLoop.step] at moved
  simp only [follow] at followed
  split at moved
  next idle =>
    cases moved
    rw [if_pos idle] at followed
    cases followed
    exact sound
  next running =>
    simp only [Option.ite_none_left_eq_some] at moved
    obtain ⟨begun, moved⟩ := moved
    rw [if_neg running] at followed
    have running := not_not.mp running
    have begun := Bool.eq_false_iff.mpr begun
    split at moved
    next separate =>
      cases moved
      rw [if_pos separate] at followed
      cases followed
      exact sound.stopJoining running begun separate
    next own =>
      cases moved
      rw [if_neg own] at followed
      cases followed
      exact sound.reset phase (sound.notifying_eq_none running begun) sound.bounded

/-- `start` sets the loop running; the calling thread is in no `run` then. -/
theorem Sound.start (sound : w.Sound) (idle : ¬ w.loop.isRunning) (calm : w.loop.joining = false)
    (free : w.loop.runInSeparateThread = false → w.loop.inRun = false) :
    { w with loop := { w.loop with isRunning := true, starting := true } }.Sound := by
  apply sound.keep (sound.phase.start idle calm) rfl nofun (fun _ => .rfl)
  intro l member
  obtain ⟨⟨frames, inside⟩, -⟩ := sound.closed l member
  refine ⟨⟨frames, inside⟩, ?_⟩
  cases separate : w.loop.runInSeparateThread with
  | true => simp [busy]
  | false =>
    have outside := free separate
    simp [inRun, inside] at outside

/-- The frames of a callback and of the `run` under it are not copying observers. -/
theorem Sound.not_copied (sound : w.Sound) {frame : Frame} {frames : List Frame}
    (inside : w.loop.stack = frame :: frames) (other : frame ≠ .run false) :
    ∀ l ∈ w.notifying, False := by
  intro l member
  obtain ⟨⟨rest, there⟩, -⟩ := sound.closed l member
  exact other (List.cons.inj (inside.symm.trans there)).1

theorem Sound.fire (sound : w.Sound) {p : Posted} {rest : List Posted} {frames : List Frame}
    (inside : w.loop.stack = .run true :: frames) :
    { w with loop := w.loop.fire p rest }.Sound := by
  apply sound.keep (sound.phase.fire inside) rfl (fun running begun => ⟨running, begun⟩)
  · intro _
    simp [QueuedLoop.fire, inside]
  · intro l member
    exact (sound.not_copied inside nofun l member).elim

theorem Sound.finish (sound : w.Sound) {p : Posted} {life : Nat} {frames : List Frame}
    (inside : w.loop.stack = .callback p life :: frames) :
    { w with loop := w.loop.finish p life frames }.Sound := by
  apply sound.keep (sound.phase.finish inside) rfl (fun running begun => ⟨running, begun⟩)
  · intro joins
    cases sound.phase with
    | joining _ _ _ _ _ here =>
      rw [inside] at here
      rcases here with here | here
      · cases here
      · cases here
        simp [QueuedLoop.finish, inside]
    | idle _ _ calm | starting _ _ calm | running _ _ calm => cases calm.symm.trans joins
  · intro l member
    exact (sound.not_copied inside nofun l member).elim

theorem Sound.stopInside (sound : w.Sound)
    (phase : { w.loop.stopLoop with unjoined := true }.Phase) :
    { w with loop := { w.loop.stopLoop with unjoined := true } }.Sound := by
  apply sound.keep phase rfl nofun
  · intro _
    exact List.map_eq_nil_iff
  · intro l member
    obtain ⟨⟨frames, inside⟩, free⟩ := sound.closed l member
    refine ⟨⟨frames.map Frame.stopped, ?_⟩, free⟩
    simp [QueuedLoop.stopLoop, inside, Frame.stopped]

theorem sound_loop (sound : w.Sound) {a : QueuedLoopAction} (moved : w.loop.step a = some loop)
    (followed : w.follow loop a = some w') : w'.Sound := by
  have phase := phase_step sound.phase moved
  cases QueuedLoop.stepped_of_step moved with
  | stopIdle | stopJoining | stop => exact sound.stop moved followed
  | post =>
    cases followed
    exact sound.keep phase rfl (fun running begun => ⟨running, begun⟩) (fun _ => .rfl) sound.closed
  | postAfter ms =>
    cases followed
    unfold QueuedLoop.postAfter at phase ⊢
    split at phase
    · exact sound.keep phase rfl (fun running begun => ⟨running, begun⟩) (fun _ => .rfl)
        sound.closed
    · exact sound.keep phase rfl (fun running begun => ⟨running, begun⟩) (fun _ => .rfl)
        sound.closed
  | expire =>
    cases followed
    exact sound.keep phase rfl (fun running begun => ⟨running, begun⟩) (fun _ => .rfl) sound.closed
  | startRunning | stopInsideIdle =>
    cases followed
    exact sound
  | start idle calm free =>
    cases followed
    exact sound.start idle calm free
  | launch begun joined =>
    cases followed
    exact sound.launch begun joined
  | fire inside =>
    cases followed
    exact sound.fire inside
  | finish inside =>
    simp only [follow, Option.ite_none_left_eq_some, Option.some.injEq] at followed
    obtain ⟨-, rfl⟩ := followed
    exact sound.finish inside
  | throwOut inside own =>
    simp only [follow, Option.ite_none_left_eq_some, Option.some.injEq] at followed
    obtain ⟨-, rfl⟩ := followed
    exact sound.throwOut own inside
  | stopInside =>
    cases followed
    exact sound.stopInside phase
  | leave inside =>
    simp only [follow, Option.ite_none_right_eq_some, Option.some.injEq] at followed
    obtain ⟨called, rfl⟩ := followed
    exact sound.leave inside called
  | join joining ended =>
    cases followed
    refine sound.reset phase ?_ sound.known
    rw [Option.eq_none_iff_forall_not_mem]
    intro l member
    obtain ⟨⟨frames, inside⟩, -⟩ := sound.closed l member
    cases inside.symm.trans ended

theorem sound_step (w : ObservedLoop) (a : ObservedAction) (w' : ObservedLoop) (sound : w.Sound)
    (stepped : w.step a = some w') : w'.Sound := by
  cases stepped_of_step stepped with
  | onStop => exact sound.onStop
  | copy inside free fresh => exact sound.copy inside free fresh
  | notify copied head => exact sound.notify copied head
  | loop moved followed => exact sound_loop sound moved followed

/-- What has been notified of the cycles so far, and of those that end with a step. -/
def Ends (w w' : ObservedLoop) (ok : Prop) : Prop :=
  ∃ more, w'.stopped = w.stopped ++ more ∧
    (∀ cycle ∈ w.stopped, ∀ c ∈ cycle.callbacks,
      w'.notified.count ⟨cycle.start, c⟩ = w.notified.count ⟨cycle.start, c⟩) ∧
    (ok → ∀ cycle ∈ more, ∀ c ∈ cycle.callbacks, w'.notified.count ⟨cycle.start, c⟩ = 1)

theorem ends_of_same (stopped : w'.stopped = w.stopped) (notified : w'.notified = w.notified)
    (ok : Prop) : w.Ends w' ok := by
  refine ⟨[], ?_, ?_, nofun⟩
  · rw [stopped, List.append_nil]
  · intro cycle _ c _
    rw [notified]

/-- Who is called belongs to no cycle that has ended. -/
theorem Sound.ends_notify (sound : w.Sound) {c start : Nat} {rest : List Nat}
    (copied : w.notifying = some (c :: rest)) (ok : Prop) :
    w.Ends { w with
      notifying := some rest
      notified := w.notified ++ [StopCall.mk start c] } ok := by
  refine ⟨[], (List.append_nil _).symm, ?_, nofun⟩
  intro cycle member d here
  have other : c ≠ d := by
    rintro rfl
    exact (sound.gone cycle member c here).2.2 (c :: rest) copied List.mem_cons_self
  rw [List.count_append, List.count_singleton]
  simp [other]

theorem Sound.ends_loop (sound : w.Sound) {a : QueuedLoopAction}
    (moved : w.loop.step a = some loop) (followed : w.follow loop a = some w') :
    w.Ends w' (w.StopsUnobserved (.loop a)) := by
  obtain ⟨-, notified, same | ⟨rfl, stopped⟩ | ⟨rfl, running, own, stopped⟩⟩ :=
    follow_cases followed
  · exact ends_of_same same notified _
  · -- the thread has ended, so it has called them all
    refine ⟨_, stopped, fun _ _ _ _ => by rw [notified], fun _ cycle member c here => ?_⟩
    rw [List.mem_singleton.mp member] at here ⊢
    rw [notified]
    cases QueuedLoop.stepped_of_step moved with
    | join joining ended => exact sound.done joining ended c here
  · -- nothing was registered
    refine ⟨_, stopped, fun _ _ _ _ => by rw [notified], fun unobserved cycle member c here => ?_⟩
    have begun : w.loop.starting = false := by
      rw [QueuedLoop.step, if_neg (not_not.mpr running)] at moved
      exact Bool.eq_false_iff.mpr (Option.ite_none_left_eq_some.mp moved).1
    rw [List.mem_singleton.mp member] at here
    rw [unobserved (Bool.eq_false_iff.mpr own) running begun] at here
    cases here

theorem Sound.ends_step (sound : w.Sound) {a : ObservedAction} (stepped : w.step a = some w') :
    w.Ends w' (w.StopsUnobserved a) := by
  cases stepped_of_step stepped with
  | onStop => exact ends_of_same rfl rfl _
  | copy => exact ends_of_same rfl rfl _
  | notify copied => exact sound.ends_notify copied _
  | loop moved followed => exact sound.ends_loop moved followed

theorem Ends.notifiesOnce {ok : Prop} (ends : w.Ends w' ok) (once : w.NotifiesOnce) (met : ok) :
    w'.NotifiesOnce := by
  obtain ⟨more, stopped, same, last⟩ := ends
  intro cycle member c here
  rw [stopped] at member
  rcases List.mem_append.mp member with before | new
  · rw [same cycle before c here]
    exact once cycle before c here
  · exact last met cycle new c here

/-- A cycle that has ended is not made up for. -/
theorem Ends.notifiesOnce_of {ok : Prop} (ends : w.Ends w' ok) (once : w'.NotifiesOnce) :
    w.NotifiesOnce := by
  obtain ⟨more, stopped, same, -⟩ := ends
  intro cycle member c here
  rw [← same cycle member c here]
  apply once cycle _ c here
  rw [stopped]
  exact List.mem_append_left _ member

theorem breaks (w : ObservedLoop) (a : ObservedAction) (sound : w.Sound)
    (observed : ¬ w.StopsUnobserved a) : ∃ w', w.step a = some w' ∧ ¬ w'.NotifiesOnce := by
  unfold StopsUnobserved at observed
  split at observed
  next =>
    simp only [Classical.not_imp] at observed
    obtain ⟨own, running, begun, registered⟩ := observed
    obtain ⟨c, member⟩ := List.exists_mem_of_ne_nil _ registered
    refine ⟨w.reset w.loop.reset w.stopObservers, ?_, fun once => ?_⟩
    · simp [step, QueuedLoop.step, follow, own, running, begun]
    · -- the run that is stopped has not notified anyone
      have called := once ⟨w.starts, w.stopObservers⟩
        (List.mem_append_right _ (List.mem_singleton_self _)) c member
      have early := (sound.quiet running begun).2
      rw [show (w.reset w.loop.reset w.stopObservers).notified = w.notified from rfl,
        count_eq_zero early] at called
      cases called
  · exact absurd trivial observed

theorem notifiesOnce_iff (runInSeparateThread : Bool) (acts : List ObservedAction) :
    (∀ w, Visits step (create runInSeparateThread) acts w → w.NotifiesOnce) ↔
      Meets step StopsUnobserved (create runInSeparateThread) acts := by
  have keeps : ∀ (s : ObservedLoop) a s', s.Sound ∧ s.NotifiesOnce → s.StopsUnobserved a →
      s.step a = some s' → s'.Sound ∧ s'.NotifiesOnce :=
    fun s a s' ⟨sound, once⟩ ok stepped =>
      ⟨sound_step s a s' sound stepped, (sound.ends_step stepped).notifiesOnce once ok⟩
  exact always_iff keeps (fun _ valid => valid.2) (fun s a valid => breaks s a valid.1) acts
    ⟨sound_create runInSeparateThread, nofun⟩

theorem separate_step {a : ObservedAction} (stepped : w.step a = some w') :
    w'.loop.runInSeparateThread = w.loop.runInSeparateThread := by
  cases stepped_of_step stepped with
  | onStop | copy | notify => rfl
  | loop moved followed =>
    rw [(follow_cases followed).1]
    exact runInSeparateThread_step moved

/-- A loop in a thread of its own may be stopped with any observers. -/
theorem meets_of_separate (w : ObservedLoop) (separate : w.loop.runInSeparateThread)
    (acts : List ObservedAction) : Meets step StopsUnobserved w acts := by
  induction acts generalizing w with
  | nil => trivial
  | cons a acts ih =>
    refine ⟨?_, fun next stepped => ih next ((separate_step stepped).trans separate)⟩
    unfold StopsUnobserved
    split
    · intro own
      cases own.symm.trans separate
    · trivial

theorem Sound.missed (sound : w.Sound) (missed : ¬ w.NotifiesOnce) {acts : List ObservedAction}
    (visited : Visits step w acts w') : ¬ w'.NotifiesOnce := by
  have keeps : ∀ (s : ObservedLoop) a s', s.Sound ∧ ¬ s.NotifiesOnce → s.step a = some s' →
      s'.Sound ∧ ¬ s'.NotifiesOnce :=
    fun s a s' ⟨sound, missed⟩ stepped =>
      ⟨sound_step s a s' sound stepped,
        fun once => missed ((sound.ends_step stepped).notifiesOnce_of once)⟩
  exact (visited.invariant keeps ⟨sound, missed⟩).2

/-- Each callback that was registered when `stop` was called has been called exactly once by the
run that was stopped, whatever else is done, exactly as long as a loop in the calling thread is
not stopped when something is registered. A loop in a thread of its own always meets this; and
what was missed when `stop` returned is not made up for when `run` returns, or ever. -/
theorem notified_once_iff (runInSeparateThread : Bool) (acts : List ObservedAction) :
    ((∀ w, Visits step (create runInSeparateThread) acts w → w.NotifiesOnce) ↔
      Meets step StopsUnobserved (create runInSeparateThread) acts) ∧
    (∀ w, Visits step (create true) acts w → w.NotifiesOnce) ∧
    ∀ w, Visits step (create runInSeparateThread) acts w → ¬ w.NotifiesOnce →
      ∀ more w', Visits step w more w' → ¬ w'.NotifiesOnce := by
  refine ⟨notifiesOnce_iff runInSeparateThread acts, ?_, ?_⟩
  · exact (notifiesOnce_iff true acts).mpr (meets_of_separate _ rfl acts)
  · intro w visited missed more w' later
    have sound : w.Sound := visited.invariant sound_step (sound_create runInSeparateThread)
    exact sound.missed missed later

/-- Two callbacks are registered, the loop is started and stopped, and once more with another. -/
def observedTwice : List ObservedAction :=
  [.onStop, .onStop, .loop .start, .loop .launch, .loop .fire, .loop .finish, .loop .stop, .copy,
    .notify, .onStop, .notify, .loop .leave, .loop .join, .onStop, .loop .start, .loop .launch,
    .loop .stop, .copy, .notify, .loop .leave, .loop .join]

theorem notified_once_iff_twice :
    ∃ w, run step (create true) observedTwice = some w ∧
      w.stopped = [⟨1, [0, 1]⟩, ⟨2, [3]⟩] ∧ w.notified = [⟨1, 0⟩, ⟨1, 1⟩, ⟨2, 3⟩] ∧
      w.NotifiesOnce := by
  have ran : (run step (create true) observedTwice).map (fun w => (w.stopped, w.notified)) =
      some ([⟨1, [0, 1]⟩, ⟨2, [3]⟩], [⟨1, 0⟩, ⟨1, 1⟩, ⟨2, 3⟩]) := by decide +kernel
  obtain ⟨w, is, fields⟩ := Option.map_eq_some_iff.mp ran
  obtain ⟨stopped, notified⟩ := Prod.mk.inj fields
  refine ⟨w, is, stopped, notified, ?_⟩
  exact (notified_once_iff true observedTwice).2.1 w (visits_of_run is)

/-- A loop in the calling thread is stopped by a callback that was posted before the start: `run`
returns, and the registered callback has not been called. -/
theorem stopped_unnotified : ∃ w,
    run step (create false) [.onStop, .loop .post, .loop .start, .loop .launch, .loop .fire,
      .loop .stop, .loop .finish, .copy, .loop .leave] = some w ∧
    w.loop.stack = [] ∧ w.stopped = [⟨1, [0]⟩] ∧ w.notified = [] ∧ ¬ w.NotifiesOnce := by
  refine ⟨_, rfl, rfl, rfl, rfl, ?_⟩
  decide

end ObservedLoop

end ServerLib
