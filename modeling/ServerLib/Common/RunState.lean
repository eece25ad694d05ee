import ServerLib.Common.QueuedLoop

/-!
# In which state posted callbacks are called

The handler that sets the run state waits in the same queue as all others. It comes in front of
what is posted behind `start`, and behind what was posted before. The order of the posts is kept
in any case.
-/
namespace ServerLib

open Transition

def Posted.byUser (p : Posted) : Bool := p.origin == .posted

namespace QueuedLoop

/-- What was posted has been called in the run state, when the observers had been notified. -/
def InRunState (w : QueuedLoop) : Prop :=
  ∀ c ∈ w.called, c.posted.byUser → c.isRun ∧ c.notified

/-- What was posted has been called in the order of the posts. -/
def InOrder (w : QueuedLoop) : Prop :=
  ((w.called.map CallbackCall.posted).filter Posted.byUser).Pairwise fun p q =>
    p.number < q.number

/-- Callbacks are posted when `start` has posted its handler, and not before. -/
def BehindStart (w : QueuedLoop) : QueuedLoopAction → Prop
  | .post => w.launched
  | _ => True

instance (w : QueuedLoop) : DecidablePred w.BehindStart
  | .post => inferInstanceAs (Decidable (w.launched = true))
  | .postAfter _ | .expire _ | .start | .launch | .fire | .finish | .throwOut | .stop
  | .stopInside | .leave | .join => .isTrue trivial

/-- What was posted and has been called or waits to be, in the order of the calls. -/
def line (w : QueuedLoop) : List Posted :=
  (w.called.map CallbackCall.posted ++ w.service).filter Posted.byUser

structure Ordered (w : QueuedLoop) : Prop where
  increasing : w.line.Pairwise fun p q => p.number < q.number
  below : ∀ p ∈ w.line, p.number < w.returned
  delayed : ∀ p ∈ w.timers, p.byUser = false

/-- The handler of `start` waits, and no callback waits in front of it. -/
def Waiting (service : List Posted) : Prop :=
  ∃ front p back, service = front ++ p :: back ∧ p.origin = .started ∧
    ∀ q ∈ front, q.byUser = false

/-- The handler of `start` is being called. -/
def Notifying (w : QueuedLoop) : Prop :=
  ∃ p frames, w.stack = .callback p w.life :: frames ∧ p.origin = .started ∧ w.isRun

/-- How far a loop has come since `start` has posted its handler. -/
def Stage (w : QueuedLoop) : Prop :=
  Waiting w.service ∨ w.Notifying ∨ (w.isRun ∧ w.notified)

structure Started (w : QueuedLoop) : Prop where
  past : w.InRunState
  early : w.launched = false → ∀ p ∈ w.service, p.byUser = false
  stage : w.launched → w.Stage
  /-- the loop is running, or will not be started again before a reset -/
  life : w.launched → (w.isRunning ∧ w.starting = false) ∨
    ((w.joining ∨ w.unjoined) ∧ w.runInSeparateThread)
  calm : w.starting → w.isRunning ∧ w.joining = false

variable {w w' : QueuedLoop}

theorem Ordered.inOrder (ordered : w.Ordered) : w.InOrder := by
  have increasing := ordered.increasing
  rw [line, List.filter_append] at increasing
  exact (List.pairwise_append.mp increasing).1

/-- Callbacks may be dropped, and other posts counted. -/
theorem Ordered.mono (ordered : w.Ordered) (fewer : w'.line.Sublist w.line)
    (more : w.returned ≤ w'.returned) (timers : w'.timers ⊆ w.timers) : w'.Ordered where
  increasing := ordered.increasing.sublist fewer
  below p member := Nat.lt_of_lt_of_le (ordered.below p (fewer.subset member)) more
  delayed p member := ordered.delayed p (timers member)

theorem Ordered.postFrom (ordered : w.Ordered) (origin : CallbackOf) :
    (w.postFrom origin).Ordered := by
  have grown : (w.postFrom origin).line = w.line ++ [w.wrap origin].filter Posted.byUser := by
    simp only [line, QueuedLoop.postFrom, registerQueue, List.filter_append, List.append_assoc]
  -- it gets the next number
  have last : ∀ p ∈ [w.wrap origin].filter Posted.byUser, p.number = w.returned := by
    intro p member
    rw [List.mem_singleton.mp (List.mem_filter.mp member).1]
    rfl
  refine ⟨?_, ?_, ordered.delayed⟩
  · rw [grown, List.pairwise_append]
    refine ⟨ordered.increasing, (List.pairwise_singleton _ _).filter _, ?_⟩
    intro p here q new
    rw [last q new]
    exact ordered.below p here
  · intro p member
    rw [grown, List.mem_append] at member
    rcases member with before | new
    · exact Nat.lt_succ_of_lt (ordered.below p before)
    · rw [last p new]
      exact Nat.lt_succ_self _

theorem Ordered.postAfter (ordered : w.Ordered) (ms : Int) : (w.postAfter ms).state.Ordered := by
  unfold QueuedLoop.postAfter
  split
  · exact ordered.mono (.refl _) (Nat.le_refl _) (List.Subset.refl _)
  · refine ⟨ordered.increasing, fun p member => Nat.lt_succ_of_lt (ordered.below p member), ?_⟩
    intro p member
    rcases List.mem_append.mp member with before | new
    · exact ordered.delayed p before
    · rw [List.mem_singleton.mp new]
      rfl

theorem Ordered.expire (ordered : w.Ordered) {i : Nat} {p : Posted} (here : w.timers[i]? = some p) :
    { w with timers := w.timers.eraseIdx i, service := w.service ++ [p] }.Ordered := by
  have clean := ordered.delayed p (List.mem_of_getElem? here)
  apply ordered.mono
  · simp [line, clean]
  · exact Nat.le_refl _
  · exact List.eraseIdx_subset

/-- A callback goes from the queue to the calls. -/
theorem Ordered.fire (ordered : w.Ordered) {p : Posted} {rest : List Posted}
    (queued : w.service = p :: rest) : (w.fire p rest).Ordered := by
  apply ordered.mono
  · simp [QueuedLoop.line, QueuedLoop.fire, queued]
  · exact Nat.le_refl _
  · exact List.Subset.refl _

theorem Ordered.reset (ordered : w.Ordered) : w.reset.Ordered := by
  apply ordered.mono
  · simp only [line, QueuedLoop.reset, List.append_nil, List.filter_append]
    exact List.sublist_append_left _ _
  · exact Nat.le_refl _
  · exact List.nil_subset _

theorem Ordered.unwind (ordered : w.Ordered) (frames : List Frame) :
    (w.unwind frames).Ordered := by
  have kept : { w with stack := frames, finished := w.finished + 1 }.Ordered :=
    ⟨ordered.increasing, ordered.below, ordered.delayed⟩
  simp only [QueuedLoop.unwind]
  split
  · exact kept.reset
  · exact kept

/-- What was posted waits in the order of the posts, whatever is done with the loop. -/
theorem ordered_step (w : QueuedLoop) (a : QueuedLoopAction) (w' : QueuedLoop)
    (ordered : w.Ordered) (stepped : w.step a = some w') : w'.Ordered := by
  cases stepped_of_step stepped with
  | post => exact ordered.postFrom .posted
  | postAfter ms => exact ordered.postAfter ms
  | expire here => exact ordered.expire here
  | fire _ queued => exact ordered.fire queued
  | throwOut => exact ordered.unwind _
  | stop | join => exact ordered.reset
  | launch =>
    have posted := ordered.postFrom .started
    exact ⟨posted.increasing, posted.below, posted.delayed⟩
  | startRunning | stopIdle | stopInsideIdle => exact ordered
  | start | finish | stopJoining | stopInside | leave =>
    exact ⟨ordered.increasing, ordered.below, ordered.delayed⟩

theorem ordered_create (runInSeparateThread : Bool) : (create runInSeparateThread).Ordered :=
  ⟨.nil, nofun, nofun⟩

/-- A reset takes the loop back to where it was constructed. -/
theorem started_reset (past : w.InRunState) : w.reset.Started where
  past := past
  early := nofun
  stage := nofun
  life := nofun
  calm := nofun

/-- What waits may grow at its end. -/
theorem Stage.grow (stage : w.Stage) {more : List Posted} (service : w'.service = w.service ++ more)
    (same : w.Notifying → w'.Notifying) (run : w'.isRun = w.isRun)
    (notified : w'.notified = w.notified) : w'.Stage := by
  rcases stage with ⟨front, p, back, split_, own, clean⟩ | now | done
  · exact .inl ⟨front, p, back ++ more, by simp [service, split_], own, clean⟩
  · exact .inr (.inl (same now))
  · rw [← run, ← notified] at done
    exact .inr (.inr done)

theorem Started.postFrom (started : w.Started) {origin : CallbackOf}
    (behind : origin = .posted → w.launched) : (w.postFrom origin).Started where
  past := started.past
  early early p member := by
    rcases List.mem_append.mp member with before | new
    · exact started.early early p before
    · rw [List.mem_singleton.mp new]
      refine beq_eq_false_iff_ne.mpr fun posted => ?_
      exact absurd (early.symm.trans (behind posted)) (by decide)
  stage launched := (started.stage launched).grow rfl id rfl rfl
  life := started.life
  calm := started.calm

/-- `start` posts its handler behind what the timers have left in the queue. -/
theorem Started.launch (started : w.Started) (begun : w.starting) (joined : w.unjoined = false) :
    w.launch.Started := by
  obtain ⟨running, calm⟩ := started.calm begun
  -- `start` has not posted its handler before
  have early : w.launched = false := by
    rw [Bool.eq_false_iff]
    intro launched
    rcases started.life launched with ⟨-, still⟩ | ⟨joining | unjoined, -⟩
    · exact absurd (begun.symm.trans still) (by decide)
    · exact absurd (joining.symm.trans calm) (by decide)
    · exact absurd (unjoined.symm.trans joined) (by decide)
  have posted : (w.postFrom .started).Started := started.postFrom nofun
  refine ⟨posted.past, nofun, fun _ => .inl ?_, fun _ => .inl ⟨running, rfl⟩, nofun⟩
  exact ⟨w.service, w.wrap .started, [], rfl, rfl, started.early early⟩

/-- A callback that is called in front of the handler of `start` is not one that was posted. -/
theorem Started.called (started : w.Started) {p : Posted} {rest : List Posted}
    {frames : List Frame} (inside : w.stack = .run true :: frames)
    (queued : w.service = p :: rest) (posted : p.byUser) : w.isRun ∧ w.notified := by
  cases launched : w.launched with
  | false =>
    have clean := started.early launched p (by rw [queued]; exact List.mem_cons_self)
    exact absurd (posted.symm.trans clean) (by decide)
  | true =>
    rcases started.stage launched with ⟨front, q, back, split_, own, clean⟩ | ⟨_, _, busy, -⟩ | done
    · rw [queued] at split_
      cases front with
      | nil =>
        -- the first in the queue is the handler of `start`
        obtain ⟨rfl, -⟩ := List.cons.inj split_
        rw [Posted.byUser, own] at posted
        cases posted
      | cons r front =>
        obtain ⟨rfl, -⟩ := List.cons.inj split_
        exact absurd (posted.symm.trans (clean p List.mem_cons_self)) (by decide)
    · cases inside.symm.trans busy
    · exact done

theorem Stage.fire (stage : w.Stage) {p : Posted} {rest : List Posted} {frames : List Frame}
    (inside : w.stack = .run true :: frames) (queued : w.service = p :: rest) :
    (w.fire p rest).Stage := by
  rcases stage with ⟨front, q, back, split_, own, clean⟩ | ⟨_, _, busy, -⟩ | done
  · rw [queued] at split_
    cases front with
    | nil =>
      obtain ⟨rfl, rfl⟩ := List.cons.inj split_
      exact .inr (.inl ⟨p, w.stack, rfl, own, by simp [QueuedLoop.fire, own]⟩)
    | cons r front =>
      obtain ⟨rfl, rfl⟩ := List.cons.inj split_
      exact .inl ⟨front, q, back, rfl, own, fun r member => clean r (List.mem_cons_of_mem p member)⟩
  · cases inside.symm.trans busy
  · exact .inr (.inr ⟨by simp [QueuedLoop.fire, done.1], done.2⟩)

theorem Started.fire (started : w.Started) {p : Posted} {rest : List Posted} {frames : List Frame}
    (inside : w.stack = .run true :: frames) (queued : w.service = p :: rest) :
    (w.fire p rest).Started := by
  have early := started.early
  rw [queued] at early
  refine ⟨?_, fun launched q member => early launched q (List.mem_cons_of_mem p member),
    fun launched => (started.stage launched).fire inside queued, started.life, started.calm⟩
  intro c member posted
  rcases List.mem_append.mp member with before | new
  · exact started.past c before posted
  · rw [List.mem_singleton.mp new] at posted ⊢
    exact started.called inside queued posted

theorem Started.finish (started : w.Started) {p : Posted} {life : Nat} {frames : List Frame}
    (inside : w.stack = .callback p life :: frames) : (w.finish p life frames).Started := by
  refine ⟨started.past, started.early, fun launched => ?_, started.life, started.calm⟩
  rcases started.stage launched with waits | ⟨q, _, busy, own, run⟩ | done
  · exact .inl waits
  · -- the handler of `start` has set the run state, and its observers have been notified now
    cases inside.symm.trans busy
    exact .inr (.inr ⟨run, by simp [QueuedLoop.finish, own]⟩)
  · exact .inr (.inr ⟨done.1, by simp [QueuedLoop.finish, done.2]⟩)

/-- Steps that change neither the queue nor the calls. -/
theorem Started.keep (started : w.Started) (service : w'.service = w.service)
    (called : w'.called = w.called) (launched : w'.launched = w.launched)
    (stage : w'.launched → w'.Stage)
    (life : w'.launched → (w'.isRunning ∧ w'.starting = false) ∨
      ((w'.joining ∨ w'.unjoined) ∧ w'.runInSeparateThread))
    (calm : w'.starting → w'.isRunning ∧ w'.joining = false) : w'.Started where
  past := by rw [InRunState, called]; exact started.past
  early := by rw [launched, service]; exact started.early
  stage := stage
  life := life
  calm := calm

theorem Started.postAfter (started : w.Started) (ms : Int) : (w.postAfter ms).state.Started := by
  unfold QueuedLoop.postAfter
  split
  · exact started.keep rfl rfl rfl started.stage started.life started.calm
  · exact started.keep rfl rfl rfl started.stage started.life started.calm

/-- A timer that expires does not overtake the handler of `start`, or does no harm if it does. -/
theorem Started.expire (started : w.Started) (ordered : w.Ordered) {i : Nat} {p : Posted}
    (here : w.timers[i]? = some p) :
    { w with timers := w.timers.eraseIdx i, service := w.service ++ [p] }.Started := by
  have clean := ordered.delayed p (List.mem_of_getElem? here)
  refine ⟨started.past, ?_, ?_, started.life, started.calm⟩
  · intro early q member
    rcases List.mem_append.mp member with before | new
    · exact started.early early q before
    · rw [List.mem_singleton.mp new]
      exact clean
  · exact fun launched => (started.stage launched).grow rfl id rfl rfl

/-- The loop's thread is told to come to its end. It is still in the callback that it was in. -/
theorem Started.stopLoop (started : w.Started) (separate : w.runInSeparateThread)
    (begun : w.starting = false) {joining unjoined : Bool} (stops : joining ∨ unjoined) :
    { w.stopLoop with joining, unjoined }.Started := by
  refine started.keep rfl rfl rfl (fun launched => ?_) (fun _ => .inr ⟨stops, separate⟩) ?_
  · refine (started.stage launched).grow (List.append_nil _).symm ?_ rfl rfl
    -- if the handler of `start` is being called it still is
    rintro ⟨p, frames, busy, own, run⟩
    exact ⟨p, frames.map Frame.stopped, by simp [QueuedLoop.stopLoop, busy, Frame.stopped], own,
      run⟩
  · intro starts
    exact absurd (begun.symm.trans starts) (by decide)

theorem Started.unwind (started : w.Started) (own : w.runInSeparateThread = false)
    (frames : List Frame) : (w.unwind frames).Started := by
  simp only [QueuedLoop.unwind]
  split
  · exact started_reset started.past
  next idle =>
    refine started.keep rfl rfl rfl ?_ started.life started.calm
    -- a loop in the calling thread that is not running has not been launched
    intro launched
    rcases started.life launched with ⟨running, -⟩ | ⟨-, separate⟩
    · exact absurd running idle
    · exact absurd (own.symm.trans separate) (by decide)

theorem Started.start (started : w.Started) (idle : ¬ w.isRunning) (calm : w.joining = false) :
    { w with isRunning := true, starting := true }.Started := by
  refine started.keep rfl rfl rfl started.stage ?_ (fun _ => ⟨rfl, calm⟩)
  exact fun launched => .inr ((started.life launched).resolve_left fun on => idle on.1)

theorem Started.leave (started : w.Started) {frames : List Frame}
    (inside : w.stack = .run false :: frames) : { w with stack := frames }.Started := by
  refine started.keep rfl rfl rfl (fun launched => ?_) started.life started.calm
  refine (started.stage launched).grow (List.append_nil _).symm ?_ rfl rfl
  rintro ⟨p, frames', busy, -⟩
  cases inside.symm.trans busy

theorem started_step (w : QueuedLoop) (a : QueuedLoopAction) (w' : QueuedLoop)
    (kept : w.Ordered ∧ w.Started) (behind : w.BehindStart a) (stepped : w.step a = some w') :
    w'.Ordered ∧ w'.Started := by
  obtain ⟨ordered, started⟩ := kept
  refine ⟨ordered_step w a w' ordered stepped, ?_⟩
  cases stepped_of_step stepped with
  | post => exact started.postFrom fun _ => behind
  | postAfter ms => exact started.postAfter ms
  | expire here => exact started.expire ordered here
  | startRunning | stopIdle | stopInsideIdle => exact started
  | start idle calm => exact started.start idle calm
  | launch begun joined => exact started.launch begun joined
  | fire inside queued => exact started.fire inside queued
  | finish inside => exact started.finish inside
  | throwOut _ own => exact started.unwind own _
  | stopJoining separate begun => exact started.stopLoop separate begun (.inl rfl)
  | stopInside separate begun => exact started.stopLoop separate begun (.inr rfl)
  | leave inside => exact started.leave inside
  | stop | join => exact started_reset started.past

theorem started_create (runInSeparateThread : Bool) : (create runInSeparateThread).Started :=
  ⟨nofun, nofun, nofun, nofun, nofun⟩

/-- Callbacks are called in the order in which they were posted. What is posted to a loop that has
posted its own handler is called in the run state, when the observers have been notified. -/
theorem posted_run_in_run_state (runInSeparateThread : Bool) (acts : List QueuedLoopAction) :
    (∀ w, Visits step (create runInSeparateThread) acts w → w.InOrder) ∧
      (Meets step BehindStart (create runInSeparateThread) acts →
        ∀ w, Visits step (create runInSeparateThread) acts w → w.InRunState) := by
  constructor
  · intro w visited
    exact (visited.invariant ordered_step (ordered_create runInSeparateThread)).inOrder
  · intro behind w visited
    have created := And.intro (ordered_create runInSeparateThread)
      (started_create runInSeparateThread)
    exact (visits_invariant started_step created behind visited).2.past

/-- A loop is started, called back twice, stopped and joined. -/
def startAndStop : List QueuedLoopAction :=
  [.start, .launch, .post, .fire, .post, .finish, .fire, .finish, .fire, .finish, .stop, .leave,
    .join]

theorem posted_run_in_run_state_twice :
    ∃ w, run step (create true) startAndStop = some w ∧
      w.called = [⟨⟨0, .started⟩, false, false⟩, ⟨⟨1, .posted⟩, true, true⟩,
        ⟨⟨2, .posted⟩, true, true⟩] ∧ w.InRunState ∧ w.InOrder :=
  ⟨_, rfl, rfl, (posted_run_in_run_state true startAndStop).2 (by decide) _ (visits_of_run rfl),
    (posted_run_in_run_state true startAndStop).1 _ (visits_of_run rfl)⟩

/-- What is posted before the loop is started is called in front of the handler that sets the run
state. -/
theorem posted_early_runs_before_start :
    ∃ w, run step (create true) [.post, .start, .launch, .fire] = some w ∧
      w.called = [⟨⟨0, .posted⟩, false, false⟩] ∧ ¬ w.InRunState := by
  refine ⟨_, rfl, rfl, fun inRunState => ?_⟩
  have first := inRunState ⟨⟨0, .posted⟩, false, false⟩ (List.mem_singleton_self _) rfl
  cases first.1

end QueuedLoop

end ServerLib
