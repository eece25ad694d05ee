import ServerLib.Foundation.Threads
import ServerLib.Foundation.Transition
import ServerLib.Network.ScopeRunner

/-!
# Stopping a web client

The handlers of a client's sessions get a scope lock from `handler_runner` first, and some take
`connections_mutex` then: in the callback of the session, to connect again, or for a
request that the user makes in its callback. `stop` takes the mutex first, and waits in
`handler_runner->stop()` for the scope locks with the mutex in its hands.

The server's `stop` gives its mutex back before it does so.
-/
namespace ServerLib.Web

open Transition Threads Network

/-- Where a thread of the pool is in a handler. -/
inductive ClientWorker where
  | free
  | entered
  /-- in the loop of `continue_lock` -/
  | acquiring (expected : Int)
  /-- has a scope lock -/
  | inScope
  /-- waits for `connections_mutex`, with a scope lock -/
  | waiting
  /-- has both -/
  | holding
  deriving DecidableEq, Repr

def ClientWorker.locked : ClientWorker → Bool
  | .inScope | .waiting | .holding => true
  | _ => false

/-- What a handler with a scope lock does next. -/
inductive HandlerTurn where
  /-- goes to `connections_mutex` -/
  | lock
  /-- starts an operation on a connection -/
  | operate
  | leave
  deriving DecidableEq, Repr

/-- Where the thread is that calls `stop`. -/
inductive StopCaller where
  | outside
  /-- waits for `connections_mutex` -/
  | locking
  /-- in `handler_runner->stop()` -/
  | spinning
  /-- in `_workers->stop()` -/
  | joining
  deriving DecidableEq, Repr

inductive MutexHolder where
  | stop
  | handler (i : Nat)
  /-- `get_connection`, outside of the pool -/
  | request
  deriving DecidableEq, Repr

structure RunningClient where
  count : Int := 0
  connectionsMutex : Option MutexHolder := none
  workers : List ClientWorker
  caller : StopCaller := .outside
  isRunning : Bool := true
  /-- the operations that are under way -/
  operations : Nat
  deriving DecidableEq, Repr

inductive StoppingAction where
  /-- `stop` is called. -/
  | call
  /-- `stop` goes on. -/
  | stop (spurious : Bool)
  /-- An operation has completed, and a thread of the pool calls its handler. -/
  | complete (i : Nat)
  /-- A thread of the pool goes on. -/
  | worker (i : Nat) (spurious : Bool) (turn : HandlerTurn)
  /-- A request of another thread takes the mutex. -/
  | request
  /-- It gives the mutex back and starts its first operation. -/
  | requested
  deriving DecidableEq, Repr

namespace RunningClient

/-- A client with that many threads and sessions. -/
def create (workers sessions : Nat) : RunningClient where
  workers := List.replicate workers .free
  operations := sessions

def move (s : RunningClient) (i : Nat) (w : ClientWorker) : RunningClient :=
  { s with workers := s.workers.set i w }

def stopStep (s : RunningClient) (spurious : Bool) : Option RunningClient :=
  match s.caller with
  | .outside => none
  | .locking =>
    -- cancels and forgets the connections, and keeps the mutex
    if s.connectionsMutex = none then
      some { s with connectionsMutex := some .stop, caller := .spinning }
    else none
  | .spinning =>
    match ScopeRunner.stop spurious s.count with
    | none => some s
    | some count => some { s with count := count, caller := .joining }
  | .joining =>
    if ∀ w ∈ s.workers, w = .free then
      some { s with connectionsMutex := none, caller := .outside, isRunning := false }
    else none

def workerStep (s : RunningClient) (i : Nat) (spurious : Bool) (turn : HandlerTurn) :
    ClientWorker → Option RunningClient
  | .free => none
  | .entered => some (s.move i (.acquiring s.count))
  | .acquiring expected =>
    match ScopeRunner.continueLock spurious s.count expected with
    | .refused => some (s.move i .free)
    | .acquired count => some { s.move i .inScope with count := count }
    | .again expected => some (s.move i (.acquiring expected))
  | .inScope =>
    match turn with
    | .lock => some (s.move i .waiting)
    | .operate => some { s with operations := s.operations + 1 }
    | .leave => some { s.move i .free with count := ScopeRunner.release s.count }
  | .waiting =>
    if s.connectionsMutex = none then
      some { s.move i .holding with connectionsMutex := some (.handler i) }
    else none
  | .holding => some { s.move i .inScope with connectionsMutex := none }

def step (s : RunningClient) : StoppingAction → Option RunningClient
  | .call =>
    if s.caller ≠ .outside then none
    else if s.isRunning then some { s with caller := .locking }
    else some s
  | .stop spurious => s.stopStep spurious
  | .complete i =>
    if s.isRunning ∧ 0 < s.operations ∧ s.workers[i]? = some .free then
      some { s.move i .entered with operations := s.operations - 1 }
    else none
  | .worker i spurious turn => s.workers[i]?.bind (s.workerStep i spurious turn)
  | .request =>
    if s.connectionsMutex = none then some { s with connectionsMutex := some .request } else none
  | .requested =>
    if s.connectionsMutex = some .request then
      some { s with connectionsMutex := none, operations := s.operations + 1 }
    else none

/-- `stop` waits for the scope locks with `connections_mutex`, and a handler with a scope lock waits
for that. -/
def Deadlocked (s : RunningClient) : Prop :=
  s.caller = .spinning ∧ s.connectionsMutex = some .stop ∧ .waiting ∈ s.workers

/-- `stop` does not take `connections_mutex` when a handler waits for it, and no handler comes to
wait for it until `handler_runner->stop()` returns. -/
def InOrder (s : RunningClient) : StoppingAction → Prop
  | .stop _ => s.caller = .locking → s.connectionsMutex = none → .waiting ∉ s.workers
  | .worker i _ .lock => s.workers[i]? = some .inScope → s.caller ≠ .spinning
  | _ => True

instance (s : RunningClient) : DecidablePred s.InOrder := fun a => by
  unfold InOrder
  split <;> infer_instance

structure Sound (s : RunningClient) : Prop where
  counts : ScopeRunner.Counts s.count (s.workers.countP ClientWorker.locked)
  held : ∀ i, s.workers[i]? = some .holding → s.connectionsMutex = some (.handler i)
  stopping : s.caller = .spinning ∨ s.caller = .joining → s.connectionsMutex = some .stop

variable {s s' : RunningClient} {i : Nat} {w new : ClientWorker}

theorem sound_create (workers sessions : Nat) : (create workers sessions).Sound where
  counts := by
    rw [create, List.countP_replicate]
    exact ScopeRunner.counts_none
  held i holding := by
    have member := List.mem_of_getElem? holding
    exact nomatch List.eq_of_mem_replicate member
  stopping := nofun

/-- A thread goes on that does not get the mutex. -/
theorem Sound.held_move (sound : s.Sound) (outside : new ≠ .holding) (j : Nat)
    (holding : (s.move i new).workers[j]? = some .holding) :
    s.connectionsMutex = some (.handler j) := by
  rcases getElem?_move holding with ⟨_, rfl⟩ | ⟨_, before⟩
  · exact absurd rfl outside
  · exact sound.held j before

theorem Sound.counts_move (sound : s.Sound) (here : s.workers[i]? = some w)
    (locked : new.locked = w.locked) :
    ScopeRunner.Counts s.count ((s.workers.set i new).countP ClientWorker.locked) := by
  rw [countP_move_same here locked]
  exact sound.counts

theorem Sound.move (sound : s.Sound) (here : s.workers[i]? = some w)
    (locked : new.locked = w.locked) (outside : new ≠ .holding) : (s.move i new).Sound :=
  ⟨sound.counts_move here locked, sound.held_move outside, sound.stopping⟩

theorem sound_workerStep (sound : s.Sound) (here : s.workers[i]? = some w) {spurious : Bool}
    {turn : HandlerTurn} (stepped : s.workerStep i spurious turn w = some s') : s'.Sound := by
  cases w with
  | free => exact nomatch stepped
  | entered =>
    obtain rfl := Option.some.inj stepped
    exact sound.move here rfl nofun
  | acquiring expected =>
    simp only [workerStep] at stepped
    split at stepped
    · obtain rfl := Option.some.inj stepped
      exact sound.move here rfl nofun
    next count acquired =>
      obtain rfl := Option.some.inj stepped
      -- the scope lock is counted from here on
      refine ⟨?_, sound.held_move nofun, sound.stopping⟩
      simp only [RunningClient.move]
      rw [countP_enter here rfl rfl]
      exact (sound.counts.acquire acquired).2
    · obtain rfl := Option.some.inj stepped
      exact sound.move here rfl nofun
  | inScope =>
    cases turn with
    | lock =>
      obtain rfl := Option.some.inj stepped
      exact sound.move here rfl nofun
    | operate =>
      obtain rfl := Option.some.inj stepped
      exact ⟨sound.counts, sound.held, sound.stopping⟩
    | leave =>
      obtain rfl := Option.some.inj stepped
      refine ⟨?_, sound.held_move nofun, sound.stopping⟩
      have fewer : (s.workers.set i .free).countP ClientWorker.locked + 1 =
          s.workers.countP ClientWorker.locked := countP_leave here rfl rfl
      exact (fewer ▸ sound.counts).release
  | waiting =>
    simp only [workerStep, Option.ite_none_right_eq_some, Option.some.injEq] at stepped
    obtain ⟨free, rfl⟩ := stepped
    refine ⟨sound.counts_move here rfl, fun j holding => ?_, fun stopping => ?_⟩
    · rcases getElem?_move holding with ⟨rfl, _⟩ | ⟨_, before⟩
      · rfl
      · exact nomatch free.symm.trans (sound.held j before)
    · exact nomatch free.symm.trans (sound.stopping stopping)
  | holding =>
    obtain rfl := Option.some.inj stepped
    have mine := sound.held i here
    refine ⟨sound.counts_move here rfl, fun j holding => ?_, fun stopping => ?_⟩
    · rcases getElem?_move holding with ⟨_, impossible⟩ | ⟨other, before⟩
      · exact nomatch impossible
      · -- two handlers cannot have the mutex
        have both := mine.symm.trans (sound.held j before)
        obtain rfl := MutexHolder.handler.inj (Option.some.inj both)
        exact absurd rfl other
    · exact nomatch mine.symm.trans (sound.stopping stopping)

theorem sound_stopStep (sound : s.Sound) {spurious : Bool}
    (stepped : s.stopStep spurious = some s') : s'.Sound := by
  unfold stopStep at stepped
  split at stepped
  · exact nomatch stepped
  next locking =>
    simp only [Option.ite_none_right_eq_some, Option.some.injEq] at stepped
    obtain ⟨free, rfl⟩ := stepped
    refine ⟨sound.counts, fun j holding => ?_, fun _ => rfl⟩
    exact nomatch free.symm.trans (sound.held j holding)
  next spinning =>
    split at stepped
    · obtain rfl := Option.some.inj stepped
      exact sound
    next count returned =>
      obtain rfl := Option.some.inj stepped
      obtain ⟨rfl, unlocked⟩ := sound.counts.stop returned
      exact ⟨.inr ⟨rfl, unlocked⟩, sound.held, fun _ => sound.stopping (.inl spinning)⟩
  next joining =>
    simp only [Option.ite_none_right_eq_some, Option.some.injEq] at stepped
    obtain ⟨_, rfl⟩ := stepped
    refine ⟨sound.counts, fun j holding => ?_, nofun⟩
    exact nomatch (sound.stopping (.inr joining)).symm.trans (sound.held j holding)

theorem sound_step {a : StoppingAction} (sound : s.Sound) (stepped : s.step a = some s') :
    s'.Sound := by
  cases a with
  | call =>
    simp only [step] at stepped
    split at stepped
    · exact nomatch stepped
    next outside =>
      split at stepped
      · obtain rfl := Option.some.inj stepped
        exact ⟨sound.counts, sound.held, nofun⟩
      · obtain rfl := Option.some.inj stepped
        exact sound
  | stop spurious => exact sound_stopStep sound stepped
  | complete i =>
    simp only [step, Option.ite_none_right_eq_some, Option.some.injEq] at stepped
    obtain ⟨⟨_, _, here⟩, rfl⟩ := stepped
    have moved : (s.move i .entered).Sound := sound.move here rfl nofun
    exact ⟨moved.counts, moved.held, moved.stopping⟩
  | worker i spurious turn =>
    obtain ⟨w, here, stepped⟩ := Option.bind_eq_some_iff.mp stepped
    exact sound_workerStep sound here stepped
  | request =>
    simp only [step, Option.ite_none_right_eq_some, Option.some.injEq] at stepped
    obtain ⟨free, rfl⟩ := stepped
    refine ⟨sound.counts, fun j holding => ?_, fun stopping => ?_⟩
    · exact nomatch free.symm.trans (sound.held j holding)
    · exact nomatch free.symm.trans (sound.stopping stopping)
  | requested =>
    simp only [step, Option.ite_none_right_eq_some, Option.some.injEq] at stepped
    obtain ⟨mine, rfl⟩ := stepped
    refine ⟨sound.counts, fun j holding => ?_, fun stopping => ?_⟩
    · exact nomatch mine.symm.trans (sound.held j holding)
    · exact nomatch mine.symm.trans (sound.stopping stopping)

theorem workerStep_caller {spurious : Bool} {turn : HandlerTurn}
    (stepped : s.workerStep i spurious turn w = some s') : s'.caller = s.caller := by
  cases w <;> simp only [workerStep] at stepped <;> grind [move]

/-- A handler comes to wait for the mutex only where it goes to lock it. -/
theorem waiting_of_workerStep {spurious : Bool} {turn : HandlerTurn}
    (stepped : s.workerStep i spurious turn w = some s') (waiting : .waiting ∈ s'.workers) :
    .waiting ∈ s.workers ∨ w = .inScope ∧ turn = .lock := by
  cases w with
  | free => exact nomatch stepped
  | entered =>
    obtain rfl := Option.some.inj stepped
    exact .inl ((List.mem_or_eq_of_mem_set waiting).resolve_right nofun)
  | acquiring expected =>
    simp only [workerStep] at stepped
    split at stepped
    all_goals
      obtain rfl := Option.some.inj stepped
      exact .inl ((List.mem_or_eq_of_mem_set waiting).resolve_right nofun)
  | inScope =>
    cases turn with
    | lock => exact .inr ⟨rfl, rfl⟩
    | operate =>
      obtain rfl := Option.some.inj stepped
      exact .inl waiting
    | leave =>
      obtain rfl := Option.some.inj stepped
      exact .inl ((List.mem_or_eq_of_mem_set waiting).resolve_right nofun)
  | waiting =>
    simp only [workerStep, Option.ite_none_right_eq_some, Option.some.injEq] at stepped
    obtain ⟨_, rfl⟩ := stepped
    exact .inl ((List.mem_or_eq_of_mem_set waiting).resolve_right nofun)
  | holding =>
    obtain rfl := Option.some.inj stepped
    exact .inl ((List.mem_or_eq_of_mem_set waiting).resolve_right nofun)

theorem not_deadlocked_step {a : StoppingAction} (sound : s.Sound) (free : ¬ s.Deadlocked)
    (ordered : s.InOrder a) (stepped : s.step a = some s') : ¬ s'.Deadlocked := by
  rintro ⟨spinning, held, waiting⟩
  cases a with
  | call =>
    simp only [step] at stepped
    split at stepped
    · exact nomatch stepped
    · split at stepped
      · obtain rfl := Option.some.inj stepped
        exact nomatch spinning
      · obtain rfl := Option.some.inj stepped
        exact free ⟨spinning, held, waiting⟩
  | stop spurious =>
    simp only [step, stopStep] at stepped
    split at stepped
    · exact nomatch stepped
    next locking =>
      simp only [Option.ite_none_right_eq_some, Option.some.injEq] at stepped
      obtain ⟨unheld, rfl⟩ := stepped
      -- `stop` has taken the mutex just now, with the handler waiting before
      exact ordered locking unheld waiting
    · split at stepped
      · obtain rfl := Option.some.inj stepped
        exact free ⟨spinning, held, waiting⟩
      · obtain rfl := Option.some.inj stepped
        exact nomatch spinning
    · simp only [Option.ite_none_right_eq_some, Option.some.injEq] at stepped
      obtain ⟨_, rfl⟩ := stepped
      exact nomatch spinning
  | complete i =>
    simp only [step, Option.ite_none_right_eq_some, Option.some.injEq] at stepped
    obtain ⟨_, rfl⟩ := stepped
    exact free ⟨spinning, held, (List.mem_or_eq_of_mem_set waiting).resolve_right nofun⟩
  | worker i spurious turn =>
    obtain ⟨w, here, stepped⟩ := Option.bind_eq_some_iff.mp stepped
    rw [workerStep_caller stepped] at spinning
    rcases waiting_of_workerStep stepped waiting with before | ⟨rfl, rfl⟩
    · exact free ⟨spinning, sound.stopping (.inl spinning), before⟩
    · -- the handler has come just now, with `stop` waiting before
      exact ordered here spinning
  | request =>
    simp only [step, Option.ite_none_right_eq_some, Option.some.injEq] at stepped
    obtain ⟨_, rfl⟩ := stepped
    exact nomatch held
  | requested =>
    simp only [step, Option.ite_none_right_eq_some, Option.some.injEq] at stepped
    obtain ⟨_, rfl⟩ := stepped
    exact nomatch held

/-- A step out of order is a deadlock. -/
theorem deadlocked_of_disorder {a : StoppingAction} (sound : s.Sound)
    (disorder : ¬ s.InOrder a) : ∃ s', s.step a = some s' ∧ s'.Deadlocked := by
  unfold InOrder at disorder
  split at disorder
  · simp only [Classical.not_imp, not_not] at disorder
    obtain ⟨locking, free, waiting⟩ := disorder
    refine ⟨{ s with connectionsMutex := some .stop, caller := .spinning }, ?_, rfl, rfl, waiting⟩
    simp [step, stopStep, locking, free]
  next i _ =>
    simp only [Classical.not_imp, not_not] at disorder
    obtain ⟨here, spinning⟩ := disorder
    have inside := (List.getElem?_eq_some_iff.mp here).1
    refine ⟨s.move i .waiting, ?_, spinning, sound.stopping (.inl spinning), ?_⟩
    · simp [step, here, workerStep]
    · exact List.mem_set inside _
  · exact absurd trivial disorder

/-- Stopping a client and its handlers never wait for each other exactly if they are in order. -/
theorem never_deadlocked_iff (workers sessions : Nat) (acts : List StoppingAction) :
    (∀ s, Visits step (create workers sessions) acts s → ¬ s.Deadlocked) ↔
      Meets step InOrder (create workers sessions) acts := by
  have keeps (s : RunningClient) (a : StoppingAction) (s' : RunningClient)
      (clear : s.Sound ∧ ¬ s.Deadlocked) (ordered : s.InOrder a) (stepped : s.step a = some s') :
      s'.Sound ∧ ¬ s'.Deadlocked :=
    ⟨sound_step clear.1 stepped, not_deadlocked_step clear.1 clear.2 ordered stepped⟩
  apply always_iff keeps
  · exact fun s clear => clear.2
  · rintro s a ⟨sound, _⟩ disorder
    obtain ⟨s', stepped, deadlocked⟩ := deadlocked_of_disorder sound disorder
    exact ⟨s', stepped, not_not.mpr deadlocked⟩
  · exact ⟨sound_create workers sessions, fun deadlocked => nomatch deadlocked.1⟩

/-- The user calls `stop` when no request is under way, and makes none until it returns. -/
def CallsIdle (s : RunningClient) : StoppingAction → Prop
  | .call => s.operations = 0 ∧ ∀ w ∈ s.workers, w = .free
  | .requested => s.caller = .outside
  | _ => True

/-- There is nothing to stop but the threads. -/
def Idle (s : RunningClient) : Prop :=
  s.caller ≠ .outside → s.operations = 0 ∧ ∀ w ∈ s.workers, w = .free

theorem idle_step (s : RunningClient) (a : StoppingAction) (s' : RunningClient) (idle : s.Idle)
    (calls : s.CallsIdle a) (stepped : s.step a = some s') : s'.Idle := by
  cases a with
  | call =>
    simp only [step, ne_eq, ite_not, Option.ite_none_right_eq_some] at stepped
    obtain ⟨-, stepped⟩ := stepped
    split at stepped
    · exact Option.some.inj stepped ▸ fun _ => calls
    · exact Option.some.inj stepped ▸ fun _ => calls
  | stop spurious =>
    intro busy
    have inside : s.caller ≠ .outside := by
      intro outside
      simp [step, stopStep, outside] at stepped
    have nothing := idle inside
    simp only [step, stopStep] at stepped
    split at stepped
    · cases stepped
    · simp only [Option.ite_none_right_eq_some, Option.some.injEq] at stepped
      exact stepped.2 ▸ nothing
    · split at stepped
      · exact Option.some.inj stepped ▸ nothing
      · exact Option.some.inj stepped ▸ nothing
    · simp only [Option.ite_none_right_eq_some, Option.some.injEq] at stepped
      exact stepped.2 ▸ nothing
  | complete i =>
    simp only [step, Option.ite_none_right_eq_some, Option.some.injEq] at stepped
    obtain ⟨⟨-, pending, -⟩, rfl⟩ := stepped
    -- an operation completes, so nobody is stopping the client
    exact fun busy => absurd (idle busy).1 (Nat.ne_of_gt pending)
  | worker i spurious turn =>
    obtain ⟨w, here, stepped⟩ := Option.bind_eq_some_iff.mp stepped
    intro busy
    have same : s'.caller = s.caller := workerStep_caller stepped
    have free := (idle (same ▸ busy)).2 w (List.mem_of_getElem? here)
    rw [free] at stepped
    cases stepped
  | request =>
    simp only [step, Option.ite_none_right_eq_some, Option.some.injEq] at stepped
    obtain ⟨-, rfl⟩ := stepped
    exact idle
  | requested =>
    simp only [step, Option.ite_none_right_eq_some, Option.some.injEq] at stepped
    obtain ⟨-, rfl⟩ := stepped
    exact fun busy => absurd calls busy

/-- Who stops a client that has nothing to do is safe. -/
theorem not_deadlocked_of_callsIdle (workers sessions : Nat) {acts : List StoppingAction}
    (calls : Meets step CallsIdle (create workers sessions) acts)
    (visited : Visits step (create workers sessions) acts s) : ¬ s.Deadlocked := by
  have begins : (create workers sessions).Idle := fun busy => absurd rfl busy
  have idle : s.Idle := visits_invariant idle_step begins calls visited
  rintro ⟨spinning, -, waiting⟩
  have free := (idle (by simp [spinning])).2 _ waiting
  cases free

/-- One session. `stop` is called when its handler is on its way to the callback. -/
theorem stop_and_handler_deadlock :
    ∃ s, Visits step (create 1 1) [.complete 0, .worker 0 false .lock, .worker 0 false .lock, .call,
      .stop false, .worker 0 false .lock] s ∧ s.Deadlocked :=
  ⟨_, visits_of_run rfl, rfl, rfl, List.mem_singleton_self _⟩

/-- Nothing that happens ends a deadlock. -/
theorem Deadlocked.step (deadlocked : s.Deadlocked) (sound : s.Sound) {a : StoppingAction}
    (stepped : s.step a = some s') : s'.Deadlocked := by
  obtain ⟨spinning, held, waiting⟩ := deadlocked
  cases a with
  | call => simp [RunningClient.step, spinning] at stepped
  | stop spurious =>
    -- the handler that waits has a scope lock
    obtain ⟨locks, some_⟩ : ∃ locks, s.workers.countP ClientWorker.locked = locks + 1 :=
      Nat.exists_eq_add_one.mpr (List.countP_pos_iff.mpr ⟨_, waiting, rfl⟩)
    have waits := (some_ ▸ sound.counts).stop_waits spurious
    simp only [RunningClient.step, stopStep, spinning, waits] at stepped
    exact Option.some.inj stepped ▸ ⟨spinning, held, waiting⟩
  | complete i =>
    simp only [RunningClient.step, Option.ite_none_right_eq_some, Option.some.injEq] at stepped
    obtain ⟨⟨_, _, here⟩, rfl⟩ := stepped
    exact ⟨spinning, held, mem_move here nofun waiting⟩
  | worker i spurious turn =>
    obtain ⟨w, here, stepped⟩ := Option.bind_eq_some_iff.mp stepped
    -- whoever goes on, it is not the handler that waits
    have moved {new : ClientWorker} (other : w ≠ .waiting) : .waiting ∈ s.workers.set i new :=
      mem_move here other waiting
    cases w with
    | free => exact nomatch stepped
    | waiting => simp [workerStep, held] at stepped
    | holding => exact nomatch held.symm.trans (sound.held i here)
    | inScope =>
      cases turn with
      | operate => exact Option.some.inj stepped ▸ ⟨spinning, held, waiting⟩
      | _ => exact Option.some.inj stepped ▸ ⟨spinning, held, moved nofun⟩
    | entered => exact Option.some.inj stepped ▸ ⟨spinning, held, moved nofun⟩
    | acquiring expected =>
      simp only [workerStep] at stepped
      split at stepped
      all_goals exact Option.some.inj stepped ▸ ⟨spinning, held, moved nofun⟩
  | request => simp [RunningClient.step, held] at stepped
  | requested => simp [RunningClient.step, held] at stepped

theorem Deadlocked.forever {acts : List StoppingAction} (deadlocked : s.Deadlocked)
    (sound : s.Sound) (visited : Visits RunningClient.step s acts s') : s'.Deadlocked := by
  have kept : s'.Sound ∧ s'.Deadlocked := by
    apply visited.invariant _ ⟨sound, deadlocked⟩
    rintro s a s' ⟨sound, deadlocked⟩ stepped
    exact ⟨sound_step sound stepped, deadlocked.step sound stepped⟩
  exact kept.2

end RunningClient

end ServerLib.Web
