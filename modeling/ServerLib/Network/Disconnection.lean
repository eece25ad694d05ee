import ServerLib.Foundation.Threads
import ServerLib.Foundation.Transition
import ServerLib.Network.ScopeRunner

/-!
# `disconnect` and the handlers of a connection

Each handler that `async_handler` builds asks `scope_lock` whether it may go on, and `disconnect`
stops the scope runner before it takes the socket away. But the lambda that is `scope_lock`
has the shared lock as a local variable and returns whether there is one, so the lock is
gone before `success_case` is called, and `disconnect` does not wait for it.
-/
namespace ServerLib.Network

open Transition Threads

/-- Where a thread is in a handler of `async_read` or `async_write`. -/
inductive ConnHandler where
  /-- in front of `scope_lock`; whether the operation has failed -/
  | entered (failed : Bool)
  /-- in the loop of `continue_lock` -/
  | acquiring (failed : Bool) (expected : Int)
  /-- at the end of `scope_lock`, with the lock -/
  | locked (failed : Bool)
  /-- behind `scope_lock` -/
  | passed (failed : Bool)
  /-- in `success_case` -/
  | success
  /-- in `failed_case`; whether that was called for an exception -/
  | failed (caught : Bool)
  deriving DecidableEq, Repr

/-- Where a thread is in `disconnect`. -/
inductive Disconnect where
  | entered
  /-- in `handler_runner.stop()` -/
  | stopping
  /-- behind it -/
  | releasing
  /-- has released the socket -/
  | notifying
  deriving DecidableEq, Repr

/-- A thread may be in a handler, and it may be in `disconnect`, called in the handler or not. -/
structure ConnThread where
  handler : Option ConnHandler := none
  disconnect : Option Disconnect := none
  deriving DecidableEq, Repr

namespace ConnThread

def locked (t : ConnThread) : Bool :=
  match t.handler with
  | some (.locked _) => true
  | _ => false

/-- The handler has passed its check, and comes to `success_case` or is in it. -/
def succeeding (t : ConnThread) : Bool :=
  match t.handler with
  | some (.passed false) | some .success => true
  | _ => false

def inSuccessCase (t : ConnThread) : Bool := t.handler = some .success

/-- `failed_case`, which is a call of `disconnect`. -/
def fail (caught : Bool) : ConnThread :=
  { handler := some (.failed caught), disconnect := some .entered }

end ConnThread

structure AsioConnection where
  count : Int := 0
  isConnected : Bool := true
  threads : List ConnThread
  /-- the threads for which `handler_runner.stop()` has returned in `disconnect` -/
  stopped : List Nat := []
  deriving DecidableEq, Repr

inductive ConnAction where
  /-- The service calls a handler on a thread. -/
  | complete (i : Nat) (failed : Bool)
  /-- `disconnect` is called on a thread, in a `success_case` or outside of handlers. -/
  | disconnect (i : Nat)
  /-- A thread goes on. A callback may throw. -/
  | thread (i : Nat) (spurious throws : Bool)
  deriving DecidableEq, Repr

namespace AsioConnection

/-- A connection that is served by that many threads. -/
def create (threads : Nat) : AsioConnection := { threads := List.replicate threads {} }

def move (s : AsioConnection) (i : Nat) (t : ConnThread) : AsioConnection :=
  { s with threads := s.threads.set i t }

def disconnectStep (s : AsioConnection) (i : Nat) (t : ConnThread) (spurious : Bool) :
    Disconnect → AsioConnection
  | .entered =>
    if s.isConnected then s.move i { t with disconnect := some .stopping }
    else s.move i { t with disconnect := none }
  | .stopping =>
    match ScopeRunner.stop spurious s.count with
    | none => s
    | some count =>
      { s.move i { t with disconnect := some .releasing } with
        count := count
        stopped := s.stopped ++ [i] }
  | .releasing => { s.move i { t with disconnect := some .notifying } with isConnected := false }
  | .notifying => s.move i { t with disconnect := none }

def handlerStep (s : AsioConnection) (i : Nat) (spurious throws : Bool) :
    ConnHandler → AsioConnection
  | .entered failed => s.move i { handler := some (.acquiring failed s.count) }
  | .acquiring failed expected =>
    match ScopeRunner.continueLock spurious s.count expected with
    | .refused => s.move i {}
    | .acquired count => { s.move i { handler := some (.locked failed) } with count := count }
    | .again expected => s.move i { handler := some (.acquiring failed expected) }
  | .locked failed =>
    -- `loop_lock` is destroyed when the lambda returns
    { s.move i { handler := some (.passed failed) } with count := ScopeRunner.release s.count }
  | .passed failed => s.move i (if failed then .fail false else { handler := some .success })
  | .success => s.move i (if throws then .fail true else {})
  | .failed caught => s.move i (if throws ∧ ¬ caught then .fail true else {})

def step (s : AsioConnection) : ConnAction → Option AsioConnection
  | .complete i failed =>
    if s.threads[i]? = some {} then some (s.move i { handler := some (.entered failed) }) else none
  | .disconnect i =>
    s.threads[i]?.bind fun t =>
      if t.disconnect = none ∧ (t.handler = none ∨ t.handler = some .success) then
        some (s.move i { t with disconnect := some .entered })
      else none
  | .thread i spurious throws =>
    s.threads[i]?.bind fun t =>
      match t.disconnect, t.handler with
      | some d, _ => some (s.disconnectStep i t spurious d)
      | none, some h => some (s.handlerStep i spurious throws h)
      | none, none => none

/-- No other thread is one of those. -/
def NoOther (s : AsioConnection) (p : ConnThread → Bool) (i : Nat) : Prop :=
  ∀ j : Fin s.threads.length, j.val ≠ i → p s.threads[j] = false

instance (s : AsioConnection) (p : ConnThread → Bool) (i : Nat) : Decidable (s.NoOther p i) :=
  inferInstanceAs (Decidable (∀ _ : Fin _, _))

/-- Where `handler_runner.stop()` has returned for a thread no other one is in `success_case`. -/
def Quiet (s : AsioConnection) : Prop := ∀ i ∈ s.stopped, s.NoOther ConnThread.inSuccessCase i

/-- When `handler_runner.stop()` returns in `disconnect`, no other thread is between its check and
the end of `success_case`. -/
def Guarded (s : AsioConnection) : ConnAction → Prop
  | .thread i spurious _ =>
    s.threads[i]?.any (·.disconnect = some .stopping) →
      ScopeRunner.stop spurious s.count ≠ none → s.NoOther ConnThread.succeeding i
  | _ => True

instance (s : AsioConnection) : DecidablePred s.Guarded := fun a => by
  cases a <;> unfold Guarded <;> infer_instance

instance (s : AsioConnection) : Decidable s.Quiet :=
  inferInstanceAs (Decidable (∀ i ∈ s.stopped, _))

structure Sound (s : AsioConnection) : Prop where
  counts : ScopeRunner.Counts s.count (s.threads.countP ConnThread.locked)
  closed : s.stopped ≠ [] → s.count = -1
  quiet : ∀ i ∈ s.stopped, s.NoOther ConnThread.succeeding i

variable {s s' : AsioConnection} {i : Nat} {t new : ConnThread}

theorem noOther_iff {p : ConnThread → Bool} :
    s.NoOther p i ↔ ∀ j t, s.threads[j]? = some t → j ≠ i → p t = false := by
  constructor
  · intro noOther j t there other
    obtain ⟨inside, rfl⟩ := List.getElem?_eq_some_iff.mp there
    exact noOther ⟨j, inside⟩ other
  · intro noOther j other
    exact noOther j _ (List.getElem?_eq_getElem j.isLt) other

/-- A thread that goes on does not become one of those, for any other one. -/
theorem NoOther.move {p : ConnThread → Bool} {k : Nat} (noOther : s.NoOther p k)
    (here : s.threads[i]? = some t) (keeps : p new → p t) : (s.move i new).NoOther p k := by
  rw [noOther_iff] at noOther ⊢
  intro j u there other
  rcases getElem?_move there with ⟨rfl, rfl⟩ | ⟨_, before⟩
  · exact Bool.eq_false_iff.mpr fun holds =>
      Bool.eq_false_iff.mp (noOther j t here other) (keeps holds)
  · exact noOther j u before other

theorem Sound.quiet_of_sound (sound : s.Sound) : s.Quiet := by
  intro i stopped j other
  have past := sound.quiet i stopped j other
  refine Bool.eq_false_iff.mpr fun inside => ?_
  simp only [ConnThread.inSuccessCase, decide_eq_true_eq] at inside
  rw [ConnThread.succeeding, inside] at past
  exact nomatch past

theorem sound_create (threads : Nat) : (create threads).Sound where
  counts := by
    rw [create, List.countP_replicate]
    exact ScopeRunner.counts_none
  closed := absurd rfl
  quiet := nofun

/-- A thread goes on that has no lock, gets none, and does not pass its check. -/
theorem Sound.move (sound : s.Sound) (here : s.threads[i]? = some t)
    (locked : new.locked = t.locked) (passes : new.succeeding → t.succeeding) :
    (s.move i new).Sound where
  counts := by
    rw [AsioConnection.move, countP_move_same here locked]
    exact sound.counts
  closed := sound.closed
  quiet k stopped := (sound.quiet k stopped).move here passes

/-- A handler gets a lock, which it does not behind `stop`. -/
theorem Sound.acquire (sound : s.Sound) (here : s.threads[i]? = some t)
    (unlocked : t.locked = false) {failed spurious : Bool} {expected count : Int}
    (acquired : ScopeRunner.continueLock spurious s.count expected = .acquired count) :
    Sound { s.move i { handler := some (.locked failed) } with count := count } := by
  obtain ⟨running, counts⟩ := sound.counts.acquire acquired
  -- behind `stop` there would be no lock to be had
  have never : s.stopped = [] := by
    by_contra stopped
    exact running (sound.closed stopped)
  refine ⟨?_, fun stopped => absurd never stopped, ?_⟩
  · simp only [AsioConnection.move]
    rw [countP_enter here unlocked rfl]
    exact counts
  · intro k stopped
    rw [AsioConnection.move, never] at stopped
    exact nomatch stopped

/-- A handler passes its check. `stop` has not returned, as there was a lock. -/
theorem Sound.pass (sound : s.Sound) {failed : Bool}
    (here : s.threads[i]? = some t) (locked : t.locked) :
    Sound { s.move i { handler := some (.passed failed) } with
      count := ScopeRunner.release s.count } := by
  have fewer : (s.threads.set i { handler := some (.passed failed) }).countP ConnThread.locked + 1 =
      s.threads.countP ConnThread.locked := countP_leave here locked rfl
  have counts := sound.counts
  rw [← fewer] at counts
  have never : s.stopped = [] := by
    by_contra stopped
    rcases counts with held | ⟨_, impossible⟩
    · rw [sound.closed stopped] at held
      omega
    · exact nomatch impossible
  refine ⟨counts.release, fun stopped => absurd never stopped, ?_⟩
  intro k stopped
  rw [AsioConnection.move, never] at stopped
  exact nomatch stopped

/-- `stop` returns, and nobody is where it should wait for. -/
theorem Sound.stop (sound : s.Sound) (here : s.threads[i]? = some t)
    {spurious : Bool} {count : Int} (returned : ScopeRunner.stop spurious s.count = some count)
    (alone : s.NoOther ConnThread.succeeding i) {d : Option Disconnect} :
    Sound { s.move i { t with disconnect := d } with
      count := count, stopped := s.stopped ++ [i] } := by
  obtain ⟨rfl, unlocked⟩ := sound.counts.stop returned
  refine ⟨.inr ⟨rfl, ?_⟩, fun _ => rfl, ?_⟩
  · simp only [AsioConnection.move]
    rw [countP_move_same here (by rfl)]
    exact unlocked
  · intro k stopped
    -- for the threads before it nothing has changed, and for this one there is the guard
    have still : s.NoOther ConnThread.succeeding k := by
      rcases List.mem_append.mp stopped with before | now
      · exact sound.quiet k before
      · exact List.mem_singleton.mp now ▸ alone
    exact still.move here id

theorem sound_disconnectStep (sound : s.Sound) (here : s.threads[i]? = some t)
    {spurious throws : Bool} {d : Disconnect} (entered : t.disconnect = some d)
    (guarded : s.Guarded (.thread i spurious throws)) :
    (s.disconnectStep i t spurious d).Sound := by
  cases d with
  | entered =>
    simp only [disconnectStep]
    split
    · exact sound.move here rfl id
    · exact sound.move here rfl id
  | stopping =>
    simp only [disconnectStep]
    split
    · exact sound
    next count returned =>
      apply sound.stop here returned
      apply guarded
      · simp [here, entered]
      · simp [returned]
  | releasing =>
    have moved : (s.move i { t with disconnect := some .notifying }).Sound := sound.move here rfl id
    exact ⟨moved.counts, moved.closed, moved.quiet⟩
  | notifying => exact sound.move here rfl id

theorem sound_handlerStep (sound : s.Sound) (here : s.threads[i]? = some t)
    {spurious throws : Bool} {h : ConnHandler} (handling : t.handler = some h) :
    (s.handlerStep i spurious throws h).Sound := by
  have locked : t.locked = ConnThread.locked { handler := some h } := by
    rw [ConnThread.locked, handling]
    rfl
  have succeeding : t.succeeding = ConnThread.succeeding { handler := some h } := by
    rw [ConnThread.succeeding, handling]
    rfl
  cases h with
  | entered failed => exact sound.move here locked.symm nofun
  | acquiring failed expected =>
    simp only [handlerStep]
    split
    · exact sound.move here locked.symm nofun
    next count acquired => exact sound.acquire here locked acquired
    · exact sound.move here locked.symm nofun
  | locked failed => exact sound.pass here locked
  | passed failed =>
    cases failed with
    | false => exact sound.move here locked.symm fun _ => succeeding
    | true => exact sound.move here locked.symm nofun
  | success =>
    simp only [handlerStep]
    split
    · exact sound.move here locked.symm nofun
    · exact sound.move here locked.symm nofun
  | failed caught =>
    simp only [handlerStep]
    split
    · exact sound.move here locked.symm nofun
    · exact sound.move here locked.symm nofun

theorem sound_step (s : AsioConnection) (a : ConnAction) (s' : AsioConnection) (sound : s.Sound)
    (guarded : s.Guarded a) (stepped : s.step a = some s') : s'.Sound := by
  cases a with
  | complete i failed =>
    simp only [step, Option.ite_none_right_eq_some, Option.some.injEq] at stepped
    obtain ⟨here, rfl⟩ := stepped
    exact sound.move here rfl nofun
  | disconnect i =>
    obtain ⟨t, here, stepped⟩ := Option.bind_eq_some_iff.mp stepped
    simp only [Option.ite_none_right_eq_some, Option.some.injEq] at stepped
    obtain ⟨_, rfl⟩ := stepped
    exact sound.move here rfl id
  | thread i spurious throws =>
    obtain ⟨t, here, stepped⟩ := Option.bind_eq_some_iff.mp stepped
    split at stepped
    next d entered =>
      obtain rfl := Option.some.inj stepped
      exact sound_disconnectStep sound here entered guarded
    next h _ handling =>
      obtain rfl := Option.some.inj stepped
      exact sound_handlerStep sound here handling
    · exact nomatch stepped

/-- Behind `disconnect` no handler of the connection runs on another thread, if each
`handler_runner.stop()` returns when none has passed its check and is on its way to the end. -/
theorem no_handler_behind_disconnect (threads : Nat) (acts : List ConnAction)
    (guarded : Meets step Guarded (create threads) acts) {s : AsioConnection}
    (visited : Visits step (create threads) acts s) : s.Quiet :=
  (visits_invariant sound_step (sound_create threads) guarded visited).quiet_of_sound

/-- A handler comes to its end, and then the other thread disconnects. -/
def readThenDisconnect : List ConnAction :=
  .complete 0 false :: List.replicate 5 (.thread 0 false false) ++
    [.disconnect 1, .thread 1 false false, .thread 1 false false, .complete 0 false,
      .thread 0 false false, .thread 0 false false]

theorem no_handler_behind_disconnect_of_two :
    ∃ s, Visits step (create 2) readThenDisconnect s ∧ s.stopped = [1] ∧ s.Quiet := by
  refine ⟨_, visits_of_run rfl, rfl, ?_⟩
  apply no_handler_behind_disconnect 2 readThenDisconnect
  · decide
  · exact visits_of_run rfl

/-- The handler has passed its check when the other thread disconnects, and enters `success_case`
behind that. -/
theorem handler_behind_disconnect :
    ∃ s, Visits step (create 2) [.complete 0 false, .thread 0 false false, .thread 0 false false,
      .thread 0 false false, .disconnect 1, .thread 1 false false, .thread 1 false false,
      .thread 0 false false] s ∧ ¬ s.Quiet :=
  ⟨_, visits_of_run rfl, by decide⟩

end AsioConnection

end ServerLib.Network
