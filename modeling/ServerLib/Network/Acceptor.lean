import Mathlib.Algebra.Group.Nat.Defs
import Mathlib.Data.List.Nodup
import ServerLib.Common.Strings
import ServerLib.Foundation.Threads
import ServerLib.Foundation.Transition

/-!
# The accept loop of a server

`tcp_server_impl` and `unix_local_server_impl` accept in the same way. The start handler opens
the acceptor and calls `accept`, which makes a connection with the next identifier and begins an
`async_accept` for it; the completion handler of that calls `accept` again before it does
anything with its own connection, unless the operation has been aborted. Handlers run on any
worker, so the next connection may be announced before this one. Both handlers catch what is
thrown in them and report it with the fail callback; what that throws in turn leaves the worker,
and the process ends. What is thrown is an `std::exception`, as nothing else is caught.

One thing goes round: the right to begin an `async_accept`. It is with an outstanding
operation, with a completion that waits for a worker, or with a worker that has not called
`accept` yet. Where it ends, the server is deaf.
-/
namespace ServerLib.Network

open Threads Transition

/-- The error of a completed operation; `operation_aborted` is what closing the acceptor gives. -/
inductive AcceptError where
  | operationAborted
  | other (code : Nat)
  deriving DecidableEq, Repr

/-- Where a worker is: in the start handler, in the completion handler for connection `id`, or in
the `catch` of either. -/
inductive AcceptPlace where
  | idle
  | starting
  | startAccepting (next : UInt64)
  | started
  | entered (id : UInt64) (ec : Option AcceptError)
  | accepting (id : UInt64) (ec : Option AcceptError) (next : UInt64)
  | answering (id : UInt64) (ec : Option AcceptError)
  | catching
  deriving DecidableEq, Repr

/-- The server as far as accepting goes. `outstanding` holds the operations on the acceptor and
`completed` the handlers that wait for a worker. The rest is a record: `issued` has all
identifiers in the order they were taken, `announced` those handed to the new-connection
callback, `reported` those that ended in the fail callback, `aborted` those that ended with the
acceptor, `unused` those whose connection could not be made; `failures` counts the calls of the
fail callback. `crashed` once an exception has left a worker. -/
structure Acceptor where
  nextConnectionId : UInt64
  workers : List AcceptPlace
  isStarted : Bool := false
  opened : Bool := false
  stopped : Bool := false
  outstanding : List UInt64 := []
  completed : List (UInt64 × Option AcceptError) := []
  issued : List UInt64 := []
  announced : List UInt64 := []
  reported : List UInt64 := []
  aborted : List UInt64 := []
  unused : List UInt64 := []
  failures : Nat := 0
  crashed : Bool := false
  deriving DecidableEq, Repr

/-- What may happen next. `ok` and `throws` are choices of the environment: whether the acceptor
can be opened, whether the socket can be made, whether a callback throws. -/
inductive AcceptAction where
  | start (w : Nat)
  | openAcceptor (w : Nat) (ok : Bool)
  | asyncAccept (w : Nat) (ok : Bool)
  | startCallback (w : Nat) (throws : Bool)
  | complete (error : Option Nat)
  | dispatch (w : Nat)
  | again (w : Nat)
  | answer (w : Nat) (configurated throws : Bool)
  | report (w : Nat) (throws : Bool)
  | close
  | stopWorkers

namespace Acceptor

def move (s : Acceptor) (w : Nat) (place : AcceptPlace) : Acceptor :=
  { s with workers := s.workers.set w place }

/-- `std::atomic_fetch_add(&_next_connection_id, 1)` -/
def fetchAdd (s : Acceptor) : Acceptor :=
  { s with nextConnectionId := s.nextConnectionId + 1, issued := s.issued ++ [s.nextConnectionId] }

/-- `_acceptor->async_accept` for connection `id`. On a closed acceptor the operation completes
at once, with an error that is not `operation_aborted`. -/
def beginAccept (s : Acceptor) (id : UInt64) : Acceptor :=
  if s.opened then { s with outstanding := s.outstanding ++ [id] }
  else { s with completed := s.completed ++ [(id, some (.other 9))] }

/-- A callback in the `try` of a handler is its last statement. -/
def callback (s : Acceptor) (w : Nat) (throws : Bool) : Acceptor :=
  s.move w (if throws then .catching else .idle)

/-- The rest of a handler once `accept` has been called: what becomes of its own connection. The
last case is the fail callback in the `try`; if it throws, the `catch` calls it again. -/
def answer (s : Acceptor) (w : Nat) (id : UInt64) (ec : Option AcceptError)
    (configurated throws : Bool) : Acceptor :=
  match ec with
  | none =>
    if configurated then { (s.callback w throws) with announced := s.announced ++ [id] }
    else { (s.move w .catching) with reported := s.reported ++ [id] }
  | some .operationAborted => { (s.move w .idle) with aborted := s.aborted ++ [id] }
  | some (.other _) =>
    { (s.callback w throws) with reported := s.reported ++ [id], failures := s.failures + 1 }

def act (s : Acceptor) : AcceptAction → Option Acceptor
  | .start w =>
    if s.isStarted = false ∧ s.workers[w]? = some .idle then
      some { (s.move w .starting) with isStarted := true }
    else none
  | .openAcceptor w ok =>
    match s.workers[w]? with
    | some .starting =>
      if ok then
        some (({ s with opened := true }.fetchAdd).move w (.startAccepting s.nextConnectionId))
      else some (s.move w .catching)
    | _ => none
  | .asyncAccept w ok =>
    match s.workers[w]? with
    | some (.startAccepting next) =>
      if ok then some ((s.beginAccept next).move w .started)
      else some { (s.move w .catching) with unused := s.unused ++ [next] }
    | some (.accepting id ec next) =>
      if ok then some ((s.beginAccept next).move w (.answering id ec))
      else
        -- the exception reaches the `catch` of the handler, its own connection is dropped too
        some
          { (s.move w .catching) with
            unused := s.unused ++ [next]
            reported := s.reported ++ [id] }
    | _ => none
  | .startCallback w throws =>
    match s.workers[w]? with
    | some .started => some (s.callback w throws)
    | _ => none
  | .complete error =>
    match s.outstanding with
    | [] => none
    | id :: outstanding =>
      some { s with outstanding, completed := s.completed ++ [(id, error.map .other)] }
  | .dispatch w =>
    match s.completed with
    | [] => none
    | (id, ec) :: completed =>
      if s.stopped = false ∧ s.workers[w]? = some .idle then
        some (({ s with completed }).move w (.entered id ec))
      else none
  | .again w =>
    match s.workers[w]? with
    | some (.entered id ec) =>
      if ec = some .operationAborted then some (s.move w (.answering id ec))
      else some (s.fetchAdd.move w (.accepting id ec s.nextConnectionId))
    | _ => none
  | .answer w configurated throws =>
    match s.workers[w]? with
    | some (.answering id ec) => some (s.answer w id ec configurated throws)
    | _ => none
  | .report w throws =>
    match s.workers[w]? with
    | some .catching =>
      some { (s.move w .idle) with failures := s.failures + 1, crashed := throws }
    | _ => none
  | .close =>
    some
      { s with
        opened := false
        outstanding := []
        completed :=
          s.completed ++ s.outstanding.map fun id => (id, some AcceptError.operationAborted) }
  | .stopWorkers => some { s with stopped := true }

/-- Nothing happens in a process that has ended. -/
def step (s : Acceptor) (a : AcceptAction) : Option Acceptor :=
  if s.crashed then none else s.act a

end Acceptor

/-! ### What goes round -/

namespace AcceptPlace

/-- The worker has `accept` still to call, or is inside it. -/
def beforeAccept : AcceptPlace → Bool
  | starting | startAccepting _ | entered _ _ | accepting _ _ _ => true
  | idle | started | answering _ _ | catching => false

/-- What the operation of the handler has come to. -/
def ec : AcceptPlace → Option AcceptError
  | entered _ ec | accepting _ ec _ | answering _ ec => ec
  | idle | starting | startAccepting _ | started | catching => none

/-- The connections that are in the hands of a worker. -/
def ids : AcceptPlace → List UInt64
  | idle | starting | started | catching => []
  | startAccepting next => [next]
  | entered id _ | answering id _ => [id]
  | accepting id _ next => [id, next]

end AcceptPlace

namespace Acceptor

/-- The right to begin an `async_accept` where no worker has it: not taken up yet, with an
operation, or with a completion. -/
def waiting (s : Acceptor) : Nat :=
  (!s.isStarted).toNat + s.outstanding.length + s.completed.length

def rights (s : Acceptor) : Nat := s.waiting + s.workers.countP AcceptPlace.beforeAccept

/-- The connections that no worker has in its hands. -/
def settled (s : Acceptor) : List UInt64 :=
  s.outstanding ++ s.completed.map Prod.fst ++ s.announced ++ s.reported ++ s.aborted ++ s.unused

/-- All connections, wherever they are. -/
def places (s : Acceptor) : List UInt64 :=
  s.settled ++ (s.workers.map AcceptPlace.ids).flatten

variable {s s' : Acceptor} {w : Nat} {old new : AcceptPlace} {first : UInt64}

theorem count_move (here : s.workers[w]? = some old) (moved : s'.workers = s.workers.set w new)
    (id : UInt64) : s'.places.count id + s.settled.count id + old.ids.count id =
      s.places.count id + s'.settled.count id + new.ids.count id := by
  have there : (s.workers.map AcceptPlace.ids)[w]? = some old.ids := by
    rw [List.getElem?_map, here]
    rfl
  obtain ⟨front, back, is, after⟩ := flatten_move there
  rw [places, places, moved, List.map_set, after, is]
  simp only [List.count_append]
  omega

/-- The identifiers were taken in order, beginning with `first`. -/
structure Numbered (first : UInt64) (s : Acceptor) : Prop where
  next : s.nextConnectionId = first + UInt64.ofNat s.issued.length
  inOrder : s.issued = (List.range s.issued.length).map fun k => first + UInt64.ofNat k

theorem Numbered.fetchAdd (numbered : s.Numbered first) : s.fetchAdd.Numbered first where
  next := by
    simp only [Acceptor.fetchAdd, numbered.next, List.length_append, List.length_singleton,
      UInt64.ofNat_add, UInt64.add_assoc]
    rfl
  inOrder := by
    simp only [Acceptor.fetchAdd, List.length_append, List.length_singleton, List.range_succ,
      List.map_append, List.map_singleton, ← numbered.inOrder, ← numbered.next]

/-- What holds in every state of a server: there is one right at most, none of the operations is
on a closed acceptor, and every identifier that was taken is in one place. -/
structure Sound (first : UInt64) (s : Acceptor) : Prop where
  oneRight : s.rights ≤ 1
  closed : s.opened = false → s.outstanding = []
  conserved : ∀ id, s.places.count id = s.issued.count id
  numbered : s.Numbered first

/-- What a step can be. -/
inductive Stepped (s : Acceptor) : AcceptAction → Acceptor → Prop where
  | start {w : Nat} (unstarted : s.isStarted = false) (here : s.workers[w]? = some .idle) :
      Stepped s (.start w) { (s.move w .starting) with isStarted := true }
  | opened {w : Nat} (here : s.workers[w]? = some .starting) :
      Stepped s (.openAcceptor w true)
        (({ s with opened := true }.fetchAdd).move w (.startAccepting s.nextConnectionId))
  | unopened {w : Nat} (here : s.workers[w]? = some .starting) :
      Stepped s (.openAcceptor w false) (s.move w .catching)
  | begun {w : Nat} {next : UInt64} (here : s.workers[w]? = some (.startAccepting next)) :
      Stepped s (.asyncAccept w true) ((s.beginAccept next).move w .started)
  | unmade {w : Nat} {next : UInt64} (here : s.workers[w]? = some (.startAccepting next)) :
      Stepped s (.asyncAccept w false) { (s.move w .catching) with unused := s.unused ++ [next] }
  | renewed {w : Nat} {id next : UInt64} {ec : Option AcceptError}
      (here : s.workers[w]? = some (.accepting id ec next)) :
      Stepped s (.asyncAccept w true) ((s.beginAccept next).move w (.answering id ec))
  | unrenewed {w : Nat} {id next : UInt64} {ec : Option AcceptError}
      (here : s.workers[w]? = some (.accepting id ec next)) :
      Stepped s (.asyncAccept w false)
        { (s.move w .catching) with unused := s.unused ++ [next], reported := s.reported ++ [id] }
  | startCallback {w : Nat} (throws : Bool) (here : s.workers[w]? = some .started) :
      Stepped s (.startCallback w throws) (s.callback w throws)
  | complete {id : UInt64} {outstanding : List UInt64} (error : Option Nat)
      (waits : s.outstanding = id :: outstanding) :
      Stepped s (.complete error)
        { s with outstanding, completed := s.completed ++ [(id, error.map .other)] }
  | dispatch {w : Nat} {id : UInt64} {ec : Option AcceptError}
      {completed : List (UInt64 × Option AcceptError)} (waits : s.completed = (id, ec) :: completed)
      (here : s.workers[w]? = some .idle) :
      Stepped s (.dispatch w) (({ s with completed }).move w (.entered id ec))
  | aborted {w : Nat} {id : UInt64}
      (here : s.workers[w]? = some (.entered id (some .operationAborted))) :
      Stepped s (.again w) (s.move w (.answering id (some .operationAborted)))
  | again {w : Nat} {id : UInt64} {ec : Option AcceptError}
      (here : s.workers[w]? = some (.entered id ec)) (goesOn : ec ≠ some .operationAborted) :
      Stepped s (.again w) (s.fetchAdd.move w (.accepting id ec s.nextConnectionId))
  | answer {w : Nat} {id : UInt64} {ec : Option AcceptError} (configurated throws : Bool)
      (here : s.workers[w]? = some (.answering id ec)) :
      Stepped s (.answer w configurated throws) (s.answer w id ec configurated throws)
  | report {w : Nat} (throws : Bool) (here : s.workers[w]? = some .catching) :
      Stepped s (.report w throws)
        { (s.move w .idle) with failures := s.failures + 1, crashed := throws }
  | close :
      Stepped s .close
        { s with
          opened := false
          outstanding := []
          completed :=
            s.completed ++ s.outstanding.map fun id => (id, some AcceptError.operationAborted) }
  | stopWorkers : Stepped s .stopWorkers { s with stopped := true }

theorem stepped_of_act {a : AcceptAction} (acts : s.act a = some s') : Stepped s a s' := by
  cases a with
  | start w =>
    simp only [act, Option.ite_none_right_eq_some, Option.some.injEq] at acts
    obtain ⟨⟨unstarted, here⟩, rfl⟩ := acts
    exact .start unstarted here
  | openAcceptor w ok =>
    simp only [act] at acts
    split at acts
    next here =>
      cases ok with
      | true => exact Option.some.inj acts ▸ .opened here
      | false => exact Option.some.inj acts ▸ .unopened here
    · cases acts
  | asyncAccept w ok =>
    simp only [act] at acts
    split at acts
    next next here =>
      -- the connection of a new `accept` is made here, that of a completed one is renewed below
      cases ok with
      | true => exact Option.some.inj acts ▸ .begun here
      | false => exact Option.some.inj acts ▸ .unmade here
    next id ec next here =>
      cases ok with
      | true => exact Option.some.inj acts ▸ .renewed here
      | false => exact Option.some.inj acts ▸ .unrenewed here
    · cases acts
  | startCallback w throws =>
    simp only [act] at acts
    split at acts
    next here => exact Option.some.inj acts ▸ .startCallback throws here
    · cases acts
  | complete error =>
    simp only [act] at acts
    split at acts
    · cases acts
    next id outstanding waits => exact Option.some.inj acts ▸ .complete error waits
  | dispatch w =>
    simp only [act] at acts
    split at acts
    · cases acts
    next id ec completed waits =>
      simp only [Option.ite_none_right_eq_some, Option.some.injEq] at acts
      obtain ⟨⟨-, here⟩, rfl⟩ := acts
      exact .dispatch waits here
  | again w =>
    simp only [act] at acts
    split at acts
    next id ec here =>
      split at acts
      next aborted =>
        subst aborted
        exact Option.some.inj acts ▸ .aborted here
      next goesOn => exact Option.some.inj acts ▸ .again here goesOn
    · cases acts
  | answer w configurated throws =>
    simp only [act] at acts
    split at acts
    next id ec here => exact Option.some.inj acts ▸ .answer configurated throws here
    · cases acts
  | report w throws =>
    simp only [act] at acts
    split at acts
    next here => exact Option.some.inj acts ▸ .report throws here
    · cases acts
  | close => exact Option.some.inj acts ▸ .close
  | stopWorkers => exact Option.some.inj acts ▸ .stopWorkers

theorem stepped_of_step {a : AcceptAction} (stepped : s.step a = some s') : Stepped s a s' := by
  rw [step] at stepped
  split at stepped
  · cases stepped
  · exact stepped_of_act stepped

/-- A worker goes on, and the right goes with it or is lost. -/
theorem rights_of_move (here : s.workers[w]? = some old)
    (moved : s'.workers = s.workers.set w new) (lost : Nat)
    (right : s'.waiting + (if new.beforeAccept then 1 else 0) + lost =
      s.waiting + if old.beforeAccept then 1 else 0) : s'.rights + lost = s.rights := by
  have counted := countP_move here new AcceptPlace.beforeAccept
  rw [rights, rights, moved]
  omega

/-- A worker goes on, and the connections go with it. -/
theorem Sound.advance (sound : s.Sound first) (right : s'.rights ≤ s.rights)
    (here : s.workers[w]? = some old) (moved : s'.workers = s.workers.set w new)
    (closed : s'.opened = false → s'.outstanding = [])
    (kept : ∀ id, s'.settled.count id + new.ids.count id + s.issued.count id =
      s.settled.count id + old.ids.count id + s'.issued.count id)
    (numbered : s'.Numbered first) : s'.Sound first where
  oneRight := Nat.le_trans right sound.oneRight
  closed := closed
  conserved id := by
    have all := count_move here moved id
    have before := sound.conserved id
    have same := kept id
    omega
  numbered := numbered

/-- The workers stay where they are. -/
theorem Sound.elsewhere (sound : s.Sound first) (right : s'.rights ≤ s.rights)
    (still : s'.workers = s.workers) (closed : s'.opened = false → s'.outstanding = [])
    (issued : s'.issued = s.issued) (next : s'.nextConnectionId = s.nextConnectionId)
    (kept : ∀ id, s'.settled.count id = s.settled.count id) : s'.Sound first where
  oneRight := Nat.le_trans right sound.oneRight
  closed := closed
  conserved id := by
    have before := sound.conserved id
    rw [places, List.count_append] at before ⊢
    rw [kept, still, issued, before]
  numbered := by
    constructor
    · rw [next, issued, sound.numbered.next]
    · rw [issued]
      exact sound.numbered.inOrder

/-- `async_accept` gives the right and the new connection away. -/
theorem waiting_beginAccept (s : Acceptor) (id : UInt64) :
    (s.beginAccept id).waiting = s.waiting + 1 := by
  unfold beginAccept
  split
  · simp only [waiting, List.length_append, List.length_singleton]
    omega
  · simp only [waiting, List.length_append, List.length_singleton]
    omega

theorem count_beginAccept (s : Acceptor) (id other : UInt64) :
    (s.beginAccept id).settled.count other = s.settled.count other + [id].count other := by
  unfold beginAccept
  split
  · simp only [settled, List.count_append]
    omega
  · simp only [settled, List.count_append, List.map_append, List.map_singleton]
    omega

theorem closed_beginAccept (closed : s.opened = false → s.outstanding = []) (id : UInt64) :
    (s.beginAccept id).opened = false → (s.beginAccept id).outstanding = [] := by
  unfold beginAccept
  split
  next isOpen =>
    intro shut
    rw [isOpen] at shut
    cases shut
  · exact closed

/-- What becomes of a connection, it is settled. -/
theorem count_answer (s : Acceptor) (w : Nat) (id : UInt64) (ec : Option AcceptError)
    (configurated throws : Bool) (other : UInt64) :
    (s.answer w id ec configurated throws).settled.count other =
      s.settled.count other + [id].count other := by
  unfold answer
  split
  · split
    · simp only [settled, callback, move, List.count_append]
      omega
    · simp only [settled, move, List.count_append]
      omega
  · simp only [settled, move, List.count_append]
    omega
  · simp only [settled, callback, move, List.count_append]
    omega

/-- Answering leaves everything alone but the worker, which has nothing left to accept and no
connection in its hands, and the record of what has become of the connections. -/
theorem answer_eq (s : Acceptor) (w : Nat) (id : UInt64) (ec : Option AcceptError)
    (configurated throws : Bool) :
    ∃ place announced reported aborted failures, (place = .idle ∨ place = .catching) ∧
      s.answer w id ec configurated throws =
        { (s.move w place) with announced, reported, aborted, failures } := by
  have through : (if throws then AcceptPlace.catching else .idle) = .idle ∨
      (if throws then AcceptPlace.catching else .idle) = .catching := by
    cases throws
    · exact .inl rfl
    · exact .inr rfl
  unfold answer
  split
  · split
    · exact ⟨_, _, _, _, _, through, rfl⟩
    · exact ⟨_, _, _, _, _, .inr rfl, rfl⟩
  · exact ⟨_, _, _, _, _, .inl rfl, rfl⟩
  · exact ⟨_, _, _, _, _, through, rfl⟩

/-- `async_accept` leaves everything alone but the operation and its completion. -/
theorem beginAccept_eq (s : Acceptor) (id : UInt64) :
    ∃ outstanding completed, s.beginAccept id = { s with outstanding, completed } := by
  unfold beginAccept
  split
  · exact ⟨_, _, rfl⟩
  · exact ⟨_, _, rfl⟩

theorem rights_begins (here : s.workers[w]? = some old) (inside : old.beforeAccept = true)
    (outside : new.beforeAccept = false) (next : UInt64) :
    ((s.beginAccept next).move w new).rights = s.rights := by
  have waits := waiting_beginAccept s next
  obtain ⟨outstanding, completed, is⟩ := beginAccept_eq s next
  rw [is] at waits ⊢
  apply rights_of_move here rfl 0
  rw [inside, outside]
  exact waits

/-- The step ends the right: the acceptor cannot be opened, the connection for the next `accept`
cannot be made, or the completion is one of a closed acceptor. -/
def loses (s : Acceptor) : AcceptAction → Bool
  | .openAcceptor _ ok | .asyncAccept _ ok => !ok
  | .again w => s.workers[w]?.any fun place => place.ec = some .operationAborted
  | _ => false

theorem loses_again {id : UInt64} {ec : Option AcceptError}
    (here : s.workers[w]? = some (.entered id ec)) :
    s.loses (.again w) = decide (ec = some .operationAborted) := by
  rw [loses, here]
  rfl

theorem rights_step {a : AcceptAction} (stepped : s.step a = some s') :
    s'.rights + (s.loses a).toNat = s.rights := by
  cases stepped_of_step stepped with
  | start unstarted here =>
    -- the right that was not taken up is with the worker now
    apply rights_of_move here rfl
    simp only [waiting, move, unstarted, AcceptPlace.beforeAccept, loses, Bool.not_true,
      Bool.not_false, Bool.toNat_false, Bool.toNat_true, Bool.false_eq_true, if_false, if_true]
    omega
  | opened here => exact rights_of_move here rfl _ rfl
  | unopened here => exact rights_of_move here rfl _ rfl
  | begun here => exact rights_begins here rfl rfl _
  | unmade here => exact rights_of_move here rfl _ rfl
  | renewed here => exact rights_begins here rfl rfl _
  | unrenewed here => exact rights_of_move here rfl _ rfl
  | startCallback throws here =>
    cases throws with
    | true => exact rights_of_move here rfl _ rfl
    | false => exact rights_of_move here rfl _ rfl
  | complete error waits =>
    simp only [rights, waiting, waits, loses, Bool.toNat_false, List.length_append,
      List.length_cons, List.length_nil]
    omega
  | dispatch waits here =>
    apply rights_of_move here rfl
    simp only [waiting, waits, move, loses, List.length_cons, AcceptPlace.beforeAccept,
      Bool.toNat_false, Bool.false_eq_true, if_false, if_true]
    omega
  | aborted here =>
    rw [loses_again here]
    exact rights_of_move here rfl _ rfl
  | again here goesOn =>
    rw [loses_again here, decide_eq_false goesOn]
    exact rights_of_move here rfl _ rfl
  | answer configurated throws here =>
    obtain ⟨place, announced, reported, aborted, failures, through, is⟩ :=
      answer_eq s _ _ _ configurated throws
    rw [is]
    rcases through with rfl | rfl
    · exact rights_of_move here rfl _ rfl
    · exact rights_of_move here rfl _ rfl
  | report throws here => exact rights_of_move here rfl _ rfl
  | close =>
    -- the operations have completed
    simp only [rights, waiting, loses, Bool.toNat_false, List.length_append, List.length_map,
      List.length_nil]
    omega
  | stopWorkers => rfl

/-- A worker inside `accept` begins the operation for the connection it has made. -/
theorem Sound.begins (sound : s.Sound first) (here : s.workers[w]? = some old)
    (inside : old.beforeAccept = true) (outside : new.beforeAccept = false) (next : UInt64)
    (ids : ∀ id, old.ids.count id = new.ids.count id + [next].count id) :
    ((s.beginAccept next).move w new).Sound first := by
  have right := rights_begins here inside outside next
  have kept := count_beginAccept s next
  have closed := closed_beginAccept sound.closed next
  -- on a closed acceptor the operation completes at once
  obtain ⟨outstanding, completed, is⟩ := beginAccept_eq s next
  rw [is] at right kept closed ⊢
  apply sound.advance (Nat.le_of_eq right) here rfl
  · exact closed
  · intro id
    have after : (({ s with outstanding, completed } : Acceptor).move w new).settled.count id =
        s.settled.count id + [next].count id := kept id
    have own := ids id
    rw [after, own]
    simp only [move]
    omega
  · exact ⟨sound.numbered.next, sound.numbered.inOrder⟩

/-- A worker is through with its connection. -/
theorem Sound.answers (sound : s.Sound first) {id : UInt64} {ec : Option AcceptError}
    (here : s.workers[w]? = some (.answering id ec)) (configurated throws : Bool)
    (right : (s.answer w id ec configurated throws).rights ≤ s.rights) :
    (s.answer w id ec configurated throws).Sound first := by
  have kept := count_answer s w id ec configurated throws
  obtain ⟨place, announced, reported, aborted, failures, through, is⟩ :=
    answer_eq s w id ec configurated throws
  -- it is idle, or in the catch clause, and has no connection in its hands in either
  have empty : place.ids = [] := by
    rcases through with rfl | rfl
    · rfl
    · rfl
  rw [is] at right kept ⊢
  apply sound.advance right here rfl
  · exact sound.closed
  · intro other
    rw [kept other, empty]
    simp only [move, AcceptPlace.ids, List.count_nil]
    omega
  · exact ⟨sound.numbered.next, sound.numbered.inOrder⟩

/-- A worker goes on with what it has in its hands, or without. -/
theorem Sound.pass (sound : s.Sound first) (right : s'.rights ≤ s.rights)
    (here : s.workers[w]? = some old) (moved : s'.workers = s.workers.set w new)
    (opened : s'.opened = s.opened) (outstanding : s'.outstanding = s.outstanding)
    (kept : ∀ id, s'.settled.count id + new.ids.count id =
      s.settled.count id + old.ids.count id)
    (issued : s'.issued = s.issued) (next : s'.nextConnectionId = s.nextConnectionId) :
    s'.Sound first := by
  apply sound.advance right here moved
  · rw [opened, outstanding]
    exact sound.closed
  · intro id
    rw [issued, kept id]
  · exact ⟨by rw [next, issued, sound.numbered.next], by rw [issued]; exact sound.numbered.inOrder⟩

theorem sound_step (s : Acceptor) (a : AcceptAction) (s' : Acceptor)
    (sound : s.Sound first) (stepped : s.step a = some s') : s'.Sound first := by
  have right : s'.rights ≤ s.rights := by
    have balance := rights_step stepped
    omega
  have taken := sound.numbered.fetchAdd
  cases stepped_of_step stepped with
  | start unstarted here => exact sound.pass right here rfl rfl rfl (fun _ => rfl) rfl rfl
  | opened here =>
    -- the first identifier is taken
    apply sound.advance right here rfl
    · intro closed
      cases closed
    · intro id
      simp only [settled, move, fetchAdd, AcceptPlace.ids, List.count_append, List.count_nil]
      omega
    · exact ⟨taken.next, taken.inOrder⟩
  | unopened here => exact sound.pass right here rfl rfl rfl (fun _ => rfl) rfl rfl
  | begun here => exact sound.begins here rfl rfl _ fun id => by simp [AcceptPlace.ids]
  | unmade here =>
    refine sound.pass right here rfl rfl rfl (fun id => ?_) rfl rfl
    simp only [settled, move, AcceptPlace.ids, List.count_append, List.count_nil]
    omega
  | renewed here =>
    refine sound.begins here rfl rfl _ fun other => ?_
    simp only [AcceptPlace.ids, List.count_cons, List.count_nil]
    omega
  | unrenewed here =>
    -- both connections are dropped
    refine sound.pass right here rfl rfl rfl (fun other => ?_) rfl rfl
    simp only [settled, move, AcceptPlace.ids, List.count_append, List.count_cons, List.count_nil]
    omega
  | startCallback throws here =>
    cases throws with
    | true => exact sound.pass right here rfl rfl rfl (fun _ => rfl) rfl rfl
    | false => exact sound.pass right here rfl rfl rfl (fun _ => rfl) rfl rfl
  | complete error waits =>
    refine sound.elsewhere right rfl (fun closed => ?_) rfl rfl fun other => ?_
    · -- there is no operation on a closed acceptor
      cases waits.symm.trans (sound.closed closed)
    · simp only [settled, waits, List.count_append, List.map_append, List.map_cons, List.map_nil,
        List.count_cons, List.count_nil]
      omega
  | dispatch waits here =>
    refine sound.pass right here rfl rfl rfl (fun other => ?_) rfl rfl
    simp only [settled, waits, move, AcceptPlace.ids, List.count_append, List.map_cons,
      List.count_cons, List.count_nil]
    omega
  | aborted here => exact sound.pass right here rfl rfl rfl (fun _ => rfl) rfl rfl
  | again here goesOn =>
    -- the next identifier is taken
    apply sound.advance right here rfl
    · exact sound.closed
    · intro other
      simp only [settled, move, fetchAdd, AcceptPlace.ids, List.count_append, List.count_cons,
        List.count_nil]
      omega
    · exact ⟨taken.next, taken.inOrder⟩
  | answer configurated throws here => exact sound.answers here configurated throws right
  | report throws here => exact sound.pass right here rfl rfl rfl (fun _ => rfl) rfl rfl
  | close =>
    refine sound.elsewhere right rfl (fun _ => rfl) rfl rfl fun other => ?_
    simp only [settled, List.count_append, List.map_append, List.map_map, List.count_nil]
    rw [show Prod.fst ∘ (fun id : UInt64 => (id, some AcceptError.operationAborted)) = id from rfl,
      List.map_id]
    omega
  | stopWorkers => exact sound.elsewhere right rfl sound.closed rfl rfl fun _ => rfl

/-- A server before `start`, with its first identifier and so many workers. -/
def fresh (first : UInt64) (workers : Nat) : Acceptor :=
  { nextConnectionId := first, workers := List.replicate workers .idle }

/-- `tcp_server_impl` counts from zero. -/
def tcpServer (workers : Nat) : Acceptor := fresh 0 workers

/-- `unix_local_server_impl` counts from one. -/
def unixLocalServer (workers : Nat) : Acceptor := fresh 1 workers

theorem sound_fresh (first : UInt64) (workers : Nat) : (fresh first workers).Sound first where
  oneRight := by simp [rights, waiting, fresh, AcceptPlace.beforeAccept, List.countP_replicate]
  closed _ := rfl
  conserved id := by simp [places, settled, fresh, AcceptPlace.ids]
  numbered := ⟨by simp [fresh], rfl⟩

/-- Identifiers are different until the counter has gone round. -/
theorem Numbered.nodup (numbered : s.Numbered first) (few : s.issued.length ≤ 2 ^ 64) :
    s.issued.Nodup := by
  rw [numbered.inOrder]
  refine List.Nodup.map_on ?_ List.nodup_range
  intro j below k below' same
  rw [List.mem_range] at below below'
  have equal := congrArg UInt64.toNat (UInt64.add_right_inj first |>.mp same)
  rw [UInt64.toNat_ofNat_of_lt' (by simp [UInt64.size]; omega),
    UInt64.toNat_ofNat_of_lt' (by simp [UInt64.size]; omega)] at equal
  exact equal

/-- What a server can say of its connections: one `async_accept` at most is under way, every
identifier that was taken is in one place, they count up from `first`, and none is announced
twice. -/
structure AcceptsOnce (first : UInt64) (s : Acceptor) : Prop where
  alone : s.outstanding.length + s.completed.length +
    s.workers.countP AcceptPlace.beforeAccept ≤ 1
  accounted : s.places.Perm s.issued
  inOrder : s.issued = (List.range s.issued.length).map fun k => first + UInt64.ofNat k
  distinct : s.issued.length ≤ 2 ^ 64 → s.announced.Nodup

/-- In every interleaving of the workers, the kernel and whoever stops the server. -/
theorem accepts_once (first : UInt64) (workers : Nat) {acts : List AcceptAction} {s : Acceptor}
    (visited : Visits step (fresh first workers) acts s) : s.AcceptsOnce first := by
  have sound : s.Sound first := visited.invariant sound_step (sound_fresh first workers)
  have accounted : s.places.Perm s.issued := List.perm_iff_count.mpr sound.conserved
  refine ⟨?_, accounted, sound.numbered.inOrder, fun few => ?_⟩
  · have one := sound.oneRight
    rw [rights, waiting] at one
    omega
  · have distinct : s.places.Nodup := accounted.nodup_iff.mpr (sound.numbered.nodup few)
    have inside : s.announced.Sublist s.places := by
      simp only [places, settled, List.append_assoc]
      exact (List.sublist_append_left _ _).trans
        ((List.sublist_append_right _ _).trans (List.sublist_append_right _ _))
    exact List.Nodup.sublist inside distinct

private def overtaken : List AcceptAction :=
  [.start 0, .openAcceptor 0 true, .asyncAccept 0 true, .complete none, .dispatch 1, .again 1,
    .asyncAccept 1 true, .startCallback 0 false, .complete none, .dispatch 0, .again 0,
    .asyncAccept 0 true, .answer 0 true false, .close, .answer 1 true true, .report 1 false,
    .dispatch 1, .again 1, .answer 1 true false]

/-- The second connection is announced before the first one, whose callback throws, and the
third operation is aborted. -/
theorem accepts_once_overtaken :
    ∃ s, run step (tcpServer 2) overtaken = some s ∧ s.announced = [1, 0] ∧ s.aborted = [2] ∧
      s.AcceptsOnce 0 := by
  have ran : (run step (tcpServer 2) overtaken).map (fun s => (s.announced, s.aborted)) =
      some ([1, 0], [2]) := by decide +kernel
  obtain ⟨s, is, seen⟩ := Option.map_eq_some_iff.mp ran
  obtain ⟨announced, aborted⟩ := Prod.mk.inj seen
  exact ⟨s, is, announced, aborted, accepts_once 0 2 (visits_of_run is)⟩

/-! ### A server that is left alone -/

/-- Nobody closes the acceptor, it can be opened, connections can be made, and the fail callback
does not throw back at the `catch` it is called from. -/
def Undisturbed : AcceptAction → Prop
  | .openAcceptor _ ok | .asyncAccept _ ok => ok = true
  | .report _ throws => throws = false
  | .close => False
  | _ => True

instance : (a : AcceptAction) → Decidable (Undisturbed a)
  | .openAcceptor _ ok => inferInstanceAs (Decidable (ok = true))
  | .asyncAccept _ ok => inferInstanceAs (Decidable (ok = true))
  | .report _ throws => inferInstanceAs (Decidable (throws = false))
  | .close => inferInstanceAs (Decidable False)
  | .start _ | .startCallback _ _ | .complete _ | .dispatch _ | .again _ | .answer _ _ _
  | .stopWorkers => inferInstanceAs (Decidable True)

/-- No operation has been aborted. -/
structure Unbroken (s : Acceptor) : Prop where
  completed : ∀ entry ∈ s.completed, entry.2 ≠ some AcceptError.operationAborted
  workers : ∀ place ∈ s.workers, place.ec ≠ some .operationAborted

/-- A worker that goes on with the error it has found. -/
theorem Unbroken.advance (unbroken : s.Unbroken) (moved : s'.workers = s.workers.set w new)
    (fine : new.ec ≠ some .operationAborted)
    (completed : ∀ entry ∈ s'.completed, entry ∈ s.completed ∨ entry.2 = some (.other 9)) :
    s'.Unbroken where
  completed entry member := by
    rcases completed entry member with before | closed
    · exact unbroken.completed entry before
    · rw [closed]
      intro same
      cases same
  workers place member := by
    rw [moved] at member
    rcases List.mem_or_eq_of_mem_set member with before | rfl
    · exact unbroken.workers place before
    · exact fine

theorem completed_beginAccept (s : Acceptor) (id : UInt64) :
    ∀ entry ∈ (s.beginAccept id).completed,
      entry ∈ s.completed ∨ entry.2 = some (.other 9) := by
  intro entry member
  unfold beginAccept at member
  split at member
  · exact .inl member
  · rcases List.mem_append.mp member with before | added
    · exact .inl before
    · rw [List.mem_singleton.mp added]
      exact .inr rfl

theorem Unbroken.begins (unbroken : s.Unbroken) (new : AcceptPlace)
    (fine : new.ec ≠ some .operationAborted) (next : UInt64) :
    ((s.beginAccept next).move w new).Unbroken := by
  have entries := completed_beginAccept s next
  obtain ⟨outstanding, completed, is⟩ := beginAccept_eq s next
  rw [is] at entries ⊢
  exact unbroken.advance rfl fine entries

theorem unbroken_step {a : AcceptAction} (unbroken : s.Unbroken) (left : Undisturbed a)
    (stepped : s.step a = some s') : s'.Unbroken := by
  have none_ : (none : Option AcceptError) ≠ some .operationAborted := by decide
  have still : ∀ entry ∈ s.completed, entry ∈ s.completed ∨ entry.2 = some (.other 9) :=
    fun _ => .inl
  -- the error of a handler is that of its operation
  have fine {w : Nat} {place : AcceptPlace} (here : s.workers[w]? = some place) :
      place.ec ≠ some .operationAborted :=
    unbroken.workers place (List.mem_of_getElem? here)
  cases stepped_of_step stepped with
  | start _ _ | opened _ | report _ _ => exact unbroken.advance rfl none_ still
  | unopened _ | unmade _ | unrenewed _ => cases left
  | begun _ => exact unbroken.begins .started none_ _
  | @renewed w id next ec here =>
    have goesOn := fine here
    exact unbroken.begins (.answering id ec) goesOn next
  | startCallback throws _ =>
    cases throws with
    | true => exact unbroken.advance rfl none_ still
    | false => exact unbroken.advance rfl none_ still
  | complete error waits =>
    refine ⟨fun entry member => ?_, unbroken.workers⟩
    rcases List.mem_append.mp member with before | added
    · exact unbroken.completed entry before
    · rw [List.mem_singleton.mp added]
      cases error with
      | none => exact none_
      | some code =>
        intro same
        cases same
  | @dispatch w id ec completed waits here =>
    apply unbroken.advance rfl
    · exact unbroken.completed (id, ec) (by rw [waits]; exact List.mem_cons_self)
    · intro entry member
      rw [waits]
      exact .inl (List.mem_cons_of_mem _ member)
  | aborted here => exact absurd rfl (fine here)
  | again here _ =>
    have goesOn := fine here
    exact unbroken.advance rfl goesOn still
  | answer configurated throws here =>
    obtain ⟨place, announced, reported, aborted, failures, through, is⟩ :=
      answer_eq s _ _ _ configurated throws
    rw [is]
    rcases through with rfl | rfl
    · exact unbroken.advance rfl none_ still
    · exact unbroken.advance rfl none_ still
  | close => exact left.elim
  | stopWorkers => exact ⟨unbroken.completed, unbroken.workers⟩

theorem loses_nothing {a : AcceptAction} (unbroken : s.Unbroken) (left : Undisturbed a) :
    s.loses a = false := by
  cases a with
  | openAcceptor w ok => rw [loses, left]; rfl
  | asyncAccept w ok => rw [loses, left]; rfl
  | again w =>
    rw [loses]
    cases here : s.workers[w]? with
    | none => rfl
    | some place =>
      exact decide_eq_false (unbroken.workers place (List.mem_of_getElem? here))
  | _ => rfl

theorem alive_step {a : AcceptAction} (alive : s.crashed = false) (left : Undisturbed a)
    (stepped : s.step a = some s') : s'.crashed = false := by
  have begins (next : UInt64) : (s.beginAccept next).crashed = false := by
    obtain ⟨outstanding, completed, is⟩ := beginAccept_eq s next
    rw [is]
    exact alive
  cases stepped_of_step stepped with
  | report throws here => exact left
  | begun here | renewed here => exact begins _
  | answer configurated throws here =>
    obtain ⟨place, announced, reported, aborted, failures, -, is⟩ :=
      answer_eq s _ _ _ configurated throws
    rw [is]
    exact alive
  | _ => exact alive

/-- The process lives, and once the server is started and every worker has called `accept`, an
operation on the open acceptor is outstanding unless one has just completed. -/
structure KeepsAccepting (s : Acceptor) : Prop where
  alive : s.crashed = false
  listens : s.isStarted = true → (∀ place ∈ s.workers, place.beforeAccept = false) →
    s.completed = [] → s.opened = true ∧ ∃ id, s.outstanding = [id]

/-- The one right to begin an `async_accept` is still there. -/
structure Held (first : UInt64) (s : Acceptor) : Prop where
  sound : s.Sound first
  unbroken : s.Unbroken
  one : s.rights = 1
  alive : s.crashed = false

theorem held_step (s : Acceptor) (a : AcceptAction) (s' : Acceptor) (held : s.Held first)
    (left : Undisturbed a) (stepped : s.step a = some s') : s'.Held first := by
  have balance := rights_step stepped
  rw [loses_nothing held.unbroken left] at balance
  exact ⟨sound_step s a s' held.sound stepped, unbroken_step held.unbroken left stepped,
    balance.trans held.one, alive_step held.alive left stepped⟩

theorem held_fresh (first : UInt64) (workers : Nat) : (fresh first workers).Held first := by
  refine ⟨sound_fresh first workers, ⟨fun _ member => ?_, fun place member => ?_⟩, ?_, rfl⟩
  · cases member
  · rw [(List.mem_replicate.mp member).2]
    decide
  · simp [rights, waiting, fresh, AcceptPlace.beforeAccept, List.countP_replicate]

/-- A server that is left alone does not go deaf, whatever errors the operations end with and
whatever its callbacks throw into a `try`. -/
theorem keeps_accepting (first : UInt64) (workers : Nat) {acts : List AcceptAction}
    (left : Meets step (fun _ a => Undisturbed a) (fresh first workers) acts) :
    ∀ s, Visits step (fresh first workers) acts s → s.KeepsAccepting := by
  intro s visited
  have held : s.Held first := visits_invariant held_step (held_fresh first workers) left visited
  refine ⟨held.alive, fun started outside drained => ?_⟩
  have one := held.one
  have nobody : s.workers.countP AcceptPlace.beforeAccept = 0 :=
    List.countP_eq_zero.mpr fun place member => by simp [outside place member]
  rw [rights, waiting, started, nobody, drained] at one
  have single : s.outstanding.length = 1 := by simpa using one
  refine ⟨?_, List.length_eq_one_iff.mp single⟩
  by_contra shut
  rw [held.sound.closed (Bool.eq_false_iff.mpr shut)] at single
  cases single

private def refusedTwice : List AcceptAction :=
  [.start 0, .openAcceptor 0 true, .asyncAccept 0 true, .startCallback 0 true, .report 0 false,
    .complete (some 24), .dispatch 0, .again 0, .asyncAccept 0 true, .answer 0 true true,
    .report 0 false, .complete none, .dispatch 0, .again 0, .asyncAccept 0 true,
    .answer 0 false false, .report 0 false]

/-- The start callback throws, the first operation ends with an error, on which the fail callback
throws when it is first called, the second connection cannot be configured, and the server still
accepts. -/
theorem keeps_accepting_refused :
    ∃ s, run step (unixLocalServer 1) refusedTwice = some s ∧ s.failures = 4 ∧
      s.reported = [1, 2] ∧ s.outstanding = [3] ∧ s.KeepsAccepting := by
  have left : Meets step (fun _ a => Undisturbed a) (unixLocalServer 1) refusedTwice := by
    decide +kernel
  have ran : (run step (unixLocalServer 1) refusedTwice).map
      (fun s => (s.failures, s.reported, s.outstanding)) = some (4, [1, 2], [3]) := by
    decide +kernel
  obtain ⟨s, is, seen⟩ := Option.map_eq_some_iff.mp ran
  simp only [Prod.mk.injEq] at seen
  obtain ⟨failures, reported, outstanding⟩ := seen
  exact ⟨s, is, failures, reported, outstanding, keeps_accepting 1 1 left s (visits_of_run is)⟩

end Acceptor

end ServerLib.Network
