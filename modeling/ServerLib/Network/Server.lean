import Mathlib.Logic.Function.Basic
import ServerLib.Foundation.Threads
import ServerLib.Foundation.Transition

/-!
# `server`, its connections and the threads that call them

A thread is a stack of the functions it is in, the innermost first. The workers of the server call
the handlers of new connections and of the operations of a connection; other threads come from
outside. A callback of the user may do what a thread outside may do: disconnect a connection,
subscribe to it, or write to it. It then returns, and does not throw.

`async_read` and `async_write` check that there is a socket before they use it, and nothing keeps
`disconnect` from taking it in between. They then dereference a null pointer, which ends the
process, with all its threads where they are.

A handler asks for the lock of the scope runner and gives it back at once, so that it is one step,
and `handler_runner.stop()` does not wait. What a mutex guards is one step as well, unless callbacks
are called under it. A subscription waits while the observers that it would join are notified. The
observers of new connections and of units are called without the mutex that is locked meanwhile,
which only adds runs.
-/
namespace ServerLib.Network

open Transition Threads

/-! ### The state -/

/-- The observables of a connection that `on_disconnect` subscribes to. -/
inductive OnDisconnect where
  | withId
  | plain
  deriving DecidableEq

structure DisconnectObserver where
  /-- it is `on_client_disconnected` of the server -/
  server : Bool := false
  /-- it has been subscribed while the connection was connected -/
  early : Bool := true
  runs : Nat := 0
  deriving DecidableEq

/-- A `simple_observable`, whose mutex is locked while it notifies. -/
structure DisconnectObservable where
  observers : List DisconnectObserver := []
  locked : Bool := false
  deriving DecidableEq

/-- A `connection` and its raw connection. -/
structure ServerConnection where
  isConnected : Bool := true
  /-- `handler_runner` has been stopped -/
  stopped : Bool := false
  /-- the operations that have been started and have not completed -/
  pending : Nat := 0
  observable : OnDisconnect → DisconnectObservable

/-- The server is the first to subscribe, before anybody else knows the connection. -/
def ServerConnection.create : ServerConnection where
  observable
    | .withId => { observers := [{ server := true }] }
    | .plain => {}

def ServerConnection.setObservable (c : ServerConnection) (kind : OnDisconnect)
    (o : DisconnectObservable) : ServerConnection :=
  { c with observable := Function.update c.observable kind o }

/-- How an operation completes. -/
inductive Completion where
  | failed
  | written
  /-- The characters are valid or not, and complete some units. For each of them there is the
  number of observers that it is given to. -/
  | received (valid : Bool) (units : List Nat)
  deriving DecidableEq

/-- Where a thread is in `on_new_client`. -/
inductive NewClientPlace where
  | entered (observers : Nat)
  /-- behind the check of `is_running` -/
  | creating (observers : Nat)
  /-- the observers of new connections that are still to be called -/
  | notifying (left : Nat)
  /-- in front of `async_read` -/
  | reading
  deriving DecidableEq

/-- Where a thread is in `asio_connection_impl::disconnect`. -/
inductive DisconnectPlace where
  | entered
  /-- in front of `handler_runner.stop()` -/
  | stopping
  /-- in front of the release of the socket -/
  | releasing
  /-- in `on_diconnected`, in front of the mutex of an observable -/
  | locking (kind : OnDisconnect)
  | notifying (kind : OnDisconnect) (next : Nat)
  /-- in front of `close_socket` -/
  | closing
  deriving DecidableEq

/-- Where a thread is in `server::stop(true)`. -/
inductive StopPlace where
  | entered
  /-- in `_workers->stop()`, which joins the threads -/
  | joining
  /-- in front of the copy of `_connections` -/
  | copying
  | iterating (rest : List Nat)
  deriving DecidableEq

inductive ServerFrame where
  | onNewClient (id : Nat) (place : NewClientPlace)
  /-- in front of `scope_lock` -/
  | asyncHandler (id : Nat) (completion : Completion)
  /-- the loop of `on_raw_receive`, with the observers that the unit is still to be given to -/
  | onRawReceive (id : Nat) (units : List Nat) (left : Nat)
  | disconnect (id : Nat) (place : DisconnectPlace)
  /-- in `async_read` or `async_write` of a raw connection, behind the check of `is_connected` -/
  | starting (id : Nat)
  | callback
  | stop (place : StopPlace)
  deriving DecidableEq

structure Server where
  /-- the first threads are the workers -/
  workers : Nat
  threads : List (List ServerFrame)
  isRunning : Bool := true
  /-- the workers have been joined -/
  joined : Bool := false
  /-- the ids of the raw connections that have been made -/
  used : List Nat := []
  /-- the connections that have been put into `_connections` -/
  accepted : List Nat := []
  connection : Nat → ServerConnection := fun _ => .create
  /-- the ids in `_connections` -/
  connections : List Nat := []
  /-- `stop(true)` has emptied `_connections` -/
  cleared : Bool := false
  /-- a null pointer has been dereferenced -/
  crashed : Bool := false

inductive ServerAction where
  /-- A worker is given a new raw connection. So many observers of new connections are there. -/
  | newClient (i id observers : Nat)
  /-- An operation completes, and a worker is given its handler. -/
  | complete (i id : Nat) (completion : Completion)
  | disconnect (i id : Nat)
  | subscribe (i id : Nat) (kind : OnDisconnect)
  /-- `commit`, which writes what has been posted -/
  | commit (i id : Nat)
  | stop (i : Nat)
  /-- A thread goes on in its innermost function, or returns from a callback. -/
  | thread (i : Nat)
  deriving DecidableEq

namespace Server

/-- A server with its workers, and so many threads outside. -/
def start (workers outside : Nat) : Server where
  workers
  threads := List.replicate (workers + outside) []

def setStack (s : Server) (i : Nat) (stack : List ServerFrame) : Server :=
  { s with threads := s.threads.set i stack }

def setConnection (s : Server) (id : Nat) (c : ServerConnection) : Server :=
  { s with connection := Function.update s.connection id c }

def setObservable (s : Server) (id : Nat) (kind : OnDisconnect) (o : DisconnectObservable) :
    Server :=
  s.setConnection id ((s.connection id).setObservable kind o)

/-! ### The functions of the source -/

/-- `async_read` of a connection: it throws if there is no socket, and the exception is caught. -/
def asyncRead (s : Server) (i id : Nat) (below : List ServerFrame) : Server :=
  s.setStack i (if (s.connection id).isConnected then .starting id :: below else below)

/-- The operation is started on the socket, which may have been taken meanwhile. -/
def startingStep (s : Server) (i id : Nat) (below : List ServerFrame) : Server :=
  if (s.connection id).isConnected then
    (s.setConnection id
      { s.connection id with pending := (s.connection id).pending + 1 }).setStack i below
  else { s with crashed := true }.setStack i below

/-- The connection is created, the server subscribes, and the connection is put into
`_connections`. -/
def accept (s : Server) (id : Nat) : Server :=
  { s.setConnection id .create with
    accepted := id :: s.accepted
    connections := id :: s.connections }

/-- `on_client_disconnected` -/
def onClientDisconnected (s : Server) (id : Nat) : Server :=
  { s with connections := s.connections.erase id }

/-- A step of `on_new_client`, called by the frames below. -/
def newClientStep (s : Server) (i id : Nat) (below : List ServerFrame) : NewClientPlace → Server
  | .entered observers =>
    s.setStack i (if s.isRunning then .onNewClient id (.creating observers) :: below else below)
  | .creating observers =>
    (s.accept id).setStack i (.onNewClient id (.notifying observers) :: below)
  | .notifying 0 => s.setStack i (.onNewClient id .reading :: below)
  | .notifying (left + 1) =>
    s.setStack i (.callback :: .onNewClient id (.notifying left) :: below)
  | .reading => s.asyncRead i id below

/-- The handler that `async_handler` builds, with the callback of a read. -/
def handlerStep (s : Server) (i id : Nat) (below : List ServerFrame) (completion : Completion) :
    Server :=
  if (s.connection id).stopped then s.setStack i below
  else
    match completion with
    | .failed => s.setStack i (.disconnect id .entered :: below)
    | .written => s.setStack i below
    -- no unit could be built
    | .received false _ => s.setStack i (.disconnect id .entered :: below)
    | .received true units => s.setStack i (.onRawReceive id units 0 :: below)

def receiveStep (s : Server) (i id : Nat) (below : List ServerFrame) (units : List Nat) :
    Nat → Server
  | left + 1 => s.setStack i (.callback :: .onRawReceive id units left :: below)
  | 0 =>
    match units with
    | observers :: units =>
      if (s.connection id).isConnected then
        s.setStack i (.onRawReceive id units observers :: below)
      else s.asyncRead i id below
    | [] => s.asyncRead i id below

/-- The next observer is called, or the mutex is unlocked behind the last one. -/
def notifyStep (s : Server) (i id : Nat) (below : List ServerFrame) (kind : OnDisconnect)
    (next : Nat) : Server :=
  let o := (s.connection id).observable kind
  match o.observers[next]? with
  | some observer =>
    let s := s.setObservable id kind { o with
      observers := o.observers.set next { observer with runs := observer.runs + 1 } }
    let frames := .disconnect id (.notifying kind (next + 1)) :: below
    if observer.server then (s.onClientDisconnected id).setStack i frames
    else s.setStack i (.callback :: frames)
  | none =>
    (s.setObservable id kind { o with locked := false }).setStack i
      (.disconnect id (match kind with | .withId => .locking .plain | .plain => .closing) :: below)

/-- A step of `disconnect`; `none` while it waits for a mutex. -/
def disconnectStep (s : Server) (i id : Nat) (below : List ServerFrame) :
    DisconnectPlace → Option Server
  | .entered =>
    some <| s.setStack i <|
      if (s.connection id).isConnected then .disconnect id .stopping :: below else below
  | .stopping =>
    some <| (s.setConnection id { s.connection id with stopped := true }).setStack i
      (.disconnect id .releasing :: below)
  | .releasing =>
    some <| (s.setConnection id { s.connection id with isConnected := false }).setStack i
      (.disconnect id (.locking .withId) :: below)
  | .locking kind =>
    let o := (s.connection id).observable kind
    if o.locked then none
    else some <| (s.setObservable id kind { o with locked := true }).setStack i
      (.disconnect id (.notifying kind 0) :: below)
  | .notifying kind next => some (s.notifyStep i id below kind next)
  | .closing => some (s.setStack i below)

/-- A step of `stop(true)`; `none` while it waits for the workers. -/
def stopStep (s : Server) (i : Nat) (below : List ServerFrame) : StopPlace → Option Server
  | .entered =>
    some <|
      if s.isRunning then { s with isRunning := false }.setStack i (.stop .joining :: below)
      else s.setStack i below
  | .joining =>
    if (s.threads.take s.workers).all List.isEmpty then
      some ({ s with joined := true }.setStack i (.stop .copying :: below))
    else none
  | .copying => some (s.setStack i (.stop (.iterating s.connections) :: below))
  | .iterating (id :: rest) =>
    some (s.setStack i (.disconnect id .entered :: .stop (.iterating rest) :: below))
  | .iterating [] => some ({ s with connections := [], cleared := true }.setStack i below)

def frameStep (s : Server) (i : Nat) (below : List ServerFrame) : ServerFrame → Option Server
  | .onNewClient id place => some (s.newClientStep i id below place)
  | .asyncHandler id completion => some (s.handlerStep i id below completion)
  | .onRawReceive id units left => some (s.receiveStep i id below units left)
  | .disconnect id place => s.disconnectStep i id below place
  | .starting id => some (s.startingStep i id below)
  | .callback => some (s.setStack i below)
  | .stop place => s.stopStep i below place

/-! ### All steps -/

/-- A worker that waits for a handler. -/
def Waits (s : Server) (i : Nat) : Prop :=
  i < s.workers ∧ s.joined = false ∧ s.threads[i]? = some []

/-- A thread is outside of the server, or in a callback. -/
def Free (s : Server) (i : Nat) : Prop :=
  ∃ stack ∈ s.threads[i]?, stack = [] ∧ s.workers ≤ i ∨ stack.head? = some .callback

instance (s : Server) (i : Nat) : Decidable (s.Waits i) := inferInstanceAs (Decidable (_ ∧ _))

instance (s : Server) (i : Nat) : Decidable (s.Free i) := inferInstanceAs (Decidable (∃ _ ∈ _, _))

def push (s : Server) (i : Nat) (frame : ServerFrame) : Server :=
  { s with threads := s.threads.modify i (frame :: ·) }

/-- A step of a process that is alive. -/
def act (s : Server) : ServerAction → Option Server
  | .newClient i id observers =>
    if s.Waits i ∧ id ∉ s.used then
      some ({ s with used := id :: s.used }.push i (.onNewClient id (.entered observers)))
    else none
  | .complete i id completion =>
    if s.Waits i ∧ id ∈ s.accepted ∧ 0 < (s.connection id).pending then
      let c := s.connection id
      some ((s.setConnection id { c with pending := c.pending - 1 }).push i
        (.asyncHandler id completion))
    else none
  | .disconnect i id =>
    if s.Free i ∧ id ∈ s.accepted then some (s.push i (.disconnect id .entered)) else none
  | .subscribe i id kind =>
    let c := s.connection id
    if s.Free i ∧ id ∈ s.accepted ∧ (c.observable kind).locked = false then
      some (s.setObservable id kind { c.observable kind with
        observers := (c.observable kind).observers ++ [{ early := c.isConnected }] })
    else none
  | .commit i id =>
    if s.Free i ∧ id ∈ s.accepted then
      some (if (s.connection id).isConnected then s.push i (.starting id) else s)
    else none
  | .stop i => if s.Free i ∧ s.workers ≤ i then some (s.push i (.stop .entered)) else none
  | .thread i =>
    match s.threads[i]? with
    | some (frame :: below) => s.frameStep i below frame
    | _ => none

def step (s : Server) (a : ServerAction) : Option Server := if s.crashed then none else s.act a

end Server

end ServerLib.Network
