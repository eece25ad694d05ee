import Mathlib.Logic.Function.Basic
import ServerLib.Foundation.Transition
import ServerLib.Web.HttpClient

/-!
# `web_client`: requests, sessions and the pool of connections

A request takes a connection out of the pool, or makes one, and starts a session on it. The
session resolves and connects if the socket is not open, writes the request and reads the
response; a header that could not be read gives it another connection, once. Its callback
returns the connection to the pool and then calls the callback of the request.

A section under `connections_mutex` is one step, and so is the completion of an operation with
all that its handler does. The pool is an unordered set: in which order it is walked through
comes with the action. What a server sends comes with the completion of the connect, for the
whole life of the socket. An exception that leaves a handler ends the process, as the loop's
thread has nothing to catch it.
-/
namespace ServerLib.Web

open Network (Bytes)

/-- `__http_connection`. The socket is what it will bring, once it is open. -/
structure Connection where
  inUse : Bool := false
  attemptReconnect : Bool := true
  socket : Option Socket := none
  written : List Bytes := []

/-- The operation that a session waits for, with the response read so far. -/
inductive Pending where
  | resolve (response : Response)
  | connect (response : Response)
  | write (response : Response)
  | read (step : ClientStep)

/-- `__http_session` -/
structure Session where
  connection : Nat
  requestStreambuf : Bytes
  pending : Pending

/-- The client, and what its sessions have done. Connections and requests are numbered; a session
has the number of its request, and is there until its callback is called. -/
structure WebClient where
  client : Client
  query : Option (Bytes × UInt16) := none
  connection : Nat → Connection := fun _ => {}
  created : Nat := 0
  connections : List Nat := []
  isRunning : Bool := true
  sessions : Nat → Option Session := fun _ => none
  nextRequestId : Nat := 0
  responseCallbacks : List Nat := []
  /-- the requests that have returned normally -/
  returned : List Nat := []
  /-- the calls of the callbacks of requests -/
  answers : List (Nat × Except ErrorCode Response) := []
  reconnects : Nat → Nat := fun _ => 0
  completions : Nat → Nat := fun _ => 0
  escaped : Option Failure := none

inductive ClientAction where
  | request (method path content : Bytes) (header : Header) (order : List Nat)
  /-- The operation of a session completes, with an error or not. -/
  | complete (request : Nat) (ec : Option ErrorCode) (socket : Socket) (order : List Nat)

inductive PoolAction where
  | act (action : ClientAction)
  | stop

namespace WebClient

def start (client : Client) : WebClient := { client }

/-! ### Connections -/

def setConnection (w : WebClient) (c : Nat) (connection : Connection) : WebClient :=
  { w with connection := Function.update w.connection c connection }

/-- `create_connection`, and the insertion behind it. -/
def createConnection (w : WebClient) : Nat × WebClient :=
  (w.created, { w.setConnection w.created {} with
    created := w.created + 1
    connections := w.created :: w.connections })

/-- The part of `get_connection` that makes the query. -/
def makeQuery (w : WebClient) : Except Failure WebClient :=
  if w.query.isSome then .ok w
  else if w.client.config.proxyServer = [] then
    .ok { w with query := some (w.client.host, w.client.port) }
  else do
    let proxyHostPort ← parseHostPort w.client.config.proxyServer 8080
    pure { w with query := some proxyHostPort }

/-- The part of `get_connection` that finds or makes the connection. -/
def takeConnection (order : List Nat) (w : WebClient) : Nat × WebClient :=
  let (c, w) :=
    match order.find? fun c => !(w.connection c).inUse with
    | some c => (c, w)
    | none => w.createConnection
  (c, w.setConnection c { w.connection c with attemptReconnect := true, inUse := true })

/-- The loop over the pool in the callback of a session, with the number of connections met so
far that are not in use. -/
def prune (connection : Nat → Connection) (erased : Nat → Bool) : Nat → List Nat → List Nat
  | _, [] => []
  | unused, c :: rest =>
    -- `ec && connection == *it`
    if erased c then prune connection erased unused rest
    else if (connection c).inUse then c :: prune connection erased unused rest
    else if 1 < unused + 1 then prune connection erased (unused + 1) rest
    else c :: prune connection erased (unused + 1) rest

/-! ### Sessions -/

/-- Another operation has been started. -/
def await (id : Nat) (s : Session) (pending : Pending) (w : WebClient) : WebClient :=
  { w with sessions := Function.update w.sessions id (some { s with pending }) }

def connect (id : Nat) (s : Session) (response : Response) (w : WebClient) : WebClient :=
  match (w.connection s.connection).socket with
  -- `!session->connection->socket->lowest_layer().is_open()`
  | none => w.await id s (.resolve response)
  | some _ => w.await id s (.write response)

/-- `on_response_impl` -/
def onResponseImpl (id : Nat) (result : Except ErrorCode Response) (w : WebClient) : WebClient :=
  if id ∈ w.responseCallbacks then
    { w with
      responseCallbacks := w.responseCallbacks.erase id
      answers := w.answers ++ [(id, result)] }
  else w

/-- The section under the mutex in the callback of a session. -/
def returnConnection (order : List Nat) (id : Nat) (s : Session) (failed : Bool) (w : WebClient) :
    WebClient :=
  let w := w.setConnection s.connection { w.connection s.connection with inUse := false }
  { w with
    connections := prune w.connection (fun c => failed && c == s.connection) 0 order
    sessions := Function.update w.sessions id none }

/-- The callback of a session. -/
def callback (order : List Nat) (id : Nat) (s : Session) (result : Except ErrorCode Response)
    (w : WebClient) : WebClient :=
  (w.returnConnection order id s (!result.isOk)).onResponseImpl id result

/-- A request gets its number, and its callback is kept. -/
def register (w : WebClient) : WebClient :=
  { w with
    nextRequestId := w.nextRequestId + 1
    responseCallbacks := (w.nextRequestId + 1) :: w.responseCallbacks }

/-- `request` of `web_client_impl` and of `http_client_base_impl`. It returns unless making the
query throws. -/
def request [HeaderFind] (method path content : Bytes) (header : Header) (order : List Nat)
    (w : WebClient) : WebClient :=
  let w := w.register
  let id := w.nextRequestId
  let (c, w) := w.takeConnection order
  match w.makeQuery with
  -- the exception is caught in `web_client_impl::request`, which returns false
  | .error _ => w
  | .ok w =>
    let streambuf := requestStreambuf w.client method path content header
    let response := Response.new w.client.config
    connect id ⟨c, streambuf, .resolve response⟩ response { w with returned := id :: w.returned }

/-- The session goes on with a new connection in the place of its old one. -/
def reconnect (id : Nat) (s : Session) (response : Response) (w : WebClient) : WebClient :=
  let (c, w) := { w with connections := w.connections.erase s.connection }.createConnection
  let w := w.setConnection c { w.connection c with attemptReconnect := false, inUse := true }
  connect id { s with connection := c } response
    { w with reconnects := Function.update w.reconnects id (w.reconnects id + 1) }

/-- A header could not be read. -/
def afterLost (order : List Nat) (id : Nat) (s : Session) (response : Response) (ec : ErrorCode)
    (w : WebClient) : WebClient :=
  if (w.connection s.connection).attemptReconnect ∧ ec ≠ .operationAborted then
    -- `stop` may have emptied the pool
    if s.connection ∈ w.connections then w.reconnect id s response
    else w.callback order id s (.error ec)
  else w.callback order id s (.error ec)

/-- What a session does behind the completion of a read. -/
def afterRead (order : List Nat) (id : Nat) (s : Session) (step : ClientStep) (w : WebClient) :
    WebClient :=
  match step with
  | .callback result => w.callback order id s result
  | .lost response ec => w.afterLost order id s response ec
  | .broken failure => { w with escaped := some failure }
  | step => w.await id s (.read step)

def count (id : Nat) (w : WebClient) : WebClient :=
  { w with completions := Function.update w.completions id (w.completions id + 1) }

/-- The operation of a session completes; `none` if there is none that does. -/
def complete [HeaderFind] (id : Nat) (ec : Option ErrorCode) (socket : Socket) (order : List Nat)
    (w : WebClient) : Option WebClient :=
  match w.sessions id with
  | none => none
  | some s =>
    let connection := w.connection s.connection
    let w := w.count id
    match s.pending, ec with
    -- how a read completes is up to the socket
    | .read step, _ =>
      match connection.socket with
      | none => none
      | some socket =>
        (clientTurn w.client.config step socket).map fun (t, rest) =>
          (w.setConnection s.connection { connection with
            socket := some rest
            attemptReconnect := connection.attemptReconnect || step.headerRead socket }).afterRead
            order id s t.step
    | _, some ec => some (w.callback order id s (.error ec))
    | .resolve response, none => some (w.await id s (.connect response))
    | .connect response, none =>
      some ((w.setConnection s.connection { connection with socket := some socket }).await id s
        (.write response))
    | .write response, none =>
      some ((w.setConnection s.connection { connection with
        written := connection.written ++ [s.requestStreambuf] }).await id s
        (.read (.readHeader response)))

/-- The handlers run as long as the client does. -/
def step [HeaderFind] (w : WebClient) (a : ClientAction) : Option WebClient :=
  if w.escaped.isSome then none
  else
    match a with
    | .request method path content header order =>
      if order.Perm w.connections then some (w.request method path content header order) else none
    | .complete id ec socket order =>
      if order.Perm w.connections ∧ w.isRunning then w.complete id ec socket order else none

/-- `stop`, which keeps `connections_mutex` until the threads that run the handlers have ended. -/
def stop (w : WebClient) : WebClient :=
  if w.isRunning then { w with connections := [], isRunning := false } else w

def poolStep [HeaderFind] (w : WebClient) : PoolAction → Option WebClient
  | .act a => w.step a
  | .stop => if w.escaped.isSome then none else some w.stop

end WebClient

end ServerLib.Web
