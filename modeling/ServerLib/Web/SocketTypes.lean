import ServerLib.Web.UnsharedSessions

/-!
# The two types of sockets

The base of both clients asks for the type of its socket in one place, the target of a request
that goes through a proxy. What it does never depends on the texts it writes, so that two clients
that differ in the type do the same, and without a proxy they also write the same.
-/
namespace ServerLib.Web

open Network (Bytes)
open Transition

/-- The client of `HTTP` with the same members. -/
def Client.plain (c : Client) : Client := { c with socketType := .http }

def Connection.tell (told : Bytes → Bytes) (c : Connection) : Connection :=
  { c with written := c.written.map told }

def Session.tell (told : Bytes → Bytes) (s : Session) : Session :=
  { s with requestStreambuf := told s.requestStreambuf }

namespace WebClient

/-- The plain client that is in the same state, as far as can be told of the texts. -/
def tell (told : Bytes → Bytes) (w : WebClient) : WebClient :=
  { w with
    client := w.client.plain
    connection := Connection.tell told ∘ w.connection
    sessions := Option.map (Session.tell told) ∘ w.sessions }

/-- What is told of the request texts of a client is the same for the plain one. -/
structure Tells [HeaderFind] (told : Bytes → Bytes) (client : Client) : Prop where
  once : ∀ text, told (told text) = told text
  texts : ∀ method path content header, told (requestStreambuf client method path content header) =
    told (requestStreambuf client.plain method path content header)

variable {told : Bytes → Bytes} {w : WebClient} {id c : Nat} {order : List Nat}

/-! ### Nothing depends on the texts -/

theorem tell_tell (once : ∀ text, told (told text) = told text) (w : WebClient) :
    (w.tell told).tell told = w.tell told := by
  have connection : Connection.tell told ∘ Connection.tell told = Connection.tell told := by
    funext c
    simp [Connection.tell, once]
  have session : Session.tell told ∘ Session.tell told = Session.tell told := by
    funext s
    simp [Session.tell, once]
  simp only [tell, ← Function.comp_assoc, connection, Option.map_comp_map, session]
  rfl

theorem tell_setConnection (w : WebClient) (c : Nat) (connection : Connection) :
    (w.setConnection c connection).tell told =
      (w.tell told).setConnection c (connection.tell told) := by
  simp only [setConnection, tell, Function.comp_update]

theorem tell_await (id : Nat) (s : Session) (pending : Pending) (w : WebClient) :
    (w.await id s pending).tell told = (w.tell told).await id (s.tell told) pending := by
  simp only [await, tell, Function.comp_update]
  rfl

theorem tell_connect (id : Nat) (s : Session) (response : Response) (w : WebClient) :
    (connect id s response w).tell told = connect id (s.tell told) response (w.tell told) := by
  have socket : ((w.tell told).connection (s.tell told).connection).socket =
      (w.connection s.connection).socket := rfl
  unfold connect
  rw [socket]
  split
  · exact tell_await ..
  · exact tell_await ..

theorem tell_createConnection (w : WebClient) :
    (w.tell told).createConnection = (w.createConnection.1, w.createConnection.2.tell told) := by
  simp only [createConnection, setConnection, tell, Function.comp_update]
  rfl

theorem tell_takeConnection (order : List Nat) (w : WebClient) :
    (w.tell told).takeConnection order =
      ((w.takeConnection order).1, (w.takeConnection order).2.tell told) := by
  have free : (fun c => !((w.tell told).connection c).inUse) =
      fun c => !(w.connection c).inUse := rfl
  unfold takeConnection
  rw [free]
  cases order.find? fun c => !(w.connection c).inUse with
  | some c =>
    dsimp only
    rw [tell_setConnection]
    rfl
  | none =>
    dsimp only
    rw [tell_createConnection, tell_setConnection]
    rfl

theorem tell_makeQuery (w : WebClient) :
    (w.tell told).makeQuery = w.makeQuery.map (tell told) := by
  unfold makeQuery
  have query : (w.tell told).query = w.query := rfl
  have client : (w.tell told).client = w.client.plain := rfl
  rw [query, client]
  split
  · rfl
  · split
    next direct =>
      rw [if_pos (by exact direct)]
      rfl
    next proxied =>
      rw [if_neg (by exact proxied)]
      change (parseHostPort w.client.config.proxyServer 8080 >>= _) = _
      cases parseHostPort w.client.config.proxyServer 8080 with
      | error failure => rfl
      | ok hostPort => rfl

theorem prune_tell (connection : Nat → Connection) (erased : Nat → Bool) (unused : Nat)
    (order : List Nat) : prune (Connection.tell told ∘ connection) erased unused order =
      prune connection erased unused order := by
  induction order generalizing unused with
  | nil => rfl
  | cons c rest ih =>
    have same : ((Connection.tell told ∘ connection) c).inUse = (connection c).inUse := rfl
    simp only [prune, same, ih]

theorem tell_callback (order : List Nat) (id : Nat) (s : Session)
    (result : Except ErrorCode Response) (w : WebClient) :
    (w.callback order id s result).tell told =
      (w.tell told).callback order id (s.tell told) result := by
  have returned : (w.returnConnection order id s (!result.isOk)).tell told =
      (w.tell told).returnConnection order id (s.tell told) (!result.isOk) := by
    -- what is pruned depends on the use of the connections, not on what they have sent
    have given := @tell_setConnection told w s.connection
      { w.connection s.connection with inUse := false }
    have pruned := @prune_tell told
      (w.setConnection s.connection { w.connection s.connection with inUse := false }).connection
      (fun c => !result.isOk && c == s.connection) 0 order
    simp only [returnConnection, tell, setConnection, Function.comp_update] at given pruned ⊢
    rw [← pruned]
    rfl
  rw [callback, callback, ← returned]
  unfold onResponseImpl
  have asked : ((w.returnConnection order id s (!result.isOk)).tell told).responseCallbacks =
      (w.returnConnection order id s (!result.isOk)).responseCallbacks := rfl
  rw [asked]
  split
  · rfl
  · rfl

theorem tell_reconnect (id : Nat) (s : Session) (response : Response) (w : WebClient) :
    (w.reconnect id s response).tell told =
      (w.tell told).reconnect id (s.tell told) response := by
  have left : ({ w with connections := w.connections.erase s.connection } : WebClient).tell told =
      { w.tell told with connections := w.connections.erase s.connection } := rfl
  -- a new connection takes the place of the lost one, and has sent nothing
  have created := @tell_createConnection told
    { w with connections := w.connections.erase s.connection }
  rw [left] at created
  have erased : { w.tell told with
      connections := (w.tell told).connections.erase (s.tell told).connection } =
      { w.tell told with connections := w.connections.erase s.connection } := rfl
  rw [reconnect, reconnect, erased, created]
  dsimp only
  rw [tell_connect]
  congr 1
  simp only [tell, setConnection, Function.comp_update]
  rfl

theorem tell_afterRead (order : List Nat) (id : Nat) (s : Session) (step : ClientStep)
    (w : WebClient) : (w.afterRead order id s step).tell told =
      (w.tell told).afterRead order id (s.tell told) step := by
  cases step with
  | callback result => exact tell_callback order id s result w
  | lost response ec =>
    simp only [afterRead, afterLost]
    have again : ((w.tell told).connection (s.tell told).connection).attemptReconnect =
        (w.connection s.connection).attemptReconnect := rfl
    have pool : (w.tell told).connections = w.connections := rfl
    have held : (s.tell told).connection = s.connection := rfl
    rw [again, pool, held]
    split
    · split
      · exact tell_reconnect id s response w
      · exact tell_callback order id s _ w
    · exact tell_callback order id s _ w
  | broken failure => rfl
  | readHeader | readContent | readChunked | readToEnd => exact tell_await ..

variable [HeaderFind]

theorem tell_complete (id : Nat) (ec : Option ErrorCode) (socket : Socket) (order : List Nat)
    (w : WebClient) : (w.tell told).complete id ec socket order =
      (w.complete id ec socket order).map (tell told) := by
  have sessions : (w.tell told).sessions id = (w.sessions id).map (Session.tell told) := rfl
  unfold complete
  rw [sessions]
  cases w.sessions id with
  | none => rfl
  | some s =>
    have connection : (w.tell told).connection (s.tell told).connection =
        (w.connection s.connection).tell told := rfl
    have counted : (w.tell told).count id = (w.count id).tell told := rfl
    simp only [Option.map_some, connection, counted]
    cases waits : s.pending with
    -- only a write adds to what has been sent; the other operations depend on the socket alone
    | read step =>
      have socket_ : ((w.connection s.connection).tell told).socket =
          (w.connection s.connection).socket := rfl
      have config : ((w.count id).tell told).client.config = (w.count id).client.config := rfl
      simp only [Session.tell, waits, socket_, config]
      cases (w.connection s.connection).socket with
      | none => rfl
      | some socket =>
        simp only [Option.map_map]
        congr 1
        funext turn
        rw [Function.comp_apply, tell_afterRead, tell_setConnection]
        rfl
    | resolve response =>
      cases ec with
      | some code =>
        simp only [Session.tell, waits, Option.map_some, tell_callback]
      | none =>
        simp only [Session.tell, waits, Option.map_some, tell_await]
    | connect response =>
      cases ec with
      | some code =>
        simp only [Session.tell, waits, Option.map_some, tell_callback]
      | none =>
        simp only [Session.tell, waits, Option.map_some, tell_await, tell_setConnection]
        rfl
    | write response =>
      cases ec with
      | some code =>
        simp only [Session.tell, waits, Option.map_some, tell_callback]
      | none =>
        simp only [Session.tell, waits, Option.map_some, tell_await, tell_setConnection,
          Connection.tell, List.map_append, List.map_singleton]

omit [HeaderFind] in
theorem client_of_makeQuery {w' : WebClient} (made : w.makeQuery = .ok w') :
    w'.client = w.client := by
  by_cases parses : w.ProxyParses
  · obtain ⟨query, is⟩ := makeQuery_of_parses parses
    rw [← Except.ok.inj (is.symm.trans made)]
  · obtain ⟨failure, is⟩ := makeQuery_of_not_parses parses
    rw [is] at made
    cases made

/-- The request is another one, but what is told of it is the same. -/
theorem tell_request (tells : Tells told w.client) (method path content : Bytes) (header : Header)
    (order : List Nat) : (w.request method path content header order).tell told =
      ((w.tell told).request method path content header order).tell told := by
  have registered : (w.tell told).register = w.register.tell told := rfl
  have number : (w.register.tell told).nextRequestId = w.register.nextRequestId := rfl
  simp only [request, registered, number, tell_takeConnection, tell_makeQuery]
  cases queried : (w.register.takeConnection order).2.makeQuery with
  | error failure => exact (tell_tell tells.once _).symm
  | ok w' =>
    have client : w'.client = w.client :=
      (client_of_makeQuery queried).trans (spares_takeConnection w.register order 0).1.client
    -- the only place where the clients differ: the request target behind a proxy
    have text : told (requestStreambuf w'.client method path content header) =
        told (requestStreambuf (w'.tell told).client method path content header) := by
      rw [client]
      exact (tells.texts method path content header).trans (by rw [← client]; rfl)
    have again := tell_tell tells.once { w' with
      returned := w.register.nextRequestId :: w'.returned }
    simp only [Except.map, tell_connect, Session.tell, text]
    exact congrArg (connect _ _ _) again.symm

/-- A plain client does the same, up to what is told of the texts. -/
theorem tell_poolStep (tells : Tells told w.client) (a : PoolAction) :
    (w.poolStep a).map (tell told) = ((w.tell told).poolStep a).map (tell told) := by
  have escaped : (w.tell told).escaped = w.escaped := rfl
  have connections : (w.tell told).connections = w.connections := rfl
  have isRunning : (w.tell told).isRunning = w.isRunning := rfl
  cases a with
  | stop =>
    have stopped : (w.tell told).stop = w.stop.tell told := by
      unfold stop
      rw [isRunning]
      split
      · rfl
      · rfl
    simp only [poolStep, escaped, stopped]
    split
    · rfl
    · rw [Option.map_some, Option.map_some, tell_tell tells.once]
  | act a =>
    simp only [poolStep, step, escaped]
    split
    · rfl
    · cases a with
      | request method path content header order =>
        simp only [connections]
        split
        · rw [Option.map_some, Option.map_some, tell_request tells]
        · rfl
      | complete id ec socket order =>
        simp only [connections, isRunning]
        split
        · rw [tell_complete, Option.map_map]
          congr 1
          funext w'
          exact (tell_tell tells.once w').symm
        · rfl

theorem tells_plain (tells : Tells told w.client) : Tells told (w.tell told).client :=
  ⟨tells.once, fun _ _ _ _ => rfl⟩

/-- Two clients that are told alike run alike. -/
theorem tell_run (tells : Tells told w.client) (acts : List PoolAction) :
    (run poolStep w acts).map (tell told) =
      (run poolStep (w.tell told) acts).map (tell told) := by
  -- the two go on as clients of different types, so that both are generalised
  have general : ∀ w w' : WebClient, Tells told w.client → Tells told w'.client →
      w.tell told = w'.tell told →
      (run poolStep w acts).map (tell told) = (run poolStep w' acts).map (tell told) := by
    induction acts with
    | nil =>
      intro w w' _ _ same
      exact congrArg some same
    | cons a acts ih =>
      intro w w' tells tells' same
      have step := (tell_poolStep tells a).trans
        ((congrArg (fun w => (poolStep w a).map (tell told)) same).trans
          (tell_poolStep tells' a).symm)
      rw [run_cons, run_cons]
      cases here : w.poolStep a with
      | none =>
        rw [here] at step
        rw [Option.map_eq_none_iff.mp step.symm]
      | some next =>
        rw [here] at step
        obtain ⟨next', there, alike⟩ := Option.map_eq_some_iff.mp step.symm
        rw [there]
        rw [← client_poolStep here] at tells
        rw [← client_poolStep there] at tells'
        exact ih next next' tells tells' alike.symm
  exact general w (w.tell told) tells (tells_plain tells) (tell_tell tells.once w).symm

theorem tells_nothing (client : Client) : Tells (fun _ => []) client :=
  ⟨fun _ => rfl, fun _ _ _ _ => rfl⟩

/-- Without a proxy the texts are the same. -/
theorem tells_all {client : Client} (direct : client.config.proxyServer = []) :
    Tells (fun text => text) client where
  once _ := rfl
  texts method path content header := by
    have same : createRequestHeader client method path header =
        createRequestHeader client.plain method path header := by
      simp only [createRequestHeader, Client.plain, direct, ne_eq, not_true_eq_false, false_and,
        if_false]
      rfl
    rw [requestStreambuf, requestStreambuf, same]

end WebClient

end ServerLib.Web
