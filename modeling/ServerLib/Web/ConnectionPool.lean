import ServerLib.Foundation.ResourcePool
import ServerLib.Web.SessionSteps

/-!
# The pool of connections

The sessions hold connections as tasks hold the resources of a pool. Every completion keeps the
pool tidy, and so do `stop` and a request that returns. What does not is a request whose query
cannot be made: its connection is marked and pooled before the proxy is parsed, and stays there
without a session.
-/
namespace ServerLib.Web

open Network (Bytes)
open Transition

namespace WebClient

/-! ### The loop over the pool -/

theorem prune_sublist (connection : Nat → Connection) (erased : Nat → Bool) (unused : Nat)
    (order : List Nat) : (prune connection erased unused order).Sublist order := by
  induction order generalizing unused with
  | nil => exact List.Sublist.refl _
  | cons c rest ih =>
    rw [prune]
    split
    · exact (ih _).cons _
    · split
      · exact (ih _).cons_cons _
      · split
        · exact (ih _).cons _
        · exact (ih _).cons_cons _

/-- One connection that is not in use is kept at most. -/
theorem countP_prune (connection : Nat → Connection) (erased : Nat → Bool) (unused : Nat)
    (order : List Nat) :
    (prune connection erased unused order).countP (fun c => !(connection c).inUse) ≤
      1 - unused := by
  induction order generalizing unused with
  | nil => exact Nat.zero_le _
  | cons c rest ih =>
    rw [prune]
    split
    · exact ih unused
    · split
      -- the first idle connection is kept and counted, the others are not kept
      next inUse =>
        rw [List.countP_cons_of_neg (by simp [inUse])]
        exact ih unused
      next idle =>
        split
        next more => exact Nat.le_trans (ih (unused + 1)) (by omega)
        next first =>
          have := ih (unused + 1)
          rw [List.countP_cons_of_pos (by simpa using idle)]
          omega

/-! ### What the client does to its pool -/

/-- The connections as resources, and the sessions as the tasks that hold them. -/
def pool (w : WebClient) : ResourcePool where
  created := w.created
  inUse c := (w.connection c).inUse
  members := w.connections
  holds id := (w.sessions id).map Session.connection

variable {w w' : WebClient} {id : Nat} {s : Session} {order : List Nat}

theorem holds_of_session (here : w.sessions id = some s) : w.pool.holds id = some s.connection := by
  simp only [pool, here, Option.map_some]

theorem pool_setConnection (w : WebClient) (c : Nat) (k : Connection) :
    (w.setConnection c k).pool =
      { w.pool with inUse := Function.update w.pool.inUse c k.inUse } := by
  simp only [pool, setConnection, ResourcePool.mk.injEq, true_and, and_true]
  funext d
  simp only [Function.update_apply]
  split <;> rfl

theorem pool_setConnection_same {c : Nat} {k : Connection}
    (same : k.inUse = (w.connection c).inUse) : (w.setConnection c k).pool = w.pool := by
  rw [pool_setConnection, same]
  show { w.pool with inUse := Function.update w.pool.inUse c (w.pool.inUse c) } = w.pool
  rw [Function.update_eq_self]

theorem pool_await (w : WebClient) (id : Nat) (s : Session) (p : Pending) :
    (w.await id s p).pool = w.pool.hand id s.connection := by
  simp only [pool, await, ResourcePool.hand, ResourcePool.mk.injEq, true_and]
  funext j
  simp only [Function.update_apply]
  split <;> rfl

theorem pool_connect (w : WebClient) (id : Nat) (s : Session) (response : Response) :
    (w.connect id s response).pool = w.pool.hand id s.connection := by
  unfold connect
  split <;> rw [pool_await]

theorem nextRequestId_connect (w : WebClient) (id : Nat) (s : Session) (response : Response) :
    (w.connect id s response).nextRequestId = w.nextRequestId := by
  unfold connect
  split <;> rfl

theorem pool_onResponseImpl (w : WebClient) (id : Nat) (result : Except ErrorCode Response) :
    (w.onResponseImpl id result).pool = w.pool := by
  unfold onResponseImpl
  split <;> rfl

theorem hand_of_holds {p : ResourcePool} {task c : Nat} (holding : p.holds task = some c) :
    p.hand task c = p := by
  rw [ResourcePool.hand, ← holding, Function.update_eq_self]

theorem connections_onResponseImpl (w : WebClient) (id : Nat) (result : Except ErrorCode Response) :
    (w.onResponseImpl id result).connections = w.connections :=
  congrArg ResourcePool.members (pool_onResponseImpl w id result)

theorem pool_callback (w : WebClient) (order : List Nat) (id : Nat) (s : Session)
    (result : Except ErrorCode Response) :
    (w.callback order id s result).pool =
      w.pool.giveBack id s.connection (w.callback order id s result).connections := by
  rw [callback, connections_onResponseImpl, pool_onResponseImpl]
  simp only [pool, returnConnection, setConnection, ResourcePool.giveBack,
    ResourcePool.mk.injEq, true_and]
  constructor <;> funext d <;> simp only [Function.update_apply] <;> split <;> rfl

theorem connections_callback (w : WebClient) (order : List Nat) (id : Nat) (s : Session)
    (result : Except ErrorCode Response) :
    (w.callback order id s result).connections.Sublist order ∧
      (w.callback order id s result).pool.idle ≤ 1 := by
  rw [callback, connections_onResponseImpl, pool_onResponseImpl]
  exact ⟨prune_sublist _ _ 0 order, countP_prune _ _ 0 order⟩

theorem createConnection_marks (w : WebClient) (k : Connection) (inUse : k.inUse = true) :
    w.pool.Marks w.created (w.createConnection.2.setConnection w.created k).pool := by
  have is : (w.createConnection.2.setConnection w.created k).pool =
      { w.pool with
        created := w.created + 1
        inUse := Function.update w.pool.inUse w.created true
        members := w.created :: w.connections } := by
    rw [pool_setConnection, inUse]
    simp only [createConnection, pool, setConnection, ResourcePool.mk.injEq, true_and, and_true]
    funext d
    simp only [Function.update_apply]
    split <;> rfl
  rw [is]
  exact .new

theorem takeConnection_marks (permuted : order.Perm w.connections) :
    w.pool.Marks (w.takeConnection order).1 (w.takeConnection order).2.pool := by
  unfold takeConnection
  cases found : order.find? fun c => !(w.connection c).inUse with
  | none => exact createConnection_marks w _ rfl
  | some c =>
    have member := permuted.mem_iff.mp (List.mem_of_find?_eq_some found)
    have idle := List.find?_some found
    simp only [pool_setConnection]
    exact .pooled member (by simpa [pool] using idle)

theorem reconnect_marks (w : WebClient) (id : Nat) (s : Session) (response : Response) :
    ∃ q, (w.pool.discard s.connection).Marks w.created q ∧
      (w.reconnect id s response).pool = q.hand id w.created := by
  let kept := { w with connections := w.connections.erase s.connection }
  refine ⟨_, createConnection_marks kept { kept.createConnection.2.connection w.created with
    attemptReconnect := false, inUse := true } rfl, ?_⟩
  rw [reconnect, pool_connect]
  rfl

/-- The query has been made or can be made. -/
def ProxyParses (w : WebClient) : Prop :=
  w.query.isSome ∨ w.client.config.proxyServer = [] ∨
    ∃ hostPort, parseHostPort w.client.config.proxyServer 8080 = .ok hostPort

theorem makeQuery_of_parses (parses : w.ProxyParses) :
    ∃ q, w.makeQuery = .ok { w with query := q } := by
  unfold makeQuery
  split
  · exact ⟨w.query, rfl⟩
  next unset =>
    split
    · exact ⟨_, rfl⟩
    next proxied =>
      obtain ⟨hostPort, parsed⟩ := (parses.resolve_left unset).resolve_left proxied
      exact ⟨some hostPort, by rw [parsed]; rfl⟩

theorem makeQuery_of_not_parses (unparsed : ¬ w.ProxyParses) :
    ∃ failure, w.makeQuery = .error failure := by
  rw [ProxyParses, not_or, not_or] at unparsed
  obtain ⟨unset, proxied, fails⟩ := unparsed
  cases parsed : parseHostPort w.client.config.proxyServer 8080 with
  | ok hostPort => exact absurd ⟨hostPort, parsed⟩ fails
  | error failure => exact ⟨failure, by rw [makeQuery, if_neg unset, if_neg proxied, parsed]; rfl⟩

theorem takeConnection_parses (w : WebClient) (order : List Nat) :
    (w.takeConnection order).2.ProxyParses ↔ w.ProxyParses := by
  unfold takeConnection
  cases order.find? fun c => !(w.connection c).inUse <;> exact Iff.rfl

/-- The connection that a request takes, and the client behind `get_connection`. -/
def taken (w : WebClient) (order : List Nat) : Nat × WebClient := w.register.takeConnection order

theorem taken_marks (permuted : order.Perm w.connections) :
    w.pool.Marks (w.taken order).1 (w.taken order).2.pool :=
  takeConnection_marks (w := w.register) permuted

theorem spares_taken (w : WebClient) (order : List Nat) :
    Spares w (w.taken order).2 (w.nextRequestId + 1) (w.taken order).1 := by
  have registers : Spares w w.register (w.nextRequestId + 1) (w.taken order).1 :=
    { Spares.refl w _ _ with
      requests := Nat.le_succ _
      registered := fun _ _ member => List.mem_cons_of_mem _ member }
  exact registers.trans (Nat.le_refl _) (spares_takeConnection w.register order _).1

variable [HeaderFind] (method path content : Bytes) (header : Header)

/-- A request whose query has been made or can be made starts a session. -/
theorem request_of_parses (order : List Nat) (parses : w.ProxyParses) :
    ∃ query streambuf, w.request method path content header order =
      connect (w.nextRequestId + 1) ⟨(w.taken order).1, streambuf, .resolve (.new w.client.config)⟩
        (.new w.client.config)
        { (w.taken order).2 with
          query := query
          returned := (w.nextRequestId + 1) :: (w.taken order).2.returned } := by
  have still := (takeConnection_parses w.register order).mpr parses
  obtain ⟨query, made⟩ := makeQuery_of_parses still
  have same : (w.taken order).2.client = w.client := (spares_taken w order).client
  refine ⟨query, requestStreambuf w.client method path content header, ?_⟩
  rw [← same, request]
  simp only [made]
  rfl

/-- A request whose query cannot be made has taken a connection all the same. -/
theorem request_of_not_parses (order : List Nat) (unparsed : ¬ w.ProxyParses) :
    w.request method path content header order = (w.taken order).2 := by
  obtain ⟨failure, unmade⟩ :=
    makeQuery_of_not_parses (mt (takeConnection_parses w.register order).mp unparsed)
  rw [request]
  simp only [unmade]
  rfl

theorem spares_request (w : WebClient) (order : List Nat) :
    Spares w (w.request method path content header order) (w.nextRequestId + 1)
      (w.taken order).1 := by
  have takes := spares_taken w order
  by_cases parses : w.ProxyParses
  · obtain ⟨query, streambuf, is⟩ := request_of_parses method path content header order parses
    have returns : Spares w { (w.taken order).2 with
        query := query
        returned := (w.nextRequestId + 1) :: (w.taken order).2.returned } (w.nextRequestId + 1)
        (w.taken order).1 :=
      { takes with
        returned := fun j other => by
          rw [List.mem_cons, or_iff_right other]
          exact takes.returned j other }
    rw [is]
    exact returns.trans (spares_takeConnection w.register order 0).2 (spares_connect _ _ _ _ _)
  · rw [request_of_not_parses method path content header order parses]
    exact takes

theorem request_numbered (w : WebClient) (order : List Nat) :
    w.nextRequestId + 1 ≤ (w.request method path content header order).nextRequestId := by
  have takes := (spares_takeConnection w.register order 0).1.requests
  by_cases parses : w.ProxyParses
  · obtain ⟨query, streambuf, is⟩ := request_of_parses method path content header order parses
    rw [is, nextRequestId_connect]
    exact takes
  · rw [request_of_not_parses method path content header order parses]
    exact takes

/-! ### Completions -/

/-- What a completion does to the pool: nothing, or the session gives its connection back, or it
exchanges it. -/
theorem Completed.pool_cases (here : w.sessions id = some s)
    (completed : Completed w id s order w') :
    w'.pool = w.pool ∨
      (w'.connections.Sublist order ∧
        w'.pool = w.pool.giveBack id s.connection w'.connections ∧ w'.pool.idle ≤ 1) ∨
      ∃ q, (w.pool.discard s.connection).Marks w.created q ∧ w'.pool = q.hand id w.created := by
  have begins : ∀ k : Connection, k.inUse = (w.connection s.connection).inUse →
      ((w.count id).setConnection s.connection k).pool = w.pool :=
    fun k same => pool_setConnection_same (w := w.count id) same
  cases completed with
  | waits k p inUse =>
    -- the session holds its connection as before
    left
    rw [pool_await, begins k inUse, hand_of_holds (holds_of_session here)]
  | calls k result inUse =>
    right; left
    obtain ⟨kept, few⟩ :=
      connections_callback ((w.count id).setConnection s.connection k) order id s result
    refine ⟨kept, ?_, few⟩
    rw [pool_callback, begins k inUse]
  | exchanges k response inUse =>
    right; right
    have marks := reconnect_marks ((w.count id).setConnection s.connection k) id s response
    rw [begins k inUse] at marks
    exact marks
  | breaks k failure inUse => exact .inl (begins k inUse)

theorem Completed.exclusive (exclusive : w.pool.Exclusive) (permuted : order.Perm w.connections)
    (here : w.sessions id = some s) (completed : Completed w id s order w') :
    w'.pool.Exclusive := by
  rcases completed.pool_cases here with same | ⟨kept, is, -⟩ | ⟨q, marks, is⟩
  · exact same ▸ exclusive
  · rw [is]
    exact ResourcePool.exclusive_giveBack exclusive (holds_of_session here)
      (kept.nodup (permuted.nodup_iff.mpr exclusive.nodup))
      fun c member => permuted.mem_iff.mp (kept.subset member)
  · rw [is]
    exact ResourcePool.exclusive_exchange exclusive marks

theorem Completed.tidy (tidy : w.pool.Tidy) (permuted : order.Perm w.connections)
    (here : w.sessions id = some s) (completed : Completed w id s order w') : w'.pool.Tidy := by
  rcases completed.pool_cases here with same | ⟨kept, is, few⟩ | ⟨q, marks, is⟩
  · exact same ▸ tidy
  · rw [is] at few ⊢
    exact ResourcePool.tidy_giveBack tidy (holds_of_session here)
      (kept.nodup (permuted.nodup_iff.mpr tidy.nodup))
      (fun c member => permuted.mem_iff.mp (kept.subset member)) few
  · rw [is]
    exact ResourcePool.tidy_exchange tidy (holds_of_session here) marks

/-! ### All steps -/

/-- The discipline of the pool. -/
structure Disciplined (w : WebClient) : Prop where
  unshared : ∀ i j s t, w.sessions i = some s → w.sessions j = some t →
    s.connection = t.connection → i = j
  used : ∀ c ∈ w.connections, (w.connection c).inUse →
    ∃! id, ∃ s, w.sessions id = some s ∧ s.connection = c
  unused : ∀ c ∈ w.connections, (w.connection c).inUse = false →
    ∀ id s, w.sessions id = some s → s.connection ≠ c
  few : w.connections.countP (fun c => !(w.connection c).inUse) ≤ 1

omit [HeaderFind] in
theorem holds_iff {c : Nat} :
    w.pool.holds id = some c ↔ ∃ s, w.sessions id = some s ∧ s.connection = c :=
  Option.map_eq_some_iff

omit [HeaderFind] in
theorem disciplined_of_tidy (tidy : w.pool.Tidy) : w.Disciplined where
  unshared i j s t here there same :=
    tidy.unshared i j t.connection (same ▸ holds_of_session here) (holds_of_session there)
  used c member inUse := by
    obtain ⟨id, held⟩ := tidy.used c member inUse
    exact ⟨id, holds_iff.mp held, fun j other => tidy.unshared j id c (holds_iff.mpr other) held⟩
  unused c _ idle id s here same :=
    tidy.not_held idle id (holds_iff.mpr ⟨s, here, same⟩)
  few := tidy.few

/-- What is kept as long as every query can be made. Numbers that are to come are unused. -/
structure Kept (w : WebClient) : Prop where
  fresh : ∀ id, w.nextRequestId < id → w.sessions id = none
  tidy : w.pool.Tidy

/-- A request of the running client can make its query. -/
def QueryIsMade (w : WebClient) : PoolAction → Prop
  | .act (.request _ _ _ _ order) =>
    w.escaped.isNone → order.Perm w.connections → w.ProxyParses
  | _ => True

omit [HeaderFind] in
theorem fresh_of_spares {c : Nat} (spares : Spares w w' id c) (known : id ≤ w'.nextRequestId)
    (fresh : ∀ j, w.nextRequestId < j → w.sessions j = none) :
    ∀ j, w'.nextRequestId < j → w'.sessions j = none := by
  intro j later
  rw [spares.session j (by omega)]
  exact fresh j (Nat.lt_of_le_of_lt spares.requests later)

theorem kept_request (kept : w.Kept) (permuted : order.Perm w.connections)
    (parses : w.ProxyParses) : (w.request method path content header order).Kept := by
  refine ⟨fresh_of_spares (spares_request method path content header w order)
    (request_numbered method path content header w order) kept.fresh, ?_⟩
  obtain ⟨query, streambuf, is⟩ := request_of_parses method path content header order parses
  have unheld : w.pool.holds (w.nextRequestId + 1) = none := by
    simp only [pool, kept.fresh _ (Nat.lt_succ_self _), Option.map_none]
  have tidy := ResourcePool.tidy_hand kept.tidy (taken_marks permuted) unheld
  rw [is, pool_connect]
  exact tidy

theorem kept_complete {ec : Option ErrorCode} {socket : Socket} (kept : w.Kept)
    (permuted : order.Perm w.connections) (completed : w.complete id ec socket order = some w') :
    w'.Kept := by
  cases here : w.sessions id with
  | none => simp [complete, here] at completed
  | some s =>
    have cases := complete_cases here completed
    -- only requests that have been made have a session
    have known : id ≤ w.nextRequestId := by
      by_contra later
      rw [kept.fresh id (Nat.not_le.mp later)] at here
      cases here
    exact ⟨fresh_of_spares cases.spares (Nat.le_trans known cases.spares.requests) kept.fresh,
      cases.tidy kept.tidy permuted here⟩

theorem kept_poolStep (w : WebClient) (a : PoolAction) (w' : WebClient) (kept : w.Kept)
    (made : w.QueryIsMade a) (stepped : w.poolStep a = some w') : w'.Kept := by
  cases a with
  | act a =>
    simp only [poolStep, step, Option.ite_none_left_eq_some] at stepped
    obtain ⟨lives, stepped⟩ := stepped
    cases a with
    | request method path content header order =>
      simp only [Option.ite_none_right_eq_some, Option.some.injEq] at stepped
      obtain ⟨permuted, rfl⟩ := stepped
      exact kept_request method path content header kept permuted
        (made (by simpa using lives) permuted)
    | complete id ec socket order =>
      simp only [Option.ite_none_right_eq_some] at stepped
      exact kept_complete kept stepped.1.1 stepped.2
  | stop =>
    simp only [poolStep, Option.ite_none_left_eq_some, Option.some.injEq] at stepped
    obtain ⟨-, rfl⟩ := stepped
    unfold stop
    split
    · exact ⟨kept.fresh, ResourcePool.tidy_clear kept.tidy.toExclusive⟩
    · exact kept

/-- A connection that is marked for a request that does not return is nobody's. -/
theorem not_disciplined_of_request (kept : w.Kept) (permuted : order.Perm w.connections)
    (unparsed : ¬ w.ProxyParses) :
    ¬ (w.request method path content header order).Disciplined := by
  intro disciplined
  rw [request_of_not_parses method path content header order unparsed] at disciplined
  have marks := taken_marks permuted
  -- the connection is in use, and whoever held it would have held it before it was marked
  have inUse : (w.taken order).2.pool.inUse (w.taken order).1 = true := by
    rw [marks.inUse_eq, Function.update_self]
  obtain ⟨id, held, -⟩ := disciplined.used _ marks.mem inUse
  have holds := holds_iff.mpr held
  rw [marks.holds_eq] at holds
  exact marks.not_held kept.tidy.toExclusive id holds

/-- In every interleaving of requests, completions and `stop` the pool is disciplined exactly as
long as every request of the client can make its query. -/
theorem disciplined_iff (client : Client) (acts : List PoolAction) :
    (∀ w, Visits poolStep (start client) acts w → w.Disciplined) ↔
      Meets poolStep QueryIsMade (start client) acts := by
  refine always_iff kept_poolStep (fun w kept => disciplined_of_tidy kept.tidy) ?_ acts
    ⟨fun _ _ => rfl, ResourcePool.tidy_empty⟩
  intro w a kept unmade
  match a with
  | .act (.request method path content header order) =>
    simp only [QueryIsMade, Classical.not_imp] at unmade
    obtain ⟨lives, permuted, unparsed⟩ := unmade
    refine ⟨_, ?_, not_disciplined_of_request method path content header kept permuted unparsed⟩
    rw [poolStep, step, if_neg (by simpa using lives), if_pos permuted]
  | .act (.complete ..) | .stop => exact absurd trivial unmade

omit [HeaderFind] in
/-- The port of the proxy is no number: two requests do not return, and leave two connections. -/
theorem requests_leave_connections :
    ∃ client w, Client.create ⟨ascii "localhost", 80, ascii "proxy:x", 99⟩ = .ok client ∧
      run (@poolStep findFirst) (start client)
        [.act (.request (ascii "GET") (ascii "/") [] [] []),
          .act (.request (ascii "GET") (ascii "/") [] [] [0])] = some w ∧
      w.connections = [1, 0] ∧ (w.connection 0).inUse = true ∧ (w.connection 1).inUse = true ∧
      (∀ id, w.sessions id = none) ∧ w.returned = [] ∧ ¬ w.Disciplined := by
  refine ⟨_, _, rfl, rfl, rfl, rfl, rfl, fun _ => rfl, rfl, fun disciplined => ?_⟩
  obtain ⟨id, ⟨s, here, -⟩, -⟩ :=
    disciplined.used 0 (List.mem_cons_of_mem _ List.mem_cons_self) rfl
  cases here

end WebClient

end ServerLib.Web
