import ServerLib.Web.Answering

/-!
# What a step of the client leaves to the sessions

Whether the queries can be made or not, no two sessions share a connection. A request begins on
the connection that it takes with what its socket is ready for, a session that has failed takes
its connection out of the pool, and one that reads goes on with its socket or with a new
connection.
-/
namespace ServerLib.Web

open Network (Bytes)
open Transition

namespace WebClient

variable {w w' : WebClient} {id : Nat} {order : List Nat}

/-- What the base keeps of its sessions, whether the queries can be made or not. -/
structure Unshared (w : WebClient) : Prop where
  fresh : ∀ id, w.nextRequestId < id → w.sessions id = none
  exclusive : w.pool.Exclusive

theorem callback_sessions (w : WebClient) (order : List Nat) (id : Nat) (s : Session)
    (result : Except ErrorCode Response) : (w.callback order id s result).sessions id = none := by
  unfold callback onResponseImpl
  split <;> exact Function.update_self ..

theorem callback_connection (w : WebClient) (order : List Nat) (id : Nat) (s : Session)
    (result : Except ErrorCode Response) :
    (w.callback order id s result).connection s.connection =
      { w.connection s.connection with inUse := false } := by
  unfold callback onResponseImpl
  split <;> exact Function.update_self ..

theorem await_sessions (w : WebClient) (id : Nat) (s : Session) (p : Pending) :
    (w.await id s p).sessions id = some { s with pending := p } := Function.update_self ..

theorem not_mem_prune {connection : Nat → Connection} {erased : Nat → Bool} {c : Nat}
    (gone : erased c = true) (unused : Nat) (order : List Nat) :
    c ∉ prune connection erased unused order := by
  induction order generalizing unused with
  | nil => exact List.not_mem_nil
  | cons d rest ih =>
    have other : erased d ≠ true → c ≠ d := by
      rintro kept rfl
      exact kept gone
    rw [prune]
    split
    · exact ih _
    next kept =>
      split
      · exact List.not_mem_cons_of_ne_of_not_mem (other kept) (ih _)
      · split
        · exact ih _
        · exact List.not_mem_cons_of_ne_of_not_mem (other kept) (ih _)

/-- The connection of a session that has failed leaves the pool. -/
theorem not_mem_callback (w : WebClient) (order : List Nat) (id : Nat) (s : Session)
    (ec : ErrorCode) : s.connection ∉ (w.callback order id s (.error ec)).connections := by
  rw [callback, connections_onResponseImpl]
  exact not_mem_prune (by simp [Except.isOk, Except.toBool]) 0 order

variable [HeaderFind]

theorem unshared_request (unshared : w.Unshared) (permuted : order.Perm w.connections)
    (method path content : Bytes) (header : Header) :
    (w.request method path content header order).Unshared := by
  refine ⟨fresh_of_spares (spares_request method path content header w order)
    (request_numbered method path content header w order) unshared.fresh, ?_⟩
  have marks := taken_marks permuted
  by_cases parses : w.ProxyParses
  · obtain ⟨query, streambuf, is⟩ := request_of_parses method path content header order parses
    rw [is, pool_connect]
    exact ResourcePool.exclusive_hand unshared.exclusive marks
  · rw [request_of_not_parses method path content header order parses]
    exact ResourcePool.exclusive_of_marks unshared.exclusive marks

theorem unshared_complete {ec : Option ErrorCode} {socket : Socket} (unshared : w.Unshared)
    (permuted : order.Perm w.connections) (completed : w.complete id ec socket order = some w') :
    w'.Unshared := by
  cases here : w.sessions id with
  | none => simp [complete, here] at completed
  | some s =>
    have cases := complete_cases here completed
    have known : id ≤ w.nextRequestId := by
      by_contra later
      rw [unshared.fresh id (Nat.not_le.mp later)] at here
      cases here
    exact ⟨fresh_of_spares cases.spares (Nat.le_trans known cases.spares.requests) unshared.fresh,
      cases.exclusive unshared.exclusive permuted here⟩

theorem client_poolStep {a : PoolAction} (stepped : w.poolStep a = some w') :
    w'.client = w.client := by
  cases a with
  | act a =>
    simp only [poolStep, step, Option.ite_none_left_eq_some] at stepped
    cases a with
    | request method path content header order =>
      simp only [Option.ite_none_right_eq_some, Option.some.injEq] at stepped
      obtain ⟨-, -, rfl⟩ := stepped
      exact (spares_request method path content header w order).client
    | complete id ec socket order =>
      simp only [Option.ite_none_right_eq_some] at stepped
      cases here : w.sessions id with
      | none => simp [complete, here] at stepped
      | some s => exact (complete_cases here stepped.2.2).spares.client
  | stop =>
    simp only [poolStep, Option.ite_none_left_eq_some, Option.some.injEq] at stepped
    obtain ⟨-, rfl⟩ := stepped
    unfold stop
    split <;> rfl

omit [HeaderFind] in
/-- The connection that a request takes has its socket open if it was, and a new one has not. -/
theorem taken_cases (w : WebClient) (permuted : order.Perm w.connections) :
    ((w.taken order).1 ∈ w.connections ∧ (w.connection (w.taken order).1).inUse = false ∧
      (w.taken order).2.connections = w.connections ∧
      ((w.taken order).2.connection (w.taken order).1).socket =
        (w.connection (w.taken order).1).socket) ∨
    ((w.taken order).1 = w.created ∧
      (w.taken order).2.connections = w.created :: w.connections ∧
      ((w.taken order).2.connection (w.taken order).1).socket = none) := by
  unfold taken takeConnection
  cases found : order.find? fun c => !(w.register.connection c).inUse with
  | none => exact .inr ⟨rfl, rfl, by simp [createConnection, setConnection, register]⟩
  | some c =>
    have member := permuted.mem_iff.mp (List.mem_of_find?_eq_some found)
    have idle := List.find?_some found
    exact .inl ⟨member, by simpa [register] using idle, rfl, by
      simp [setConnection, register]⟩

/-- A request begins on the connection that it takes with what the socket is ready for. -/
structure Begun (w w' : WebClient) (order : List Nat) : Prop where
  connections : w'.connections = (w.taken order).2.connections
  created : w'.created = (w.taken order).2.created
  connection : w'.connection = (w.taken order).2.connection
  begins : ∀ s, w'.sessions (w.nextRequestId + 1) = some s → s.connection = (w.taken order).1 ∧
    match ((w.taken order).2.connection (w.taken order).1).socket with
    | none => ∃ response, s.pending = .resolve response
    | some _ => ∃ response, s.pending = .write response

theorem begun_request (unshared : w.Unshared) (method path content : Bytes) (header : Header)
    (order : List Nat) : w.Begun (w.request method path content header order) order := by
  by_cases parses : w.ProxyParses
  · obtain ⟨query, streambuf, is⟩ := request_of_parses method path content header order parses
    rw [is]
    cases socket : ((w.taken order).2.connection (w.taken order).1).socket with
    | none =>
      simp only [connect, socket]
      refine ⟨rfl, rfl, rfl, fun s there => ?_⟩
      rw [await_sessions] at there
      cases there
      rw [socket]
      exact ⟨rfl, _, rfl⟩
    | some opened =>
      simp only [connect, socket]
      refine ⟨rfl, rfl, rfl, fun s there => ?_⟩
      rw [await_sessions] at there
      cases there
      rw [socket]
      exact ⟨rfl, _, rfl⟩
  · rw [request_of_not_parses method path content header order parses]
    refine ⟨rfl, rfl, rfl, fun s there => ?_⟩
    have fresh := unshared.fresh _ (Nat.lt_succ_self _)
    have same : (w.taken order).2.sessions = w.sessions := by
      unfold taken takeConnection
      cases order.find? fun c => !(w.register.connection c).inUse <;> rfl
    rw [same, fresh] at there
    cases there

/-- A member of the pool was one before, or the session has it now. -/
theorem Completed.members {s : Session} (permuted : order.Perm w.connections)
    (here : w.sessions id = some s) (completed : Completed w id s order w') :
    w.created ≤ w'.created ∧
      ∀ d ∈ w'.connections, d ∈ w.connections ∨ w'.pool.holds id = some d := by
  rcases completed.pool_cases here with same | ⟨fewer, is, -⟩ | ⟨q, marks, is⟩
  · have created : w'.created = w.created := congrArg ResourcePool.created same
    have members : w'.connections = w.connections := congrArg ResourcePool.members same
    rw [created, members]
    exact ⟨Nat.le_refl _, fun d member => .inl member⟩
  · have created : w'.created = w.created := congrArg ResourcePool.created is
    rw [created]
    exact ⟨Nat.le_refl _, fun d member => .inl (permuted.mem_iff.mp (fewer.subset member))⟩
  · have created : w'.created = q.created := congrArg ResourcePool.created is
    have members : w'.connections = q.members := congrArg ResourcePool.members is
    constructor
    · rw [created]
      cases marks with
      | pooled => exact Nat.le_refl _
      | new => exact Nat.le_succ _
    · intro d member
      rw [members] at member
      by_cases new : d = w.created
      · right
        rw [is, ResourcePool.hand_holds, if_pos rfl, new]
      · exact .inl (List.mem_of_mem_erase (marks.mem_of_ne member new))

/-- Behind a completed read the socket is open, and the session reads again, or it is at the
beginning on a new connection. -/
structure ReadOn (w' : WebClient) (id : Nat) (s : Session) (created : Nat) : Prop where
  open_ : (w'.connection s.connection).socket.isSome
  goesOn : ∀ t, w'.sessions id = some t →
    (t.connection = s.connection ∧ ∃ step, t.pending = .read step) ∨
      (t.connection = created ∧ ∃ response, t.pending = .resolve response)

variable {s : Session}

omit [HeaderFind] in
theorem readOn_callback (open_ : (w.connection s.connection).socket.isSome)
    (result : Except ErrorCode Response) (created : Nat) :
    (w.callback order id s result).ReadOn id s created := by
  constructor
  · rw [callback_connection]
    exact open_
  · intro t there
    rw [callback_sessions] at there
    cases there

omit [HeaderFind] in
theorem readOn_reconnect (open_ : (w.connection s.connection).socket.isSome)
    (old : s.connection < w.created) (response : Response) :
    (w.reconnect id s response).ReadOn id s w.created := by
  constructor
  · rw [(spares_reconnect w id w.created s response).connection _ (Nat.ne_of_lt old) old]
    exact open_
  · intro t there
    rw [(reconnect_awaits w id s response).1] at there
    cases there
    exact .inr ⟨rfl, response, rfl⟩

omit [HeaderFind] in
theorem readOn_afterRead (open_ : (w.connection s.connection).socket.isSome)
    (old : s.connection < w.created) (here : w.sessions id = some s) {step : ClientStep}
    (reads : s.pending = .read step) (next : ClientStep) :
    (w.afterRead order id s next).ReadOn id s w.created := by
  have awaits : ∀ next, (w.await id s (.read next)).ReadOn id s w.created := by
    intro next
    refine ⟨open_, fun t there => ?_⟩
    rw [await_sessions] at there
    cases there
    exact .inl ⟨rfl, next, rfl⟩
  cases next with
  | callback result => exact readOn_callback open_ result _
  | lost response ec =>
    rw [afterRead, afterLost]
    split
    · split
      · exact readOn_reconnect open_ old response
      · exact readOn_callback open_ _ _
    · exact readOn_callback open_ _ _
  | broken failure =>
    refine ⟨open_, fun t there => ?_⟩
    cases here.symm.trans there
    exact .inl ⟨rfl, step, reads⟩
  | _ => exact awaits _

theorem readOn_complete {step : ClientStep} {ec : Option ErrorCode} {socket : Socket}
    (unshared : w.Unshared) (here : w.sessions id = some s) (reads : s.pending = .read step)
    (completed : w.complete id ec socket order = some w') : w'.ReadOn id s w.created := by
  have old := (unshared.exclusive.held id _ (holds_of_session here)).1
  simp only [complete, here, reads] at completed
  split at completed
  · cases completed
  · obtain ⟨⟨turn, rest⟩, -, rfl⟩ := Option.map_eq_some_iff.mp completed
    apply readOn_afterRead _ _ _ reads
    · simp [setConnection]
    · exact old
    · exact here

end WebClient

end ServerLib.Web
