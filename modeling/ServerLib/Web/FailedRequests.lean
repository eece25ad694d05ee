import ServerLib.Web.ConnectionPool

/-!
# Requests that return false

`web_client_impl::request` keeps the callback of a request, and takes a connection for it, before
the query is made. If the proxy cannot be parsed, both stay: every call returns false, and leaves
one more callback and one more connection that is in use and has no session.
-/
namespace ServerLib.Web

open Network (Bytes)
open Transition

namespace WebClient

variable {w w' : WebClient}

/-- `_response_callbacks` and the pool with its marks are what they were. -/
structure Traceless (w w' : WebClient) : Prop where
  responseCallbacks : w'.responseCallbacks.Perm w.responseCallbacks
  connections : w'.connections.Perm w.connections
  inUse : ∀ c ∈ w.connections, (w'.connection c).inUse = (w.connection c).inUse

theorem returned_taken (w : WebClient) (order : List Nat) :
    (w.taken order).2.returned = w.returned := by
  unfold taken takeConnection
  cases order.find? fun c => !(w.register.connection c).inUse <;> rfl

theorem responseCallbacks_taken (w : WebClient) (order : List Nat) :
    (w.taken order).2.responseCallbacks = (w.nextRequestId + 1) :: w.responseCallbacks := by
  unfold taken takeConnection
  cases order.find? fun c => !(w.register.connection c).inUse <;> rfl

theorem returned_connect (w : WebClient) (id : Nat) (s : Session) (response : Response) :
    (w.connect id s response).returned = w.returned := by
  unfold connect
  split <;> rfl

variable [HeaderFind] (method path content : Bytes) (header : Header) (order : List Nat)

/-- If the request returns false, it leaves no trace. -/
def FailsCleanly (w : WebClient) : Prop :=
  (w.request method path content header order).returned = w.returned →
    w.Traceless (w.request method path content header order)

/-- A request returns false exactly if its query cannot be made. -/
theorem returned_request_iff :
    (w.request method path content header order).returned = w.returned ↔ ¬ w.ProxyParses := by
  constructor
  · intro unreturned parses
    obtain ⟨query, streambuf, is⟩ := request_of_parses method path content header order parses
    rw [is, returned_connect] at unreturned
    have longer := congrArg List.length unreturned
    simp only [returned_taken, List.length_cons] at longer
    omega
  · intro unparsed
    rw [request_of_not_parses method path content header order unparsed, returned_taken]

/-- No request that returns false leaves no trace: it would not have returned false. -/
theorem fails_cleanly_iff (w : WebClient) :
    FailsCleanly method path content header order w ↔ w.ProxyParses := by
  constructor
  · intro clean
    by_contra unparsed
    have traceless := clean ((returned_request_iff method path content header order).mpr unparsed)
    have same := traceless.responseCallbacks.length_eq
    rw [request_of_not_parses method path content header order unparsed,
      responseCallbacks_taken, List.length_cons] at same
    omega
  · intro parses unreturned
    exact absurd parses ((returned_request_iff method path content header order).mp unreturned)

omit [HeaderFind] in
/-- The port of the proxy is no number. The first request already returns false. -/
theorem failed_request_is_kept :
    ∃ client, Client.create ⟨ascii "localhost", 80, ascii "proxy:x", 99⟩ = .ok client ∧
      ¬ @FailsCleanly findFirst (ascii "GET") (ascii "/") [] [] [] (start client) := by
  refine ⟨_, rfl, fun clean => ?_⟩
  have kept : [1].Perm ([] : List Nat) := (clean rfl).responseCallbacks
  cases kept.length_eq

/-! ### Every request of a run -/

/-- All requests so far have returned false, and each has left its callback and a connection. -/
structure Leaking (w : WebClient) : Prop where
  unparsed : ¬ w.ProxyParses
  returned : w.returned = []
  sessions : ∀ id, w.sessions id = none
  callbacks : w.responseCallbacks.length = w.nextRequestId
  pooled : w.connections.length = w.nextRequestId
  inUse : ∀ c ∈ w.connections, (w.connection c).inUse = true

theorem leaking_request {w : WebClient} {order : List Nat} (leaking : w.Leaking)
    (permuted : order.Perm w.connections) :
    (w.request method path content header order).Leaking := by
  -- there is no connection to be found, so that a new one is made
  have busy : order.find? (fun c => !(w.register.connection c).inUse) = none := by
    rw [List.find?_eq_none]
    intro c member
    have inUse := leaking.inUse c (permuted.mem_iff.mp member)
    simpa [register] using inUse
  rw [request_of_not_parses method path content header order leaking.unparsed, taken,
    takeConnection, busy]
  constructor
  · exact leaking.unparsed
  · exact leaking.returned
  · exact leaking.sessions
  · exact congrArg Nat.succ leaking.callbacks
  · exact congrArg Nat.succ leaking.pooled
  · intro c member
    rcases List.mem_cons.mp member with rfl | before
    · simp [setConnection, createConnection]
    · by_cases new : c = w.created
      · simp [setConnection, createConnection, register, new]
      · have old := leaking.inUse c before
        simpa [setConnection, createConnection, register, new] using old

theorem leaking_step (w : WebClient) (a : ClientAction) (w' : WebClient) (leaking : w.Leaking)
    (stepped : w.step a = some w') : w'.Leaking := by
  simp only [step, Option.ite_none_left_eq_some] at stepped
  obtain ⟨-, stepped⟩ := stepped
  cases a with
  | request method path content header order =>
    simp only [Option.ite_none_right_eq_some, Option.some.injEq] at stepped
    obtain ⟨permuted, rfl⟩ := stepped
    exact leaking_request method path content header leaking permuted
  | complete id ec socket order =>
    -- no request has a session that an operation could complete for
    simp only [Option.ite_none_right_eq_some, complete, leaking.sessions id] at stepped
    cases stepped.2

/-- With a proxy that cannot be parsed nothing is ever given back, whatever is called. -/
theorem leaking_of_visits {client : Client} (unparsed : ¬ (start client).ProxyParses)
    {acts : List ClientAction} {w : WebClient} (visited : Visits step (start client) acts w) :
    w.Leaking :=
  visited.invariant leaking_step ⟨unparsed, rfl, fun _ => rfl, rfl, rfl, nofun⟩

end WebClient

end ServerLib.Web
