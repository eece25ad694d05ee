import ServerLib.Web.ConnectionPool

/-!
# Every request is answered once

A request that has returned has either a session, which waits for an operation, or an answer.
The operations of a session complete at most so often as its buffers allow, and at most one of
its connections is replaced; so its callback is called, and it is called once. All of this holds
as long as no handler lets an exception out, and only the three inputs in `Breaks` make one do
that.
-/
namespace ServerLib.Web

open Network (Bytes)
open Transition

namespace WebClient

/-- The completions that a request can have. -/
def limit (c : ClientConfig) : Nat := 4 * c.maxResponseStreambufSize + 12

/-- A request whose session waits. -/
structure Open (w : WebClient) (id : Nat) (s : Session) : Prop where
  ready : w.Ready s
  registered : id ∈ w.responseCallbacks
  unanswered : w.answersOf id = 0
  bounded : w.completions id + w.rank s ≤ limit w.client.config
  spare : w.reconnects id + w.budget s ≤ 1

/-- A request without a session. -/
structure Closed (w : WebClient) (id : Nat) : Prop where
  answered : id ∈ w.returned → w.answersOf id = 1
  bounded : w.completions id ≤ limit w.client.config
  spare : w.reconnects id ≤ 1

def Settled (w : WebClient) (id : Nat) : Prop :=
  (∀ s, w.sessions id = some s → w.Open id s) ∧ (w.sessions id = none → w.Closed id)

/-- The numbers of requests that are to come. -/
structure Unused (w : WebClient) (id : Nat) : Prop where
  session : w.sessions id = none
  unreturned : id ∉ w.returned
  unanswered : w.answersOf id = 0
  completions : w.completions id = 0
  reconnects : w.reconnects id = 0

structure Accounted (w : WebClient) : Prop where
  contained : w.escaped = none
  running : w.isRunning
  exclusive : w.pool.Exclusive
  unused : ∀ id, w.nextRequestId < id → w.Unused id
  settled : ∀ id, w.Settled id

variable {w w' : WebClient} {id c : Nat} {s : Session} {order : List Nat}

theorem unused_of_spares (spares : Spares w w' id c) {j : Nat} (other : j ≠ id)
    (unused : w.Unused j) : w'.Unused j where
  session := (spares.session j other).trans unused.session
  unreturned := mt (spares.returned j other).mp unused.unreturned
  unanswered := (spares.answers j other).trans unused.unanswered
  completions := (spares.completions j other).trans unused.completions
  reconnects := (spares.reconnects j other).trans unused.reconnects

/-- A step for one request does not touch the accounts of the others. -/
theorem settled_of_spares (spares : Spares w w' id c) (exclusive : w.pool.Exclusive)
    (alone : ∀ j, j ≠ id → w.pool.holds j ≠ some c) {j : Nat} (other : j ≠ id)
    (settled : w.Settled j) : w'.Settled j := by
  constructor
  · intro t there
    rw [spares.session j other] at there
    have account := settled.1 t there
    -- its connection is not the one that the step writes to
    have held := holds_of_session there
    have same : w'.connection t.connection = w.connection t.connection :=
      spares.connection _ (fun is => alone j other (is ▸ held)) (exclusive.held j _ held).1
    constructor
    · rw [Ready, spares.client, same]
      exact account.ready
    · exact spares.registered j other account.registered
    · exact (spares.answers j other).trans account.unanswered
    · rw [rank, spares.completions j other, spares.client, same]
      exact account.bounded
    · rw [budget, spares.reconnects j other, same]
      exact account.spare
  · intro none_
    rw [spares.session j other] at none_
    have account := settled.2 none_
    constructor
    · intro returned
      rw [spares.answers j other]
      exact account.answered ((spares.returned j other).mp returned)
    · rw [spares.completions j other, spares.client]
      exact account.bounded
    · rw [spares.reconnects j other]
      exact account.spare

variable [HeaderFind]

omit [HeaderFind] in
theorem settled_of_open (here : w.sessions id = some s) (account : w.Open id s) :
    w.Settled id := by
  constructor
  · intro t there
    cases here.symm.trans there
    exact account
  · intro none_
    cases here.symm.trans none_

omit [HeaderFind] in
theorem settled_of_closed (none_ : w.sessions id = none) (account : w.Closed id) :
    w.Settled id := by
  constructor
  · intro t there
    cases none_.symm.trans there
  · exact fun _ => account

omit [HeaderFind] in
theorem callback_of_registered (registered : id ∈ w.responseCallbacks)
    (result : Except ErrorCode Response) :
    w.callback order id s result = { w.returnConnection order id s (!result.isOk) with
      responseCallbacks := w.responseCallbacks.erase id
      answers := w.answers ++ [(id, result)] } :=
  if_pos registered

/-- The new connection of a session. -/
def second : Connection := { attemptReconnect := false, inUse := true }

omit [HeaderFind] in
/-- The session that goes on with a new connection begins with resolving. -/
theorem reconnect_awaits (w : WebClient) (id : Nat) (s : Session) (response : Response) :
    (w.reconnect id s response).sessions id =
        some { s with connection := w.created, pending := .resolve response } ∧
      (w.reconnect id s response).connection w.created = second ∧
      (w.reconnect id s response).reconnects id = w.reconnects id + 1 ∧
      (w.reconnect id s response).completions = w.completions ∧
      (w.reconnect id s response).responseCallbacks = w.responseCallbacks ∧
      (w.reconnect id s response).answers = w.answers ∧
      (w.reconnect id s response).client = w.client ∧
      (w.reconnect id s response).escaped = w.escaped := by
  simp [reconnect, createConnection, setConnection, connect, await, second]

/-- A completion that does not break keeps the account of its request. -/
theorem settled_of_completed (account : w.Open id s) (completed : Completed w id s order w')
    (reads : ¬ w.Breaks s) : w'.Settled id ∧ w'.escaped = w.escaped := by
  obtain ⟨ready, registered, unanswered, bounded, spare⟩ := account
  have counted : (w.count id).completions id = w.completions id + 1 := Function.update_self ..
  cases completed with
  | waits k p inUse goesOn =>
    obtain ⟨ready', shorter, fewer⟩ := goesOn ready
    have now : (((w.count id).setConnection s.connection k).await id s p).connection s.connection =
        k := Function.update_self ..
    refine ⟨settled_of_open (s := { s with pending := p }) (Function.update_self ..) ?_, rfl⟩
    constructor
    · rw [Ready, now]
      exact ready'
    · exact registered
    · exact unanswered
    · rw [rank, now]
      change (w.count id).completions id + p.rank w.client.config k ≤ limit w.client.config
      omega
    · rw [budget, now]
      exact Nat.le_trans (Nat.add_le_add_left fewer _) spare
  | calls k result inUse finite =>
    have positive := finite ready
    -- the callback is still there, so this is the one answer
    have kept : id ∈ ((w.count id).setConnection s.connection k).responseCallbacks := registered
    rw [callback_of_registered kept]
    refine ⟨settled_of_closed (Function.update_self ..) ⟨fun _ => ?_, ?_, ?_⟩, rfl⟩
    · change (w.answers ++ [(id, result)]).countP _ = 1
      rw [List.countP_append, ← answersOf, unanswered, List.countP_singleton, beq_self_eq_true]
      rfl
    · change (w.count id).completions id ≤ limit w.client.config
      omega
    · exact Nat.le_trans (Nat.le_add_right _ _) spare
  | exchanges k response inUse goesOn =>
    obtain ⟨good, one, shorter⟩ := goesOn ready
    obtain ⟨session, new, reconnects, completions, callbacks, answers, client, escaped⟩ :=
      reconnect_awaits ((w.count id).setConnection s.connection k) id s response
    refine ⟨settled_of_open session ⟨?_, ?_, ?_, ?_, ?_⟩, escaped⟩
    · exact good
    · rw [callbacks]
      exact registered
    · rw [answersOf, answers]
      exact unanswered
    · -- all over again on the new connection, for which there is no third one
      have deep : Pending.rank w.client.config second (.resolve response) =
          2 * w.client.config.maxResponseStreambufSize + 6 := by
        simp [Pending.rank, Pending.budget, Pending.depth, second]
      simp only [rank, completions, client, new]
      change (w.count id).completions id + Pending.rank w.client.config second _ ≤
        limit w.client.config
      omega
    · simp only [budget, reconnects, new]
      change w.reconnects id + 1 + 0 ≤ 1
      omega
  | breaks k failure inUse broken => exact absurd (broken ready) reads

omit [HeaderFind] in
/-- The first operation on a connection. -/
theorem connect_awaits (w : WebClient) (id : Nat) (s : Session) {response : Response}
    (good : response.streambuf.good) :
    ∃ p : Pending, w.connect id s response = w.await id s p ∧
      p.depth w.client.config ≤ 2 * w.client.config.maxResponseStreambufSize + 6 ∧
      p.Ready w.client.config (w.connection s.connection) := by
  unfold connect
  split
  next => exact ⟨_, rfl, Nat.le_refl _, good⟩
  next socket opened =>
    exact ⟨_, rfl, Nat.add_le_add_left (by decide) _, good, by rw [opened]; rfl⟩

omit [HeaderFind] in
theorem budget_le (k : Connection) (p : Pending) : p.budget k ≤ 1 := by
  unfold Pending.budget
  split <;> decide

omit [HeaderFind] in
theorem escaped_takeConnection (w : WebClient) (order : List Nat) :
    (w.takeConnection order).2.escaped = w.escaped := by
  unfold takeConnection
  cases order.find? fun c => !(w.connection c).inUse <;> rfl

theorem settled_of_request (unused : w.Unused (w.nextRequestId + 1)) (method path content : Bytes)
    (header : Header) (order : List Nat) :
    (w.request method path content header order).Settled (w.nextRequestId + 1) ∧
      (w.request method path content header order).escaped = w.escaped := by
  -- what `get_connection` does belongs to no request
  obtain ⟨takes, -⟩ := spares_takeConnection w.register order 0
  have other : w.nextRequestId + 1 ≠ 0 := Nat.succ_ne_zero _
  have still : (w.taken order).2.Unused (w.nextRequestId + 1) :=
    unused_of_spares takes other
      ⟨unused.session, unused.unreturned, unused.unanswered, unused.completions, unused.reconnects⟩
  have registered := takes.registered _ other List.mem_cons_self
  have escaped := escaped_takeConnection w.register order
  by_cases parses : w.ProxyParses
  · obtain ⟨query, streambuf, is⟩ := request_of_parses method path content header order parses
    rw [is]
    obtain ⟨p, awaits, shallow, ready⟩ := connect_awaits { (w.taken order).2 with
        query := query
        returned := (w.nextRequestId + 1) :: (w.taken order).2.returned } (w.nextRequestId + 1)
      ⟨(w.taken order).1, streambuf, .resolve (.new w.client.config)⟩
      (show (Response.new w.client.config).streambuf.good from rfl)
    rw [awaits]
    refine ⟨settled_of_open (Function.update_self ..)
      ⟨ready, registered, still.unanswered, ?_, ?_⟩, escaped⟩
    · have few := Nat.mul_le_mul_right
        (2 * (w.taken order).2.client.config.maxResponseStreambufSize + 6)
        (budget_le ((w.taken order).2.connection (w.taken order).1) p)
      change (w.taken order).2.completions _ + (p.depth (w.taken order).2.client.config +
        p.budget ((w.taken order).2.connection (w.taken order).1) *
          (2 * (w.taken order).2.client.config.maxResponseStreambufSize + 6)) ≤
            4 * (w.taken order).2.client.config.maxResponseStreambufSize + 12
      rw [still.completions]
      change p.depth (w.taken order).2.client.config ≤
        2 * (w.taken order).2.client.config.maxResponseStreambufSize + 6 at shallow
      omega
    · change (w.taken order).2.reconnects _ + _ ≤ 1
      rw [still.reconnects, Nat.zero_add]
      exact budget_le _ p
  · rw [request_of_not_parses method path content header order parses]
    refine ⟨settled_of_closed still.session
      ⟨fun returned => absurd returned still.unreturned, ?_, ?_⟩, escaped⟩
    · rw [still.completions]
      exact Nat.zero_le _
    · rw [still.reconnects]
      exact Nat.zero_le _

/-! ### All steps -/

theorem accounted_request (accounted : w.Accounted) (permuted : order.Perm w.connections)
    (method path content : Bytes) (header : Header) :
    (w.request method path content header order).Accounted := by
  obtain ⟨contained, running, exclusive, unused, settled⟩ := accounted
  have spares := spares_request method path content header w order
  obtain ⟨own, escaped⟩ := settled_of_request (unused _ (Nat.lt_succ_self _)) method path content
    header order
  -- the connection that is taken is nobody's, and the request has a number of its own
  have alone : ∀ j, j ≠ w.nextRequestId + 1 → w.pool.holds j ≠ some (w.taken order).1 :=
    fun j _ => (taken_marks permuted).not_held exclusive j
  refine ⟨escaped.trans contained, spares.isRunning.trans running, ?_, ?_, ?_⟩
  · have marks := taken_marks permuted
    by_cases parses : w.ProxyParses
    · obtain ⟨query, streambuf, is⟩ := request_of_parses method path content header order parses
      rw [is, pool_connect]
      exact ResourcePool.exclusive_hand exclusive marks
    · rw [request_of_not_parses method path content header order parses]
      exact ResourcePool.exclusive_of_marks exclusive marks
  · intro j later
    have numbered := request_numbered method path content header w order
    exact unused_of_spares spares (by omega) (unused j (by omega))
  · intro j
    by_cases other : j = w.nextRequestId + 1
    · exact other ▸ own
    · exact settled_of_spares spares exclusive alone other (settled j)

theorem accounted_complete (accounted : w.Accounted) (permuted : order.Perm w.connections)
    (here : w.sessions id = some s) (completed : Completed w id s order w')
    (reads : ¬ w.Breaks s) : w'.Accounted := by
  obtain ⟨contained, running, exclusive, unused, settled⟩ := accounted
  have spares := completed.spares
  obtain ⟨own, escaped⟩ := settled_of_completed ((settled id).1 s here) completed reads
  have alone : ∀ j, j ≠ id → w.pool.holds j ≠ some s.connection :=
    fun j other held => other (exclusive.unshared j id _ held (holds_of_session here))
  refine ⟨escaped.trans contained, spares.isRunning.trans running,
    completed.exclusive exclusive permuted here, ?_, ?_⟩
  · intro j later
    have before := Nat.lt_of_le_of_lt spares.requests later
    refine unused_of_spares spares ?_ (unused j before)
    rintro rfl
    cases here.symm.trans (unused j before).session
  · intro j
    by_cases other : j = id
    · exact other ▸ own
    · exact settled_of_spares spares exclusive alone other (settled j)

/-- What a session reads does not break its handler. -/
def Readable (w : WebClient) : ClientAction → Prop
  | .request .. => True
  | .complete id _ _ order => order.Perm w.connections → ∀ s ∈ w.sessions id, ¬ w.Breaks s

theorem accounted_step (w : WebClient) (a : ClientAction) (w' : WebClient)
    (accounted : w.Accounted) (readable : w.Readable a) (stepped : w.step a = some w') :
    w'.Accounted := by
  simp only [step, Option.ite_none_left_eq_some] at stepped
  obtain ⟨-, stepped⟩ := stepped
  cases a with
  | request method path content header order =>
    simp only [Option.ite_none_right_eq_some, Option.some.injEq] at stepped
    obtain ⟨permuted, rfl⟩ := stepped
    exact accounted_request accounted permuted method path content header
  | complete id ec socket order =>
    simp only [Option.ite_none_right_eq_some] at stepped
    obtain ⟨⟨permuted, -⟩, completed⟩ := stepped
    cases here : w.sessions id with
    | none => simp [complete, here] at completed
    | some s =>
      exact accounted_complete accounted permuted here (complete_cases here completed)
        (readable permuted s here)

/-- Nothing has escaped, and every request that has returned has been answered once or waits for
an operation that completes, at the latest when its socket fails. No request has had more than
one reconnect, nor more completions than its buffers allow. -/
structure Answering (w : WebClient) : Prop where
  contained : w.escaped = none
  once : ∀ id ∈ w.returned, w.answersOf id + (if (w.sessions id).isSome then 1 else 0) = 1
  reconnectsOnce : ∀ id, w.reconnects id ≤ 1
  finite : ∀ id, w.completions id ≤ limit w.client.config
  progress : ∀ id s, w.sessions id = some s →
    (∀ socket, (w.connection s.connection).socket = some socket → socket.ending.isSome) →
    ∃ w', w.step (.complete id none { pieces := [] } w.connections) = some w'

theorem answering_of_accounted (accounted : w.Accounted) : w.Answering := by
  obtain ⟨contained, running, exclusive, unused, settled⟩ := accounted
  constructor
  · exact contained
  · intro id returned
    cases here : w.sessions id with
    | none => exact ((settled id).2 here).answered returned
    | some s =>
      rw [((settled id).1 s here).unanswered]
      rfl
  · intro id
    cases here : w.sessions id with
    | none => exact ((settled id).2 here).spare
    | some s => exact Nat.le_trans (Nat.le_add_right _ _) ((settled id).1 s here).spare
  · intro id
    cases here : w.sessions id with
    | none => exact ((settled id).2 here).bounded
    | some s => exact Nat.le_trans (Nat.le_add_right _ _) ((settled id).1 s here).bounded
  · -- the completion is a step of the client, as nothing has escaped and nobody has stopped it
    intro id s here ends
    obtain ⟨w', completed⟩ :=
      completes here ((settled id).1 s here).ready ends none { pieces := [] }
    refine ⟨w', ?_⟩
    rw [step, contained]
    simp only [Option.isSome_none, Bool.false_eq_true, if_false]
    rw [if_pos ⟨List.Perm.refl _, running⟩]
    exact completed

omit [HeaderFind] in
theorem accounted_start (client : Client) : (start client).Accounted where
  contained := rfl
  running := rfl
  exclusive := ResourcePool.tidy_empty.toExclusive
  unused _ _ := ⟨rfl, List.not_mem_nil, rfl, rfl, rfl⟩
  settled _ := settled_of_closed rfl ⟨nofun, Nat.zero_le _, Nat.zero_le _⟩

/-- In every run of the client its requests are answered once and nothing escapes, exactly as
long as no session reads what breaks its handler. -/
theorem answering_iff (client : Client) (acts : List ClientAction) :
    (∀ w, Visits step (start client) acts w → w.Answering) ↔
      Meets step Readable (start client) acts := by
  refine always_iff accounted_step (fun w => answering_of_accounted) ?_ acts
    (accounted_start client)
  intro w a accounted unreadable
  cases a with
  | request => exact absurd trivial unreadable
  | complete id ec socket order =>
    simp only [Readable, Classical.not_imp, not_forall, not_not] at unreadable
    obtain ⟨permuted, s, here, breaks⟩ := unreadable
    obtain ⟨w', completed, escaped⟩ :=
      escapes_of_breaks here ((accounted.settled id).1 s here).ready breaks ec socket
    refine ⟨w', ?_, fun answering => ?_⟩
    · rw [step, accounted.contained]
      simp only [Option.isSome_none, Bool.false_eq_true, if_false]
      rw [if_pos ⟨permuted, accounted.running⟩]
      exact completed
    · rw [answering.contained] at escaped
      cases escaped

/-- A request on a new connection whose server sends a response at once, for so many completed
reads: what has escaped, the requests that have returned, and how many were answered. -/
def outcome (client : Client) (response : Bytes) (reads : Nat) :
    Option (Option Failure × List Nat × Nat) :=
  let socket : Socket := { pieces := [response], ending := some .eof }
  let acts := .request (ascii "GET") (ascii "/") [] [] [] ::
    List.replicate (3 + reads) (.complete 1 none socket [0])
  (run step (start client) acts).map fun w => (w.escaped, w.returned, w.answers.length)

omit [HeaderFind] in
/-- A `Content-Length` that is no number; an empty size line; a chunk of 2^64 - 2 bytes. The
exception leaves the handler, and the request is never answered. -/
theorem responses_end_the_process :
    ∃ client, Client.create ⟨ascii "localhost", 80, [], 999⟩ = .ok client ∧
      @outcome findFirst client (ascii "HTTP/1.1 200 OK\r\nContent-Length: x\r\n\r\n") 1 =
        some (some (.throws .invalidArgument), [1], 0) ∧
      @outcome findFirst client
          (ascii "HTTP/1.1 200 OK\r\nTransfer-Encoding: chunked\r\n\r\n\n\r\n") 2 =
        some (some .undefined, [1], 0) ∧
      @outcome findFirst client
          (ascii "HTTP/1.1 200 OK\r\nTransfer-Encoding: chunked\r\n\r\nfffffffffffffffe\r\n") 2 =
        some (some (.throws .badArrayNewLength), [1], 0) := by
  exact ⟨_, rfl, by decide, by decide, by decide⟩

end WebClient

end ServerLib.Web
