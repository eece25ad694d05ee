import ServerLib.Web.SecureClient
import ServerLib.Web.SocketTypes

/-!
# What an HTTPS client sends in the clear

The client does what the plain one does, apart from its steps between a connect and a write. On
every socket the request for a tunnel comes first, if there is a proxy, then the handshake, and
the requests of all sessions that use the connection come behind that: a connection on which
anything failed before is never used again.
-/
namespace ServerLib.Web

open Network (Bytes)
open Transition

namespace SecureClient

open WebClient (Spares)

variable {s s' : SecureClient} {id c : Nat} {session : Session} {order : List Nat}

/-! ### What has been sent on a connection -/

/-- What comes before the handshake. -/
def Tunnel (client : Client) (sent : List Sent) : Prop :=
  if client.config.proxyServer = [] then sent = []
  else ∃ statusCode, statusCode.take 3 = ascii "200" ∧
    sent = [.plain (connectRequest client), .tunnelled statusCode]

def Secured (client : Client) (sent : List Sent) : Prop :=
  ∃ tunnel, ∃ requests : List Bytes, Tunnel client tunnel ∧
    sent = tunnel ++ .handshake :: requests.map .request

def Unsecured (client : Client) (sent : List Sent) : Prop :=
  ∃ tunnel, Tunnel client tunnel ∧ sent <+: tunnel

theorem tunnel_of_direct {client : Client} {sent : List Sent}
    (direct : client.config.proxyServer = []) (nothing : sent = []) : Tunnel client sent := by
  rw [Tunnel, if_pos direct]
  exact nothing

theorem tunnel_of_granted {client : Client} (proxied : client.config.proxyServer ≠ [])
    {statusCode : Bytes} (accepted : statusCode.take 3 = ascii "200") :
    Tunnel client [.plain (connectRequest client), .tunnelled statusCode] := by
  rw [Tunnel, if_neg proxied]
  exact ⟨statusCode, accepted, rfl⟩

theorem unsecured_of_tunnel {client : Client} {sent : List Sent} (tunnel : Tunnel client sent) :
    Unsecured client sent := ⟨sent, tunnel, List.prefix_rfl⟩

theorem unsecured_nil (client : Client) : Unsecured client [] := by
  by_cases direct : client.config.proxyServer = []
  · exact unsecured_of_tunnel (tunnel_of_direct direct rfl)
  · exact ⟨_, tunnel_of_granted direct (by decide : (ascii "200").take 3 = _), List.nil_prefix⟩

/-- What has been sent when a session waits for an operation. -/
def Reached (client : Client) (sent : List Sent) : Pending → Option OpeningStep → Prop
  | .resolve _, none | .connect _, none => sent = []
  | .write _, some .writeConnect => client.config.proxyServer ≠ [] ∧ sent = []
  | .write _, some .readConnect =>
    client.config.proxyServer ≠ [] ∧ sent = [.plain (connectRequest client)]
  | .write _, some .handshake => Tunnel client sent
  | .write _, none | .read _, none => Secured client sent
  | _, some _ => False

theorem Reached.writes {client : Client} {sent : List Sent} {pending : Pending}
    {opening : OpeningStep} (reached : Reached client sent pending (some opening)) :
    ∃ response, pending = .write response := by
  cases pending with
  | write response => exact ⟨response, rfl⟩
  | _ => exact reached.elim

theorem Reached.spoken {client : Client} {sent : List Sent} {pending : Pending}
    {opening : Option OpeningStep} (reached : Reached client sent pending opening) :
    Unsecured client sent ∨ Secured client sent := by
  cases opening with
  | none =>
    cases pending with
    | resolve | connect =>
      cases reached
      exact .inl (unsecured_nil client)
    | write | read => exact .inr reached
  | some opening =>
    obtain ⟨response, rfl⟩ := reached.writes
    left
    cases opening with
    | writeConnect =>
      obtain ⟨-, rfl⟩ := reached
      exact unsecured_nil client
    | readConnect =>
      obtain ⟨proxied, rfl⟩ := reached
      exact ⟨_, tunnel_of_granted proxied (by decide : (ascii "200").take 3 = _), ⟨_, rfl⟩⟩
    | handshake => exact unsecured_of_tunnel reached

/-! ### The operations between the connect and the write -/

/-- An operation that completes without an error, what it has sent, and the one behind it. -/
inductive Advances (client : Client) : OpeningStep → Sent → Option OpeningStep → Prop where
  | asked : Advances client .writeConnect (.plain (connectRequest client)) (some .readConnect)
  | granted (statusCode : Bytes) (accepted : statusCode.take 3 = ascii "200") :
    Advances client .readConnect (.tunnelled statusCode) (some .handshake)
  | secured : Advances client .handshake .handshake none

theorem Advances.reached {client : Client} {opening : OpeningStep} {sent : Sent}
    {next : Option OpeningStep} (advances : Advances client opening sent next)
    {before : List Sent} {pending : Pending}
    (reached : Reached client before pending (some opening)) :
    Reached client (before ++ [sent]) pending next := by
  obtain ⟨response, rfl⟩ := reached.writes
  cases advances with
  | asked =>
    obtain ⟨proxied, rfl⟩ := reached
    exact ⟨proxied, rfl⟩
  | granted statusCode accepted =>
    obtain ⟨proxied, rfl⟩ := reached
    exact tunnel_of_granted proxied accepted
  | secured => exact ⟨before, [], reached, rfl⟩

/-- A header that has been read is parsed to its end, so that the answer of the proxy either ends
the session or grants the tunnel. -/
theorem afterAnswer_cases {r : ReadResult} {proxy : Socket} {config : ClientConfig}
    (completed : asyncReadUntil headerEnd (Response.new config).streambuf proxy = some r) :
    (∃ ec, s.afterAnswer order id session r = s.fail order id session ec) ∨
      ∃ statusCode, statusCode.take 3 = ascii "200" ∧ s.afterAnswer order id session r =
        (s.send session.connection (.tunnelled statusCode)).await id (some .handshake) := by
  obtain ⟨carries, cases⟩ := asyncReadUntil_some completed
  unfold afterAnswer
  split
  · exact .inl ⟨_, rfl⟩
  · split
    · exact .inl ⟨_, rfl⟩
    next clean =>
      obtain ⟨parsed, message, rest, parses, -⟩ :=
        parseResponse_of_headerEnd (carries.good.trans rfl) (cases.found_of_clean clean) {}
      rw [parses]
      cases parsed with
      | false => exact .inl ⟨_, rfl⟩
      | true =>
        simp only
        split
        · exact .inl ⟨_, rfl⟩
        next granted =>
          rw [not_or, not_not] at granted
          exact .inr ⟨_, granted.2, rfl⟩

theorem completeOpening_cases {opening : OpeningStep} {ec : Option ErrorCode} {proxy : Socket}
    (completed : s.completeOpening id session opening ec proxy order = some s') :
    (∃ code, s' = s.fail order id session code) ∨
      ∃ sent next, Advances s.web.client opening sent next ∧
        s' = (s.send session.connection sent).await id next := by
  unfold completeOpening at completed
  split at completed
  · obtain ⟨r, read, rfl⟩ := Option.map_eq_some_iff.mp completed
    rcases afterAnswer_cases read with ⟨code, failed⟩ | ⟨statusCode, accepted, granted⟩
    · exact .inl ⟨code, failed⟩
    · exact .inr ⟨_, _, .granted statusCode accepted, granted⟩
  · cases completed
    exact .inl ⟨_, rfl⟩
  · cases completed
    exact .inr ⟨_, _, .asked, rfl⟩
  · cases completed
    exact .inr ⟨_, _, .secured, rfl⟩

/-! ### All steps -/

/-- A connection that no session holds: a request on it resolves and connects if its socket is
not open, and writes at once if it is. -/
def Reusable (s : SecureClient) (c : Nat) : Prop :=
  match (s.web.connection c).socket with
  | none => s.sent c = []
  | some _ => Secured s.web.client (s.sent c)

structure Sound (s : SecureClient) : Prop extends s.web.Unshared where
  unopened : ∀ id, s.web.sessions id = none → s.opening id = none
  new : ∀ c, s.web.created ≤ c → s.sent c = []
  reached : ∀ id session, s.web.sessions id = some session →
    Reached s.web.client (s.sent session.connection) session.pending (s.opening id)
  pooled : ∀ c ∈ s.web.connections, (∀ id, s.web.pool.holds id ≠ some c) → s.Reusable c
  spoken : ∀ c, Unsecured s.web.client (s.sent c) ∨ Secured s.web.client (s.sent c)

/-- What a step owes that serves one request, and sends on one connection. -/
structure Serves (s s' : SecureClient) (id c : Nat) : Prop where
  spares : Spares s.web s'.web id c
  unshared : s'.web.Unshared
  alone : ∀ j, j ≠ id → s.web.pool.holds j ≠ some c
  only : ∀ d, s.web.pool.holds id = some d → d = c
  known : c < s'.web.created
  grown : s.web.created ≤ s'.web.created
  members : ∀ d ∈ s'.web.connections, d ≠ c →
    d ∈ s.web.connections ∨ s'.web.pool.holds id = some d
  opening : ∀ j, j ≠ id → s'.opening j = s.opening j
  sent : ∀ d, d ≠ c → s'.sent d = s.sent d
  unopened : s'.web.sessions id = none → s'.opening id = none
  reached : ∀ session, s'.web.sessions id = some session →
    Reached s'.web.client (s'.sent session.connection) session.pending (s'.opening id)
  pooled : c ∈ s'.web.connections → s'.web.pool.holds id ≠ some c → s'.Reusable c
  spoken : Unsecured s'.web.client (s'.sent c) ∨ Secured s'.web.client (s'.sent c)

/-- What belongs to the other requests stays sound. -/
theorem Sound.serve (sound : s.Sound) (serves : Serves s s' id c) : s'.Sound := by
  have client := serves.spares.client
  refine ⟨serves.unshared, ?_, ?_, ?_, ?_, ?_⟩
  · intro j none_
    by_cases same : j = id
    · exact same ▸ serves.unopened (same ▸ none_)
    · rw [serves.spares.session j same] at none_
      rw [serves.opening j same]
      exact sound.unopened j none_
  · intro d later
    rw [serves.sent d (Nat.ne_of_gt (Nat.lt_of_lt_of_le serves.known later))]
    exact sound.new d (Nat.le_trans serves.grown later)
  · intro j session there
    by_cases same : j = id
    · exact same ▸ serves.reached session (same ▸ there)
    · rw [serves.spares.session j same] at there
      have held := WebClient.holds_of_session there
      have other : session.connection ≠ c := fun is => serves.alone j same (is ▸ held)
      rw [client, serves.sent _ other, serves.opening j same]
      exact sound.reached j session there
  · intro d member unheld
    by_cases same : d = c
    · cases same
      exact serves.pooled member (unheld id)
    · -- a member that no session holds now was one before
      have old := (serves.members d member same).resolve_right (unheld id)
      have before : ∀ j, s.web.pool.holds j ≠ some d := by
        intro j held
        by_cases mine : j = id
        · exact same (serves.only d (mine ▸ held))
        · apply unheld j
          obtain ⟨session, there, is⟩ := WebClient.holds_iff.mp held
          exact WebClient.holds_iff.mpr
            ⟨session, (serves.spares.session j mine).trans there, is⟩
      have reusable := sound.pooled d old before
      rw [Reusable, serves.spares.connection d same (sound.exclusive.known d old), client,
        serves.sent d same]
      exact reusable
  · intro d
    by_cases same : d = c
    · exact same ▸ serves.spoken
    · rw [client, serves.sent d same]
      exact sound.spoken d

theorem sound_start (client : Client) : (start client).Sound where
  fresh _ _ := rfl
  exclusive := ResourcePool.tidy_empty.toExclusive
  unopened _ _ := rfl
  new _ _ := rfl
  reached _ _ there := by cases there
  pooled _ member := absurd member List.not_mem_nil
  spoken _ := .inl (unsecured_nil client)

variable [HeaderFind]

theorem Sound.request (sound : s.Sound) (permuted : order.Perm s.web.connections)
    (method path content : Bytes) (header : Header) :
    Sound { s with web := s.web.request method path content header order } := by
  have marks := WebClient.taken_marks permuted
  have unheld := marks.not_held sound.exclusive
  have fresh := sound.fresh _ (Nat.lt_succ_self _)
  have spares := WebClient.spares_request method path content header s.web order
  -- the connection comes out of the pool, or is a new one that has sent nothing
  have reusable : match ((s.web.taken order).2.connection (s.web.taken order).1).socket with
      | none => s.sent (s.web.taken order).1 = []
      | some _ => Secured s.web.client (s.sent (s.web.taken order).1) := by
    rcases WebClient.taken_cases s.web permuted with ⟨member, -, -, same⟩ | ⟨new, -, closed⟩
    · rw [same]
      exact sound.pooled _ member unheld
    · rw [closed, new]
      exact sound.new _ (Nat.le_refl _)
  have begun := WebClient.begun_request sound.toUnshared method path content header order
  -- a session on an open socket writes at once, and the handshake is behind it
  have reached : ∀ session,
      (s.web.request method path content header order).sessions (s.web.nextRequestId + 1) =
        some session →
      Reached s.web.client (s.sent session.connection) session.pending none := by
    intro session there
    obtain ⟨is, waits⟩ := begun.begins session there
    rw [is]
    cases socket : ((s.web.taken order).2.connection (s.web.taken order).1).socket with
    | none =>
      rw [socket] at waits reusable
      obtain ⟨response, resolves⟩ := waits
      rw [resolves]
      exact reusable
    | some opened =>
      rw [socket] at waits reusable
      obtain ⟨response, writes⟩ := waits
      rw [writes]
      exact reusable
  have unopened := sound.unopened _ fresh
  have serves : Serves s { s with web := s.web.request method path content header order }
      (s.web.nextRequestId + 1) (s.web.taken order).1 :=
    { spares := spares
      unshared := WebClient.unshared_request sound.toUnshared permuted method path content header
      alone := fun j _ => unheld j
      only := fun d held => by
        obtain ⟨session, there, -⟩ := WebClient.holds_iff.mp held
        cases fresh.symm.trans there
      known := begun.created ▸ marks.created_lt sound.exclusive
      grown := begun.created ▸ (WebClient.spares_takeConnection s.web.register order 0).2
      members := fun d member other => by
        rw [begun.connections] at member
        exact .inl (marks.mem_of_ne member other)
      opening := fun _ _ => rfl
      sent := fun _ _ => rfl
      unopened := fun _ => unopened
      reached := fun session there => by
        rw [spares.client, unopened]
        exact reached session there
      pooled := fun _ _ => by
        rw [Reusable, begun.connection, spares.client]
        exact reusable
      spoken := by
        rw [spares.client]
        exact sound.spoken _ }
  exact sound.serve serves

/-- What a completion of the base for one session leaves alone, and what it still has to say of
the session and of its connection. -/
theorem Sound.complete (sound : s.Sound) (permuted : order.Perm s.web.connections)
    (here : s.web.sessions id = some session) {ec : Option ErrorCode} {socket : Socket}
    (completed : s.web.complete id ec socket order = some s'.web)
    (opening : ∀ j, j ≠ id → s'.opening j = s.opening j)
    (sent : ∀ d, d ≠ session.connection → s'.sent d = s.sent d)
    (unopened : s'.web.sessions id = none → s'.opening id = none)
    (reached : ∀ t, s'.web.sessions id = some t →
      Reached s.web.client (s'.sent t.connection) t.pending (s'.opening id))
    (pooled : session.connection ∈ s'.web.connections →
      s'.web.pool.holds id ≠ some session.connection → s'.Reusable session.connection)
    (spoken : Unsecured s.web.client (s'.sent session.connection) ∨
      Secured s.web.client (s'.sent session.connection)) : s'.Sound := by
  have held := WebClient.holds_of_session here
  have cases := WebClient.complete_cases here completed
  have known := (sound.exclusive.held id _ held).1
  have pools := cases.members permuted here
  -- the base serves this session only; what was sent is up to the caller
  have serves : Serves s s' id session.connection :=
    { spares := cases.spares
      unshared := WebClient.unshared_complete sound.toUnshared permuted completed
      alone := fun j other also => other (sound.exclusive.unshared j id _ also held)
      only := fun d also => Option.some.inj (also.symm.trans held)
      known := Nat.lt_of_lt_of_le known pools.1
      grown := pools.1
      members := fun d member _ => pools.2 d member
      opening := opening
      sent := sent
      unopened := unopened
      reached := cases.spares.client ▸ reached
      pooled := pooled
      spoken := cases.spares.client ▸ spoken }
  exact sound.serve serves

/-- A session fails, on its way to the handshake or elsewhere. -/
theorem Sound.fail (sound : s.Sound) (permuted : order.Perm s.web.connections)
    (here : s.web.sessions id = some session) {ec : Option ErrorCode} {socket : Socket}
    {code : ErrorCode}
    (completed : s.web.complete id ec socket order = some (s.fail order id session code).web) :
    (s.fail order id session code).Sound := by
  apply sound.complete permuted here completed
  · exact fun j other => Function.update_of_ne other _ _
  · exact fun _ _ => rfl
  · exact fun _ => Function.update_self ..
  · intro t there
    cases (WebClient.callback_sessions _ _ _ _ _).symm.trans there
  · exact fun member => absurd member (WebClient.not_mem_callback _ _ _ _ _)
  · exact sound.spoken _

omit [HeaderFind] in
/-- An operation on the way to the handshake is followed by the next one. -/
theorem Sound.advance (sound : s.Sound) (here : s.web.sessions id = some session)
    {opening : OpeningStep} (waits : s.opening id = some opening) {sent : Sent}
    {next : Option OpeningStep} (advances : Advances s.web.client opening sent next) :
    ((s.send session.connection sent).await id next).Sound := by
  have held := WebClient.holds_of_session here
  have before := sound.reached id session here
  rw [waits] at before
  have reached := advances.reached before
  have serves : Serves s ((s.send session.connection sent).await id next) id session.connection :=
    { spares := Spares.refl _ _ _
      unshared := sound.toUnshared
      alone := fun j other also => other (sound.exclusive.unshared j id _ also held)
      only := fun d also => Option.some.inj (also.symm.trans held)
      known := (sound.exclusive.held id _ held).1
      grown := Nat.le_refl _
      members := fun d member _ => .inl member
      opening := fun j other => Function.update_of_ne other _ _
      sent := fun d other => Function.update_of_ne other _ _
      unopened := fun none_ => by cases here.symm.trans none_
      reached := fun t there => by
        cases here.symm.trans there
        rw [await_opening]
        change Reached _ ((s.send session.connection sent).sent session.connection) _ next
        rw [send_sent]
        exact reached
      pooled := fun _ unheld => absurd held unheld
      spoken := by
        change Unsecured _ ((s.send session.connection sent).sent session.connection) ∨
          Secured _ ((s.send session.connection sent).sent session.connection)
        rw [send_sent]
        exact reached.spoken }
  exact sound.serve serves

/-- A session of the base that waits for the next operation, on the same connection. -/
theorem Sound.awaits (sound : s.Sound) (permuted : order.Perm s.web.connections)
    (here : s.web.sessions id = some session) {ec : Option ErrorCode} {socket : Socket}
    (completed : s.web.complete id ec socket order = some s'.web) {pending : Pending}
    (waits : s'.web.sessions id = some { session with pending })
    (opening : ∀ j, j ≠ id → s'.opening j = s.opening j)
    (sent : ∀ d, d ≠ session.connection → s'.sent d = s.sent d)
    (reached : Reached s.web.client (s'.sent session.connection) pending (s'.opening id)) :
    s'.Sound := by
  apply sound.complete permuted here completed opening sent
  · intro none_
    cases waits.symm.trans none_
  · intro t there
    cases waits.symm.trans there
    exact reached
  · exact fun _ unheld => absurd (WebClient.holds_of_session waits) unheld
  · exact reached.spoken

/-- A session that waits for an operation of the base. -/
theorem sound_base (sound : s.Sound) (permuted : order.Perm s.web.connections)
    (here : s.web.sessions id = some session) (closed : s.opening id = none)
    {ec : Option ErrorCode} {socket : Socket}
    (completed : s.complete id ec socket order = some s') : s'.Sound := by
  have before := sound.reached id session here
  rw [closed] at before
  simp only [complete, here, closed] at completed
  obtain ⟨web, completes, is⟩ := Option.map_eq_some_iff.mp completed
  have old := (sound.exclusive.held id _ (WebClient.holds_of_session here)).1
  -- the operations in front of the reads end with an error in the same way
  have fails : ∀ code, web = (s.web.count id).callback order id session (.error code) →
      Sound { s with web } := by
    intro code called
    have same : s.fail order id session code = { s with web } := by
      rw [SecureClient.fail, await, called, ← closed, Function.update_eq_self]
    rw [← same]
    apply sound.fail permuted here
    rw [same]
    exact completes
  cases waits : session.pending with
  | read step =>
    rw [waits] at is before
    cases is
    have readOn := WebClient.readOn_complete sound.toUnshared here waits completes
    apply sound.complete permuted here (show _ = some { s with web }.web from completes)
    · exact fun _ _ => rfl
    · exact fun _ _ => rfl
    · exact fun _ => closed
    · intro t there
      rw [closed]
      rcases readOn.goesOn t there with ⟨same, step, reads⟩ | ⟨new, response, resolves⟩
      · rw [same, reads]
        exact before
      · rw [new, resolves]
        exact sound.new _ (Nat.le_refl _)
    · intro _ _
      obtain ⟨opened, socket_⟩ := Option.isSome_iff_exists.mp readOn.open_
      rw [Reusable]
      simp only [socket_]
      rw [(WebClient.complete_cases here completes).spares.client]
      exact before
    · exact .inr before
  | resolve response =>
    rw [waits] at is before
    have same := completes
    simp only [WebClient.complete, here, waits] at same
    cases ec with
    | some code =>
      cases is
      exact fails code (Option.some.inj same).symm
    | none =>
      cases is
      cases same
      apply sound.awaits permuted here completes (WebClient.await_sessions ..)
      · exact fun _ _ => rfl
      · exact fun _ _ => rfl
      · rw [closed]
        exact before
  | connect response =>
    rw [waits] at is before
    have same := completes
    simp only [WebClient.complete, here, waits] at same
    cases ec with
    | some code =>
      cases is
      exact fails code (Option.some.inj same).symm
    | none =>
      cases is
      cases same
      change (afterConnect id _).Sound
      rw [afterConnect]
      split
      next proxied =>
        apply sound.awaits permuted here completes (WebClient.await_sessions ..)
        · exact fun j other => Function.update_of_ne other _ _
        · exact fun _ _ => rfl
        · rw [await_opening]
          exact ⟨proxied, before⟩
      next direct =>
        apply sound.awaits permuted here completes (WebClient.await_sessions ..)
        · exact fun j other => Function.update_of_ne other _ _
        · exact fun _ _ => rfl
        · rw [await_opening]
          exact tunnel_of_direct (not_not.mp direct) before
  | write response =>
    rw [waits] at is before
    have same := completes
    simp only [WebClient.complete, here, waits] at same
    cases ec with
    | some code =>
      cases is
      exact fails code (Option.some.inj same).symm
    | none =>
      cases is
      cases same
      apply sound.awaits permuted here completes (WebClient.await_sessions ..)
      · exact fun _ _ => rfl
      · exact fun d other => Function.update_of_ne other _ _
      · obtain ⟨tunnel, requests, opened, sent⟩ := before
        rw [send_sent]
        change Reached _ (s.sent session.connection ++ _) _ (s.opening id)
        rw [closed, sent]
        exact ⟨tunnel, requests ++ [session.requestStreambuf], opened, by simp⟩

omit [HeaderFind] in
theorem web_afterConnect (s : SecureClient) (id : Nat) : (s.afterConnect id).web = s.web := by
  unfold afterConnect
  split <;> rfl

/-- A failure on the way to the handshake is, for the base, a write that fails. -/
theorem complete_fail (here : s.web.sessions id = some session) {opening : OpeningStep}
    (sound : s.Sound) (waits : s.opening id = some opening) (code : ErrorCode) (socket : Socket)
    (order : List Nat) :
    s.web.complete id (some code) socket order = some (s.fail order id session code).web := by
  have before := sound.reached id session here
  rw [waits] at before
  obtain ⟨response, writes⟩ := before.writes
  simp only [WebClient.complete, here, writes]
  rfl

omit [HeaderFind] in
theorem Sound.stop (sound : s.Sound) : Sound { s with web := s.web.stop } := by
  unfold WebClient.stop
  split
  · have cleared := (ResourcePool.tidy_clear sound.exclusive).toExclusive
    exact ⟨⟨sound.fresh, cleared⟩, sound.unopened, sound.new, sound.reached,
      fun _ member => absurd member List.not_mem_nil, sound.spoken⟩
  · exact sound

theorem sound_step (s : SecureClient) (a : PoolAction) (s' : SecureClient) (sound : s.Sound)
    (stepped : s.step a = some s') : s'.Sound := by
  cases a with
  | stop =>
    obtain ⟨web, stopped, rfl⟩ := Option.map_eq_some_iff.mp stepped
    simp only [WebClient.poolStep, Option.ite_none_left_eq_some, Option.some.injEq] at stopped
    rw [← stopped.2]
    exact sound.stop
  | act a =>
    cases a with
    | request method path content header order =>
      obtain ⟨web, asked, rfl⟩ := Option.map_eq_some_iff.mp stepped
      simp only [WebClient.poolStep, WebClient.step, Option.ite_none_left_eq_some,
        Option.ite_none_right_eq_some, Option.some.injEq] at asked
      obtain ⟨-, permuted, rfl⟩ := asked
      exact sound.request permuted method path content header
    | complete id ec socket order =>
      simp only [step, Option.ite_none_left_eq_some, Option.ite_none_right_eq_some] at stepped
      obtain ⟨-, ⟨permuted, -⟩, completed⟩ := stepped
      cases here : s.web.sessions id with
      | none => simp [complete, here] at completed
      | some session =>
        cases waits : s.opening id with
        -- an operation of the base, or one on the way to the handshake
        | none => exact sound_base sound permuted here waits completed
        | some opening =>
          simp only [complete, here, waits] at completed
          rcases completeOpening_cases completed with ⟨code, rfl⟩ | ⟨sent, next, advances, rfl⟩
          · exact sound.fail permuted here (complete_fail here sound waits code socket order)
          · exact sound.advance here waits advances

/-! ### Over all runs -/

/-- The session writes its request or reads the response. -/
def Transfers (s : SecureClient) (id : Nat) (session : Session) : Prop :=
  match session.pending with
  | .resolve _ | .connect _ => False
  | .write _ => s.opening id = none
  | .read _ => True

/-- On every socket come the tunnel, if there is a proxy, the handshake and the requests, in this
order, and a session that writes or reads does it behind the handshake. -/
structure SpeaksSecurely (s : SecureClient) (client : Client) : Prop where
  spoken : ∀ c, Unsecured client (s.sent c) ∨ Secured client (s.sent c)
  transfers : ∀ id session, s.web.sessions id = some session → s.Transfers id session →
    Secured client (s.sent session.connection)

/-- A step is one of the base, or an operation on the way to the handshake that the base does not
see, or one that fails. -/
theorem mirrors_step {a : PoolAction} (sound : s.Sound) (stepped : s.step a = some s') :
    s.web.poolStep a = some s'.web ∨
      ∃ id ec socket order, a = .act (.complete id ec socket order) ∧
        (s'.web = s.web ∨
          ∃ code, s.web.poolStep (.act (.complete id (some code) socket order)) = some s'.web) := by
  cases a with
  | stop =>
    obtain ⟨web, stopped, rfl⟩ := Option.map_eq_some_iff.mp stepped
    exact .inl stopped
  | act a =>
    cases a with
    | request method path content header order =>
      obtain ⟨web, asked, rfl⟩ := Option.map_eq_some_iff.mp stepped
      exact .inl asked
    | complete id ec socket order =>
      simp only [step, Option.ite_none_left_eq_some, Option.ite_none_right_eq_some] at stepped
      obtain ⟨lives, runs, completed⟩ := stepped
      have unfolded : ∀ ec, s.web.poolStep (.act (.complete id ec socket order)) =
          s.web.complete id ec socket order := by
        intro ec
        simp only [WebClient.poolStep, WebClient.step, if_neg lives, if_pos runs]
      cases here : s.web.sessions id with
      | none => simp [complete, here] at completed
      | some session =>
        simp only [complete, here] at completed
        cases waits : s.opening id with
        | none =>
          -- an operation on the way to the handshake changes nothing of the base, unless it fails
          left
          simp only [waits] at completed
          obtain ⟨web, completes, rfl⟩ := Option.map_eq_some_iff.mp completed
          rw [unfolded, completes]
          split
          · rw [web_afterConnect]
          · rfl
          · rfl
        | some opening =>
          right
          refine ⟨id, ec, socket, order, rfl, ?_⟩
          simp only [waits] at completed
          rcases completeOpening_cases completed with ⟨code, rfl⟩ | ⟨sent, next, -, rfl⟩
          · exact .inr ⟨code, by rw [unfolded, complete_fail here sound waits]⟩
          · exact .inl rfl

theorem client_step {a : PoolAction} (sound : s.Sound) (stepped : s.step a = some s') :
    s'.web.client = s.web.client := by
  rcases mirrors_step sound stepped with same | ⟨id, ec, socket, order, -, same | ⟨code, fails⟩⟩
  · exact WebClient.client_poolStep same
  · rw [same]
  · exact WebClient.client_poolStep fails

/-- In every interleaving of requests, completions and `stop`, and whatever the proxy and the
server send. -/
theorem requests_are_secured (client : Client) {acts : List PoolAction}
    (visited : Visits step (start client) acts s) : s.SpeaksSecurely client := by
  obtain ⟨sound, same⟩ : s.Sound ∧ s.web.client = { client with socketType := .https } := by
    apply visited.invariant _ ⟨sound_start client, rfl⟩
    intro s a s' ⟨sound, same⟩ stepped
    exact ⟨sound_step s a s' sound stepped, (client_step sound stepped).trans same⟩
  have spoken := sound.spoken
  rw [same] at spoken
  refine ⟨spoken, fun id session there transfers => ?_⟩
  have reached := sound.reached id session there
  rw [same] at reached
  unfold Transfers at transfers
  cases waits : session.pending with
  | resolve | connect =>
    -- `Reached` says of each operation what has been sent before it
    rw [waits] at transfers
    exact transfers.elim
  | write response =>
    rw [waits] at transfers reached
    rw [transfers] at reached
    exact reached
  | read step =>
    rw [waits] at reached
    cases opening : s.opening id with
    | none =>
      rw [opening] at reached
      exact reached
    | some opening_ =>
      rw [opening] at reached
      exact reached.elim

/-- A request that goes to a proxy, up to the proxy's answer. -/
private def overProxy (answer : List Bytes) : List PoolAction :=
  let done : PoolAction := .act (.complete 1 none ⟨[], none⟩ [0])
  [.act (.request (ascii "GET") (ascii "/") [] [] []), done, done, done,
    .act (.complete 1 none ⟨answer, none⟩ [0])]

private def granted : List PoolAction :=
  overProxy [ascii "HTTP/1.1 200 OK\r\n", ascii "\r\n"] ++
    List.replicate 2 (.act (.complete 1 none ⟨[], none⟩ [0]))

private def proxied : Client :=
  ⟨⟨ascii "a.org", 443, ascii "proxy:3128", 999⟩, ascii "a.org", 443, 443, .https⟩

omit [HeaderFind] in
/-- The answer of the proxy comes in two pieces. -/
theorem requests_are_secured_proxied :
    ∃ s, run (@step findFirst) (start proxied) granted = some s ∧
      s.sent 0 = [.plain (ascii "CONNECT a.org:443 HTTP/1.1\r\nHost: a.org:443\r\n\r\n"),
        .tunnelled (ascii "200 OK"), .handshake,
        .request (ascii "GET / HTTP/1.1\r\nHost: a.org\r\n\r\n")] ∧
      s.SpeaksSecurely proxied := by
  have ran : (run (@step findFirst) (start proxied) granted).map (fun s => s.sent 0) =
      some [.plain (ascii "CONNECT a.org:443 HTTP/1.1\r\nHost: a.org:443\r\n\r\n"),
        .tunnelled (ascii "200 OK"), .handshake,
        .request (ascii "GET / HTTP/1.1\r\nHost: a.org\r\n\r\n")] := by
    decide +kernel
  obtain ⟨s, is, sent⟩ := Option.map_eq_some_iff.mp ran
  have visited : Visits (@step findFirst) (start proxied) granted s := visits_of_run is
  exact ⟨s, is, sent, @requests_are_secured _ findFirst proxied _ visited⟩

/-- The actions of a plain client that does the same: an operation on the way to the handshake is
no action of it, or fails. -/
inductive Mirrors : List PoolAction → List PoolAction → Prop where
  | nil : Mirrors [] []
  | same (a : PoolAction) {plain acts : List PoolAction} (rest : Mirrors plain acts) :
    Mirrors (a :: plain) (a :: acts)
  | opening (id : Nat) (ec : Option ErrorCode) (socket : Socket) (order : List Nat)
    {plain acts : List PoolAction} (rest : Mirrors plain acts) :
    Mirrors plain (.act (.complete id ec socket order) :: acts)
  | failing (id : Nat) (code : ErrorCode) (ec : Option ErrorCode) (socket : Socket)
    (order : List Nat) {plain acts : List PoolAction} (rest : Mirrors plain acts) :
    Mirrors (.act (.complete id (some code) socket order) :: plain)
      (.act (.complete id ec socket order) :: acts)

/-- All that the base keeps is in every run what it is in a run of the plain client, apart from the
texts of the requests, and these too if there is no proxy. -/
theorem mirrors_plain (client : Client) {acts : List PoolAction}
    (ran : run step (start client) acts = some s) :
    ∃ plain w, Mirrors plain acts ∧
      run WebClient.poolStep (WebClient.start client.plain) plain = some w ∧
      s.web.tell (fun _ => []) = w.tell (fun _ => []) ∧
      (client.config.proxyServer = [] →
        s.web.tell (fun text => text) = w.tell (fun text => text)) := by
  have general : ∀ s₀ : SecureClient, s₀.Sound → run step s₀ acts = some s →
      ∃ plain, Mirrors plain acts ∧ run WebClient.poolStep s₀.web plain = some s.web := by
    clear ran
    induction acts with
    | nil =>
      rintro s₀ - ran
      cases ran
      exact ⟨[], .nil, rfl⟩
    | cons a acts ih =>
      intro s₀ sound ran
      obtain ⟨s₁, stepped, rest⟩ := Option.bind_eq_some_iff.mp ran
      obtain ⟨plain, mirrors, plainRan⟩ := ih s₁ (sound_step _ _ _ sound stepped) rest
      rcases mirrors_step sound stepped with
        same | ⟨id, ec, socket, order, rfl, same | ⟨code, fails⟩⟩
      · exact ⟨a :: plain, .same a mirrors, by rw [run_cons, same]; exact plainRan⟩
      · exact ⟨plain, .opening id ec socket order mirrors, same ▸ plainRan⟩
      · exact ⟨_, .failing id code ec socket order mirrors, by
          rw [run_cons, fails]
          exact plainRan⟩
  obtain ⟨plain, mirrors, based⟩ := general _ (sound_start client) ran
  -- the base of the one type runs like that of the other
  have alike (told : Bytes → Bytes) (tells : WebClient.Tells told (start client).web.client) :
      ∃ w, run WebClient.poolStep (WebClient.start client.plain) plain = some w ∧
        w.tell told = s.web.tell told := by
    have runs := WebClient.tell_run tells plain
    rw [based] at runs
    exact Option.map_eq_some_iff.mp runs.symm
  obtain ⟨w, plainRan, same⟩ := alike _ (WebClient.tells_nothing _)
  refine ⟨plain, w, mirrors, plainRan, same.symm, fun direct => ?_⟩
  obtain ⟨w', plainRan', all⟩ := alike _ (WebClient.tells_all direct)
  rw [plainRan, Option.some.injEq] at plainRan'
  rw [plainRan']
  exact all.symm

omit [HeaderFind] in
/-- The proxy asks for a password: the session has failed, and its connection is gone. -/
theorem mirrors_plain_denied :
    ∃ s, run (@step findFirst) (start proxied)
        (overProxy [ascii "HTTP/1.1 407 \r\n\r\n"]) = some s ∧
      s.web.connections = [] ∧ (s.web.answers.map fun answer => (answer.1, answer.2.isOk)) =
        [(1, false)] ∧
      ∃ plain w, Mirrors plain (overProxy [ascii "HTTP/1.1 407 \r\n\r\n"]) ∧
        run (@WebClient.poolStep findFirst) (WebClient.start proxied.plain) plain = some w ∧
        s.web.tell (fun _ => []) = w.tell (fun _ => []) := by
  have ran : (run (@step findFirst) (start proxied)
      (overProxy [ascii "HTTP/1.1 407 \r\n\r\n"])).map
        (fun s => (s.web.connections, s.web.answers.map fun answer => (answer.1, answer.2.isOk))) =
      some ([], [(1, false)]) := by decide +kernel
  obtain ⟨s, is, fields⟩ := Option.map_eq_some_iff.mp ran
  obtain ⟨connections, answers⟩ := Prod.mk.injEq .. ▸ fields
  obtain ⟨plain, w, mirrors, plainRan, same, -⟩ := @mirrors_plain _ findFirst proxied _ is
  exact ⟨s, is, connections, answers, plain, w, mirrors, plainRan, same⟩

end SecureClient

end ServerLib.Web
