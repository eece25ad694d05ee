import ServerLib.Web.SessionTurns
import ServerLib.Web.WebClient

/-!
# One completion of a session's operation

A completion has one of four effects: the session waits for another operation, its callback is
called, it goes on with another connection, or an exception leaves the handler. `complete_cases`
says which, together with what the session has got in hand to go on with.
-/
namespace ServerLib.Web

theorem ClientStep.rank_le (c : ClientConfig) (step : ClientStep) :
    step.rank c ≤ 2 * c.maxResponseStreambufSize + 3 := by
  cases step with
  | readChunked message step =>
    cases step <;> simp only [rank, ChunkStep.rank] <;> omega
  | _ => simp only [rank]; omega

namespace Pending

/-- No header has been read. -/
def early : Pending → Bool
  | .read (.readHeader _) => true
  | .read _ => false
  | _ => true

/-- How many reconnects can follow. -/
def budget (k : Connection) (p : Pending) : Nat := if p.early && k.attemptReconnect then 1 else 0

/-- How many completions can follow on the same connection. -/
def depth (c : ClientConfig) : Pending → Nat
  | .resolve _ => 2 * c.maxResponseStreambufSize + 6
  | .connect _ => 2 * c.maxResponseStreambufSize + 5
  | .write _ => 2 * c.maxResponseStreambufSize + 4
  | .read step => step.rank c

/-- How many completions can follow. -/
def rank (c : ClientConfig) (k : Connection) (p : Pending) : Nat :=
  p.depth c + p.budget k * (2 * c.maxResponseStreambufSize + 6)

/-- The operation has all that its completion needs. -/
def Ready (c : ClientConfig) (k : Connection) : Pending → Prop
  | .resolve response | .connect response => response.streambuf.good
  | .write response => response.streambuf.good ∧ k.socket.isSome
  | .read step => step.isRead ∧ step.Steady c ∧ k.socket.isSome

end Pending

namespace WebClient

theorem setConnection_self (w : WebClient) (c : Nat) : w.setConnection c (w.connection c) = w := by
  rw [setConnection, Function.update_eq_self]

theorem depth_le_rank (c : ClientConfig) (k : Connection) (p : Pending) :
    p.depth c ≤ p.rank c k := Nat.le_add_right _ _

/-- An operation that is followed by another one on the way to the header. -/
theorem rank_lt_of_early {c : ClientConfig} {k k' : Connection} {p p' : Pending}
    (early : p.early) (attempt : k'.attemptReconnect = k.attemptReconnect)
    (shorter : p'.depth c < p.depth c) : p'.rank c k' < p.rank c k ∧ p'.budget k' ≤ p.budget k := by
  have budget : p'.budget k' ≤ p.budget k := by
    unfold Pending.budget
    rw [early, attempt]
    cases p'.early <;> cases k.attemptReconnect <;> simp
  exact ⟨Nat.add_lt_add_of_lt_of_le shorter (Nat.mul_le_mul_right _ budget), budget⟩

/-! ### What belongs to other requests -/

/-- How often the callback of a request has been called. -/
def answersOf (w : WebClient) (id : Nat) : Nat := w.answers.countP fun answer => answer.1 == id

/-- What a step for one request leaves alone: all that belongs to the others. The step may write
to one connection, and to those that it makes. -/
structure Spares (w w' : WebClient) (id c : Nat) : Prop where
  client : w'.client = w.client
  isRunning : w'.isRunning = w.isRunning
  requests : w.nextRequestId ≤ w'.nextRequestId
  connection : ∀ d, d ≠ c → d < w.created → w'.connection d = w.connection d
  session : ∀ j, j ≠ id → w'.sessions j = w.sessions j
  returned : ∀ j, j ≠ id → (j ∈ w'.returned ↔ j ∈ w.returned)
  registered : ∀ j, j ≠ id → j ∈ w.responseCallbacks → j ∈ w'.responseCallbacks
  answers : ∀ j, j ≠ id → w'.answersOf j = w.answersOf j
  reconnects : ∀ j, j ≠ id → w'.reconnects j = w.reconnects j
  completions : ∀ j, j ≠ id → w'.completions j = w.completions j

variable {w w' w'' : WebClient} {id c : Nat} {s : Session} {order : List Nat}

theorem Spares.refl (w : WebClient) (id c : Nat) : Spares w w id c :=
  ⟨rfl, rfl, Nat.le_refl _, fun _ _ _ => rfl, fun _ _ => rfl, fun _ _ => Iff.rfl,
    fun _ _ member => member, fun _ _ => rfl, fun _ _ => rfl, fun _ _ => rfl⟩

theorem Spares.trans (first : Spares w w' id c) (grown : w.created ≤ w'.created)
    (second : Spares w' w'' id c) : Spares w w'' id c where
  client := second.client.trans first.client
  isRunning := second.isRunning.trans first.isRunning
  requests := Nat.le_trans first.requests second.requests
  connection d other old :=
    (second.connection d other (Nat.lt_of_lt_of_le old grown)).trans (first.connection d other old)
  session j other := (second.session j other).trans (first.session j other)
  returned j other := (second.returned j other).trans (first.returned j other)
  registered j other member := second.registered j other (first.registered j other member)
  answers j other := (second.answers j other).trans (first.answers j other)
  reconnects j other := (second.reconnects j other).trans (first.reconnects j other)
  completions j other := (second.completions j other).trans (first.completions j other)

theorem spares_count (w : WebClient) (id c : Nat) : Spares w (w.count id) id c :=
  { Spares.refl w id c with completions := fun _ other => Function.update_of_ne other _ _ }

theorem spares_setConnection (w : WebClient) (id c : Nat) (k : Connection) :
    Spares w (w.setConnection c k) id c :=
  { Spares.refl w id c with connection := fun _ other _ => Function.update_of_ne other _ _ }

theorem spares_await (w : WebClient) (id c : Nat) (s : Session) (p : Pending) :
    Spares w (w.await id s p) id c :=
  { Spares.refl w id c with session := fun _ other => Function.update_of_ne other _ _ }

theorem spares_connect (w : WebClient) (id c : Nat) (s : Session) (response : Response) :
    Spares w (w.connect id s response) id c := by
  unfold connect
  split <;> exact spares_await w id c s _

theorem spares_onResponseImpl (w : WebClient) (id c : Nat) (result : Except ErrorCode Response) :
    Spares w (w.onResponseImpl id result) id c := by
  unfold onResponseImpl
  split
  · exact { Spares.refl w id c with
      registered := fun _ other member => (List.mem_erase_of_ne other).mpr member
      answers := fun j other => by
        rw [answersOf, List.countP_append, List.countP_singleton,
          if_neg (by simpa using other.symm)]
        rfl }
  · exact Spares.refl w id c

theorem spares_callback (w : WebClient) (order : List Nat) (id : Nat) (s : Session)
    (result : Except ErrorCode Response) :
    Spares w (w.callback order id s result) id s.connection := by
  have returns : Spares w (w.returnConnection order id s (!result.isOk)) id s.connection :=
    { Spares.refl w id s.connection with
      connection := fun _ other _ => Function.update_of_ne other _ _
      session := fun _ other => Function.update_of_ne other _ _ }
  exact returns.trans (Nat.le_refl _) (spares_onResponseImpl _ _ _ _)

theorem spares_reconnect (w : WebClient) (id c : Nat) (s : Session) (response : Response) :
    Spares w (w.reconnect id s response) id c := by
  let kept := { w with connections := w.connections.erase s.connection }
  let made := kept.createConnection.2.setConnection w.created
    { kept.createConnection.2.connection w.created with attemptReconnect := false, inUse := true }
  have makes : Spares w { made with
      reconnects := Function.update w.reconnects id (w.reconnects id + 1) } id c :=
    { Spares.refl w id c with
      connection := fun d _ old => by
        have other := Nat.ne_of_lt old
        exact (Function.update_of_ne other _ _).trans (Function.update_of_ne other _ _)
      reconnects := fun _ other => Function.update_of_ne other _ _ }
  exact makes.trans (Nat.le_succ _) (spares_connect _ _ _ _ _)

theorem spares_takeConnection (w : WebClient) (order : List Nat) (id : Nat) :
    Spares w (w.takeConnection order).2 id (w.takeConnection order).1 ∧
      w.created ≤ (w.takeConnection order).2.created := by
  unfold takeConnection
  cases order.find? fun c => !(w.connection c).inUse with
  | none =>
    refine ⟨{ Spares.refl w id w.created with connection := fun d other _ => ?_ }, Nat.le_succ _⟩
    exact (Function.update_of_ne other _ _).trans (Function.update_of_ne other _ _)
  | some c =>
    exact ⟨{ Spares.refl w id c with
      connection := fun _ other _ => Function.update_of_ne other _ _ }, Nat.le_refl _⟩

/-! ### What a completion does -/

/-- A session and its connection have all that the next completion needs. -/
def Ready (w : WebClient) (s : Session) : Prop :=
  s.pending.Ready w.client.config (w.connection s.connection)

def rank (w : WebClient) (s : Session) : Nat :=
  s.pending.rank w.client.config (w.connection s.connection)

def budget (w : WebClient) (s : Session) : Nat := s.pending.budget (w.connection s.connection)

variable [HeaderFind]

/-- The completion of a session's operation breaks. -/
def Breaks (w : WebClient) (s : Session) : Prop :=
  ∃ step socket, s.pending = .read step ∧ (w.connection s.connection).socket = some socket ∧
    step.Breaks socket

/-- What a completion has done. The connection is the one that the session has held. -/
inductive Completed (w : WebClient) (id : Nat) (s : Session) (order : List Nat) :
    WebClient → Prop where
  | waits (k : Connection) (p : Pending) (inUse : k.inUse = (w.connection s.connection).inUse)
      (goesOn : w.Ready s →
        p.Ready w.client.config k ∧ p.rank w.client.config k < w.rank s ∧ p.budget k ≤ w.budget s) :
      Completed w id s order (((w.count id).setConnection s.connection k).await id s p)
  | calls (k : Connection) (result : Except ErrorCode Response)
      (inUse : k.inUse = (w.connection s.connection).inUse)
      (finite : w.Ready s → 0 < w.rank s) :
      Completed w id s order
        (((w.count id).setConnection s.connection k).callback order id s result)
  | exchanges (k : Connection) (response : Response)
      (inUse : k.inUse = (w.connection s.connection).inUse)
      (goesOn : w.Ready s →
        response.streambuf.good ∧ w.budget s = 1 ∧
          2 * w.client.config.maxResponseStreambufSize + 6 < w.rank s) :
      Completed w id s order
        (((w.count id).setConnection s.connection k).reconnect id s response)
  | breaks (k : Connection) (failure : Failure)
      (inUse : k.inUse = (w.connection s.connection).inUse)
      (broken : w.Ready s → w.Breaks s) :
      Completed w id s order
        { (w.count id).setConnection s.connection k with escaped := some failure }

/-- A read that is followed by another one. -/
theorem completed_read {step next : ClientStep} {k : Connection} (reads : s.pending = .read step)
    (inUse : k.inUse = (w.connection s.connection).inUse) (open_ : k.socket.isSome)
    (spec : w.Ready s →
      next.isRead ∧ next.Steady w.client.config ∧
        next.rank w.client.config < step.rank w.client.config) :
    Completed w id s order
      (((w.count id).setConnection s.connection k).await id s (.read next)) := by
  refine .waits k _ inUse fun ready => ?_
  obtain ⟨isRead, steady, shorter⟩ := spec ready
  -- behind a read nobody waits for a header, so there is no reconnect any more
  have budget : Pending.budget k (.read next) = 0 := by
    cases next with
    | readHeader => exact absurd shorter (Nat.not_lt.mpr (step.rank_le w.client.config))
    | _ => rfl
  refine ⟨⟨isRead, steady, open_⟩, ?_, by rw [budget]; exact Nat.zero_le _⟩
  rw [rank, Pending.rank, budget, Nat.zero_mul, reads]
  exact Nat.lt_of_lt_of_le shorter (Nat.le_add_right _ _)

theorem completed_afterLost {step : ClientStep} (k : Connection) (reads : s.pending = .read step)
    (inUse : k.inUse = (w.connection s.connection).inUse) {response : Response} {ec : ErrorCode}
    (spec : w.Ready s →
      response.streambuf.good ∧ (∃ response', step = .readHeader response') ∧
        k.attemptReconnect = (w.connection s.connection).attemptReconnect)
    (finite : w.Ready s → 0 < w.rank s) :
    Completed w id s order
      (((w.count id).setConnection s.connection k).afterLost order id s response ec) := by
  have now : (((w.count id).setConnection s.connection k).connection s.connection) = k :=
    Function.update_self ..
  unfold afterLost
  rw [now]
  split
  next retries =>
    split
    · -- the one reconnect pays for all that follows on the new connection
      refine .exchanges k response inUse fun ready => ?_
      obtain ⟨good, ⟨response', rfl⟩, kept⟩ := spec ready
      have budget : w.budget s = 1 := by
        rw [WebClient.budget, Pending.budget, ← kept, retries.1, reads]
        rfl
      refine ⟨good, budget, ?_⟩
      rw [WebClient.budget] at budget
      rw [rank, Pending.rank, budget, reads]
      simp only [Pending.depth, ClientStep.rank]
      omega
    · exact .calls k _ inUse finite
  · exact .calls k _ inUse finite

/-- What a session does behind a read. -/
theorem completed_afterRead {step : ClientStep} {socket rest : Socket} {t : Turn ClientStep}
    (reads : s.pending = .read step) (is : (w.connection s.connection).socket = some socket)
    (turned : clientTurn w.client.config step socket = some (t, rest)) :
    Completed w id s order
      (((w.count id).setConnection s.connection { w.connection s.connection with
        socket := some rest
        attemptReconnect :=
          (w.connection s.connection).attemptReconnect || step.headerRead socket }).afterRead
        order id s t.step) := by
  have spec : w.Ready s →
      t.step.Steady w.client.config ∧ t.step.rank w.client.config < step.rank w.client.config ∧
        (t.step.isBroken = true ↔ step.Breaks socket) ∧
        ∀ response ec, t.step = .lost response ec →
          (∃ response', step = .readHeader response') ∧ step.headerRead socket = false := by
    intro ready
    rw [Ready, reads] at ready
    exact ClientStep.turn_spec ready.2.1 turned
  have finite : w.Ready s → 0 < w.rank s := by
    intro ready
    have below := depth_le_rank w.client.config (w.connection s.connection) s.pending
    rw [rank]
    rw [reads] at below ⊢
    exact Nat.lt_of_lt_of_le (Nat.lt_of_le_of_lt (Nat.zero_le _) (spec ready).2.1) below
  cases outcome : t.step with
  | callback result => exact .calls _ result rfl finite
  | lost response ec =>
    rw [outcome] at spec
    -- the handler has not set the flag, as there was no header
    have kept : w.Ready s →
        ((w.connection s.connection).attemptReconnect || step.headerRead socket) =
          (w.connection s.connection).attemptReconnect := by
      intro ready
      rw [((spec ready).2.2.2 response ec rfl).2, Bool.or_false]
    exact completed_afterLost { w.connection s.connection with
      socket := some rest
      attemptReconnect :=
        (w.connection s.connection).attemptReconnect || step.headerRead socket } reads rfl
      (fun ready => ⟨(spec ready).1, ((spec ready).2.2.2 response ec rfl).1, kept ready⟩) finite
  | broken failure =>
    refine .breaks _ failure rfl fun ready => ⟨step, socket, reads, is, ?_⟩
    rw [outcome] at spec
    exact (spec ready).2.2.1.mp rfl
  | readChunked message next =>
    rw [outcome] at spec
    exact completed_read reads rfl rfl fun ready =>
      ⟨(spec ready).1.1, (spec ready).1, (spec ready).2.1⟩
  | _ =>
    rw [outcome] at spec
    exact completed_read reads rfl rfl fun ready => ⟨rfl, (spec ready).1, (spec ready).2.1⟩

theorem completed_early {p : Pending} {k : Connection} (early : s.pending.early)
    (inUse : k.inUse = (w.connection s.connection).inUse)
    (attempt : k.attemptReconnect = (w.connection s.connection).attemptReconnect)
    (ready : w.Ready s → p.Ready w.client.config k)
    (shorter : p.depth w.client.config < s.pending.depth w.client.config) :
    Completed w id s order (((w.count id).setConnection s.connection k).await id s p) :=
  .waits k p inUse fun before => ⟨ready before, rank_lt_of_early early attempt shorter⟩

theorem complete_cases {ec : Option ErrorCode} {socket : Socket} (here : w.sessions id = some s)
    (completed : w.complete id ec socket order = some w') : Completed w id s order w' := by
  have unchanged := setConnection_self (w.count id) s.connection
  simp only [complete, here] at completed
  split at completed
  next step _ reads =>
    split at completed
    · cases completed
    next socket' is =>
      obtain ⟨⟨t, rest⟩, turned, same⟩ := Option.map_eq_some_iff.mp completed
      cases same
      exact completed_afterRead reads is turned
  next code others =>
    cases completed
    rw [← unchanged]
    refine .calls _ _ rfl fun _ => Nat.lt_of_lt_of_le ?_
      (depth_le_rank w.client.config (w.connection s.connection) s.pending)
    cases waits : s.pending with
    | read step => exact absurd waits (others step)
    | _ => exact Nat.succ_pos _
  next response resolves =>
    cases completed
    rw [← unchanged]
    apply completed_early <;>
      simp [resolves, Pending.early, Ready, Pending.Ready, Pending.depth, count]
  next response connects =>
    cases completed
    apply completed_early <;> simp [connects, Pending.early, Ready, Pending.Ready, Pending.depth]
  next response writes =>
    cases completed
    apply completed_early <;>
      simp +contextual [writes, Pending.early, Ready, Pending.Ready, Pending.depth,
        ClientStep.rank, ClientStep.isRead, ClientStep.Steady]

theorem escapes_of_breaks (here : w.sessions id = some s) (ready : w.Ready s)
    (breaks : w.Breaks s) (ec : Option ErrorCode) (socket : Socket) :
    ∃ w', w.complete id ec socket order = some w' ∧ w'.escaped.isSome := by
  obtain ⟨step, opened, reads, is, broken⟩ := breaks
  obtain ⟨t, rest, turned⟩ := step.exists_turn_of_breaks w.client.config broken
  -- whatever error the action brings, a read takes its own from the socket
  rw [Ready, reads] at ready
  have isBroken := (ClientStep.turn_spec ready.2.1 turned).2.2.1.mpr broken
  refine ⟨_, by simp only [complete, here, reads, is, count, turned, Option.map_some]; rfl, ?_⟩
  cases outcome : t.step with
  | broken failure => rfl
  | _ => rw [outcome] at isBroken; cases isBroken

/-- The operation of a session completes, at the latest when its socket fails. -/
theorem completes (here : w.sessions id = some s) (ready : w.Ready s)
    (ends : ∀ socket, (w.connection s.connection).socket = some socket → socket.ending.isSome)
    (ec : Option ErrorCode) (socket : Socket) : ∃ w', w.complete id ec socket order = some w' := by
  cases waits : s.pending with
  | read step =>
    rw [Ready, waits] at ready
    obtain ⟨reads, -, open_⟩ := ready
    obtain ⟨opened, is⟩ := Option.isSome_iff_exists.mp open_
    obtain ⟨code, ending⟩ := Option.isSome_iff_exists.mp (ends opened is)
    obtain ⟨⟨t, rest⟩, turned⟩ : ∃ result, clientTurn w.client.config step opened = some result :=
      ClientStep.turn_of_ending reads ending
    exact ⟨_, by simp only [complete, here, waits, is, count, turned, Option.map_some]; rfl⟩
  | _ => cases ec <;> exact ⟨_, by simp only [complete, here, waits]; rfl⟩

theorem Completed.spares (completed : Completed w id s order w') :
    Spares w w' id s.connection := by
  have begins : ∀ k, Spares w ((w.count id).setConnection s.connection k) id s.connection :=
    fun k => (spares_count w id s.connection).trans (Nat.le_refl _) (spares_setConnection _ _ _ _)
  cases completed with
  | waits k p => exact (begins k).trans (Nat.le_refl _) (spares_await _ _ _ _ _)
  | calls k result => exact (begins k).trans (Nat.le_refl _) (spares_callback _ _ _ _ _)
  | exchanges k response => exact (begins k).trans (Nat.le_refl _) (spares_reconnect _ _ _ _ _)
  | breaks k failure => exact { begins k with }

end WebClient

end ServerLib.Web
