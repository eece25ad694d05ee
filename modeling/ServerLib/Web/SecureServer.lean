import ServerLib.Web.ServerSessions

/-!
# `server_impl<HTTPS>`

The server of the other protocol has an `accept` of its own: behind an accepted connection comes
the handshake, and it is the handler of the handshake that reads. The rest is the base's.

While a handshake is under way the model of the base has the session wait for the read that comes
behind it. The bytes of a socket are those inside of TLS.
-/
namespace ServerLib.Web

open Network (Bytes)
open Transition

/-- What happens to the sessions of the base, or a handshake completes. -/
inductive SecureAction where
  | act (a : SessionAction)
  | handshaken (i : Nat) (ec : Option ErrorCode)

structure SecureServer where
  web : ServerSessions := {}
  /-- the connections whose handshake has succeeded -/
  secured : Nat → Bool := fun _ => false

namespace SecureServer

/-- The handler of `async_handshake`. -/
def afterHandshake (s : SecureServer) (i connection id : Nat) (ec : Option ErrorCode) :
    SecureServer :=
  if s.web.stopped then { s with web := s.web.without i }
  else
    match ec with
    -- `read(session)`
    | none => { s with secured := Function.update s.secured connection true }
    | some ec => { s with web := (s.web.without i).report id ec }

/-- The read has not been started. -/
def awaitsHandshake (s : SecureServer) : SessionAction → Bool
  | .received i =>
    match s.web.tasks[i]? with
    | some (.read connection _ _) => !s.secured connection
    | _ => false
  | _ => false

variable {η : Type} [HeaderFind] [RegexMatch]

def step (server : Server η) (s : SecureServer) : SecureAction → Option SecureServer
  | .act a =>
    if s.awaitsHandshake a then none
    else (s.web.step server a).map fun web => { s with web }
  | .handshaken i ec =>
    match s.web.tasks[i]? with
    | some (.read connection id _) =>
      if s.secured connection then none else some (s.afterHandshake i connection id ec)
    | _ => none

end SecureServer

/-! ### Connections that nothing has been read from -/

namespace ServerSessions

variable {η : Type} [HeaderFind] [RegexMatch] {server : Server η} {config : ServerConfig}
  {s s' : ServerSessions} {c : Nat}

/-- A task before the first byte of a connection. -/
def Initial (config : ServerConfig) (task : ServerTask) : Prop :=
  task = .accept task.connection ∨
    ∃ id, task = .read task.connection id (.readHeader (.new config))

/-- No request of the connection has been read or given to a callback, and nothing has been
sent. -/
structure Unserved (config : ServerConfig) (s : ServerSessions) (c : Nat) : Prop where
  ended : s.ended c = []
  called : s.called c = []
  sent : s.sent c = []
  initial : ∀ task ∈ s.tasks, task.connection = c → Initial config task

omit [HeaderFind] [RegexMatch]

/-- Nothing changes for the connection, and no task comes. -/
theorem Unserved.congr (unserved : s.Unserved config c) (ended : s'.ended c = s.ended c)
    (called : s'.called c = s.called c) (sent : s'.sent c = s.sent c)
    (tasks : s'.tasks ⊆ s.tasks) : s'.Unserved config c where
  ended := ended.trans unserved.ended
  called := called.trans unserved.called
  sent := sent.trans unserved.sent
  initial task there := unserved.initial task (tasks there)

theorem Unserved.add (unserved : s.Unserved config c) (task : ServerTask)
    (fits : task.connection ≠ c ∨ Initial config task) : (s.add task).Unserved config c where
  ended := unserved.ended
  called := unserved.called
  sent := unserved.sent
  initial := by
    intro t there here
    rcases List.mem_append.mp there with old | new
    · exact unserved.initial t old here
    · obtain rfl := List.mem_singleton.mp new
      exact fits.resolve_left fun other => other here

theorem Unserved.without (unserved : s.Unserved config c) (i : Nat) :
    (s.without i).Unserved config c :=
  unserved.congr rfl rfl rfl List.eraseIdx_subset

theorem Unserved.send (unserved : s.Unserved config c) {other : Nat} (elsewhere : other ≠ c)
    (id : Nat) (text : Bytes) : (s.send other id text).Unserved config c :=
  unserved.congr rfl rfl (Function.update_of_ne elsewhere.symm _ _) (List.Subset.refl _)

theorem Unserved.report (unserved : s.Unserved config c) (id : Nat) (ec : ErrorCode) :
    (s.report id ec).Unserved config c :=
  unserved.congr rfl rfl rfl (List.Subset.refl _)

theorem Unserved.note (unserved : s.Unserved config c) {other : Nat} (elsewhere : other ≠ c)
    (id : Nat) (step : ServerStep) : (s.note other id step).Unserved config c := by
  unfold ServerSessions.note
  split
  · exact unserved
  · exact unserved.congr (Function.update_of_ne elsewhere.symm _ _) rfl rfl (List.Subset.refl _)

theorem Unserved.accept (unserved : s.Unserved config c) : s.accept.Unserved config c := by
  unfold ServerSessions.accept
  apply Unserved.add
  · exact unserved.congr rfl rfl rfl (List.Subset.refl _)
  · exact .inr (.inl rfl)

theorem Unserved.read (unserved : s.Unserved config c) (connection : Nat) :
    (s.read config connection).Unserved config c := by
  unfold ServerSessions.read
  apply Unserved.add
  · exact unserved.congr rfl rfl rfl (List.Subset.refl _)
  · exact .inr (.inr ⟨_, rfl⟩)

theorem Unserved.afterAccept (unserved : s.Unserved config c) (connection : Nat)
    (ec : Option ErrorCode) (socket : Socket) :
    (s.afterAccept config connection ec socket).Unserved config c := by
  unfold ServerSessions.afterAccept
  split
  · exact unserved
  · cases ec with
    | none =>
      apply Unserved.read
      exact unserved.accept.congr rfl rfl rfl (List.Subset.refl _)
    | some ec =>
      dsimp only
      apply Unserved.report
      split
      · exact unserved.congr rfl rfl rfl (List.Subset.refl _)
      · exact unserved.accept.congr rfl rfl rfl (List.Subset.refl _)

/-- A task of another connection than `c`: the response that is held is none of `c`'s. -/
theorem Unserved.held (unserved : s.Unserved config c) {i : Nat} {r : HeldResponse}
    (here : s.tasks[i]? = some (.respond r) ∨ s.tasks[i]? = some (.write r)) :
    r.connection ≠ c := by
  intro same
  rcases here with here | here
  all_goals
    rcases unserved.initial _ (List.mem_of_getElem? here) same with is | ⟨id, is⟩
    · cases is
    · cases is

variable [HeaderFind] [RegexMatch]

theorem Unserved.goOn (unserved : s.Unserved config c) (server : Server η) {connection : Nat}
    (other : connection ≠ c) (id : Nat) (step : ServerStep) :
    (s.goOn server connection id step).Unserved config c := by
  unfold ServerSessions.goOn
  split
  · exact unserved.add _ (.inl other)
  · split
    · apply Unserved.add
      · exact unserved.congr rfl (Function.update_of_ne other.symm _ _) rfl (List.Subset.refl _)
      · exact .inl other
    · split
      · exact ((unserved.send other _ _).add (.refuse connection id) (.inl other)).report _ _
      · exact unserved.report _ _
    · exact unserved
    · exact unserved

/-- A step of the base serves no connection that it does not read from. -/
theorem Unserved.step {a : SessionAction} (unserved : s.Unserved server.config c)
    (unread : ∀ i, a = .received i → ∀ id step, s.tasks[i]? ≠ some (.read c id step))
    (stepped : s.step server a = some s') : s'.Unserved server.config c := by
  -- a response that is held is one of another connection
  have other {i : Nat} {r : HeldResponse} (here : s.tasks[i]? = some (.respond r)) :
      r.connection ≠ c := unserved.held (.inl here)
  cases stepped_of_step stepped with
  | arrive connection socket => exact unserved.congr rfl rfl rfl (List.Subset.refl _)
  | accepted ec socket here => exact (unserved.without _).afterAccept _ ec socket
  | @received i connection id step t socket here turn =>
    -- so is what is read
    have elsewhere : connection ≠ c := by
      rintro rfl
      exact unread i rfl id step here
    have left : ({ s.without i with
        socket := Function.update (s.without i).socket connection socket } :
        ServerSessions).Unserved server.config c :=
      (unserved.without i).congr rfl rfl rfl (List.Subset.refl _)
    unfold afterRead
    dsimp only
    split
    · exact left
    · exact (left.note elsewhere id t.step).goOn server elsewhere id t.step
  | post code content header here is =>
    have elsewhere := other here
    apply Unserved.add
    · exact (unserved.without _).congr rfl rfl rfl (List.Subset.refl _)
    · exact .inl elsewhere
  | closeAfterResponse here =>
    have elsewhere := other here
    exact (unserved.without _).add _ (.inl elsewhere)
  | returned here inside =>
    have elsewhere := other here
    exact (unserved.without _).add _ (.inl elsewhere)
  | thrown here inside =>
    have elsewhere := other here
    exact ((unserved.without _).report _ _).add _ (.inl elsewhere)
  | release here outside =>
    have elsewhere := other here
    exact ((unserved.without _).send elsewhere _ _).add _ (.inl elsewhere)
  | @written i r ec here =>
    unfold afterWrite
    split
    · exact unserved.without i
    · cases ec with
      | none =>
        dsimp only
        split
        · exact (unserved.without i).read r.connection
        · exact unserved.without i
      | some ec => exact (unserved.without i).report _ _
  | refused ec here => exact unserved.without _
  | stop => exact unserved.congr rfl rfl rfl (List.Subset.refl _)

end ServerSessions

/-! ### Every run -/

namespace SecureServer

variable {η : Type} [HeaderFind] [RegexMatch] {server : Server η} {s s' : SecureServer} {c : Nat}

omit [HeaderFind] [RegexMatch] in
/-- A handshake completes: the session waits for its read, or it is gone. -/
theorem afterHandshake_web (s : SecureServer) (i connection id : Nat) (ec : Option ErrorCode) :
    (s.afterHandshake i connection id ec).web = s.web ∨
      (s.afterHandshake i connection id ec).web = s.web.without i ∨
      ∃ e, (s.afterHandshake i connection id ec).web = (s.web.without i).report id e := by
  unfold afterHandshake
  split
  · exact .inr (.inl rfl)
  · cases ec with
    | none => exact .inl rfl
    | some ec => exact .inr (.inr ⟨ec, rfl⟩)

omit [HeaderFind] [RegexMatch] in
theorem afterHandshake_secured {i connection id : Nat} {ec : Option ErrorCode}
    (unsecured : (s.afterHandshake i connection id ec).secured c = false) :
    s.secured c = false := by
  unfold afterHandshake at unsecured
  split at unsecured
  · exact unsecured
  · cases ec with
    | none =>
      dsimp only at unsecured
      by_cases same : c = connection
      · subst same
        rw [Function.update_self] at unsecured
        cases unsecured
      · rwa [Function.update_of_ne same] at unsecured
    | some ec => exact unsecured

/-- The sessions are sound, and those of a connection without a handshake have not begun. -/
structure Sound (server : Server η) (s : SecureServer) : Prop where
  web : s.web.Sound none
  handed : ∀ c, s.web.Handed server c
  unserved : ∀ c, s.secured c = false → s.web.Unserved server.config c

theorem sound_start : Sound server {} where
  web := ServerSessions.sound_start
  handed _ := rfl
  unserved c _ :=
    { ended := rfl
      called := rfl
      sent := rfl
      initial := by
        intro task there here
        obtain rfl := List.mem_singleton.mp there
        exact .inl rfl }

omit [HeaderFind] [RegexMatch] in
/-- What is read from has been secured. -/
theorem secured_of_received {a : SessionAction} (begun : s.awaitsHandshake a = false)
    (unsecured : s.secured c = false) (i : Nat) (received : a = .received i) (id : Nat)
    (step : ServerStep) : s.web.tasks[i]? ≠ some (.read c id step) := by
  intro here
  rw [received, awaitsHandshake, here] at begun
  exact Bool.noConfusion (begun.symm.trans (congrArg not unsecured))

theorem sound_step (server : Server η) (s : SecureServer) (a : SecureAction) (s' : SecureServer)
    (sound : s.Sound server) (stepped : s.step server a = some s') : s'.Sound server := by
  cases a with
  | act a =>
    simp only [step, Option.ite_none_left_eq_some, Bool.not_eq_true] at stepped
    obtain ⟨begun, stepped⟩ := stepped
    obtain ⟨web, moved, rfl⟩ := Option.map_eq_some_iff.mp stepped
    exact
      { web := ServerSessions.sound_step server s.web a web sound.web moved
        handed := ServerSessions.handed_step server s.web a web sound.handed moved
        unserved := fun c unsecured =>
          (sound.unserved c unsecured).step (secured_of_received begun unsecured) moved }
  | handshaken i ec =>
    simp only [step] at stepped
    split at stepped
    next connection id step here =>
      simp only [Option.ite_none_left_eq_some, Option.some.injEq] at stepped
      obtain ⟨-, rfl⟩ := stepped
      obtain ⟨taken, turn⟩ := sound.web.without here
      have gone : (s.web.without i).Sound none := taken.finish (.idle turn)
      have before {c : Nat} (unsecured : (s.afterHandshake i connection id ec).secured c = false) :
          s.web.Unserved server.config c :=
        sound.unserved c (afterHandshake_secured unsecured)
      rcases s.afterHandshake_web i connection id ec with web | web | ⟨e, web⟩
      · exact
          { web := web ▸ sound.web
            handed := web ▸ sound.handed
            unserved := fun c unsecured => web ▸ before unsecured }
      · exact
          { web := web ▸ gone
            handed := web ▸ sound.handed
            unserved := fun c unsecured => web ▸ (before unsecured).without i }
      · exact
          { web := web ▸ gone.report id e
            handed := web ▸ sound.handed
            unserved := fun c unsecured => web ▸ ((before unsecured).without i).report id e }
    · cases stepped

end SecureServer

end ServerLib.Web
