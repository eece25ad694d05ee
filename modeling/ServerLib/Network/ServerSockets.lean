import ServerLib.Network.ServerRegistry

/-!
# The sockets of the connections

An operation is started on a socket behind the check that it is there. `disconnect` may take it in
between, unless whoever calls it knows that no operation is being started. The sockets are then
there when they are used.
-/
namespace ServerLib.Network

open Transition Threads

namespace Server

variable {s s' : Server} {i id : Nat} {frame : ServerFrame} {stack below : List ServerFrame}

theorem push_eq (here : s.threads[i]? = some stack) :
    s.push i frame = s.setStack i (frame :: stack) := by
  -- only the stack of the thread is replaced
  obtain ⟨inside, is⟩ := List.getElem?_eq_some_iff.mp here
  rw [push, setStack, List.modify_eq_set_getElem?, here]
  rfl

/-- The connection whose socket is taken by the next step of a thread. -/
def releases (s : Server) (i : Nat) : Option Nat :=
  match s.threads[i]? with
  | some (.disconnect id .releasing :: _) => some id
  | _ => none

/-- `disconnect` takes no socket that an operation is about to be started on. -/
def Unshared (s : Server) : ServerAction → Prop
  | .thread i => ∀ id ∈ s.releases i, ∀ stack ∈ s.threads, .starting id ∉ stack
  | _ => True

instance (s : Server) : (a : ServerAction) → Decidable (s.Unshared a)
  | .thread i => inferInstanceAs (Decidable (∀ id ∈ s.releases i, ∀ stack ∈ s.threads, _))
  | .newClient .. | .complete .. | .disconnect .. | .subscribe .. | .commit .. | .stop _ =>
    inferInstanceAs (Decidable True)

/-- The process is alive, and what an operation is about to be started on has its socket. -/
structure Intact (s : Server) : Prop where
  alive : s.crashed = false
  connected : ∀ stack ∈ s.threads, ∀ id, .starting id ∈ stack →
    (s.connection id).isConnected = true

namespace Intact

theorem start (workers outside : Nat) : (start workers outside).Intact := by
  refine ⟨rfl, fun stack member id starting => ?_⟩
  rw [List.eq_of_mem_replicate member] at starting
  cases starting

/-- A thread goes on, and starts operations on connected connections only. -/
theorem setStack (intact : s.Intact) (here : s.threads[i]? = some stack)
    {new : List ServerFrame} (fits : ∀ id, .starting id ∈ new →
      .starting id ∈ stack ∨ (s.connection id).isConnected = true) : (s.setStack i new).Intact := by
  refine ⟨intact.alive, fun other member id starting => ?_⟩
  rcases List.mem_or_eq_of_mem_set member with old | rfl
  · exact intact.connected other old id starting
  · rcases fits id starting with old | connected
    · exact intact.connected stack (List.mem_of_getElem? here) id old
    · exact connected

/-- It starts none. -/
theorem move (intact : s.Intact) (here : s.threads[i]? = some (frame :: below))
    (frames : List ServerFrame) (none_ : ∀ id, .starting id ∉ frames) :
    (s.setStack i (frames ++ below)).Intact := by
  apply intact.setStack here
  intro id starting
  rcases List.mem_append.mp starting with new | old
  · exact absurd new (none_ id)
  · exact .inl (List.mem_cons_of_mem frame old)

/-- What has changed of a connection is not its socket. -/
theorem setConnection (intact : s.Intact) {c : ServerConnection}
    (kept : (s.connection id).isConnected = true → c.isConnected = true) :
    (s.setConnection id c).Intact := by
  refine ⟨intact.alive, fun stack member other starting => ?_⟩
  have connected := intact.connected stack member other starting
  by_cases same : other = id
  · subst same
    rw [setConnection_self]
    exact kept connected
  · rwa [setConnection_of_ne same]

theorem setObservable (intact : s.Intact) (kind : OnDisconnect) (o : DisconnectObservable) :
    (s.setObservable id kind o).Intact :=
  intact.setConnection fun connected => connected

/-- A socket is taken that no operation is about to be started on. -/
theorem release (intact : s.Intact) (unshared : ∀ stack ∈ s.threads, .starting id ∉ stack)
    (c : ServerConnection) : (s.setConnection id c).Intact := by
  refine ⟨intact.alive, fun stack member other starting => ?_⟩
  have differs : other ≠ id := fun same => unshared stack member (same ▸ starting)
  rw [setConnection_of_ne differs]
  exact intact.connected stack member other starting

theorem onClientDisconnected (intact : s.Intact) (id : Nat) :
    (s.onClientDisconnected id).Intact := ⟨intact.alive, intact.connected⟩

/-- The same threads and connections. -/
theorem congr (intact : s.Intact) (crashed : s'.crashed = s.crashed)
    (threads : s'.threads = s.threads) (connection : s'.connection = s.connection) :
    s'.Intact := by
  refine ⟨crashed.trans intact.alive, ?_⟩
  rw [threads, connection]
  exact intact.connected

theorem push (intact : s.Intact) (fits : ∀ id, frame = .starting id →
    (s.connection id).isConnected = true) (i : Nat) : (s.push i frame).Intact := by
  cases here : s.threads[i]? with
  | none =>
    have same : (s.push i frame).threads = s.threads :=
      List.modify_eq_self (List.getElem?_eq_none_iff.mp here)
    exact intact.congr rfl same rfl
  | some stack =>
    rw [push_eq here]
    apply intact.setStack here
    intro id starting
    rcases List.mem_cons.mp starting with is | old
    · exact .inr (fits id is.symm)
    · exact .inl old

theorem asyncRead (intact : s.Intact) (here : s.threads[i]? = some (frame :: below)) (id : Nat) :
    (s.asyncRead i id below).Intact := by
  unfold Server.asyncRead
  apply intact.setStack here
  intro other starting
  split at starting
  next connected =>
    rcases List.mem_cons.mp starting with is | old
    · cases is
      exact .inr connected
    · exact .inl (List.mem_cons_of_mem frame old)
  · exact .inl (List.mem_cons_of_mem frame starting)

theorem startingStep (intact : s.Intact)
    (here : s.threads[i]? = some (.starting id :: below)) :
    (s.startingStep i id below).Intact := by
  have connected := intact.connected _ (List.mem_of_getElem? here) id List.mem_cons_self
  unfold Server.startingStep
  rw [if_pos connected]
  have started : (s.setConnection id { s.connection id with
      pending := (s.connection id).pending + 1 }).Intact :=
    intact.setConnection fun _ => connected
  exact started.move here [] (by simp)

theorem newClientStep (intact : s.Intact) {place : NewClientPlace}
    (here : s.threads[i]? = some (.onNewClient id place :: below)) :
    (s.newClientStep i id below place).Intact := by
  cases place with
  | entered observers =>
    rw [Server.newClientStep]
    split
    · exact intact.move here [_] (by simp)
    · exact intact.move here [] (by simp)
  | creating observers =>
    -- a connection that is created has its socket
    have accepted : (s.accept id).Intact :=
      Intact.congr (intact.setConnection (c := .create) fun _ => rfl) rfl rfl rfl
    exact accepted.move here [_] (by simp)
  | notifying left =>
    cases left with
    | zero => exact intact.move here [_] (by simp)
    | succ left => exact intact.move here [_, _] (by simp)
  | reading => exact intact.asyncRead here id

theorem handlerStep (intact : s.Intact) {completion : Completion}
    (here : s.threads[i]? = some (.asyncHandler id completion :: below)) :
    (s.handlerStep i id below completion).Intact := by
  have returns := intact.move here [] (by simp)
  have disconnects : (s.setStack i (.disconnect id .entered :: below)).Intact :=
    intact.move here [_] (by simp)
  unfold Server.handlerStep
  split
  · exact returns
  · cases completion with
    | failed => exact disconnects
    | written => exact returns
    | received valid units =>
      cases valid with
      | false => exact disconnects
      | true => exact intact.move here [_] (by simp)

theorem receiveStep (intact : s.Intact) {units : List Nat} {left : Nat}
    (here : s.threads[i]? = some (.onRawReceive id units left :: below)) :
    (s.receiveStep i id below units left).Intact := by
  cases left with
  | succ left => exact intact.move here [_, _] (by simp)
  | zero =>
    cases units with
    | nil => exact intact.asyncRead here id
    | cons observers units =>
      rw [Server.receiveStep]
      split
      · exact intact.move here [_] (by simp)
      · exact intact.asyncRead here id

theorem notifyStep (intact : s.Intact) {kind : OnDisconnect} {next : Nat}
    (here : s.threads[i]? = some (.disconnect id (.notifying kind next) :: below)) :
    (s.notifyStep i id below kind next).Intact := by
  have changed (o : DisconnectObservable) : (s.setObservable id kind o).Intact :=
    intact.setObservable kind o
  unfold Server.notifyStep
  dsimp only
  split
  next observer there =>
    split
    · exact ((changed _).onClientDisconnected id).move here [_] (by simp)
    · exact (changed _).move here [_, _] (by simp)
  · exact (changed _).move here [_] (by simp)

theorem disconnectStep (intact : s.Intact) {place : DisconnectPlace}
    (here : s.threads[i]? = some (.disconnect id place :: below))
    (unshared : place = .releasing → ∀ stack ∈ s.threads, .starting id ∉ stack)
    (stepped : s.disconnectStep i id below place = some s') : s'.Intact := by
  cases place with
  | entered =>
    cases stepped
    split
    · exact intact.move here [_] (by simp)
    · exact intact.move here [] (by simp)
  | stopping =>
    cases stepped
    have stopped : (s.setConnection id { s.connection id with stopped := true }).Intact :=
      intact.setConnection fun connected => connected
    exact stopped.move here [_] (by simp)
  | releasing =>
    cases stepped
    exact (intact.release (unshared rfl) _).move here [_] (by simp)
  | locking kind =>
    obtain ⟨_, is⟩ := Option.ite_none_left_eq_some.mp stepped
    cases is
    exact (intact.setObservable kind _).move here [_] (by simp)
  | notifying kind next =>
    cases stepped
    exact intact.notifyStep here
  | closing =>
    cases stepped
    exact intact.move here [] (by simp)

theorem stopStep (intact : s.Intact) {place : StopPlace}
    (here : s.threads[i]? = some (.stop place :: below))
    (stepped : s.stopStep i below place = some s') : s'.Intact := by
  cases place with
  | entered =>
    cases stepped
    split
    · have stopping : { s with isRunning := false }.Intact := intact.congr rfl rfl rfl
      exact stopping.move here [_] (by simp)
    · exact intact.move here [] (by simp)
  | joining =>
    obtain ⟨_, is⟩ := Option.ite_none_right_eq_some.mp stepped
    cases is
    have joined : { s with joined := true }.Intact := intact.congr rfl rfl rfl
    exact joined.move here [_] (by simp)
  | copying =>
    cases stepped
    exact intact.move here [_] (by simp)
  | iterating rest =>
    cases rest with
    | nil =>
      cases stepped
      have cleared : { s with connections := [], cleared := true }.Intact :=
        intact.congr rfl rfl rfl
      exact cleared.move here [] (by simp)
    | cons id rest =>
      cases stepped
      exact intact.move here [_, _] (by simp)

theorem frameStep (intact : s.Intact) (here : s.threads[i]? = some (frame :: below))
    (unshared : s.Unshared (.thread i)) (stepped : s.frameStep i below frame = some s') :
    s'.Intact := by
  cases frame with
  | onNewClient id place =>
    cases stepped
    exact intact.newClientStep here
  | asyncHandler id completion =>
    cases stepped
    exact intact.handlerStep here
  | onRawReceive id units left =>
    cases stepped
    exact intact.receiveStep here
  | disconnect id place =>
    apply intact.disconnectStep here ?_ stepped
    rintro rfl
    exact unshared id (by simp [releases, here])
  | starting id =>
    cases stepped
    exact intact.startingStep here
  | callback =>
    cases stepped
    exact intact.move here [] (by simp)
  | stop place => exact intact.stopStep here stepped

theorem act (intact : s.Intact) {a : ServerAction} (unshared : s.Unshared a)
    (stepped : s.act a = some s') : s'.Intact := by
  cases a with
  | newClient i id observers =>
    obtain ⟨_, is⟩ := Option.ite_none_right_eq_some.mp stepped
    cases is
    have using_ : { s with used := id :: s.used }.Intact := intact.congr rfl rfl rfl
    exact using_.push (fun _ is => by cases is) i
  | complete i id completion =>
    obtain ⟨_, is⟩ := Option.ite_none_right_eq_some.mp stepped
    cases is
    apply Intact.push
    · exact intact.setConnection fun connected => connected
    · exact fun _ is => by cases is
  | disconnect i id =>
    obtain ⟨_, is⟩ := Option.ite_none_right_eq_some.mp stepped
    cases is
    exact intact.push (fun _ is => by cases is) i
  | subscribe i id kind =>
    obtain ⟨_, is⟩ := Option.ite_none_right_eq_some.mp stepped
    cases is
    exact intact.setObservable kind _
  | commit i id =>
    obtain ⟨_, is⟩ := Option.ite_none_right_eq_some.mp stepped
    cases is
    split
    next connected =>
      apply intact.push
      rintro _ ⟨⟩
      exact connected
    · exact intact
  | stop i =>
    obtain ⟨_, is⟩ := Option.ite_none_right_eq_some.mp stepped
    cases is
    exact intact.push (fun _ is => by cases is) i
  | thread i =>
    simp only [Server.act] at stepped
    split at stepped
    next here => exact intact.frameStep here unshared stepped
    next => cases stepped

end Intact

end Server

end ServerLib.Network
