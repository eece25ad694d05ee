import ServerLib.Network.Server

/-!
# What `disconnect` does to a connection

Of all calls of `disconnect` for a connection one gets past its check. It notifies the observers,
the server first, which takes the connection out of the registry. `Stage` says where that call is,
and what has happened to the connection by then.
-/
namespace ServerLib.Network

open Transition Threads

/-! ### Observers -/

/-- The observers in front of a position have run once, and the others have not. -/
def DisconnectObservable.Notified (o : DisconnectObservable) (next : Nat) : Prop :=
  ∀ k observer, o.observers[k]? = some observer → observer.runs = if k < next then 1 else 0

/-- No observer has run twice, and those that have been subscribed in time have run. -/
def DisconnectObservable.Done (o : DisconnectObservable) : Prop :=
  ∀ observer ∈ o.observers, observer.runs ≤ 1 ∧ (observer.early = true → observer.runs = 1)

namespace DisconnectObservable

variable {o : DisconnectObservable} {next : Nat} {observer : DisconnectObserver}

theorem Notified.runs_le (notified : o.Notified next) (member : observer ∈ o.observers) :
    observer.runs ≤ 1 := by
  obtain ⟨k, there⟩ := List.mem_iff_getElem?.mp member
  rw [notified k observer there]
  split <;> omega

/-- Behind the last observer all have run. -/
theorem Notified.done (notified : o.Notified next) (past : o.observers[next]? = none) :
    o.Done := by
  intro observer member
  refine ⟨notified.runs_le member, fun _ => ?_⟩
  obtain ⟨k, there⟩ := List.mem_iff_getElem?.mp member
  have inside := (List.getElem?_eq_some_iff.mp there).1
  rw [List.getElem?_eq_none_iff] at past
  rw [notified k observer there, if_pos (by omega)]

theorem Notified.run (notified : o.Notified next) (here : o.observers[next]? = some observer) :
    Notified { o with
      observers := o.observers.set next { observer with runs := observer.runs + 1 } }
      (next + 1) := by
  intro k other there
  rw [List.getElem?_set] at there
  split at there
  next same =>
    -- it has not run before
    subst same
    split at there
    · cases there
      rw [notified next observer here, if_neg (Nat.lt_irrefl next), if_pos (Nat.lt_succ_self next)]
    · cases there
  next differs =>
    rw [notified k other there]
    by_cases before : k < next
    · rw [if_pos before, if_pos (by omega)]
    · rw [if_neg before, if_neg (by omega)]

theorem Notified.subscribe (fresh : o.Notified 0) (early : Bool) :
    Notified { o with observers := o.observers ++ [{ early }] } 0 := by
  intro k other there
  rw [if_neg (Nat.not_lt_zero k)]
  -- nobody has run, the new one least of all
  rcases List.mem_append.mp (List.mem_of_getElem? there) with before | new
  · obtain ⟨j, at_⟩ := List.mem_iff_getElem?.mp before
    rw [fresh j other at_, if_neg (Nat.not_lt_zero j)]
  · rw [List.mem_singleton.mp new]

theorem Done.subscribe (done : o.Done) :
    Done { o with observers := o.observers ++ [{ early := false }] } := by
  intro other member
  rcases List.mem_append.mp member with before | new
  · exact done other before
  · rw [List.mem_singleton.mp new]
    exact ⟨Nat.zero_le 1, nofun⟩

end DisconnectObservable

/-! ### A connection -/

theorem ServerConnection.forall_setObservable {c : ServerConnection} {kind : OnDisconnect}
    {o : DisconnectObservable} (P : OnDisconnect → DisconnectObservable → Prop) (changed : P kind o)
    (others : ∀ other, P other (c.observable other)) (other : OnDisconnect) :
    P other ((c.setObservable kind o).observable other) := by
  by_cases same : other = kind
  · subst same
    simpa only [ServerConnection.setObservable, Function.update_self] using changed
  · simpa only [ServerConnection.setObservable, Function.update_of_ne same] using others other

/-- Where the one call of `disconnect` is that is past its check, if there is one, what has
happened to the connection, and whether it is registered. -/
inductive Stage (c : ServerConnection) (registered : Prop) : List DisconnectPlace → Prop
  | connected {active : List DisconnectPlace}
      (before : active = [] ∨ active = [.stopping] ∨ active = [.releasing])
      (isConnected : c.isConnected = true) (fresh : ∀ kind, (c.observable kind).Notified 0)
      (is_registered : registered) : Stage c registered active
  | released (disconnected : c.isConnected = false)
      (fresh : ∀ kind, (c.observable kind).Notified 0) (is_registered : registered) :
      Stage c registered [.locking .withId]
  | withId {next : Nat} (disconnected : c.isConnected = false)
      (locked : (c.observable .withId).locked = true)
      (notified : (c.observable .withId).Notified next)
      (fresh : (c.observable .plain).Notified 0) (is_registered : registered ↔ next = 0) :
      Stage c registered [.notifying .withId next]
  | between (disconnected : c.isConnected = false) (done : (c.observable .withId).Done)
      (fresh : (c.observable .plain).Notified 0) (unregistered : ¬ registered) :
      Stage c registered [.locking .plain]
  | plain {next : Nat} (disconnected : c.isConnected = false)
      (done : (c.observable .withId).Done) (locked : (c.observable .plain).locked = true)
      (notified : (c.observable .plain).Notified next) (unregistered : ¬ registered) :
      Stage c registered [.notifying .plain next]
  | done {active : List DisconnectPlace} (behind : active = [] ∨ active = [.closing])
      (disconnected : c.isConnected = false) (done : ∀ kind, (c.observable kind).Done)
      (unregistered : ¬ registered) : Stage c registered active

namespace Stage

variable {c c' : ServerConnection} {registered registered' : Prop}
  {active : List DisconnectPlace}

theorem create (is_registered : registered) : Stage .create registered [] := by
  refine .connected (.inl rfl) rfl (fun kind k observer there => ?_) is_registered
  rw [if_neg (Nat.not_lt_zero k)]
  cases kind with
  | withId => rw [List.mem_singleton.mp (List.mem_of_getElem? there)]
  | plain => cases there

theorem length_le (stage : Stage c registered active) : active.length ≤ 1 := by
  cases stage with
  | connected before => rcases before with rfl | rfl | rfl <;> simp
  | done behind => rcases behind with rfl | rfl <;> simp
  | _ => exact Nat.le_refl 1

theorem past {place : DisconnectPlace} (stage : Stage c registered [place]) :
    place ≠ .entered := by
  cases stage with
  | connected before => rcases before with is | is | is <;> cases is <;> exact nofun
  | done behind => rcases behind with is | is <;> cases is; exact nofun
  | _ => exact nofun

/-- Whatever else changes of the connection. -/
theorem congr (stage : Stage c registered active) (isConnected : c'.isConnected = c.isConnected)
    (observable : c'.observable = c.observable) (same : registered' ↔ registered) :
    Stage c' registered' active := by
  rw [propext same]
  cases stage with
  | connected before connected fresh is_registered =>
    exact .connected before (isConnected.trans connected) (observable ▸ fresh) is_registered
  | released disconnected fresh is_registered =>
    exact .released (isConnected.trans disconnected) (observable ▸ fresh) is_registered
  | withId disconnected locked notified fresh is_registered =>
    rw [← observable] at locked notified fresh
    exact .withId (isConnected.trans disconnected) locked notified fresh is_registered
  | between disconnected done fresh unregistered =>
    rw [← observable] at done fresh
    exact .between (isConnected.trans disconnected) done fresh unregistered
  | plain disconnected done locked notified unregistered =>
    rw [← observable] at done locked notified
    exact .plain (isConnected.trans disconnected) done locked notified unregistered
  | done behind disconnected done unregistered =>
    exact .done behind (isConnected.trans disconnected) (observable ▸ done) unregistered

/-! What the steps of `disconnect` do. -/

theorem stop (stage : Stage c registered [.stopping]) :
    Stage { c with stopped := true } registered [.releasing] := by
  cases stage with
  | connected _ isConnected fresh is_registered =>
    exact .connected (.inr (.inr rfl)) isConnected fresh is_registered
  | done behind => simp at behind

theorem release (stage : Stage c registered [.releasing]) :
    Stage { c with isConnected := false } registered [.locking .withId] := by
  cases stage with
  | connected _ _ fresh is_registered => exact .released rfl fresh is_registered
  | done behind => simp at behind

theorem lock {kind : OnDisconnect} (stage : Stage c registered [.locking kind]) :
    Stage (c.setObservable kind { c.observable kind with locked := true }) registered
      [.notifying kind 0] := by
  cases stage with
  | connected before => simp at before
  | released disconnected fresh is_registered =>
    exact .withId disconnected rfl (fresh .withId) (fresh .plain) (iff_of_true is_registered rfl)
  | between disconnected done fresh unregistered =>
    exact .plain disconnected done rfl fresh unregistered
  | done behind => simp at behind

/-- The server takes the connection out of the registry, when it is called. -/
theorem run {kind : OnDisconnect} {next : Nat} {observer : DisconnectObserver}
    (stage : Stage c registered [.notifying kind next])
    (here : (c.observable kind).observers[next]? = some observer)
    (left : registered' ↔ registered ∧ ¬ (kind = .withId ∧ next = 0)) :
    Stage (c.setObservable kind { c.observable kind with
      observers := (c.observable kind).observers.set next
        { observer with runs := observer.runs + 1 } })
      registered' [.notifying kind (next + 1)] := by
  cases stage with
  | connected before => simp at before
  | withId disconnected locked notified fresh is_registered =>
    refine .withId disconnected locked (notified.run here) fresh ?_
    -- it is registered in front of the first observer, and behind it not any more
    rw [left, is_registered]
    simp
  | plain disconnected done locked notified unregistered =>
    exact .plain disconnected done locked (notified.run here) fun held =>
      unregistered (left.mp held).1
  | done behind => simp at behind

theorem unlock_withId {next : Nat} (stage : Stage c registered [.notifying .withId next])
    (past : (c.observable .withId).observers[next]? = none) (called : next ≠ 0) :
    Stage (c.setObservable .withId { c.observable .withId with locked := false }) registered
      [.locking .plain] := by
  cases stage with
  | connected before => simp at before
  | withId disconnected _ notified fresh is_registered =>
    exact .between disconnected (notified.done past) fresh (mt is_registered.mp called)
  | done behind => simp at behind

theorem unlock_plain {next : Nat} (stage : Stage c registered [.notifying .plain next])
    (past : (c.observable .plain).observers[next]? = none) :
    Stage (c.setObservable .plain { c.observable .plain with locked := false }) registered
      [.closing] := by
  cases stage with
  | connected before => simp at before
  | plain disconnected done _ notified unregistered =>
    refine .done (.inr rfl) disconnected (fun kind => ?_) unregistered
    cases kind with
    | withId => exact done
    | plain => exact notified.done past
  | done behind => simp at behind

theorem close (stage : Stage c registered [.closing]) :
    Stage c registered [] ∧ ¬ registered := by
  cases stage with
  | connected before => simp at before
  | done _ disconnected done unregistered =>
    exact ⟨.done (.inl rfl) disconnected done unregistered, unregistered⟩

/-- What a call finds behind its check, if those in progress are inside of callbacks. -/
theorem enter (stage : Stage c registered active)
    (calls : ∀ place ∈ active, ∃ kind next, place = .notifying kind (next + 1)) :
    c.isConnected = true ∧ active = [] ∧ Stage c registered [.stopping] ∨
      c.isConnected = false ∧ ¬ registered := by
  cases stage with
  | connected before isConnected fresh is_registered =>
    refine .inl ⟨isConnected, ?_, .connected (.inr (.inl rfl)) isConnected fresh is_registered⟩
    -- a call that is past its check is not inside of a callback here
    rcases before with rfl | rfl | rfl
    · rfl
    · simp at calls
    · simp at calls
  | released => simp at calls
  | withId disconnected _ _ _ is_registered =>
    -- an observer is running, so that the server, the first one, has run
    obtain ⟨kind, next, is⟩ := calls _ (List.mem_singleton_self _)
    cases is
    exact .inr ⟨disconnected, by simp [is_registered]⟩
  | between disconnected _ _ unregistered => exact .inr ⟨disconnected, unregistered⟩
  | plain disconnected _ _ _ unregistered => exact .inr ⟨disconnected, unregistered⟩
  | done _ disconnected _ unregistered => exact .inr ⟨disconnected, unregistered⟩

/-- Nobody subscribes while the observers are notified. -/
theorem subscribe (stage : Stage c registered active) {kind : OnDisconnect}
    (unlocked : (c.observable kind).locked = false) :
    Stage (c.setObservable kind { c.observable kind with
      observers := (c.observable kind).observers ++ [{ early := c.isConnected }] })
      registered active := by
  cases stage with
  | connected before isConnected fresh is_registered =>
    refine .connected before isConnected ?_ is_registered
    exact c.forall_setObservable (fun _ o => o.Notified 0) ((fresh kind).subscribe _) fresh
  | released disconnected fresh is_registered =>
    refine .released disconnected ?_ is_registered
    exact c.forall_setObservable (fun _ o => o.Notified 0) ((fresh kind).subscribe _) fresh
  | withId disconnected locked notified fresh is_registered =>
    cases kind with
    -- they are being notified, and the mutex is locked
    | withId => exact absurd locked (by simp [unlocked])
    | plain => exact .withId disconnected locked notified (fresh.subscribe _) is_registered
  | between disconnected done fresh unregistered =>
    rw [disconnected]
    cases kind with
    | withId => exact .between disconnected done.subscribe fresh unregistered
    | plain => exact .between disconnected done (fresh.subscribe _) unregistered
  | plain disconnected done locked notified unregistered =>
    rw [disconnected]
    cases kind with
    | withId => exact .plain disconnected done.subscribe locked notified unregistered
    | plain => exact absurd locked (by simp [unlocked])
  | done behind disconnected done unregistered =>
    rw [disconnected]
    refine .done behind disconnected ?_ unregistered
    exact c.forall_setObservable (fun _ o => o.Done) (done kind).subscribe done

theorem runs_le (stage : Stage c registered active) {kind : OnDisconnect}
    {observer : DisconnectObserver} (member : observer ∈ (c.observable kind).observers) :
    observer.runs ≤ 1 := by
  cases stage with
  | connected _ _ fresh => exact (fresh kind).runs_le member
  | released _ fresh => exact (fresh kind).runs_le member
  | withId _ _ notified fresh =>
    cases kind with
    | withId => exact notified.runs_le member
    | plain => exact fresh.runs_le member
  | between _ done fresh =>
    cases kind with
    | withId => exact (done observer member).1
    | plain => exact fresh.runs_le member
  | plain _ done _ notified =>
    cases kind with
    | withId => exact (done observer member).1
    | plain => exact notified.runs_le member
  | done _ _ done => exact (done kind observer member).1

theorem disconnected (stage : Stage c registered active) (unregistered : ¬ registered) :
    c.isConnected = false := by
  cases stage with
  | connected _ _ _ is_registered => exact absurd is_registered unregistered
  | released disconnected => exact disconnected
  | withId disconnected => exact disconnected
  | between disconnected => exact disconnected
  | plain disconnected => exact disconnected
  | done _ disconnected => exact disconnected

/-- Outside of `on_diconnected` a connection is registered exactly as long as it is connected. -/
theorem settled (stage : Stage c registered active)
    (outside : ∀ kind next, .locking kind ∉ active ∧ .notifying kind next ∉ active) :
    (registered ↔ c.isConnected = true) ∧
      (c.isConnected = false → ∀ kind, (c.observable kind).Done) := by
  cases stage with
  | connected _ isConnected _ is_registered =>
    exact ⟨iff_of_true is_registered isConnected, fun not => absurd isConnected (by simp [not])⟩
  | done _ disconnected done unregistered =>
    exact ⟨iff_of_false unregistered (by simp [disconnected]), fun _ => done⟩
  | released => exact absurd (List.mem_singleton_self _) (outside .withId 0).1
  | withId => exact absurd (List.mem_singleton_self _) (outside .withId _).2
  | between => exact absurd (List.mem_singleton_self _) (outside .plain 0).1
  | plain => exact absurd (List.mem_singleton_self _) (outside .plain _).2

end Stage

/-- The observer at a position is `on_client_disconnected`. -/
def DisconnectObservable.CallsServer (o : DisconnectObservable) (k : Nat) : Prop :=
  ∃ observer, o.observers[k]? = some observer ∧ observer.server = true

/-- The server is the first of the observers that get the id, and none of the others. -/
def ServerConnection.Wired (c : ServerConnection) : Prop :=
  ∀ kind k, (c.observable kind).CallsServer k ↔ kind = .withId ∧ k = 0

namespace ServerConnection.Wired

variable {c : ServerConnection} {kind : OnDisconnect} {next : Nat} {observer : DisconnectObserver}

theorem create : Wired .create := by
  intro kind k
  cases kind with
  | withId => cases k <;> simp [DisconnectObservable.CallsServer, ServerConnection.create]
  | plain => simp [DisconnectObservable.CallsServer, ServerConnection.create]

theorem server_iff (wired : c.Wired)
    (here : (c.observable kind).observers[next]? = some observer) :
    observer.server = true ↔ kind = .withId ∧ next = 0 := by
  rw [← wired kind next]
  constructor
  · exact fun server => ⟨observer, here, server⟩
  · rintro ⟨other, there, server⟩
    cases here.symm.trans there
    exact server

theorem called (wired : c.Wired) (past : (c.observable .withId).observers[next]? = none) :
    next ≠ 0 := by
  rintro rfl
  obtain ⟨observer, here, _⟩ := (wired .withId 0).mpr ⟨rfl, rfl⟩
  cases past.symm.trans here

theorem setObservable (wired : c.Wired) {o : DisconnectObservable}
    (same : ∀ k, o.CallsServer k ↔ (c.observable kind).CallsServer k) :
    (c.setObservable kind o).Wired :=
  c.forall_setObservable (fun kind o => ∀ k, o.CallsServer k ↔ kind = .withId ∧ k = 0)
    (fun k => (same k).trans (wired kind k)) wired

theorem run (wired : c.Wired) (here : (c.observable kind).observers[next]? = some observer)
    (runs : Nat) :
    (c.setObservable kind { c.observable kind with
      observers := (c.observable kind).observers.set next { observer with runs } }).Wired := by
  apply wired.setObservable
  intro k
  by_cases same : next = k
  · subst same
    rw [DisconnectObservable.CallsServer, DisconnectObservable.CallsServer, here,
      List.getElem?_set_self (List.getElem?_eq_some_iff.mp here).1]
    simp
  · rw [DisconnectObservable.CallsServer, DisconnectObservable.CallsServer,
      List.getElem?_set_ne same]

theorem subscribe (wired : c.Wired) (early : Bool) :
    (c.setObservable kind { c.observable kind with
      observers := (c.observable kind).observers ++ [{ early }] }).Wired := by
  apply wired.setObservable
  intro k
  rw [DisconnectObservable.CallsServer, DisconnectObservable.CallsServer, List.getElem?_append]
  split
  · rfl
  next past =>
    -- the new observer is not the server
    rw [List.getElem?_eq_none (Nat.le_of_not_lt past)]
    constructor
    · rintro ⟨observer, here, server⟩
      cases List.mem_singleton.mp (List.mem_of_getElem? here)
      cases server
    · rintro ⟨observer, here, _⟩
      cases here

end ServerConnection.Wired

end ServerLib.Network
