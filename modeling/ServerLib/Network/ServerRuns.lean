import ServerLib.Network.ServerSockets

/-!
# The runs of a server

Every function of the server keeps the registry sound, `disconnect` under the condition that no
other thread is in it for the same connection. It also must not take the socket from an operation
that is about to be started.
-/
namespace ServerLib.Network

open Transition Threads

namespace Server

variable {s s' : Server} {i id : Nat} {frame : ServerFrame} {stack below : List ServerFrame}

theorem setStack_setStack (new newer : List ServerFrame) :
    (s.setStack i new).setStack i newer = s.setStack i newer := by
  simp only [setStack, List.set_set]

theorem stack_setStack (here : s.threads[i]? = some stack) (new : List ServerFrame) :
    (s.setStack i new).threads[i]? = some new :=
  List.getElem?_set_self (List.getElem?_eq_some_iff.mp here).1

theorem Serial.of_ne (serial : s.Serial) {j : Nat} {other : List ServerFrame}
    (here : s.threads[i]? = some stack) (there : s.threads[j]? = some other) (differs : i ≠ j) :
    ∀ id ∈ stack.filterMap ServerFrame.disconnects,
      id ∉ other.filterMap ServerFrame.disconnects := by
  obtain ⟨inside, rfl⟩ := List.getElem?_eq_some_iff.mp here
  obtain ⟨inside', rfl⟩ := List.getElem?_eq_some_iff.mp there
  have apart := List.pairwise_iff_getElem.mp serial
  rcases Nat.lt_or_gt_of_ne differs with before | behind
  · exact apart i j inside inside' before
  · exact fun id here there => apart j i inside' inside behind id there here

namespace Sound

/-! ### Calls and returns -/

/-- A function calls another one that neither disconnects nor accepts. -/
theorem push (sound : s.Sound) (here : s.threads[i]? = some stack)
    (held : s.StackHolds i (frame :: stack)) (enters : frame.enters = none)
    (active : ∀ id, frame.activePlace id = none) : (s.push i frame).Sound := by
  rw [push_eq here]
  apply sound.setStack here held
  · rw [List.filterMap_cons_none enters]
  · exact fun id => List.filterMap_cons_none (active id)

/-- A thread outside, or in a callback, calls a function. -/
theorem push_free (sound : s.Sound) (free : s.Free i) (holds : frame.Holds s i [])
    (enters : frame.enters = none) (active : ∀ id, frame.activePlace id = none) :
    (s.push i frame).Sound := by
  obtain ⟨stack, here, ⟨rfl, outside⟩ | top⟩ := free
  · -- a thread outside of the server
    exact sound.push here ⟨fun _ => outside, holds, trivial⟩ enters active
  · -- a callback, which calls into the server again
    obtain ⟨below, rfl⟩ := List.head?_eq_some_iff.mp top
    exact sound.push here ((sound.holds i _ here).push trivial holds) enters active

/-- A function returns that neither disconnects nor accepts. -/
theorem pop (sound : s.Sound) (here : s.threads[i]? = some (frame :: below))
    (disconnects : frame.disconnects = none) (active : ∀ id, frame.activePlace id = none) :
    (s.setStack i below).Sound := by
  apply sound.setStack here
  · apply (sound.holds i _ here).pop
    rw [disconnects]
    exact nofun
  · exact (List.sublist_cons_self frame below).filterMap _
  · exact fun id => (List.filterMap_cons_none (active id)).symm

/-- It starts the next read of a connection, if that is still connected. -/
theorem asyncRead (sound : s.Sound) (here : s.threads[i]? = some (frame :: below))
    (disconnects : frame.disconnects = none) (active : ∀ id, frame.activePlace id = none)
    (enters : frame.enters = none) (id : Nat) : (s.asyncRead i id below).Sound := by
  unfold Server.asyncRead
  split
  · have goes : s.StackHolds i (.starting id :: below) :=
      (sound.holds i _ here).replace trivial (by rw [disconnects]; exact nofun)
    apply sound.setStack here goes
    · rw [List.filterMap_cons_none enters]
      exact .refl _
    · exact fun id => (List.filterMap_cons_none (active id)).symm
  · exact sound.pop here disconnects active

theorem startingStep (sound : s.Sound) (here : s.threads[i]? = some (.starting id :: below)) :
    (s.startingStep i id below).Sound := by
  unfold Server.startingStep
  split
  · exact (sound.startOperation id).pop here rfl fun _ => rfl
  · exact sound.crash.pop here rfl fun _ => rfl

/-- A function goes on, and calls a callback. -/
theorem callback {new : List ServerFrame} (moved : (s.setStack i (frame :: new)).Sound)
    (here : s.threads[i]? = some stack) (calls : frame.Calls) :
    (s.setStack i (.callback :: frame :: new)).Sound := by
  have there := stack_setStack here (frame :: new)
  have held : (s.setStack i (frame :: new)).StackHolds i (.callback :: frame :: new) :=
    (moved.holds i _ there).push calls trivial
  have pushed := moved.push there held rfl fun _ => rfl
  rwa [push_eq there, setStack_setStack] at pushed

/-! ### Handlers -/

theorem handlerStep (sound : s.Sound) {completion : Completion}
    (here : s.threads[i]? = some (.asyncHandler id completion :: below)) :
    (s.handlerStep i id below completion).Sound := by
  have returns := sound.pop here rfl fun _ => rfl
  have held := sound.holds i _ here
  -- a failure and characters that build no unit disconnect, in the place of the handler
  have calls : s.StackHolds i (.disconnect id .entered :: below) := held.replace held.2.1 nofun
  have disconnects : (s.setStack i (.disconnect id .entered :: below)).Sound := by
    apply sound.setStack here calls (.refl _)
    exact fun other => List.filterMap_cons_none (ServerFrame.activePlace_entered other id)
  unfold Server.handlerStep
  split
  · exact returns
  · cases completion with
    | failed => exact disconnects
    | written => exact returns
    | received valid units =>
      cases valid with
      | false => exact disconnects
      | true => exact sound.setStack here (held.replace held.2.1 nofun) (.refl _) fun _ => rfl

theorem receiveStep (sound : s.Sound) {units : List Nat} {left : Nat}
    (here : s.threads[i]? = some (.onRawReceive id units left :: below)) :
    (s.receiveStep i id below units left).Sound := by
  have held := sound.holds i _ here
  -- a unit is given to its observers, as long as the connection is connected
  have goes (units : List Nat) (left : Nat) :
      (s.setStack i (.onRawReceive id units left :: below)).Sound :=
    sound.setStack here (held.replace held.2.1 nofun) (.refl _) fun _ => rfl
  -- behind the last unit the next read is started
  have returns := sound.asyncRead here rfl (fun _ => rfl) rfl id
  cases left with
  | succ left => exact (goes units left).callback here trivial
  | zero =>
    cases units with
    | nil => exact returns
    | cons observers units =>
      rw [Server.receiveStep]
      split
      · exact goes units observers
      · exact returns

/-! ### New connections -/

theorem mem_activeOf {place : DisconnectPlace} (active : place ∈ s.activeOf id) :
    place ≠ .entered ∧ ∃ stack ∈ s.threads, .disconnect id place ∈ stack := by
  obtain ⟨frame, member, is⟩ := List.mem_filterMap.mp active
  obtain ⟨stack, inside, member⟩ := List.mem_flatten.mp member
  obtain ⟨rfl, past⟩ := ServerFrame.mem_of_activePlace is
  exact ⟨past, stack, inside, member⟩

/-- Nobody disconnects a connection that has not been put into the registry. -/
theorem activeOf_unknown (sound : s.Sound) (unknown : id ∉ s.accepted) : s.activeOf id = [] := by
  rw [List.eq_nil_iff_forall_not_mem]
  intro place active
  obtain ⟨_, stack, inside, member⟩ := mem_activeOf active
  obtain ⟨j, there⟩ := List.mem_iff_getElem?.mp inside
  obtain ⟨above, accepted⟩ := (sound.holds j stack there).of_mem member
  exact unknown accepted

/-- A raw connection is put into the registry by the function that has been given it. -/
theorem unknown (sound : s.Sound) {observers : Nat}
    (here : s.threads[i]? = some (.onNewClient id (.creating observers) :: below)) :
    id ∉ s.accepted := by
  obtain ⟨front, back, is, _⟩ := filterMap_move ServerFrame.enters here
  have enters : id ∈ s.entering := by
    rw [entering, is]
    exact List.mem_append_right _ List.mem_cons_self
  -- it has been used once, and it is counted here
  have once := sound.once id
  have used := List.nodup_iff_count_le_one.mp sound.fresh id
  have here := List.count_pos_iff.mpr enters
  exact List.count_eq_zero.mp (by omega)

theorem accept (sound : s.Sound) {observers : Nat}
    (here : s.threads[i]? = some (.onNewClient id (.creating observers) :: below)) :
    ((s.accept id).setStack i (.onNewClient id (.notifying observers) :: below)).Sound := by
  have held := sound.holds i _ here
  have unknown := sound.unknown here
  have working : ¬ s.joined = true := fun joined =>
    absurd held.2.1 (Nat.not_lt_of_le (held.1 joined))
  have enters := Enters.accept s i id (.onNewClient id (.notifying observers) :: below)
  have evolves := enters.evolves working
  apply sound.enter enters unknown working
  · have held' := held.kept evolves enters.joined
    exact fun j stack =>
      sound.threads_of_move evolves enters.joined rfl (held'.replace held'.2.1 nofun)
  · -- the raw connection is on the stack no more, but in the registry
    intro other
    have before : (ServerFrame.onNewClient id (.creating observers) :: below).filterMap
        ServerFrame.enters = id :: below.filterMap ServerFrame.enters := rfl
    have after : (ServerFrame.onNewClient id (.notifying observers) :: below).filterMap
        ServerFrame.enters = below.filterMap ServerFrame.enters := rfl
    have threads : ((s.accept id).setStack i
        (.onNewClient id (.notifying observers) :: below)).threads =
      s.threads.set i (.onNewClient id (.notifying observers) :: below) := rfl
    have moved := entering_move here threads other
    rw [before, after, List.count_cons] at moved
    simp only [beq_iff_eq] at moved
    omega
  · exact fun other => activeOf_move here rfl rfl
  · exact sound.activeOf_unknown unknown

theorem newClientStep (sound : s.Sound) {place : NewClientPlace}
    (here : s.threads[i]? = some (.onNewClient id place :: below)) :
    (s.newClientStep i id below place).Sound := by
  have held := sound.holds i _ here
  cases place with
  | entered observers =>
    rw [Server.newClientStep]
    split
    · have kept : s.StackHolds i (.onNewClient id (.creating observers) :: below) :=
        held.replace held.2.1 fun _ same => same
      exact sound.setStack here kept (.refl _) fun _ => rfl
    · -- the server is being stopped
      exact sound.pop here rfl fun _ => rfl
  | creating observers => exact sound.accept here
  | notifying left =>
    cases left with
    | zero =>
      have kept : s.StackHolds i (.onNewClient id .reading :: below) :=
        held.replace held.2.1 fun _ same => same
      exact sound.setStack here kept (.refl _) fun _ => rfl
    | succ left =>
      have kept : s.StackHolds i (.onNewClient id (.notifying left) :: below) :=
        held.replace held.2.1 fun _ same => same
      have moved : (s.setStack i (.onNewClient id (.notifying left) :: below)).Sound :=
        sound.setStack here kept (.refl _) fun _ => rfl
      exact moved.callback here trivial
  | reading => exact sound.asyncRead here rfl (fun _ => rfl) rfl id

/-! ### `disconnect` -/

/-- One call for a connection at most is past its check. -/
theorem alone (sound : s.Sound) {place : DisconnectPlace}
    (here : s.threads[i]? = some (.disconnect id place :: below)) (past : place ≠ .entered) :
    (s.activeOf id).length ≤
      ([ServerFrame.disconnect id place].filterMap (ServerFrame.activePlace id)).length := by
  rw [List.filterMap_cons_some (ServerFrame.activePlace_self id past)]
  exact (sound.stages id (sound.holds i _ here).2.1).length_le

theorem stage_at (sound : s.Sound) {place : DisconnectPlace}
    (here : s.threads[i]? = some (.disconnect id place :: below)) (past : place ≠ .entered) :
    Stage (s.connection id) (id ∈ s.connections) [place] := by
  have stage := sound.stages id (sound.holds i _ here).2.1
  have is : s.activeOf id = [place] := (filterMap_move_alone here (sound.alone here past)).1.trans
    (List.filterMap_cons_some (ServerFrame.activePlace_self id past))
  rwa [is] at stage

/-- Calls for one connection are nested, so that those further out are in callbacks. -/
theorem nested (sound : s.Sound) (serial : s.Serial)
    (here : s.threads[i]? = some (.disconnect id .entered :: below)) :
    ∀ place ∈ s.activeOf id, ∃ kind next, place = .notifying kind (next + 1) := by
  intro place active
  obtain ⟨past, stack, inside, member⟩ := mem_activeOf active
  obtain ⟨j, there⟩ := List.mem_iff_getElem?.mp inside
  by_cases same : j = i
  · -- the call is further out in this thread
    subst same
    cases here.symm.trans there
    rcases List.mem_cons.mp member with is | member
    · cases is
      exact absurd rfl past
    · exact (sound.holds j _ here).2.2.calls member
  · -- two threads would be in `disconnect`
    have disconnects (stack : List ServerFrame) {place : DisconnectPlace}
        (member : .disconnect id place ∈ stack) : id ∈ stack.filterMap ServerFrame.disconnects :=
      List.mem_filterMap.mpr ⟨_, member, rfl⟩
    exact absurd (disconnects stack member)
      (serial.of_ne here there (Ne.symm same) id (disconnects _ List.mem_cons_self))

/-- A call of `disconnect` goes on. -/
theorem advance (sound : s.Sound) {place next : DisconnectPlace}
    (here : s.threads[i]? = some (.disconnect id place :: below))
    (alone : (s.activeOf id).length ≤
      ([ServerFrame.disconnect id place].filterMap (ServerFrame.activePlace id)).length)
    (moved : s'.threads = s.threads.set i (.disconnect id next :: below))
    (leaves : s.Leaves s' id)
    (stage : Stage (s'.connection id) (id ∈ s'.connections) [next])
    (wired : (s'.connection id).Wired) : s'.Sound := by
  have held := sound.holds i _ here
  apply sound.move here moved leaves ?_ (.refl _) ?_ (fun _ => ?_) wired
  · have held' := held.kept leaves.evolves leaves.joined
    exact held'.replace held'.2.1 fun _ same => same
  · -- the calls for the other connections stay
    intro other differs
    rw [List.filterMap_cons_none (ServerFrame.activePlace_of_ne differs _),
      List.filterMap_cons_none (ServerFrame.activePlace_of_ne differs _)]
  · have now : s'.activeOf id = [next] := by
      rw [activeOf, moved]
      refine ((filterMap_move_alone here alone).2 [.disconnect id next]).trans ?_
      exact List.filterMap_cons_some (ServerFrame.activePlace_self id stage.past)
    rw [now]
    exact stage

/-- It goes on with the observers of the connection as they are. -/
theorem advance_setConnection (sound : s.Sound) {place next : DisconnectPlace}
    (here : s.threads[i]? = some (.disconnect id place :: below)) (past : place ≠ .entered)
    {c : ServerConnection} (stage : Stage c (id ∈ s.connections) [next]) (wired : c.Wired) :
    ((s.setConnection id c).setStack i (.disconnect id next :: below)).Sound := by
  apply sound.advance here (sound.alone here past) rfl ((Leaves.setConnection c).setStack _)
  · exact setConnection_self.symm ▸ stage
  · exact setConnection_self.symm ▸ wired

theorem notifyStep (sound : s.Sound) {kind : OnDisconnect} {next : Nat}
    (here : s.threads[i]? = some (.disconnect id (.notifying kind next) :: below)) :
    (s.notifyStep i id below kind next).Sound := by
  have stage := sound.stage_at here nofun
  have wired := sound.wired id
  cases there : ((s.connection id).observable kind).observers[next]? with
  -- behind the last observer the mutex is unlocked
  | none =>
    simp only [Server.notifyStep, there]
    cases kind with
    | withId =>
      have between := stage.unlock_withId there (wired.called there)
      exact sound.advance_setConnection here nofun between (wired.setObservable fun _ => .rfl)
    | plain =>
      have done := stage.unlock_plain there
      exact sound.advance_setConnection here nofun done (wired.setObservable fun _ => .rfl)
  | some observer =>
    have wired' := wired.run there (observer.runs + 1)
    have first := wired.server_iff there
    simp only [Server.notifyStep, there]
    split
    next server =>
      -- the server takes it out of the registry
      have left : id ∈ s.connections.erase id ↔
          id ∈ s.connections ∧ ¬ (kind = .withId ∧ next = 0) := by
        simp [first.mp server, sound.nodup.mem_erase_iff]
      apply sound.advance here (sound.alone here nofun) rfl
        ((Leaves.setConnection _).onClientDisconnected.setStack _)
      · exact setConnection_self.symm ▸ stage.run there left
      · exact setConnection_self.symm ▸ wired'
    next user =>
      -- an observer of a user leaves the registry alone
      have left : id ∈ s.connections ↔ id ∈ s.connections ∧ ¬ (kind = .withId ∧ next = 0) := by
        simp [mt first.mpr user]
      have moved := sound.advance_setConnection here nofun (stage.run there left) wired'
      exact moved.callback here ⟨kind, next, rfl⟩

theorem disconnectStep (sound : s.Sound) (serial : s.Serial) {place : DisconnectPlace}
    (here : s.threads[i]? = some (.disconnect id place :: below))
    (stepped : s.disconnectStep i id below place = some s') : s'.Sound := by
  have held := sound.holds i _ here
  have accepted : id ∈ s.accepted := held.2.1
  cases place with
  | entered =>
    cases stepped
    -- a call in front of its check does not count
    have inactive (below : List ServerFrame) (other : Nat) :
        (.disconnect id .entered :: below).filterMap (ServerFrame.activePlace other) =
          below.filterMap (ServerFrame.activePlace other) :=
      List.filterMap_cons_none (ServerFrame.activePlace_entered other id)
    rcases (sound.stages id accepted).enter (sound.nested serial here) with
      ⟨isConnected, none, stopping⟩ | ⟨disconnected, unregistered⟩
    · -- it is the one that gets past
      rw [if_pos isConnected]
      apply sound.advance here ?_ rfl ((Leaves.refl s id).setStack _) stopping (sound.wired id)
      rw [none]
      exact Nat.zero_le _
    · -- a nested or a later call returns at once
      rw [if_neg (by simp [disconnected])]
      apply sound.setStack here (held.pop ?_) (.refl _) fun other => (inactive below other).symm
      rintro _ ⟨⟩
      exact unregistered
  | stopping =>
    cases stepped
    exact sound.advance_setConnection here nofun (sound.stage_at here nofun).stop
      (sound.wired id)
  | releasing =>
    cases stepped
    exact sound.advance_setConnection here nofun (sound.stage_at here nofun).release
      (sound.wired id)
  | locking kind =>
    obtain ⟨_, is⟩ := Option.ite_none_left_eq_some.mp stepped
    cases is
    exact sound.advance_setConnection here nofun (sound.stage_at here nofun).lock
      ((sound.wired id).setObservable fun _ => .rfl)
  | notifying kind next =>
    cases stepped
    exact sound.notifyStep here
  | closing =>
    cases stepped
    obtain ⟨done, unregistered⟩ := (sound.stage_at here nofun).close
    have held' : s.StackHolds i below := held.pop (by rintro _ ⟨⟩; exact unregistered)
    have leaves : s.Leaves (s.setStack i below) id := (Leaves.refl s id).setStack below
    have enters : (below.filterMap ServerFrame.enters).Sublist
        ((ServerFrame.disconnect id .closing :: below).filterMap ServerFrame.enters) := .refl _
    apply sound.move here rfl leaves ?_ enters ?_ (fun _ => ?_) (sound.wired id)
    · exact held'.kept leaves.evolves rfl
    · intro other differs
      rw [List.filterMap_cons_none (ServerFrame.activePlace_of_ne differs _)]
    · have now : (s.setStack i below).activeOf id = [] :=
        (filterMap_move_alone here (sound.alone here nofun)).2 []
      rw [now]
      exact done

theorem eq_of_returns (here : s.threads[i]? = some stack) {new : List ServerFrame}
    (moved : s'.threads = s.threads.set i new) (returns : s'.threads[i]? = some below) :
    new = below := by
  rw [moved, List.getElem?_set_self (List.getElem?_eq_some_iff.mp here).1] at returns
  exact Option.some.inj returns

/-- A call of `disconnect` that returns leaves the connection disconnected and unregistered. -/
theorem returned (sound : s.Sound) (serial : s.Serial) {place : DisconnectPlace}
    (here : s.threads[i]? = some (.disconnect id place :: below))
    (stepped : s.disconnectStep i id below place = some s')
    (returns : s'.threads[i]? = some below) :
    id ∉ s'.connections ∧ (s'.connection id).isConnected = false := by
  -- the other steps leave the call on the stack
  have stays (frames : List ServerFrame) (frame : ServerFrame) :
      s'.threads ≠ s.threads.set i (frames ++ frame :: below) := by
    intro moved
    have same := congrArg List.length (eq_of_returns here moved returns)
    simp only [List.length_append, List.length_cons] at same
    omega
  cases place with
  | entered =>
    cases stepped
    rcases (sound.stages id (sound.holds i _ here).2.1).enter (sound.nested serial here) with
      ⟨isConnected, _⟩ | ⟨disconnected, unregistered⟩
    · rw [if_pos isConnected] at stays
      exact absurd rfl (stays [] (.disconnect id .stopping))
    · exact ⟨unregistered, disconnected⟩
  | stopping =>
    cases stepped
    exact absurd rfl (stays [] (.disconnect id .releasing))
  | releasing =>
    cases stepped
    exact absurd rfl (stays [] (.disconnect id (.locking .withId)))
  | locking kind =>
    obtain ⟨_, is⟩ := Option.ite_none_left_eq_some.mp stepped
    cases is
    exact absurd rfl (stays [] (.disconnect id (.notifying kind 0)))
  | notifying kind next =>
    cases stepped
    cases there : ((s.connection id).observable kind).observers[next]? with
    | none =>
      simp only [Server.notifyStep, there] at stays
      exact absurd rfl (stays [] _)
    | some observer =>
      simp only [Server.notifyStep, there] at stays
      split at stays
      · exact absurd rfl (stays [] (.disconnect id (.notifying kind (next + 1))))
      · exact absurd rfl (stays [.callback] (.disconnect id (.notifying kind (next + 1))))
  | closing =>
    cases stepped
    obtain ⟨done, unregistered⟩ := (sound.stage_at here nofun).close
    exact ⟨unregistered, done.disconnected unregistered⟩

/-! ### `stop` -/

theorem notRunning (sound : s.Sound) : { s with isRunning := false }.Sound := by
  have leaves : s.Leaves { s with isRunning := false } 0 :=
    ⟨rfl, rfl, rfl, rfl, .refl _, fun _ _ => ⟨.rfl, rfl⟩, rfl⟩
  apply sound.change leaves ?_ (fun _ => Nat.le_refl _) (fun _ _ => rfl) (sound.stages 0)
    (sound.wired 0)
  exact fun j stack there => (sound.holds j stack there).kept leaves.evolves rfl

/-- The workers have returned from all functions when they are joined. -/
theorem join (sound : s.Sound) (idle : (s.threads.take s.workers).all List.isEmpty = true) :
    { s with joined := true }.Sound where
  holds j stack there := by
    have evolves : s.Evolves { s with joined := true } :=
      ⟨rfl, List.Subset.refl _, fun _ => rfl, fun _ => List.Subset.refl _⟩
    refine (sound.holds j stack there).evolves evolves fun nonempty _ => ?_
    -- a worker with a function on its stack would not have been joined
    by_contra worker
    have inside : (s.threads.take s.workers)[j]? = some stack := by
      rw [List.getElem?_take_of_lt (Nat.lt_of_not_le worker)]
      exact there
    have empty := List.all_eq_true.mp idle stack (List.mem_of_getElem? inside)
    exact nonempty (List.isEmpty_iff.mp empty)
  fresh := sound.fresh
  once := sound.once
  stages := sound.stages
  wired := sound.wired
  nodup := sound.nodup
  registered := sound.registered
  cleared cleared := ⟨rfl, (sound.cleared cleared).2⟩

/-- Behind the last connection of the copy there is nothing left to clear. -/
theorem clear (sound : s.Sound)
    (here : s.threads[i]? = some (.stop (.iterating []) :: below)) :
    s.connections = [] ∧ { s with connections := [], cleared := true }.Sound := by
  obtain ⟨joined, _, covered⟩ := (sound.holds i _ here).2.1
  have empty : s.connections = [] := by
    rw [List.eq_nil_iff_forall_not_mem]
    intro id member
    -- neither left in the copy nor being disconnected above
    rcases covered id member with left | above
    · cases left
    · cases above
  refine ⟨empty, ?_⟩
  rw [← empty]
  constructor
  case holds =>
    have evolves : s.Evolves { s with connections := s.connections, cleared := true } :=
      ⟨rfl, List.Subset.refl _, fun joined => joined, fun _ => List.Subset.refl _⟩
    exact fun j stack there => (sound.holds j stack there).kept evolves rfl
  case fresh => exact sound.fresh
  case once => exact sound.once
  case stages => exact sound.stages
  case wired => exact sound.wired
  case nodup => exact sound.nodup
  case registered => exact sound.registered
  case cleared => exact fun _ => ⟨joined, empty⟩

theorem stopStep (sound : s.Sound) {place : StopPlace}
    (here : s.threads[i]? = some (.stop place :: below))
    (stepped : s.stopStep i below place = some s') : s'.Sound := by
  have held := sound.holds i _ here
  cases place with
  | entered =>
    cases stepped
    split
    · have goes : { s with isRunning := false }.StackHolds i (.stop .joining :: below) :=
        (sound.notRunning.holds i _ here).replace trivial nofun
      exact sound.notRunning.setStack here goes (.refl _) fun _ => rfl
    · exact sound.pop here rfl fun _ => rfl
  | joining =>
    obtain ⟨idle, is⟩ := Option.ite_none_right_eq_some.mp stepped
    cases is
    have joined := sound.join idle
    have goes : { s with joined := true }.StackHolds i (.stop .copying :: below) :=
      (joined.holds i _ here).replace rfl nofun
    exact joined.setStack here goes (.refl _) fun _ => rfl
  | copying =>
    cases stepped
    have goes : s.StackHolds i (.stop (.iterating s.connections) :: below) :=
      held.replace ⟨held.2.1, sound.registered, fun _ member => .inl member⟩ nofun
    exact sound.setStack here goes (.refl _) fun _ => rfl
  | iterating rest =>
    obtain ⟨joined, known, covered⟩ := held.2.1
    cases rest with
    | nil =>
      cases stepped
      exact (sound.clear here).2.pop here rfl fun _ => rfl
    | cons id rest =>
      cases stepped
      -- the next one goes from the copy to the call above
      have iterating : (ServerFrame.stop (.iterating rest)).Holds s i [id] := by
        refine ⟨joined, List.Subset.trans (List.subset_cons_self id rest) known,
          fun other member => ?_⟩
        rcases covered other member with member | above
        · exact (List.mem_cons.mp member).symm.imp_right List.mem_singleton.mpr
        · cases above
      have below' : s.Below i [id] below :=
        held.2.2.mono (.refl s) fun _ _ above => absurd above List.not_mem_nil
      have goes : s.StackHolds i
          (.disconnect id .entered :: .stop (.iterating rest) :: below) :=
        ⟨held.1, known List.mem_cons_self, trivial, iterating, below'⟩
      apply sound.setStack here goes (.refl _)
      exact fun other => List.filterMap_cons_none (ServerFrame.activePlace_entered other id)

/-! ### All steps -/

theorem newClient (sound : s.Sound) (waits : s.Waits i) (new : id ∉ s.used) (observers : Nat) :
    ({ s with used := id :: s.used }.push i (.onNewClient id (.entered observers))).Sound := by
  obtain ⟨worker, working, here⟩ := waits
  have here' : { s with used := id :: s.used }.threads[i]? = some [] := here
  rw [push_eq here']
  obtain ⟨s', is⟩ : ∃ s', s' = { s with used := id :: s.used }.setStack i
    [.onNewClient id (.entered observers)] := ⟨_, rfl⟩
  have threads : s'.threads = s.threads.set i [.onNewClient id (.entered observers)] := is ▸ rfl
  have joined : s'.joined = s.joined := is ▸ rfl
  have used : s'.used = id :: s.used := is ▸ rfl
  have accepted : s'.accepted = s.accepted := is ▸ rfl
  have connection : s'.connection = s.connection := is ▸ rfl
  have connections : s'.connections = s.connections := is ▸ rfl
  have cleared : s'.cleared = s.cleared := is ▸ rfl
  have workers : s'.workers = s.workers := is ▸ rfl
  have evolves : s.Evolves s' := ⟨workers, accepted ▸ List.Subset.refl _,
    fun joined' => joined.trans joined', fun _ => connections ▸ List.Subset.refl _⟩
  rw [← is]
  constructor
  case holds =>
    intro j stack
    apply sound.threads_of_move evolves joined threads
    refine ⟨fun joined' => ?_, ?_, trivial⟩
    · cases working.symm.trans (joined.symm.trans joined')
    · exact Nat.lt_of_lt_of_eq worker workers.symm
  case fresh => exact used ▸ List.nodup_cons.mpr ⟨new, sound.fresh⟩
  case once =>
    intro other
    have once := sound.once other
    -- the id that is used is the one that enters
    have moved := entering_move here threads other
    have before : ([] : List ServerFrame).filterMap ServerFrame.enters = [] := rfl
    have after : [ServerFrame.onNewClient id (.entered observers)].filterMap
        ServerFrame.enters = [id] := rfl
    rw [before, after, List.count_nil, List.count_cons, List.count_nil] at moved
    rw [used, accepted, List.count_cons]
    omega
  case stages =>
    intro other member
    rw [activeOf_move here threads rfl, connection, connections]
    exact sound.stages other (accepted ▸ member)
  case wired => exact connection ▸ sound.wired
  case nodup => exact connections ▸ sound.nodup
  case registered => exact connections ▸ accepted ▸ sound.registered
  case cleared => exact joined ▸ connections ▸ cleared ▸ sound.cleared

theorem frameStep (sound : s.Sound) (serial : s.Serial)
    (here : s.threads[i]? = some (frame :: below))
    (stepped : s.frameStep i below frame = some s') : s'.Sound := by
  cases frame with
  | onNewClient id place =>
    cases stepped
    exact sound.newClientStep here
  | asyncHandler id completion =>
    cases stepped
    exact sound.handlerStep here
  | onRawReceive id units left =>
    cases stepped
    exact sound.receiveStep here
  | disconnect id place => exact sound.disconnectStep serial here stepped
  | starting id =>
    cases stepped
    exact sound.startingStep here
  | callback =>
    cases stepped
    exact sound.pop here rfl fun _ => rfl
  | stop place => exact sound.stopStep here stepped

theorem act (sound : s.Sound) (serial : s.Serial) {a : ServerAction}
    (stepped : s.act a = some s') : s'.Sound := by
  cases a with
  | newClient i id observers =>
    obtain ⟨⟨waits, new⟩, is⟩ := Option.ite_none_right_eq_some.mp stepped
    cases is
    exact sound.newClient waits new observers
  | complete i id completion =>
    obtain ⟨⟨⟨_, working, here⟩, accepted, _⟩, is⟩ := Option.ite_none_right_eq_some.mp stepped
    cases is
    -- a completed operation is not looked at by the stages
    have stage (accepted : id ∈ s.accepted) :
        Stage { s.connection id with pending := (s.connection id).pending - 1 }
          (id ∈ s.connections) (s.activeOf id) := (sound.stages id accepted).congr rfl rfl .rfl
    have completed := sound.setConnection stage (sound.wired id)
    refine completed.push here ⟨fun joined => ?_, ?_, trivial⟩ rfl fun _ => rfl
    · cases working.symm.trans joined
    · exact accepted
  | disconnect i id =>
    obtain ⟨⟨free, accepted⟩, is⟩ := Option.ite_none_right_eq_some.mp stepped
    cases is
    exact sound.push_free free accepted rfl fun other => ServerFrame.activePlace_entered other id
  | subscribe i id kind =>
    obtain ⟨⟨_, _, unlocked⟩, is⟩ := Option.ite_none_right_eq_some.mp stepped
    cases is
    exact sound.setConnection (fun accepted => (sound.stages id accepted).subscribe unlocked)
      ((sound.wired id).subscribe _)
  | commit i id =>
    obtain ⟨⟨free, _⟩, is⟩ := Option.ite_none_right_eq_some.mp stepped
    cases is
    split
    · exact sound.push_free free trivial rfl fun _ => rfl
    · exact sound
  | stop i =>
    obtain ⟨⟨free, _⟩, is⟩ := Option.ite_none_right_eq_some.mp stepped
    cases is
    exact sound.push_free free trivial rfl fun _ => rfl
  | thread i =>
    simp only [Server.act] at stepped
    split at stepped
    next here => exact sound.frameStep serial here stepped
    next => cases stepped

end Sound

/-! ### All runs -/

/-- Behind the step no two threads are in `disconnect` for the same connection. -/
def Serialised (s : Server) (a : ServerAction) : Prop := ∀ s' ∈ s.step a, s'.Serial

instance : ∀ s a, Decidable (Serialised s a) :=
  fun s a => inferInstanceAs (Decidable (∀ s' ∈ s.step a, s'.Serial))

/-- What a run is to meet. -/
structure Orderly (s : Server) (a : ServerAction) : Prop where
  serialised : s.Serialised a
  unshared : s.Unshared a

instance (s : Server) (a : ServerAction) : Decidable (s.Orderly a) :=
  decidable_of_iff (s.Serialised a ∧ s.Unshared a) ⟨fun ⟨a, b⟩ => ⟨a, b⟩, fun ⟨a, b⟩ => ⟨a, b⟩⟩

theorem act_of_step {a : ServerAction} (stepped : s.step a = some s') :
    s.crashed = false ∧ s.act a = some s' := by
  obtain ⟨alive, acts⟩ := Option.ite_none_left_eq_some.mp stepped
  exact ⟨Bool.eq_false_iff.mpr alive, acts⟩

theorem sound_of_visits {workers outside : Nat} {acts : List ServerAction}
    (orderly : Meets step Orderly (start workers outside) acts)
    (visited : Visits step (start workers outside) acts s) :
    s.Sound ∧ s.Serial ∧ s.Intact := by
  have keeps (s : Server) (a : ServerAction) (s' : Server)
      (sound : s.Sound ∧ s.Serial ∧ s.Intact) (orderly : s.Orderly a)
      (stepped : s.step a = some s') : s'.Sound ∧ s'.Serial ∧ s'.Intact := by
    obtain ⟨sound, serial, intact⟩ := sound
    have acts := (act_of_step stepped).2
    exact ⟨sound.act serial acts, orderly.serialised s' stepped,
      intact.act orderly.unshared acts⟩
  have serial : (start workers outside).Serial := by
    apply List.pairwise_iff_forall_sublist.mpr
    intro stack other sublist id member
    rw [List.eq_of_mem_replicate (sublist.subset List.mem_cons_self)] at member
    cases member
  exact visits_invariant keeps ⟨.start workers outside, serial, .start workers outside⟩ orderly
    visited

/-- A thread is in `on_diconnected` of a connection, and goes on there. -/
def Notifying (s : Server) (id : Nat) : Prop :=
  s.crashed = false ∧ ∃ stack ∈ s.threads, ∃ kind, .disconnect id (.locking kind) ∈ stack ∨
    ∃ next, .disconnect id (.notifying kind next) ∈ stack

theorem Sound.settled (sound : s.Sound) (alive : s.crashed = false) (accepted : id ∈ s.accepted)
    (quiet : ¬ s.Notifying id) :
    (id ∈ s.connections ↔ (s.connection id).isConnected = true) ∧
      ((s.connection id).isConnected = false →
        ∀ kind, ((s.connection id).observable kind).Done) := by
  apply (sound.stages id accepted).settled
  intro kind next
  constructor
  · intro active
    obtain ⟨_, stack, inside, member⟩ := mem_activeOf active
    exact quiet ⟨alive, stack, inside, kind, .inl member⟩
  · intro active
    obtain ⟨_, stack, inside, member⟩ := mem_activeOf active
    exact quiet ⟨alive, stack, inside, kind, .inr ⟨next, member⟩⟩

/-- What the users of a server rely on. -/
structure Exact (s : Server) : Prop where
  alive : s.crashed = false
  distinct : s.accepted.Nodup
  /-- no observer runs twice -/
  at_most_once : ∀ id ∈ s.accepted, ∀ kind,
    ∀ observer ∈ ((s.connection id).observable kind).observers, observer.runs ≤ 1
  /-- those that have been subscribed in time have run when a connection is disconnected -/
  exactly_once : ∀ id ∈ s.accepted, ¬ s.Notifying id → (s.connection id).isConnected = false →
    ∀ kind, ∀ observer ∈ ((s.connection id).observable kind).observers,
      observer.early = true → observer.runs = 1
  /-- a connection is disconnected when a call of `disconnect` returns, nested or not -/
  returned : ∀ i id place below s', s.threads[i]? = some (.disconnect id place :: below) →
    s.step (.thread i) = some s' → s'.threads[i]? = some below →
    id ∉ s'.connections ∧ (s'.connection id).isConnected = false
  nodup : s.connections.Nodup
  registered_iff : ∀ id, ¬ s.Notifying id →
    (id ∈ s.connections ↔ id ∈ s.accepted ∧ (s.connection id).isConnected = true)
  /-- `stop(true)` leaves nothing in the registry and nobody connected -/
  stopped : s.cleared = true →
    s.connections = [] ∧ ∀ id ∈ s.accepted, (s.connection id).isConnected = false

end Server

end ServerLib.Network
