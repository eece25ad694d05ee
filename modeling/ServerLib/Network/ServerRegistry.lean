import Mathlib.Data.List.Nodup
import ServerLib.Network.ServerConnections

/-!
# The registry of connections

As long as the calls of `disconnect` for a connection come one after the other, nested or not, one
of them at most is past its check. A function that is below another on its stack is in a callback,
so that a nested call finds the connection out of the registry already. `stop(true)` has what is
in the registry in its copy, so that nothing is left for it to clear.
-/
namespace ServerLib.Network

open Transition Threads

/-! ### Frames -/

namespace ServerFrame

/-- The connection that a function disconnects. -/
def disconnects : ServerFrame → Option Nat
  | .disconnect id _ => some id
  | _ => none

/-- Where a call of `disconnect` for a connection is, if it is past its check. -/
def activePlace (id : Nat) : ServerFrame → Option DisconnectPlace
  | .disconnect other place => if other = id ∧ place ≠ .entered then some place else none
  | _ => none

/-- The raw connection that `on_new_client` has not put into the registry yet. -/
def enters : ServerFrame → Option Nat
  | .onNewClient id (.entered _) => some id
  | .onNewClient id (.creating _) => some id
  | _ => none

/-- A function that is in the middle of a call: `disconnect` calls nobody else but the
observers. -/
def Calls : ServerFrame → Prop
  | .disconnect _ place => ∃ kind next, place = .notifying kind (next + 1)
  | _ => True

/-- What a function relies on, below calls that disconnect some connections. -/
def Holds (s : Server) (i : Nat) (above : List Nat) : ServerFrame → Prop
  | .onNewClient .. => i < s.workers
  | .asyncHandler id _ => id ∈ s.accepted
  | .onRawReceive id .. => id ∈ s.accepted
  | .disconnect id _ => id ∈ s.accepted
  | .starting _ => True
  | .callback => True
  | .stop .entered => True
  | .stop .joining => True
  | .stop .copying => s.joined = true
  | .stop (.iterating rest) =>
    s.joined = true ∧ rest ⊆ s.accepted ∧ ∀ id ∈ s.connections, id ∈ rest ∨ id ∈ above

theorem activePlace_entered (id other : Nat) :
    activePlace id (.disconnect other .entered) = none := if_neg fun active => active.2 rfl

theorem activePlace_self (id : Nat) {place : DisconnectPlace} (active : place ≠ .entered) :
    activePlace id (.disconnect id place) = some place := if_pos ⟨rfl, active⟩

theorem activePlace_of_ne {id other : Nat} (differs : id ≠ other) (place : DisconnectPlace) :
    activePlace id (.disconnect other place) = none := if_neg fun active => differs active.1.symm

theorem mem_of_activePlace {id : Nat} {frame : ServerFrame} {place : DisconnectPlace}
    (active : frame.activePlace id = some place) :
    frame = .disconnect id place ∧ place ≠ .entered := by
  cases frame with
  | disconnect other here =>
    obtain ⟨⟨rfl, past⟩, is⟩ := Option.ite_none_right_eq_some.mp active
    cases is
    exact ⟨rfl, past⟩
  | _ => cases active

end ServerFrame

namespace Server

variable {s s' : Server} {i id : Nat} {frame new : ServerFrame}
  {stack below : List ServerFrame} {above above' : List Nat}

@[simp] theorem setConnection_self {c : ServerConnection} :
    (s.setConnection id c).connection id = c := by
  simp only [setConnection, Function.update_self]

theorem setConnection_of_ne {c : ServerConnection} {other : Nat} (differs : other ≠ id) :
    (s.setConnection id c).connection other = s.connection other := by
  simp only [setConnection, Function.update_of_ne differs]

/-- The calls of `disconnect` for a connection that are past their check. -/
def activeOf (s : Server) (id : Nat) : List DisconnectPlace :=
  s.threads.flatten.filterMap (ServerFrame.activePlace id)

def entering (s : Server) : List Nat := s.threads.flatten.filterMap ServerFrame.enters

/-- No two threads are in `disconnect` for the same connection. -/
def Serial (s : Server) : Prop :=
  s.threads.Pairwise fun stack other => ∀ id ∈ stack.filterMap ServerFrame.disconnects,
    id ∉ other.filterMap ServerFrame.disconnects

instance (s : Server) : Decidable s.Serial := inferInstanceAs (Decidable (List.Pairwise _ _))

/-- The raw connections that one thread goes on with. -/
theorem entering_move (here : s.threads[i]? = some stack) {new : List ServerFrame}
    (moved : s'.threads = s.threads.set i new) (id : Nat) :
    s'.entering.count id + (stack.filterMap ServerFrame.enters).count id =
      s.entering.count id + (new.filterMap ServerFrame.enters).count id := by
  obtain ⟨front, back, is, after⟩ := filterMap_move ServerFrame.enters here
  rw [entering, entering, moved, is, after]
  simp only [List.count_append]
  omega

theorem activeOf_move (here : s.threads[i]? = some stack) {new : List ServerFrame}
    (moved : s'.threads = s.threads.set i new)
    (same : new.filterMap (ServerFrame.activePlace id) =
      stack.filterMap (ServerFrame.activePlace id)) : s'.activeOf id = s.activeOf id := by
  rw [activeOf, moved]
  exact filterMap_move_same here same

def Below (s : Server) (i : Nat) : List Nat → List ServerFrame → Prop
  | _, [] => True
  | above, frame :: below =>
    frame.Calls ∧ frame.Holds s i above ∧ Below s i (frame.disconnects.toList ++ above) below

/-- A stack is empty, or all of its functions but the innermost call another. A worker that has
been joined is in none. -/
def StackHolds (s : Server) (i : Nat) : List ServerFrame → Prop
  | [] => True
  | frame :: below =>
    (s.joined = true → s.workers ≤ i) ∧ frame.Holds s i [] ∧
      s.Below i frame.disconnects.toList below

/-- What the functions rely on stays. -/
structure Evolves (s s' : Server) : Prop where
  workers : s'.workers = s.workers
  accepted : s.accepted ⊆ s'.accepted
  joined : s.joined = true → s'.joined = true
  connections : s.joined = true → s'.connections ⊆ s.connections

theorem Evolves.refl (s : Server) : s.Evolves s :=
  ⟨rfl, List.Subset.refl _, id, fun _ => List.Subset.refl _⟩

theorem holds_mono (holds : frame.Holds s i above) (evolves : s.Evolves s')
    (covers : ∀ id ∈ s'.connections, id ∈ above → id ∈ above') : frame.Holds s' i above' := by
  cases frame with
  | onNewClient => exact Nat.lt_of_lt_of_eq holds evolves.workers.symm
  | asyncHandler => exact evolves.accepted holds
  | onRawReceive => exact evolves.accepted holds
  | disconnect => exact evolves.accepted holds
  | starting => trivial
  | callback => trivial
  | stop place =>
    cases place with
    | entered => trivial
    | joining => trivial
    | copying => exact evolves.joined holds
    | iterating rest =>
      obtain ⟨joined, known, covered⟩ := holds
      -- nobody enters the registry any more behind the join
      refine ⟨evolves.joined joined, List.Subset.trans known evolves.accepted, fun id member => ?_⟩
      exact (covered id (evolves.connections joined member)).imp_right (covers id member)

theorem Below.mono (held : s.Below i above stack) (evolves : s.Evolves s')
    (covers : ∀ id ∈ s'.connections, id ∈ above → id ∈ above') : s'.Below i above' stack := by
  induction stack generalizing above above' with
  | nil => trivial
  | cons frame below ih =>
    obtain ⟨calls, holds, held⟩ := held
    -- on both sides the frame itself is in front of the others
    refine ⟨calls, holds_mono holds evolves covers, ih held fun id member there => ?_⟩
    rcases List.mem_append.mp there with here | there
    · exact List.mem_append_left _ here
    · exact List.mem_append_right _ (covers id member there)

/-- Each function below the innermost is in the middle of a call. -/
theorem Below.calls (held : s.Below i above stack) (member : frame ∈ stack) : frame.Calls := by
  induction stack generalizing above with
  | nil => cases member
  | cons first below ih =>
    obtain ⟨calls, _, held⟩ := held
    rcases List.mem_cons.mp member with rfl | member
    · exact calls
    · exact ih held member

theorem Below.of_mem (held : s.Below i above stack) (member : frame ∈ stack) :
    ∃ above, frame.Holds s i above := by
  induction stack generalizing above with
  | nil => cases member
  | cons first below ih =>
    obtain ⟨_, holds, held⟩ := held
    rcases List.mem_cons.mp member with rfl | member
    · exact ⟨above, holds⟩
    · exact ih held member

namespace StackHolds

theorem outside (held : s.StackHolds i stack) (nonempty : stack ≠ []) :
    s.joined = true → s.workers ≤ i := by
  cases stack with
  | nil => exact absurd rfl nonempty
  | cons => exact held.1

theorem of_mem (held : s.StackHolds i stack) (member : frame ∈ stack) :
    ∃ above, frame.Holds s i above := by
  cases stack with
  | nil => cases member
  | cons first below =>
    rcases List.mem_cons.mp member with rfl | member
    · exact ⟨[], held.2.1⟩
    · exact held.2.2.of_mem member

theorem evolves (held : s.StackHolds i stack) (evolves : s.Evolves s')
    (outside : stack ≠ [] → s'.joined = true → s.workers ≤ i) : s'.StackHolds i stack := by
  cases stack with
  | nil => trivial
  | cons frame below =>
    refine ⟨fun joined => ?_, holds_mono held.2.1 evolves fun _ _ => id,
      held.2.2.mono evolves fun _ _ => id⟩
    rw [evolves.workers]
    exact outside (List.cons_ne_nil _ _) joined

theorem kept (held : s.StackHolds i stack) (evolves : s.Evolves s')
    (joined : s'.joined = s.joined) : s'.StackHolds i stack :=
  held.evolves evolves fun nonempty joined' => held.outside nonempty (joined ▸ joined')

/-- The innermost function returns. -/
theorem pop (held : s.StackHolds i (frame :: below))
    (unregistered : ∀ id ∈ frame.disconnects, id ∉ s.connections) : s.StackHolds i below := by
  obtain ⟨outside, _, held⟩ := held
  -- what the function has disconnected is not in the registry any more
  have covers : ∀ id ∈ s.connections, id ∈ frame.disconnects.toList → id ∈ ([] : List Nat) :=
    fun id member there => absurd member (unregistered id (Option.mem_toList.mp there))
  cases below with
  | nil => trivial
  | cons next below =>
    refine ⟨outside, holds_mono held.2.1 (.refl s) covers, held.2.2.mono (.refl s) ?_⟩
    intro id member there
    rcases List.mem_append.mp there with here | there
    · exact here
    · exact absurd (covers id member there) List.not_mem_nil

/-- The innermost function goes on. -/
theorem replace (held : s.StackHolds i (frame :: below)) (holds : new.Holds s i [])
    (still : ∀ id ∈ frame.disconnects, id ∈ new.disconnects) : s.StackHolds i (new :: below) := by
  refine ⟨held.1, holds, held.2.2.mono (.refl s) fun id _ there => ?_⟩
  exact Option.mem_toList.mpr (still id (Option.mem_toList.mp there))

/-- The innermost function calls another. -/
theorem push (held : s.StackHolds i (frame :: below)) (calls : frame.Calls)
    (holds : new.Holds s i []) : s.StackHolds i (new :: frame :: below) := by
  refine ⟨held.1, holds, calls, holds_mono held.2.1 (.refl s) nofun, held.2.2.mono (.refl s) ?_⟩
  exact fun id _ there => List.mem_append_left _ there

end StackHolds

/-! ### The invariant -/

/-- Of two states only the threads and one connection may differ. -/
structure Leaves (s s' : Server) (id : Nat) : Prop where
  workers : s'.workers = s.workers
  joined : s'.joined = s.joined
  used : s'.used = s.used
  accepted : s'.accepted = s.accepted
  connections : s'.connections.Sublist s.connections
  others : ∀ other, other ≠ id →
    (other ∈ s'.connections ↔ other ∈ s.connections) ∧ s'.connection other = s.connection other
  cleared : s'.cleared = s.cleared

theorem Leaves.evolves (leaves : s.Leaves s' id) : s.Evolves s' where
  workers := leaves.workers
  accepted := by rw [leaves.accepted]; exact List.Subset.refl _
  joined joined := leaves.joined.trans joined
  connections _ := leaves.connections.subset

theorem Leaves.refl (s : Server) (id : Nat) : s.Leaves s id :=
  ⟨rfl, rfl, rfl, rfl, .refl _, fun _ _ => ⟨.rfl, rfl⟩, rfl⟩

theorem Leaves.setConnection (c : ServerConnection) : s.Leaves (s.setConnection id c) id :=
  ⟨rfl, rfl, rfl, rfl, .refl _, fun _ differs => ⟨.rfl, setConnection_of_ne differs⟩, rfl⟩

theorem Leaves.setStack (leaves : s.Leaves s' id) (new : List ServerFrame) :
    s.Leaves (s'.setStack i new) id :=
  ⟨leaves.workers, leaves.joined, leaves.used, leaves.accepted, leaves.connections, leaves.others,
    leaves.cleared⟩

theorem Leaves.onClientDisconnected (leaves : s.Leaves s' id) :
    s.Leaves (s'.onClientDisconnected id) id where
  workers := leaves.workers
  joined := leaves.joined
  used := leaves.used
  accepted := leaves.accepted
  connections := List.erase_sublist.trans leaves.connections
  others other differs :=
    ⟨(List.mem_erase_of_ne differs).trans (leaves.others other differs).1,
      (leaves.others other differs).2⟩
  cleared := leaves.cleared

/-- Of two states the second one has another connection in its registry. -/
structure Enters (s s' : Server) (id : Nat) : Prop where
  workers : s'.workers = s.workers
  joined : s'.joined = s.joined
  used : s'.used = s.used
  accepted : s'.accepted = id :: s.accepted
  connections : s'.connections = id :: s.connections
  create : s'.connection id = .create
  others : ∀ other, other ≠ id → s'.connection other = s.connection other
  cleared : s'.cleared = s.cleared

theorem Enters.accept (s : Server) (i id : Nat) (new : List ServerFrame) :
    s.Enters ((s.accept id).setStack i new) id :=
  ⟨rfl, rfl, rfl, rfl, rfl, setConnection_self, fun _ => setConnection_of_ne, rfl⟩

/-- No connection is accepted any more when the workers have been joined. -/
theorem Enters.evolves (enters : s.Enters s' id) (working : ¬ s.joined = true) :
    s.Evolves s' where
  workers := enters.workers
  accepted := enters.accepted ▸ List.subset_cons_self id s.accepted
  joined joined := enters.joined.trans joined
  connections joined := absurd joined working

structure Sound (s : Server) : Prop where
  holds : ∀ i stack, s.threads[i]? = some stack → s.StackHolds i stack
  fresh : s.used.Nodup
  /-- a raw connection is put into the registry once -/
  once : ∀ id, s.entering.count id + s.accepted.count id ≤ s.used.count id
  stages : ∀ id ∈ s.accepted, Stage (s.connection id) (id ∈ s.connections) (s.activeOf id)
  wired : ∀ id, (s.connection id).Wired
  nodup : s.connections.Nodup
  registered : s.connections ⊆ s.accepted
  cleared : s.cleared = true → s.joined = true ∧ s.connections = []

namespace Sound

theorem start (workers outside : Nat) : (start workers outside).Sound where
  holds i stack here := by
    rw [List.eq_of_mem_replicate (List.mem_of_getElem? here)]
    trivial
  fresh := List.nodup_nil
  once id := by simp [entering, Server.start]
  stages := nofun
  wired _ := .create
  nodup := List.nodup_nil
  registered := List.Subset.refl _
  cleared := nofun

theorem threads_of_move (sound : s.Sound) (evolves : s.Evolves s') (joined : s'.joined = s.joined)
    {new : List ServerFrame} (moved : s'.threads = s.threads.set i new)
    (holds : s'.StackHolds i new) {j : Nat} (there : s'.threads[j]? = some stack) :
    s'.StackHolds j stack := by
  rw [moved] at there
  rcases getElem?_move there with ⟨rfl, rfl⟩ | ⟨_, there⟩
  · exact holds
  · -- the other threads stand where they stood
    exact (sound.holds j stack there).kept evolves joined

/-- All that is to be shown of a step that changes one connection. -/
theorem change (sound : s.Sound) (leaves : s.Leaves s' id)
    (holds : ∀ i stack, s'.threads[i]? = some stack → s'.StackHolds i stack)
    (enters : ∀ other, s'.entering.count other ≤ s.entering.count other)
    (active : ∀ other, other ≠ id → s'.activeOf other = s.activeOf other)
    (stage : id ∈ s.accepted → Stage (s'.connection id) (id ∈ s'.connections) (s'.activeOf id))
    (wired : (s'.connection id).Wired) : s'.Sound where
  holds := holds
  fresh := leaves.used ▸ sound.fresh
  once other := by
    rw [leaves.used, leaves.accepted]
    have once := sound.once other
    have fewer := enters other
    omega
  stages other accepted := by
    rw [leaves.accepted] at accepted
    by_cases same : other = id
    · rw [same] at accepted ⊢
      exact stage accepted
    · -- the calls for the others are where they were
      obtain ⟨registered, connection⟩ := leaves.others other same
      rw [active other same, connection]
      exact (sound.stages other accepted).congr rfl rfl registered
  wired other := by
    by_cases same : other = id
    · exact same ▸ wired
    · rw [(leaves.others other same).2]
      exact sound.wired other
  nodup := leaves.connections.nodup sound.nodup
  registered := leaves.accepted ▸ List.Subset.trans leaves.connections.subset sound.registered
  cleared cleared := by
    obtain ⟨joined, empty⟩ := sound.cleared (leaves.cleared ▸ cleared)
    refine ⟨leaves.joined.trans joined, List.sublist_nil.mp ?_⟩
    rw [← empty]
    exact leaves.connections

/-- All that is to be shown of a step that accepts a connection. -/
theorem enter (sound : s.Sound) (enters : s.Enters s' id) (unknown : id ∉ s.accepted)
    (working : ¬ s.joined = true)
    (holds : ∀ i stack, s'.threads[i]? = some stack → s'.StackHolds i stack)
    (entering : ∀ other, s'.entering.count other + (if id = other then 1 else 0) =
      s.entering.count other)
    (active : ∀ other, s'.activeOf other = s.activeOf other) (inactive : s.activeOf id = []) :
    s'.Sound := by
  constructor
  case holds => exact holds
  case fresh => exact enters.used ▸ sound.fresh
  case once =>
    intro other
    have once := sound.once other
    have entering := entering other
    -- what is accepted had been counted among what enters
    rw [enters.used, enters.accepted, List.count_cons]
    simp only [beq_iff_eq]
    omega
  case stages =>
    intro other member
    rw [active other, enters.connections]
    rcases List.mem_cons.mp (enters.accepted ▸ member) with rfl | member
    · rw [enters.create, inactive]
      exact .create List.mem_cons_self
    · have differs : other ≠ id := fun same => unknown (same ▸ member)
      rw [enters.others other differs]
      apply (sound.stages other member).congr rfl rfl
      rw [List.mem_cons, or_iff_right differs]
  case wired =>
    intro other
    by_cases same : other = id
    · rw [same, enters.create]
      exact .create
    · rw [enters.others other same]
      exact sound.wired other
  case nodup =>
    rw [enters.connections]
    exact List.nodup_cons.mpr ⟨fun member => unknown (sound.registered member), sound.nodup⟩
  case registered =>
    rw [enters.connections, enters.accepted]
    exact List.cons_subset_cons id sound.registered
  case cleared =>
    exact fun cleared => absurd (sound.cleared (enters.cleared ▸ cleared)).1 working

/-- A thread goes on, and changes one connection. -/
theorem move (sound : s.Sound) (here : s.threads[i]? = some stack) {new : List ServerFrame}
    (moved : s'.threads = s.threads.set i new) (leaves : s.Leaves s' id)
    (holds : s'.StackHolds i new)
    (enters : (new.filterMap ServerFrame.enters).Sublist (stack.filterMap ServerFrame.enters))
    (active : ∀ other, other ≠ id → new.filterMap (ServerFrame.activePlace other) =
      stack.filterMap (ServerFrame.activePlace other))
    (stage : id ∈ s.accepted → Stage (s'.connection id) (id ∈ s'.connections) (s'.activeOf id))
    (wired : (s'.connection id).Wired) : s'.Sound := by
  refine sound.change leaves ?_ (fun other => ?_) (fun other differs => ?_) stage wired
  · exact fun j stack => sound.threads_of_move leaves.evolves leaves.joined moved holds
  · -- a raw connection may be dropped, but none is added
    have entering := entering_move here moved other
    have fewer := enters.count_le other
    omega
  · exact activeOf_move here moved (active other differs)

/-- A thread goes on, and nothing else. -/
theorem setStack (sound : s.Sound) (here : s.threads[i]? = some stack) {new : List ServerFrame}
    (holds : s.StackHolds i new)
    (enters : (new.filterMap ServerFrame.enters).Sublist (stack.filterMap ServerFrame.enters))
    (active : ∀ id, new.filterMap (ServerFrame.activePlace id) =
      stack.filterMap (ServerFrame.activePlace id)) : (s.setStack i new).Sound := by
  have leaves : s.Leaves (s.setStack i new) 0 := (Leaves.refl s 0).setStack new
  refine sound.move here rfl leaves (holds.kept leaves.evolves rfl) enters
    (fun id _ => active id) (fun accepted => ?_) (sound.wired 0)
  rw [activeOf_move here rfl (active 0)]
  exact sound.stages 0 accepted

theorem setConnection (sound : s.Sound) {c : ServerConnection}
    (stage : id ∈ s.accepted → Stage c (id ∈ s.connections) (s.activeOf id)) (wired : c.Wired) :
    (s.setConnection id c).Sound := by
  have leaves : s.Leaves (s.setConnection id c) id := .setConnection c
  apply sound.change leaves ?_ (fun _ => Nat.le_refl _) (fun _ _ => rfl)
    (fun accepted => setConnection_self ▸ stage accepted) (setConnection_self ▸ wired)
  exact fun j stack there => (sound.holds j stack there).kept leaves.evolves rfl

/-- An operation is started on the connection. -/
theorem startOperation (sound : s.Sound) (id : Nat) :
    (s.setConnection id
      { s.connection id with pending := (s.connection id).pending + 1 }).Sound :=
  sound.setConnection (fun accepted => (sound.stages id accepted).congr rfl rfl .rfl)
    (sound.wired id)

theorem crash (sound : s.Sound) : { s with crashed := true }.Sound := by
  have leaves : s.Leaves { s with crashed := true } 0 :=
    ⟨rfl, rfl, rfl, rfl, .refl _, fun _ _ => ⟨.rfl, rfl⟩, rfl⟩
  apply sound.change leaves ?_ (fun _ => Nat.le_refl _) (fun _ _ => rfl) (sound.stages 0)
    (sound.wired 0)
  exact fun j stack there => (sound.holds j stack there).kept leaves.evolves rfl

end Sound

end Server

end ServerLib.Network
