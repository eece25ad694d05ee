import Mathlib.Data.List.Nodup
import Mathlib.Logic.Function.Basic
import ServerLib.Foundation.Transition

/-!
# The connections of the web server

`http_server_base_impl` keeps plain pointers to its connections, so that `stop` can close them.
The owners are shared pointers; their deleter takes the pointer out of the set, under the mutex,
before it frees the connection. `stop` closes all connections of the set under the same mutex, and
may so reach one whose last owner has gone but whose deleter still waits. An address may be used
again once it is free.
-/
namespace ServerLib.Web

open Transition

/-- What a pointer points to. `owned` and `erasing` say whether the connection has been taken out
of the set by `stop` or by an upgrade. -/
inductive ConnectionState where
  /-- no connection is there -/
  | free
  /-- `create_connection` has made it and not put it into the set -/
  | creating
  | owned (released : Bool)
  /-- the last owner has gone, the deleter has not taken the mutex -/
  | erasing (released : Bool)
  /-- the deleter has still to `delete` it -/
  | deleting
  deriving DecidableEq, Repr

/-- `closed` lists what `stop` has closed, and `dangled` says that it has used a pointer to no
connection. -/
structure LiveConnections where
  state : Nat → ConnectionState := fun _ => .free
  connections : List Nat := []
  closed : List Nat := []
  dangled : Bool := false

inductive LiveAction where
  | allocate (p : Nat)
  | emplace (p : Nat)
  | upgrade (p : Nat)
  | release (p : Nat)
  | erase (p : Nat)
  | delete (p : Nat)
  | stop

namespace ConnectionState

/-- `stop` and an upgrade take the connection out of the set. -/
def leave : ConnectionState → ConnectionState
  | owned _ => owned true
  | erasing _ => erasing true
  | other => other

/-- The connection belongs into the set. -/
def listed : ConnectionState → Bool
  | owned released | erasing released => !released
  | _ => false

@[simp] theorem listed_leave (c : ConnectionState) : c.leave.listed = false := by
  cases c with
  | owned _ => rfl
  | erasing _ => rfl
  | _ => rfl

end ConnectionState

namespace LiveConnections

def setState (s : LiveConnections) (p : Nat) (c : ConnectionState) : LiveConnections :=
  { s with state := Function.update s.state p c }

/-- The sections under `connections_mutex` and the steps between them. -/
def step (s : LiveConnections) : LiveAction → Option LiveConnections
  | .allocate p => if s.state p = .free then some (s.setState p .creating) else none
  | .emplace p =>
    if s.state p = .creating then
      some { (s.setState p (.owned false)) with connections := s.connections.insert p }
    else none
  | .upgrade p =>
    -- the session that is upgraded owns its connection
    match s.state p with
    | .owned _ => some { (s.setState p (.owned true)) with connections := s.connections.erase p }
    | _ => none
  | .release p =>
    match s.state p with
    | .owned released => some (s.setState p (.erasing released))
    | _ => none
  | .erase p =>
    match s.state p with
    | .erasing _ => some { (s.setState p .deleting) with connections := s.connections.erase p }
    | _ => none
  | .delete p => if s.state p = .deleting then some (s.setState p .free) else none
  | .stop =>
    some
      { state := fun p => if p ∈ s.connections then (s.state p).leave else s.state p
        connections := []
        closed := s.closed ++ s.connections
        dangled := s.dangled || s.connections.any fun p => s.state p = .free }

/-- The set has exactly the connections that belong into it, each once, and no pointer was used
that pointed nowhere. -/
structure Tracked (s : LiveConnections) : Prop where
  nodup : s.connections.Nodup
  exact_ : ∀ p, p ∈ s.connections ↔ (s.state p).listed = true
  sound : s.dangled = false

variable {s s' : LiveConnections}

/-- One connection changes its state, and enters or leaves the set accordingly. -/
theorem Tracked.setState (tracked : s.Tracked) {p : Nat} {c : ConnectionState}
    {connections : List Nat} (nodup : connections.Nodup)
    (here : p ∈ connections ↔ c.listed = true)
    (others : ∀ q, q ≠ p → (q ∈ connections ↔ q ∈ s.connections)) :
    ({ (s.setState p c) with connections } : LiveConnections).Tracked where
  nodup := nodup
  exact_ q := by
    dsimp only [LiveConnections.setState]
    by_cases same : q = p
    · rw [same, Function.update_self]
      exact here
    · rw [Function.update_of_ne same, others q same]
      exact tracked.exact_ q
  sound := tracked.sound

theorem Tracked.not_mem (tracked : s.Tracked) {p : Nat} {c : ConnectionState} (is : s.state p = c)
    (unlisted : c.listed = false) : p ∉ s.connections := by
  rw [tracked.exact_, is, unlisted]
  exact Bool.false_ne_true

theorem tracked_step (s : LiveConnections) (a : LiveAction) (s' : LiveConnections)
    (tracked : s.Tracked) (stepped : s.step a = some s') : s'.Tracked := by
  cases a with
  | allocate p =>
    simp only [step, Option.ite_none_right_eq_some, Option.some.injEq] at stepped
    obtain ⟨free, rfl⟩ := stepped
    apply tracked.setState tracked.nodup
    · exact iff_of_false (tracked.not_mem free rfl) Bool.false_ne_true
    · exact fun _ _ => Iff.rfl
  | emplace p =>
    simp only [step, Option.ite_none_right_eq_some, Option.some.injEq] at stepped
    obtain ⟨creating, rfl⟩ := stepped
    apply tracked.setState
    · exact tracked.nodup.insert
    · exact iff_of_true List.mem_insert_self rfl
    · intro q other
      simp [List.mem_insert_iff, other]
  | upgrade p =>
    simp only [step] at stepped
    split at stepped
    · obtain rfl := Option.some.inj stepped
      apply tracked.setState
      · exact tracked.nodup.erase p
      · exact iff_of_false tracked.nodup.not_mem_erase Bool.false_ne_true
      · exact fun q other => List.mem_erase_of_ne other
    · cases stepped
  | release p =>
    simp only [step] at stepped
    split at stepped
    next released owned =>
      obtain rfl := Option.some.inj stepped
      apply tracked.setState tracked.nodup
      · have before := tracked.exact_ p
        rw [owned] at before
        exact before
      · exact fun _ _ => Iff.rfl
    · cases stepped
  | erase p =>
    simp only [step] at stepped
    split at stepped
    · obtain rfl := Option.some.inj stepped
      apply tracked.setState
      · exact tracked.nodup.erase p
      · exact iff_of_false tracked.nodup.not_mem_erase Bool.false_ne_true
      · exact fun q other => List.mem_erase_of_ne other
    · cases stepped
  | delete p =>
    simp only [step, Option.ite_none_right_eq_some, Option.some.injEq] at stepped
    obtain ⟨deleting, rfl⟩ := stepped
    apply tracked.setState tracked.nodup
    · exact iff_of_false (tracked.not_mem deleting rfl) Bool.false_ne_true
    · exact fun _ _ => Iff.rfl
  | stop =>
    obtain rfl := Option.some.inj stepped
    refine ⟨List.nodup_nil, fun p => iff_of_false List.not_mem_nil ?_, ?_⟩
    · -- what was in the set has left it, and nothing else belonged there
      dsimp only
      split
      · rw [ConnectionState.listed_leave]
        exact Bool.false_ne_true
      next outside => rwa [← tracked.exact_]
    · rw [tracked.sound, Bool.false_or, List.any_eq_false]
      intro p member
      have listed := (tracked.exact_ p).mp member
      intro free
      rw [of_decide_eq_true free] at listed
      cases listed

theorem tracked_start : ({} : LiveConnections).Tracked :=
  ⟨List.nodup_nil, fun _ => iff_of_false List.not_mem_nil Bool.false_ne_true, rfl⟩

/-- What `stop` may do in a state: it uses no pointer that points nowhere, and it closes every
connection that is in use, unless an earlier `stop` or an upgrade has taken it out. -/
structure SafeToStop (s : LiveConnections) : Prop where
  attached : s.dangled = false
  there : ∀ p ∈ s.connections, s.state p = .owned false ∨ s.state p = .erasing false
  complete : ∀ p, s.state p = .owned false → p ∈ s.connections
  once : s.connections.Nodup

/-- In every interleaving of `create_connection`, upgrades, deleters and `stop`. -/
theorem safe_to_stop {acts : List LiveAction} (visited : Visits step {} acts s) :
    s.SafeToStop := by
  have tracked : s.Tracked := visited.invariant tracked_step tracked_start
  refine ⟨tracked.sound, fun p member => ?_, fun p owned => ?_, tracked.nodup⟩
  · have listed := (tracked.exact_ p).mp member
    cases is : s.state p with
    | owned released =>
      rw [is, ConnectionState.listed, Bool.not_eq_true'] at listed
      rw [listed]
      exact .inl rfl
    | erasing released =>
      rw [is, ConnectionState.listed, Bool.not_eq_true'] at listed
      rw [listed]
      exact .inr rfl
    | _ =>
      rw [is] at listed
      cases listed
  · rw [tracked.exact_, owned]
    rfl

private def reused : List LiveAction :=
  [.allocate 1, .emplace 1, .allocate 2, .emplace 2, .upgrade 2, .release 1, .stop, .erase 1,
    .delete 1, .allocate 1, .emplace 1, .stop]

/-- `stop` reaches a connection whose deleter waits for the mutex; its address is used again. -/
theorem safe_to_stop_reused :
    ∃ s, run step {} reused = some s ∧ s.closed = [1, 1] ∧ s.SafeToStop := by
  have ran : (run step {} reused).map closed = some [1, 1] := by decide +kernel
  obtain ⟨s, is, seen⟩ := Option.map_eq_some_iff.mp ran
  exact ⟨s, is, seen, safe_to_stop (visits_of_run is)⟩

end LiveConnections

end ServerLib.Web
