import Mathlib.Data.List.Basic
import Mathlib.Logic.Function.Basic

/-!
# Pools of resources that tasks hold

Resources are made one after the other and marked while they are in use. Some of them are
pooled: a task takes a pooled one that is not in use or a new one, may exchange it for a new
one, and gives it back at its end, when resources that are not in use may leave the pool.

Whatever is done in this way a resource is held by one task at most (`Exclusive`). That the
marks of the pool are right and at most one resource idles (`Tidy`) is kept as well, unless a
resource is marked and not handed to a task.
-/

structure ResourcePool where
  created : Nat := 0
  inUse : Nat → Bool := fun _ => false
  members : List Nat := []
  /-- the resource that a task holds -/
  holds : Nat → Option Nat := fun _ => none

namespace ResourcePool

variable {p q : ResourcePool} {task c : Nat}

def idle (p : ResourcePool) : Nat := p.members.countP fun c => !p.inUse c

structure Exclusive (p : ResourcePool) : Prop where
  held : ∀ task c, p.holds task = some c → c < p.created ∧ p.inUse c
  unshared : ∀ t u c, p.holds t = some c → p.holds u = some c → t = u
  nodup : p.members.Nodup
  known : ∀ c ∈ p.members, c < p.created

structure Tidy (p : ResourcePool) : Prop extends Exclusive p where
  used : ∀ c ∈ p.members, p.inUse c → ∃ task, p.holds task = some c
  few : p.idle ≤ 1

theorem tidy_empty : Tidy {} where
  held := nofun
  unshared := nofun
  nodup := List.nodup_nil
  known := nofun
  used := nofun
  few := Nat.zero_le 1

/-- A resource that is not in use is not held. -/
theorem Exclusive.not_held (exclusive : p.Exclusive) (idle : p.inUse c = false) (task : Nat) :
    p.holds task ≠ some c := by
  intro held
  rw [(exclusive.held task c held).2] at idle
  cases idle

theorem Exclusive.not_held_new (exclusive : p.Exclusive) (task : Nat) :
    p.holds task ≠ some p.created :=
  fun held => Nat.lt_irrefl _ (exclusive.held task _ held).1

/-! ### Marking a resource -/

/-- A resource is marked: a pooled one, or a new one. -/
inductive Marks (p : ResourcePool) : Nat → ResourcePool → Prop where
  | pooled {c : Nat} (member : c ∈ p.members) (idle : p.inUse c = false) :
    Marks p c { p with inUse := Function.update p.inUse c true }
  | new : Marks p p.created { p with
      created := p.created + 1
      inUse := Function.update p.inUse p.created true
      members := p.created :: p.members }

theorem Marks.holds_eq (marks : p.Marks c q) : q.holds = p.holds := by
  cases marks <;> rfl

theorem Marks.mem (marks : p.Marks c q) : c ∈ q.members := by
  cases marks with
  | pooled member => exact member
  | new => exact List.mem_cons_self

theorem Marks.inUse_eq (marks : p.Marks c q) : q.inUse = Function.update p.inUse c true := by
  cases marks <;> rfl

theorem Marks.not_held (marks : p.Marks c q) (exclusive : p.Exclusive) (task : Nat) :
    p.holds task ≠ some c := by
  cases marks with
  | pooled _ idle => exact exclusive.not_held idle task
  | new => exact exclusive.not_held_new task

theorem Marks.mem_of_ne (marks : p.Marks c q) {d : Nat} (member : d ∈ q.members) (other : d ≠ c) :
    d ∈ p.members := by
  cases marks with
  | pooled => exact member
  | new => exact (List.mem_cons.mp member).resolve_left other

theorem exclusive_of_marks (exclusive : p.Exclusive) (marks : p.Marks c q) : q.Exclusive := by
  -- what a task holds is another resource than the marked one
  have other : ∀ task d, p.holds task = some d → q.inUse d = p.inUse d := by
    intro task d held
    have differs : d ≠ c := fun same => marks.not_held exclusive task (same ▸ held)
    rw [marks.inUse_eq, Function.update_of_ne differs]
  constructor
  · intro task d held
    rw [marks.holds_eq] at held
    obtain ⟨known, inUse⟩ := exclusive.held task d held
    rw [other task d held]
    refine ⟨?_, inUse⟩
    cases marks with
    | pooled => exact known
    | new => exact Nat.lt_succ_of_lt known
  · rw [marks.holds_eq]
    exact exclusive.unshared
  · cases marks with
    | pooled => exact exclusive.nodup
    | new =>
      exact List.nodup_cons.mpr ⟨fun member => Nat.lt_irrefl _ (exclusive.known _ member),
        exclusive.nodup⟩
  · intro d member
    cases marks with
    | pooled => exact exclusive.known d member
    | new =>
      rcases List.mem_cons.mp member with rfl | before
      · exact Nat.lt_succ_self _
      · exact Nat.lt_succ_of_lt (exclusive.known d before)

theorem Marks.created_lt (marks : p.Marks c q) (exclusive : p.Exclusive) : c < q.created :=
  (exclusive_of_marks exclusive marks).known c marks.mem

/-- Marking makes no resource idle. -/
theorem Marks.idle_le (marks : p.Marks c q) : q.idle ≤ p.idle := by
  have fewer : ∀ members : List Nat,
      members.countP (fun d => !Function.update p.inUse c true d) ≤
        members.countP fun d => !p.inUse d := by
    intro members
    apply List.countP_mono_left
    intro d _ idle
    by_cases same : d = c
    · simp [same] at idle
    · rwa [Function.update_of_ne same] at idle
  unfold idle
  rw [marks.inUse_eq]
  cases marks with
  | pooled => exact fewer _
  | new =>
    rw [List.countP_cons_of_neg (by simp)]
    exact fewer _

/-! ### What tasks do -/

def hand (p : ResourcePool) (task c : Nat) : ResourcePool :=
  { p with holds := Function.update p.holds task (some c) }

theorem hand_holds (p : ResourcePool) (task c t : Nat) :
    (p.hand task c).holds t = if t = task then some c else p.holds t :=
  Function.update_apply p.holds task (some c) t

/-- A task that holds nothing takes a resource. -/
theorem exclusive_hand (exclusive : p.Exclusive) (marks : p.Marks c q) :
    (q.hand task c).Exclusive := by
  have marked := exclusive_of_marks exclusive marks
  refine ⟨?_, ?_, marked.nodup, marked.known⟩
  · intro t d held
    rw [hand_holds] at held
    split at held
    · cases held
      refine ⟨marks.created_lt exclusive, ?_⟩
      change q.inUse c = true
      rw [marks.inUse_eq, Function.update_self]
    · exact marked.held t d held
  · intro t u d held held'
    rw [hand_holds] at held held'
    -- nobody has held the marked resource before
    have alone := marks.not_held exclusive
    rw [← marks.holds_eq] at alone
    split at held
    next same =>
      cases held
      split at held'
      next same' => exact same.trans same'.symm
      next => exact absurd held' (alone u)
    next =>
      split at held'
      next =>
        cases held'
        exact absurd held (alone t)
      next => exact marked.unshared t u d held held'

/-- The pool is tidy behind that if what is in use of it is held by other tasks. -/
theorem tidy_hand_of_others (exclusive : p.Exclusive) (few : p.idle ≤ 1) (marks : p.Marks c q)
    (others : ∀ d ∈ p.members, p.inUse d → ∃ t, t ≠ task ∧ p.holds t = some d) :
    (q.hand task c).Tidy := by
  refine ⟨exclusive_hand exclusive marks, ?_, Nat.le_trans marks.idle_le few⟩
  intro d member inUse
  by_cases same : d = c
  · exact ⟨task, by rw [hand_holds, if_pos rfl, same]⟩
  · change q.inUse d = true at inUse
    rw [marks.inUse_eq, Function.update_of_ne same] at inUse
    obtain ⟨t, other, held⟩ := others d (marks.mem_of_ne member same) inUse
    refine ⟨t, ?_⟩
    rw [hand_holds, if_neg other, marks.holds_eq]
    exact held

theorem tidy_hand (tidy : p.Tidy) (marks : p.Marks c q) (empty : p.holds task = none) :
    (q.hand task c).Tidy := by
  apply tidy_hand_of_others tidy.toExclusive tidy.few marks
  intro d member inUse
  obtain ⟨t, held⟩ := tidy.used d member inUse
  refine ⟨t, ?_, held⟩
  rintro rfl
  rw [empty] at held
  cases held

/-- A task gives back its resource, and some resources leave the pool. -/
def giveBack (p : ResourcePool) (task c : Nat) (members : List Nat) : ResourcePool :=
  { p with
    inUse := Function.update p.inUse c false
    holds := Function.update p.holds task none
    members := members }

theorem giveBack_inUse (p : ResourcePool) (task c d : Nat) (members : List Nat) :
    (p.giveBack task c members).inUse d = if d = c then false else p.inUse d :=
  Function.update_apply p.inUse c false d

theorem giveBack_holds_iff {members : List Nat} {t d : Nat} :
    (p.giveBack task c members).holds t = some d ↔ t ≠ task ∧ p.holds t = some d := by
  simp only [giveBack, Function.update_apply]
  split
  next same => simp [same]
  next other => simp [other]

theorem exclusive_giveBack (exclusive : p.Exclusive) (holding : p.holds task = some c)
    {members : List Nat} (nodup : members.Nodup) (fewer : members ⊆ p.members) :
    (p.giveBack task c members).Exclusive := by
  refine ⟨?_, ?_, nodup, fun d member => exclusive.known d (fewer member)⟩
  · intro t d held
    obtain ⟨other, before⟩ := giveBack_holds_iff.mp held
    obtain ⟨known, inUse⟩ := exclusive.held t d before
    have differs : d ≠ c := by
      rintro rfl
      exact other (exclusive.unshared t task d before holding)
    refine ⟨known, ?_⟩
    rwa [giveBack_inUse, if_neg differs]
  · intro t u d held held'
    exact exclusive.unshared t u d (giveBack_holds_iff.mp held).2 (giveBack_holds_iff.mp held').2

theorem tidy_giveBack (tidy : p.Tidy) (holding : p.holds task = some c) {members : List Nat}
    (nodup : members.Nodup) (fewer : members ⊆ p.members)
    (few : (p.giveBack task c members).idle ≤ 1) : (p.giveBack task c members).Tidy := by
  refine ⟨exclusive_giveBack tidy.toExclusive holding nodup fewer, ?_, few⟩
  intro d member inUse
  rw [giveBack_inUse] at inUse
  split at inUse
  · cases inUse
  next differs =>
    obtain ⟨t, held⟩ := tidy.used d (fewer member) inUse
    have other : t ≠ task := by
      rintro rfl
      exact differs (Option.some.inj (held.symm.trans holding))
    exact ⟨t, giveBack_holds_iff.mpr ⟨other, held⟩⟩

/-- What is left in the pool when a resource has been thrown away. -/
def discard (p : ResourcePool) (c : Nat) : ResourcePool := { p with members := p.members.erase c }

theorem exclusive_discard (exclusive : p.Exclusive) (c : Nat) : (p.discard c).Exclusive :=
  ⟨exclusive.held, exclusive.unshared, exclusive.nodup.erase c,
    fun d member => exclusive.known d (List.mem_of_mem_erase member)⟩

/-- A task exchanges its resource for a new one, and the old one leaves the pool. -/
theorem exclusive_exchange (exclusive : p.Exclusive) (marks : (p.discard c).Marks p.created q) :
    (q.hand task p.created).Exclusive :=
  exclusive_hand (exclusive_discard exclusive c) marks

theorem tidy_exchange (tidy : p.Tidy) (holding : p.holds task = some c)
    (marks : (p.discard c).Marks p.created q) : (q.hand task p.created).Tidy := by
  have fewer : (p.discard c).idle ≤ p.idle := List.erase_sublist.countP_le
  have few := Nat.le_trans fewer tidy.few
  apply tidy_hand_of_others (exclusive_discard tidy.toExclusive c) few marks
  intro d kept inUse
  obtain ⟨t, held⟩ := tidy.used d (List.mem_of_mem_erase kept) inUse
  refine ⟨t, ?_, held⟩
  -- the task holds what has been thrown away
  rintro rfl
  rw [Option.some.inj (held.symm.trans holding)] at kept
  exact (tidy.nodup.mem_erase_iff.mp kept).1 rfl

/-- The pool is emptied, whoever holds what was in it. -/
def clear (p : ResourcePool) : ResourcePool := { p with members := [] }

theorem tidy_clear (exclusive : p.Exclusive) : p.clear.Tidy :=
  ⟨⟨exclusive.held, exclusive.unshared, List.nodup_nil, nofun⟩, nofun, Nat.zero_le 1⟩

end ResourcePool
