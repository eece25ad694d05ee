import ServerLib.Foundation.Transition
import ServerLib.Network.ScopeRunner
import Mathlib.Logic.Function.Basic

/-!
# `scope_runner` with any number of threads

Each atomic operation on `count` is one step: the first load of `continue_lock`, the turns of
the two loops, and the `fetch_sub` of a lock that is destroyed. A lock is there from the exchange
that has gone through to its `fetch_sub`, and it may be handed on meanwhile, so it is destroyed
whatever the thread that asked for it is doing.

`count` is a number here. As every lock is an object on the heap, there are never as many of
them as a `long` can count.
-/
namespace ServerLib.Network

open Transition

/-- Where a thread is in the calls of a runner. -/
inductive ScopePlace where
  /-- in none of them -/
  | outside
  /-- in the loop of `continue_lock`, with what it expects, and whether a `stop` had already
  returned when it was called -/
  | continuing (expected : Int) (late : Bool)
  /-- in the loop of `stop` -/
  | stopping
  deriving DecidableEq

inductive ScopeAction (τ : Type) where
  /-- `continue_lock` is called and has loaded `count` -/
  | continueLock (t : τ)
  /-- a turn of its loop -/
  | tryLock (t : τ) (spurious : Bool)
  /-- a lock that `t` has asked for is destroyed -/
  | unlock (t : τ)
  | stop (t : τ)
  /-- a turn of its loop -/
  | tryStop (t : τ) (spurious : Bool)

/-- The counter, the threads that the locks held have been given to, whether a `stop` has
returned, and where the threads are. -/
structure ScopeGate (τ : Type) where
  count : Int := 0
  locks : List τ := []
  stopped : Bool := false
  place : τ → ScopePlace := fun _ => .outside

namespace ScopeGate

variable {τ : Type} [DecidableEq τ]

def move (g : ScopeGate τ) (t : τ) (place : ScopePlace) : ScopeGate τ :=
  { g with place := Function.update g.place t place }

def step (g : ScopeGate τ) : ScopeAction τ → Option (ScopeGate τ)
  | .continueLock t =>
    match g.place t with
    | .outside => some (g.move t (.continuing g.count g.stopped))
    | _ => none
  | .tryLock t spurious =>
    match g.place t with
    | .continuing expected late =>
      match ScopeRunner.continueLock spurious g.count expected with
      | .refused => some (g.move t .outside)
      | .acquired count => some ({ g with count, locks := t :: g.locks }.move t .outside)
      | .again expected => some (g.move t (.continuing expected late))
    | _ => none
  | .unlock t =>
    if t ∈ g.locks then
      some { g with count := ScopeRunner.release g.count, locks := g.locks.erase t }
    else none
  | .stop t =>
    match g.place t with
    | .outside => some (g.move t .stopping)
    | _ => none
  | .tryStop t spurious =>
    match g.place t with
    | .stopping =>
      match ScopeRunner.stop spurious g.count with
      | some count => some ({ g with count, stopped := true }.move t .outside)
      | none => some g
    | _ => none

@[simp] theorem move_count (g : ScopeGate τ) (t : τ) (place : ScopePlace) :
    (g.move t place).count = g.count := rfl

@[simp] theorem move_locks (g : ScopeGate τ) (t : τ) (place : ScopePlace) :
    (g.move t place).locks = g.locks := rfl

@[simp] theorem move_stopped (g : ScopeGate τ) (t : τ) (place : ScopePlace) :
    (g.move t place).stopped = g.stopped := rfl

/-- Where a thread is after one of them has gone on. -/
theorem place_of_move {g : ScopeGate τ} {t u : τ} {place there : ScopePlace}
    (moved : (g.move t place).place u = there) : place = there ∨ g.place u = there := by
  by_cases same : u = t
  · subst same
    simp only [move, Function.update_self] at moved
    exact .inl moved
  · simp only [move, Function.update_of_ne same] at moved
    exact .inr moved

/-- What a step does to the counter and the locks. -/
inductive Counted (g g' : ScopeGate τ) : Prop where
  | same (count : g'.count = g.count) (locks : g'.locks = g.locks)
      (stopped : g'.stopped = g.stopped)
  | locked (spurious : Bool) (t : τ) (expected : Int)
      (acquired : ScopeRunner.continueLock spurious g.count expected = .acquired g'.count)
      (locks : g'.locks = t :: g.locks) (stopped : g'.stopped = g.stopped)
  | unlocked (t : τ) (held : t ∈ g.locks) (count : g'.count = ScopeRunner.release g.count)
      (locks : g'.locks = g.locks.erase t) (stopped : g'.stopped = g.stopped)
  | closed (spurious : Bool) (through : ScopeRunner.stop spurious g.count = some g'.count)
      (locks : g'.locks = g.locks) (stopped : g'.stopped = true)

theorem counted_of_step {g g' : ScopeGate τ} {a : ScopeAction τ} (stepped : g.step a = some g') :
    Counted g g' := by
  cases a with
  | continueLock t =>
    simp only [step] at stepped
    split at stepped
    · obtain rfl := Option.some.inj stepped
      exact .same rfl rfl rfl
    · cases stepped
  | tryLock t spurious =>
    simp only [step] at stepped
    split at stepped
    next expected late here =>
      -- only a lock that is acquired changes the counter
      split at stepped <;> obtain rfl := Option.some.inj stepped
      · exact .same rfl rfl rfl
      next acquired => exact .locked spurious t expected acquired rfl rfl
      · exact .same rfl rfl rfl
    · cases stepped
  | unlock t =>
    simp only [step, Option.ite_none_right_eq_some, Option.some.injEq] at stepped
    obtain ⟨held, rfl⟩ := stepped
    exact .unlocked t held rfl rfl rfl
  | stop t =>
    simp only [step] at stepped
    split at stepped
    · obtain rfl := Option.some.inj stepped
      exact .same rfl rfl rfl
    · cases stepped
  | tryStop t spurious =>
    simp only [step] at stepped
    split at stepped
    · split at stepped <;> obtain rfl := Option.some.inj stepped
      next through => exact .closed spurious through rfl rfl
      · exact .same rfl rfl rfl
    · cases stepped

/-- A thread comes into the loop of `continue_lock`, or to another turn of it, with what it has
found in `count`. -/
theorem place_of_step {g g' : ScopeGate τ} {a : ScopeAction τ} {u : τ} {expected : Int}
    {late : Bool} (stepped : g.step a = some g') (there : g'.place u = .continuing expected late) :
    g.place u = .continuing expected late ∨ expected = g.count ∧
      (late = g.stopped ∨ ∃ before t, g.place t = .continuing before late ∧ 0 ≤ before) := by
  cases a with
  | continueLock t =>
    simp only [step] at stepped
    split at stepped
    · obtain rfl := Option.some.inj stepped
      rcases place_of_move there with called | before
      · injection called with loaded stopped
        exact .inr ⟨loaded.symm, .inl stopped.symm⟩
      · exact .inl before
    · cases stepped
  | tryLock t spurious =>
    simp only [step] at stepped
    split at stepped
    next before was here =>
      split at stepped <;> obtain rfl := Option.some.inj stepped
      · exact .inl ((place_of_move there).resolve_left nofun)
      · exact .inl ((place_of_move there).resolve_left nofun)
      next found again =>
        rcases place_of_move there with turned | before
        · injection turned with same kept
          subst same kept
          obtain ⟨running, rfl⟩ := ScopeRunner.again_found again
          exact .inr ⟨rfl, .inr ⟨before, t, here, running⟩⟩
        · exact .inl before
    · cases stepped
  | unlock t =>
    simp only [step, Option.ite_none_right_eq_some, Option.some.injEq] at stepped
    obtain ⟨held, rfl⟩ := stepped
    exact .inl there
  | stop t =>
    simp only [step] at stepped
    split at stepped
    · obtain rfl := Option.some.inj stepped
      exact .inl ((place_of_move there).resolve_left nofun)
    · cases stepped
  | tryStop t spurious =>
    simp only [step] at stepped
    split at stepped
    · split at stepped <;> obtain rfl := Option.some.inj stepped
      · exact .inl ((place_of_move there).resolve_left nofun)
      · exact .inl there
    · cases stepped

/-- As many locks are held as `count` says, and who comes behind a `stop` expects -1. -/
structure Sound (g : ScopeGate τ) : Prop where
  counts : ScopeRunner.Counts g.count g.locks.length
  closed : g.stopped = true → g.count = -1
  late : ∀ t expected, g.place t = .continuing expected true → g.count = -1 ∧ expected = -1

omit [DecidableEq τ] in
theorem sound_fresh : ({} : ScopeGate τ).Sound :=
  ⟨ScopeRunner.counts_none, nofun, fun _ _ => nofun⟩

omit [DecidableEq τ] in
theorem Sound.unlocked {g : ScopeGate τ} (sound : g.Sound) (closed : g.count = -1) :
    g.locks = [] := by
  rcases sound.counts with held | ⟨_, none⟩
  · omega
  · exact List.eq_nil_of_length_eq_zero none

/-- The counts of a step: they agree again, and a closed gate stays closed. -/
theorem Sound.counted {g g' : ScopeGate τ} (sound : g.Sound) (counted : Counted g g') :
    ScopeRunner.Counts g'.count g'.locks.length ∧ (g.count = -1 → g'.count = -1) ∧
      (g'.stopped = true → g'.count = -1) := by
  cases counted with
  | same count locks stopped =>
    rw [count, locks, stopped]
    exact ⟨sound.counts, id, sound.closed⟩
  | locked spurious t expected acquired locks stopped =>
    obtain ⟨running, counts⟩ := sound.counts.acquire acquired
    rw [locks, stopped]
    exact ⟨counts, fun closed => absurd closed running,
      fun was => absurd (sound.closed was) running⟩
  | unlocked t held count locks stopped =>
    have open_gate : g.count ≠ -1 := fun closed => by
      rw [sound.unlocked closed] at held
      cases held
    have length : g.locks.length = (g.locks.erase t).length + 1 := by
      rw [List.length_erase_of_mem held]
      exact (Nat.sub_add_cancel (List.length_pos_of_mem held)).symm
    rw [count, locks, stopped]
    exact ⟨(length ▸ sound.counts).release, fun closed => absurd closed open_gate,
      fun was => absurd (sound.closed was) open_gate⟩
  | closed spurious through locks stopped =>
    obtain ⟨closed, unlocked⟩ := sound.counts.stop through
    rw [locks, closed, unlocked]
    exact ⟨.inr ⟨rfl, rfl⟩, fun _ => rfl, fun _ => rfl⟩

theorem sound_step (g : ScopeGate τ) (a : ScopeAction τ) (g' : ScopeGate τ) (sound : g.Sound)
    (stepped : g.step a = some g') : g'.Sound := by
  obtain ⟨counts, stays, closed⟩ := sound.counted (counted_of_step stepped)
  refine ⟨counts, closed, ?_⟩
  intro u expected there
  rcases place_of_step stepped there with before | ⟨found, called | ⟨before, t, here, again⟩⟩
  · obtain ⟨was, is⟩ := sound.late u expected before
    exact ⟨stays was, is⟩
  · have was := sound.closed called.symm
    exact ⟨stays was, found.trans was⟩
  -- who expects -1 takes no second turn
  · obtain ⟨_, negative⟩ := sound.late t before here
    omega

theorem Sound.stays_closed {g g' : ScopeGate τ} {acts : List (ScopeAction τ)} (sound : g.Sound)
    (closed : g.count = -1) (visited : Visits step g acts g') : g'.count = -1 := by
  have keeps : ∀ (s : ScopeGate τ) a s', Sound s ∧ s.count = -1 → s.step a = some s' →
      Sound s' ∧ s'.count = -1 := fun s a s' both stepped =>
    ⟨sound_step s a s' both.1 stepped, (both.1.counted (counted_of_step stepped)).2.1 both.2⟩
  exact (visited.invariant keeps ⟨sound, closed⟩).2

theorem Sound.stays_stopped {g g' : ScopeGate τ} {acts : List (ScopeAction τ)} (sound : g.Sound)
    (stopped : g.stopped = true) (visited : Visits step g acts g') :
    g'.locks = [] ∧ g'.stopped = true := by
  have keeps : ∀ (s : ScopeGate τ) a s', Sound s ∧ s.stopped = true → s.step a = some s' →
      Sound s' ∧ s'.stopped = true := by
    intro s a s' both stepped
    refine ⟨sound_step s a s' both.1 stepped, ?_⟩
    cases counted_of_step stepped with
    | same _ _ same => exact same.trans both.2
    | locked _ _ _ _ _ same => exact same.trans both.2
    | unlocked _ _ _ _ same => exact same.trans both.2
    | closed _ _ _ stopped => exact stopped
  obtain ⟨after, still⟩ := visited.invariant keeps ⟨sound, stopped⟩
  exact ⟨after.unlocked (after.closed still), still⟩

/-- `count` is -1 or the number of locks that are held. It becomes -1 only when there is none,
and stays so. When a `stop` has returned no lock is held, none is given to anybody, and a call of
`continue_lock` made from then on is refused at its first turn. -/
theorem closing_gate {acts : List (ScopeAction τ)} {g : ScopeGate τ}
    (visited : Visits step ({} : ScopeGate τ) acts g) :
    (g.count = -1 ∨ g.count = g.locks.length) ∧
    (∀ a g', g.step a = some g' → g'.count = -1 →
      g.count = -1 ∨ g.locks = [] ∧ g'.locks = []) ∧
    (g.count = -1 → g.locks = [] ∧ ∀ acts' g', Visits step g acts' g' → g'.count = -1) ∧
    (g.stopped = true → g.locks = [] ∧
      (∀ acts' g', Visits step g acts' g' → g'.locks = [] ∧ g'.stopped = true) ∧
      ∀ t expected late spurious, g.place t = .continuing expected late →
        (∀ count, ScopeRunner.continueLock spurious g.count expected ≠ .acquired count) ∧
        (late = true → ScopeRunner.continueLock spurious g.count expected = .refused)) := by
  have sound : g.Sound := visited.invariant sound_step sound_fresh
  refine ⟨?_, ?_, ?_, ?_⟩
  · rcases sound.counts with held | ⟨closed, _⟩
    · exact .inr held
    · exact .inl closed
  · intro a g' stepped closed
    have unlocked := (sound_step g a g' sound stepped).unlocked closed
    -- only the exchange of `stop` can have closed it, and that leaves the locks alone
    cases counted_of_step stepped with
    | same count => exact .inl (count ▸ closed)
    | locked _ _ _ _ locks => exact absurd (locks.symm.trans unlocked) nofun
    | unlocked _ held count =>
      have one : g.count = 0 := by
        unfold ScopeRunner.release at count
        omega
      have some_lock := List.length_pos_of_mem held
      rcases sound.counts with counts | ⟨impossible, _⟩ <;> omega
    | closed _ _ locks => exact .inr ⟨locks ▸ unlocked, unlocked⟩
  · intro closed
    exact ⟨sound.unlocked closed, fun _ _ later => sound.stays_closed closed later⟩
  · intro stopped
    have closed := sound.closed stopped
    refine ⟨sound.unlocked closed, fun _ _ later => sound.stays_stopped stopped later, ?_⟩
    intro t expected late spurious here
    constructor
    · intro count acquired
      exact (sound.counts.acquire acquired).1 closed
    · rintro rfl
      obtain ⟨_, rfl⟩ := sound.late t expected here
      exact ScopeRunner.refused_stopped

/-- Two threads hold a lock while a third one stops, and then it is too late for a fourth. -/
def closingRun : List (ScopeAction (Fin 4)) :=
  [.continueLock 0, .continueLock 1, .tryLock 0 false, .tryLock 1 true, .tryLock 1 false, .stop 2,
    .tryStop 2 false, .unlock 0, .unlock 1, .tryStop 2 true, .tryStop 2 false, .continueLock 3]

theorem closing_gate_four : ∃ g, run step {} closingRun = some g ∧ g.stopped = true ∧
    g.locks = [] ∧
    ∃ expected, g.place 3 = .continuing expected true ∧
      ScopeRunner.continueLock false g.count expected = .refused := by
  have ran : ((run step {} closingRun).map fun g => (g.stopped, g.place 3)) =
      some (true, .continuing (-1) true) := by decide +kernel
  obtain ⟨g, is, fields⟩ := Option.map_eq_some_iff.mp ran
  have stopped : g.stopped = true := congrArg Prod.fst fields
  have here : g.place 3 = .continuing (-1) true := congrArg Prod.snd fields
  obtain ⟨unlocked, _, calls⟩ := (closing_gate (visits_of_run is)).2.2.2 stopped
  exact ⟨g, is, stopped, unlocked, -1, here, (calls 3 (-1) true false here).2 rfl⟩

end ScopeGate

end ServerLib.Network
