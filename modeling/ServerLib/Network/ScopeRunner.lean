import ServerLib.Common.Atomics

/-!
# `scope_runner`

A handler goes on when it gets a lock from `continue_lock`, which increases `count` until the
lock is destroyed. `stop` waits for `count` to become 0 and sets it to -1.

Both loop around a compare-exchange, so what is modelled is one turn of each loop.
-/
namespace ServerLib.Network.ScopeRunner

/-- What a turn of `continue_lock` comes to. -/
inductive ContinueLock where
  /-- `nullptr` -/
  | refused
  /-- a lock, and what `count` is then -/
  | acquired (count : Int)
  /-- another turn, with what was found in `count` -/
  | again (expected : Int)
  deriving DecidableEq, Repr

def continueLock (spurious : Bool) (count expected : Int) : ContinueLock :=
  -- `stop` has returned
  if expected < 0 then .refused
  else
    let exchange := compareExchangeWeak spurious count expected (expected + 1)
    if exchange.through then .acquired exchange.value else .again exchange.expected

/-- `~shared_lock` -/
def release (count : Int) : Int := count - 1

/-- A turn of `stop`: what `count` is then, if `stop` returns. -/
def stop (spurious : Bool) (count : Int) : Option Int :=
  let exchange := compareExchangeWeak spurious count 0 (-1)
  if exchange.through ∨ exchange.expected < 0 then some exchange.value else none

/-- As many locks are there as `count` says. There are none behind `stop`. -/
def Counts (count : Int) (locks : Nat) : Prop := count = locks ∨ count = -1 ∧ locks = 0

variable {count count' expected : Int} {locks : Nat} {spurious : Bool}

theorem counts_none : Counts 0 0 := .inl rfl

theorem acquired_iff :
    continueLock spurious count expected = .acquired count' ↔
      0 ≤ expected ∧ count = expected ∧ spurious = false ∧ count' = expected + 1 := by
  unfold continueLock compareExchangeWeak
  grind

theorem refused_stopped : continueLock spurious count (-1) = .refused := if_pos (by decide)

/-- Another turn is taken with what was found in `count`. -/
theorem again_found {found : Int} (again : continueLock spurious count expected = .again found) :
    0 ≤ expected ∧ found = count := by
  unfold continueLock compareExchangeWeak at again
  grind

/-- A lock is not to be had behind `stop`. -/
theorem Counts.acquire (counts : Counts count locks)
    (acquired : continueLock spurious count expected = .acquired count') :
    count ≠ -1 ∧ Counts count' (locks + 1) := by
  obtain ⟨running, rfl, -, rfl⟩ := acquired_iff.mp acquired
  -- a number of locks is not negative, so it is not that of a stopped runner
  have held : count = locks := by
    rcases counts with held | ⟨stopped, _⟩ <;> omega
  exact ⟨by omega, .inl (by omega)⟩

theorem Counts.release (counts : Counts count (locks + 1)) :
    Counts (ScopeRunner.release count) locks := by
  rcases counts with held | ⟨_, impossible⟩
  · exact .inl (by unfold ScopeRunner.release; omega)
  · exact nomatch impossible

theorem stop_eq_some_iff :
    stop spurious count = some count' ↔
      count = 0 ∧ spurious = false ∧ count' = -1 ∨ count < 0 ∧ count' = count := by
  unfold stop compareExchangeWeak
  grind

/-- `stop` returns when there is no lock. -/
theorem Counts.stop (counts : Counts count locks)
    (stopped : ScopeRunner.stop spurious count = some count') : count' = -1 ∧ locks = 0 := by
  rcases stop_eq_some_iff.mp stopped with ⟨rfl, -, rfl⟩ | ⟨negative, rfl⟩ <;>
    rcases counts with held | ⟨before, unlocked⟩ <;> omega

/-- `stop` goes on waiting as long as there is a lock. -/
theorem Counts.stop_waits (counts : Counts count (locks + 1)) (spurious : Bool) :
    ScopeRunner.stop spurious count = none := by
  refine Option.eq_none_iff_forall_ne_some.mpr fun count' stopped => ?_
  exact nomatch (counts.stop stopped).2

end ServerLib.Network.ScopeRunner
