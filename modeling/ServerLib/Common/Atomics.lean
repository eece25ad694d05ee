/-!
# Atomic values

`compare_exchange_weak` may fail although it has found the expected value. The variable that
holds the expected value then holds what was found, which in that case is the same.
-/
namespace ServerLib

/-- What an exchange leaves: whether it has gone through, the value, and the expected value. -/
structure Exchange (α : Type) where
  through : Bool
  value : α
  expected : α
  deriving DecidableEq, Repr

variable {α : Type} [DecidableEq α]

def compareExchangeWeak (spurious : Bool) (value expected desired : α) : Exchange α :=
  if value = expected ∧ spurious = false then ⟨true, desired, expected⟩ else ⟨false, value, value⟩

theorem compareExchangeWeak_same (expected desired : α) :
    compareExchangeWeak false expected expected desired = ⟨true, desired, expected⟩ :=
  if_pos ⟨rfl, rfl⟩

theorem compareExchangeWeak_spurious (value expected desired : α) :
    compareExchangeWeak true value expected desired = ⟨false, value, value⟩ :=
  if_neg nofun

theorem compareExchangeWeak_other {value expected : α} (other : value ≠ expected)
    (spurious : Bool) (desired : α) :
    compareExchangeWeak spurious value expected desired = ⟨false, value, value⟩ :=
  if_neg fun both => other both.1

end ServerLib
