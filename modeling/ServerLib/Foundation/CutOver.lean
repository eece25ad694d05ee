import Mathlib.Order.Lattice

/-!
# Cut-overs

A quantity is given by one function below a threshold and by another one from there on, for
example in a finer and in a coarser unit. Such a function keeps the order if both do and the one
does not exceed the other across the threshold.
-/
namespace CutOver

variable {α β : Type*} [LinearOrder α] {f g : α → β} {c x y : α}

/-- `f` below the threshold `c`, and `g` from there on. -/
def cutOver (c : α) (f g : α → β) (x : α) : β := if x < c then f x else g x

theorem cutOver_below (below : x < c) : cutOver c f g x = f x := if_pos below

theorem cutOver_above (above : c ≤ x) : cutOver c f g x = g x := if_neg (not_lt.mpr above)

variable [Preorder β]

/-- The order can only be lost where both values are those of the second function. -/
theorem cutOver_le_iff (keeps : ∀ x y, x ≤ y → y < c → f x ≤ f y)
    (meets : ∀ x y, x < c → c ≤ y → f x ≤ g y) (le : x ≤ y) :
    cutOver c f g x ≤ cutOver c f g y ↔ (c ≤ x → g x ≤ g y) := by
  rcases lt_or_ge x c with below | above
  · have kept : cutOver c f g x ≤ cutOver c f g y := by
      rw [cutOver_below below]
      rcases lt_or_ge y c with near | far
      · rw [cutOver_below near]
        exact keeps x y le near
      · rw [cutOver_above far]
        exact meets x y below far
    exact iff_of_true kept fun above => absurd below (not_lt.mpr above)
  · rw [cutOver_above above, cutOver_above (above.trans le)]
    exact ⟨fun kept _ => kept, fun kept => kept above⟩

/-- Below the threshold there is a number of units of `k`. -/
theorem cutOver_mul_le_iff {g : Nat → Nat} {k c x y : Nat}
    (meets : ∀ y, c ≤ y → k * (c - 1) ≤ g y) (le : x ≤ y) :
    cutOver c (k * ·) g x ≤ cutOver c (k * ·) g y ↔ (c ≤ x → g x ≤ g y) := by
  apply cutOver_le_iff _ _ le
  · intro x y le _
    exact Nat.mul_le_mul_left k le
  · intro x y below above
    exact (Nat.mul_le_mul_left k (Nat.le_sub_one_of_lt below)).trans (meets y above)

/-- A bound from below of both functions. -/
theorem le_cutOver {b : β} (low : x < c → b ≤ f x) (high : c ≤ x → b ≤ g x) :
    b ≤ cutOver c f g x := by
  rcases lt_or_ge x c with below | above
  · rw [cutOver_below below]
    exact low below
  · rw [cutOver_above above]
    exact high above

end CutOver
