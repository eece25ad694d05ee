import Mathlib.Data.List.Infix

/-!
# Leftmost occurrences of a pattern

`find d s` is the position of the first occurrence of `d` in `s`; the empty pattern
occurs at the front of every list.
-/
namespace Occurrence

variable {α : Type} [DecidableEq α]

def find (d : List α) : List α → Option Nat
  | [] => if d = [] then some 0 else none
  | x :: s => if d <+: x :: s then some 0 else (find d s).map (· + 1)

omit [DecidableEq α] in
/-- `d` occurs in `s` at position `n` and nowhere before it. -/
def LeftmostAt (d s : List α) (n : Nat) : Prop :=
  d <+: s.drop n ∧ ∀ m < n, ¬ d <+: s.drop m

instance (d s : List α) (n : Nat) : Decidable (LeftmostAt d s n) :=
  inferInstanceAs (Decidable (d <+: s.drop n ∧ ∀ m < n, ¬ d <+: s.drop m))

theorem find_eq_some_iff (d s : List α) (n : Nat) : find d s = some n ↔ LeftmostAt d s n := by
  induction s generalizing n with
  | nil =>
    simp only [find, LeftmostAt, List.drop_nil, List.prefix_nil]
    cases n with
    | zero => simp
    | succ n =>
      split
      next empty => simpa using fun _ => ⟨⟨0, by omega⟩, empty⟩
      next occupied => simp [occupied]
  | cons x s ih =>
    simp only [find]
    split
    next here =>
      cases n with
      | zero => simpa [LeftmostAt] using here
      | succ n => simpa [LeftmostAt] using fun _ => ⟨0, by omega, here⟩
    next later =>
      cases n with
      | zero => simpa [LeftmostAt] using later
      | succ n =>
        simp only [Option.map_eq_some_iff, Nat.add_right_cancel_iff, exists_eq_right, ih,
          LeftmostAt, List.drop_succ_cons]
        constructor
        · rintro ⟨occurs, first⟩
          refine ⟨occurs, fun m below => ?_⟩
          cases m with
          | zero => exact later
          | succ m => exact first m (by omega)
        · rintro ⟨occurs, first⟩
          exact ⟨occurs, fun m below => first (m + 1) (by omega)⟩

theorem find_eq_none_iff (d s : List α) : find d s = none ↔ ¬ d <:+: s := by
  induction s with
  | nil => simp [find]
  | cons x s ih =>
    simp only [find, List.infix_cons_iff, not_or]
    split
    next here => simp [here]
    next later => simp [later, ih]

theorem LeftmostAt.unique {d s : List α} {m n : Nat} (h : LeftmostAt d s m)
    (h' : LeftmostAt d s n) : m = n := by
  rw [← find_eq_some_iff] at h h'
  exact Option.some.inj (h.symm.trans h')

theorem exists_leftmostAt {d s : List α} (occurs : d <:+: s) : ∃ n, LeftmostAt d s n := by
  cases found : find d s with
  | none => exact absurd occurs ((find_eq_none_iff d s).mp found)
  | some n => exact ⟨n, (find_eq_some_iff d s n).mp found⟩

omit [DecidableEq α] in
theorem LeftmostAt.bound {d s : List α} {n : Nat} (h : LeftmostAt d s n) :
    n + d.length ≤ s.length := by
  have fits := h.1.length_le
  rw [List.length_drop] at fits
  by_cases empty : d = []
  · subst empty
    -- the empty pattern occurs at 0, so nowhere else first
    have zero : n = 0 := by
      by_contra later
      exact h.2 0 (by omega) List.nil_prefix
    simp [zero]
  · have := List.length_pos_of_ne_nil empty
    omega

omit [DecidableEq α] in
/-- Whether the first occurrence ends inside `s` does not depend on what follows `s`. -/
theorem leftmostAt_append_iff {d s : List α} {n : Nat} (inside : n + d.length ≤ s.length)
    (more : List α) : LeftmostAt d (s ++ more) n ↔ LeftmostAt d s n := by
  -- up to `n` the pattern would end inside `s`, where both lists agree
  have same : ∀ m ≤ n, d <+: (s ++ more).drop m ↔ d <+: s.drop m := by
    intro m below
    rw [List.drop_append_of_le_length (by omega)]
    constructor
    · intro occurs
      exact List.prefix_of_prefix_length_le occurs (List.prefix_append _ _)
        (by rw [List.length_drop]; omega)
    · intro occurs
      exact occurs.trans (List.prefix_append _ _)
  simp only [LeftmostAt, same n (Nat.le_refl n)]
  constructor
  · rintro ⟨occurs, first⟩
    exact ⟨occurs, fun m below => (same m (by omega)).not.mp (first m below)⟩
  · rintro ⟨occurs, first⟩
    exact ⟨occurs, fun m below => (same m (by omega)).not.mpr (first m below)⟩

theorem find_append {d s : List α} {n : Nat} (found : find d s = some n) (more : List α) :
    find d (s ++ more) = some n := by
  rw [find_eq_some_iff] at found ⊢
  exact (leftmostAt_append_iff found.bound more).mpr found

omit [DecidableEq α] in
/-- An occurrence cuts the list into what precedes it, itself and what follows. -/
theorem LeftmostAt.split {d s : List α} {n : Nat} (h : LeftmostAt d s n) :
    s = s.take n ++ d ++ s.drop (n + d.length) := by
  obtain ⟨tail, cut⟩ := h.1
  have rest : s.drop (n + d.length) = tail := by
    rw [← List.drop_drop, ← cut, List.drop_left]
  rw [rest, List.append_assoc, cut, List.take_append_drop]

omit [DecidableEq α] in
theorem LeftmostAt.length_take {d s : List α} {n : Nat} (h : LeftmostAt d s n) :
    (s.take n).length = n := by
  have := h.bound
  rw [List.length_take]
  omega

omit [DecidableEq α] in
/-- The occurrence is still the first one when all that follows it is cut off. -/
theorem LeftmostAt.take {d s : List α} {n : Nat} (h : LeftmostAt d s n) :
    LeftmostAt d (s.take n ++ d) n := by
  have inside : n + d.length ≤ (s.take n ++ d).length := by
    rw [List.length_append, h.length_take]
  rw [h.split] at h
  exact (leftmostAt_append_iff inside _).mp h

end Occurrence
