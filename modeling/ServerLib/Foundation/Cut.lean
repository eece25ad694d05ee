import Mathlib.Data.List.Basic
import Mathlib.Data.List.Count

/-!
# Cutting a list in two

A list is cut at an occurrence of an element, which belongs to neither part. The first and the
last occurrence are the same one exactly if there is no second one.
-/
namespace Cut

variable {α : Type} [DecidableEq α]

/-- The parts in front of the first occurrence and behind it. -/
def first (c : α) : List α → Option (List α × List α)
  | [] => none
  | a :: s => if a = c then some ([], s) else (first c s).map fun (x, y) => (a :: x, y)

/-- The parts in front of the last occurrence and behind it. -/
def last (c : α) : List α → Option (List α × List α)
  | [] => none
  | a :: s =>
    match last c s with
    | some (x, y) => some (a :: x, y)
    | none => if a = c then some ([], s) else none

/-- The position of the last occurrence in a list that begins at position `i`. -/
def lastAt (c : α) (i : Nat) (s : List α) : Option Nat :=
  (last c s).map fun parts => i + parts.1.length

variable {c : α} {s x y : List α}

/-- The position as a scan comes to it: a later one takes the place of an earlier one. -/
theorem lastAt_cons (c : α) (i : Nat) (a : α) (s : List α) :
    lastAt c i (a :: s) = (lastAt c (i + 1) s).or (if a = c then some i else none) := by
  rw [lastAt, lastAt, last]
  cases last c s with
  | none => by_cases same : a = c <;> simp [same]
  | some parts =>
    simp only [Option.map_some, Option.some_or, List.length_cons, Option.some.injEq]
    omega

theorem first_eq_none_iff : first c s = none ↔ c ∉ s := by
  induction s with
  | nil => simp [first]
  | cons a s ih =>
    rw [first, List.mem_cons, not_or]
    split
    next same => simp [same]
    next other => simp [ih, Ne.symm other]

theorem last_eq_none_iff : last c s = none ↔ c ∉ s := by
  induction s with
  | nil => simp [last]
  | cons a s ih =>
    rw [last, List.mem_cons, not_or, ← ih]
    cases last c s with
    | some parts => simp
    | none =>
      dsimp only
      split
      next same => simp [same]
      next other => simp [Ne.symm other]

/-- A list that is cut at an occurrence is cut at the first one if there is none in front. -/
theorem first_append_cons (absent : c ∉ x) (y : List α) : first c (x ++ c :: y) = some (x, y) := by
  induction x with
  | nil => simp [first]
  | cons a x ih =>
    rw [List.mem_cons, not_or] at absent
    rw [List.cons_append, first, if_neg (Ne.symm absent.1), ih absent.2]
    rfl

theorem last_append_cons (x : List α) (absent : c ∉ y) : last c (x ++ c :: y) = some (x, y) := by
  induction x with
  | nil => simp [last, last_eq_none_iff.mpr absent]
  | cons a x ih => rw [List.cons_append, last, ih]

theorem first_eq_some_iff : first c s = some (x, y) ↔ s = x ++ c :: y ∧ c ∉ x := by
  constructor
  · intro cut
    have member : c ∈ s := by
      by_contra absent
      rw [first_eq_none_iff.mpr absent] at cut
      cases cut
    obtain ⟨front, back, rfl, absent⟩ := List.eq_append_cons_of_mem member
    rw [first_append_cons absent, Option.some.injEq, Prod.mk.injEq] at cut
    obtain ⟨rfl, rfl⟩ := cut
    exact ⟨rfl, absent⟩
  · rintro ⟨rfl, absent⟩
    exact first_append_cons absent y

theorem last_eq_some_iff : last c s = some (x, y) ↔ s = x ++ c :: y ∧ c ∉ y := by
  constructor
  · intro cut
    induction s generalizing x with
    | nil => cases cut
    | cons a s ih =>
      rw [last] at cut
      cases later : last c s with
      | some parts =>
        rw [later, Option.some.injEq, Prod.mk.injEq] at cut
        obtain ⟨rfl, rfl⟩ := cut
        obtain ⟨whole, absent⟩ := ih later
        exact ⟨by rw [whole]; rfl, absent⟩
      | none =>
        simp only [later, Option.ite_none_right_eq_some, Option.some.injEq, Prod.mk.injEq] at cut
        obtain ⟨rfl, rfl, rfl⟩ := cut
        exact ⟨rfl, last_eq_none_iff.mp later⟩
  · rintro ⟨rfl, absent⟩
    exact last_append_cons x absent

/-- Without a second occurrence there is one way to cut. -/
theorem first_eq_last_of_count (once : s.count c ≤ 1) : first c s = last c s := by
  cases cut : first c s with
  | none => rw [last_eq_none_iff.mpr (first_eq_none_iff.mp cut)]
  | some parts =>
    obtain ⟨rfl, -⟩ := first_eq_some_iff.mp cut
    rw [List.count_append, List.count_cons_self] at once
    have absent : c ∉ parts.2 := List.count_eq_zero.mp (by omega)
    rw [last_append_cons _ absent]

/-- With a second one the last cut leaves an occurrence in front. -/
theorem mem_of_last (more : 1 < s.count c) :
    ∃ x y, last c s = some (x, y) ∧ c ∈ x := by
  cases cut : last c s with
  | none =>
    rw [List.count_eq_zero.mpr (last_eq_none_iff.mp cut)] at more
    omega
  | some parts =>
    obtain ⟨x, y⟩ := parts
    obtain ⟨rfl, absent⟩ := last_eq_some_iff.mp cut
    refine ⟨x, y, rfl, ?_⟩
    rw [List.count_append, List.count_cons_self, List.count_eq_zero.mpr absent] at more
    exact List.count_pos_iff.mp (by omega)

end Cut
