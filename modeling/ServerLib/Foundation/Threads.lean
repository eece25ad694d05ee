import Mathlib.Data.List.Count

/-!
# Threads as a list of places

Threads that run the same code are a list of the places where they are. When one of them goes
on, the number of those at a kind of place changes by that one.
-/
namespace Threads

variable {κ : Type} {threads : List κ} {i : Nat} {old : κ}

theorem countP_move (here : threads[i]? = some old) (new : κ) (p : κ → Bool) :
    (threads.set i new).countP p + (if p old then 1 else 0) =
      threads.countP p + if p new then 1 else 0 := by
  obtain ⟨inside, is⟩ := List.getElem?_eq_some_iff.mp here
  rw [List.countP_set inside, is]
  -- the thread itself is counted, so that nothing is taken from zero
  have there : (if p old then 1 else 0) ≤ threads.countP p := by
    split
    next holds => exact List.countP_pos_iff.mpr ⟨old, List.mem_of_getElem? here, holds⟩
    · exact Nat.zero_le _
  omega

theorem countP_move_same (here : threads[i]? = some old) {new : κ} {p : κ → Bool}
    (same : p new = p old) : (threads.set i new).countP p = threads.countP p := by
  have moved := countP_move here new p
  rw [same] at moved
  omega

theorem countP_enter (here : threads[i]? = some old) {new : κ} {p : κ → Bool}
    (outside : p old = false) (inside : p new) :
    (threads.set i new).countP p = threads.countP p + 1 := by
  have moved := countP_move here new p
  simpa [outside, inside] using moved

theorem countP_leave (here : threads[i]? = some old) {new : κ} {p : κ → Bool}
    (inside : p old) (outside : p new = false) :
    (threads.set i new).countP p + 1 = threads.countP p := by
  have moved := countP_move here new p
  simpa [outside, inside] using moved

/-- Where a thread is after one of them has gone on. -/
theorem getElem?_move {j : Nat} {place new : κ} (there : (threads.set i new)[j]? = some place) :
    j = i ∧ place = new ∨ j ≠ i ∧ threads[j]? = some place := by
  by_cases same : j = i
  · subst same
    have inside : j < threads.length := by
      simpa using (List.getElem?_eq_some_iff.mp there).1
    rw [List.getElem?_set_self inside] at there
    exact .inl ⟨rfl, (Option.some.inj there).symm⟩
  · rw [List.getElem?_set_ne (Ne.symm same)] at there
    exact .inr ⟨same, there⟩

/-- The threads that have not gone on are where they were. -/
theorem mem_move {place new : κ} (here : threads[i]? = some old) (other : old ≠ place)
    (there : place ∈ threads) : place ∈ threads.set i new := by
  obtain ⟨j, there⟩ := List.mem_iff_getElem?.mp there
  refine List.mem_iff_getElem?.mpr ⟨j, ?_⟩
  rw [List.getElem?_set_ne]
  · exact there
  · rintro rfl
    exact other (Option.some.inj (here.symm.trans there))

/-- What stands in front of the stack of a thread and behind it stays. -/
theorem flatten_move {φ : Type} {lists : List (List φ)} {stack : List φ}
    (here : lists[i]? = some stack) :
    ∃ front back, lists.flatten = front ++ (stack ++ back) ∧
      ∀ new, (lists.set i new).flatten = front ++ (new ++ back) := by
  induction lists generalizing i with
  | nil => cases here
  | cons first lists ih =>
    cases i with
    | zero =>
      rw [List.getElem?_cons_zero, Option.some.injEq] at here
      subst here
      exact ⟨[], lists.flatten, rfl, fun _ => rfl⟩
    | succ i =>
      obtain ⟨front, back, is, moved⟩ := ih here
      refine ⟨first ++ front, back, ?_, fun new => ?_⟩
      · rw [List.flatten_cons, is, List.append_assoc]
      · rw [List.set_cons_succ, List.flatten_cons, moved, List.append_assoc]

variable {φ β : Type} {lists : List (List φ)} {stack : List φ}

theorem filterMap_move (f : φ → Option β) (here : lists[i]? = some stack) :
    ∃ front back, lists.flatten.filterMap f = front ++ (stack.filterMap f ++ back) ∧
      ∀ new, (lists.set i new).flatten.filterMap f = front ++ (new.filterMap f ++ back) := by
  obtain ⟨front, back, is, moved⟩ := flatten_move here
  refine ⟨front.filterMap f, back.filterMap f, ?_, fun new => ?_⟩
  · rw [is, List.filterMap_append, List.filterMap_append]
  · rw [moved, List.filterMap_append, List.filterMap_append]

theorem filterMap_move_same {f : φ → Option β} (here : lists[i]? = some stack) {new : List φ}
    (same : new.filterMap f = stack.filterMap f) :
    (lists.set i new).flatten.filterMap f = lists.flatten.filterMap f := by
  obtain ⟨front, back, is, moved⟩ := filterMap_move f here
  rw [is, moved, same]

/-- What is looked for stands on top of one stack only. -/
theorem filterMap_move_alone {f : φ → Option β} {top below : List φ}
    (here : lists[i]? = some (top ++ below))
    (alone : (lists.flatten.filterMap f).length ≤ (top.filterMap f).length) :
    lists.flatten.filterMap f = top.filterMap f ∧
      ∀ new, (lists.set i (new ++ below)).flatten.filterMap f = new.filterMap f := by
  obtain ⟨front, back, is, moved⟩ := filterMap_move f here
  rw [List.filterMap_append] at is
  rw [is] at alone
  simp only [List.length_append] at alone
  have front_nil : front = [] := List.eq_nil_of_length_eq_zero (by omega)
  have below_nil : below.filterMap f = [] := List.eq_nil_of_length_eq_zero (by omega)
  have back_nil : back = [] := List.eq_nil_of_length_eq_zero (by omega)
  constructor
  · rw [is, front_nil, below_nil, back_nil, List.nil_append, List.append_nil, List.append_nil]
  · intro new
    rw [moved, List.filterMap_append, front_nil, below_nil, back_nil, List.nil_append,
      List.append_nil, List.append_nil]

end Threads
