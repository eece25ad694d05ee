import Mathlib.Data.List.Basic
import Mathlib.Data.List.Count
import Mathlib.Data.List.Nodup

/-!
# Generations

Work that may be called off without being found again is handed out with a number, that of a
generation. Some events begin a new generation, among them the one that hands the work out, and
work is current as long as the generation is that of its number. So it is current exactly if no
generation has been begun behind it, and of all that is handed out one piece at most is.

The history of a counter is the list of its events; its value is the number of those that renew.
-/
namespace Generation

variable {ε : Type} (renews : ε → Bool)

/-- The generation at the end of a history. -/
def value (history : List ε) : Nat := history.countP renews

/-- The event that has begun the generation. -/
def latest (history : List ε) : Option ε := (history.filter renews).getLast?

/-- Nothing behind the event at this place has begun another generation. -/
def Undisturbed (history : List ε) (n : Nat) : Prop :=
  ∀ e ∈ history.drop (n + 1), renews e = false

instance (history : List ε) (n : Nat) : Decidable (Undisturbed renews history n) := by
  unfold Undisturbed
  infer_instance

variable {renews}

theorem value_concat (history : List ε) (e : ε) :
    value renews (history ++ [e]) = value renews history + if renews e then 1 else 0 := by
  rw [value, List.countP_append, List.countP_singleton, value]

theorem latest_concat (history : List ε) (e : ε) :
    latest renews (history ++ [e]) = if renews e then some e else latest renews history := by
  simp only [latest, List.filter_append]
  split
  next renewing => simp [renewing]
  next calm => simp [calm]

/-- What was handed out is current exactly if it has not been disturbed. -/
theorem value_take_eq_iff (history : List ε) (n : Nat) :
    value renews (history.take (n + 1)) = value renews history ↔
      Undisturbed renews history n := by
  -- what renews behind the event is what the values differ by
  have both : value renews history = value renews (history.take (n + 1)) +
      (history.drop (n + 1)).countP renews := by
    rw [value, value, ← List.countP_append, List.take_append_drop]
  have none_ : Undisturbed renews history n ↔ (history.drop (n + 1)).countP renews = 0 := by
    rw [List.countP_eq_zero]
    exact forall₂_congr fun e _ => (Bool.not_eq_true _).symm.to_iff
  rw [none_]
  omega

theorem value_take_le (history : List ε) (n : Nat) :
    value renews (history.take n) ≤ value renews history :=
  (List.take_sublist n history).countP_le

/-- An event that renews and has not been disturbed is the latest one. -/
theorem latest_of_undisturbed {history : List ε} {n : Nat} {e : ε} (here : history[n]? = some e)
    (renewing : renews e) (undisturbed : Undisturbed renews history n) :
    latest renews history = some e := by
  obtain ⟨inside, is⟩ := List.getElem?_eq_some_iff.mp here
  have behind : (history.drop (n + 1)).filter renews = [] := by
    rw [List.filter_eq_nil_iff]
    intro e member
    rw [undisturbed e member]
    decide
  have whole : history = history.take n ++ e :: history.drop (n + 1) := by
    rw [← is, ← List.drop_eq_getElem_cons inside, List.take_append_drop]
  rw [latest, whole, List.filter_append, List.filter_cons, if_pos renewing, behind,
    List.getLast?_concat]

/-- Behind an event that renews the latest one is to be found, or it is that one. -/
theorem mem_of_latest {front back : List ε} {s e : ε} (renewing : renews s)
    (last : latest renews (front ++ s :: back) = some e) : e = s ∨ e ∈ back := by
  rw [latest, List.filter_append, List.filter_cons, if_pos renewing,
    List.getLast?_append_of_ne_nil _ (by simp), List.getLast?_cons] at last
  have last := Option.some.inj last
  -- the last one that renews is taken from `back`, and is `s` if there is none
  by_cases nothing : (back.filter renews) = []
  · rw [nothing] at last
    exact .inl last.symm
  · right
    rw [List.getLast?_eq_some_getLast nothing, Option.getD_some] at last
    have member := List.getLast_mem nothing
    rw [show (back.filter renews).getLast nothing = e from last] at member
    exact (List.mem_filter.mp member).1

/-- Of work with different numbers one piece at most has a given one. -/
theorem countP_number_le_one {ω : Type} {number : ω → Nat} {work : List ω}
    (increasing : work.Pairwise fun a b => number a < number b) (v : Nat) :
    work.countP (fun a => number a == v) ≤ 1 := by
  have distinct : (work.map number).Nodup :=
    List.Pairwise.map _ (fun _ _ less => Nat.ne_of_lt less) increasing
  have once := List.nodup_iff_count_le_one.mp distinct v
  rwa [List.count, List.countP_map] at once

end Generation
