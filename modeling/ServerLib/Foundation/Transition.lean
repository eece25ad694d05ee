import Mathlib.Data.List.Basic

/-!
# Runs of a transition system

A system is a step function from a state and an action to the next state, `none` where the
action is not possible there. Whatever the environment or a scheduler may choose is part of
the action, so a schedule is a list of actions, and the theorems range over all of them.

A system that behaves only as long as certain steps are not taken is described by a
condition on steps. `visits_invariant` is the rule for what holds as long as every step of a
run meets the condition; `always_iff` is for a condition that is exact.
-/
namespace Transition

variable {σ α : Type} (step : σ → α → Option σ)

/-- The state after a schedule, if every action of it was possible. -/
def run (s : σ) : List α → Option σ
  | [] => some s
  | a :: acts => (step s a).bind fun s' => run s' acts

theorem run_cons (s : σ) (a : α) (acts : List α) :
    run step s (a :: acts) = (step s a).bind fun s' => run step s' acts := rfl

theorem run_append (s : σ) (acts more : List α) :
    run step s (acts ++ more) = (run step s acts).bind fun s' => run step s' more := by
  induction acts generalizing s with
  | nil => rfl
  | cons a acts ih =>
    rw [List.cons_append, run_cons, run_cons, Option.bind_assoc]
    exact congrArg (step s a).bind (funext fun next => ih next)

/-- The states that a schedule goes through, the first and the last included. -/
def Visits (s : σ) (acts : List α) (s' : σ) : Prop :=
  ∃ done, done <+: acts ∧ run step s done = some s'

/-- Every step of a schedule meets a condition on the state and the action. -/
def Meets (ok : σ → α → Prop) (s : σ) : List α → Prop
  | [] => True
  | a :: acts => ok s a ∧ ∀ s' ∈ step s a, Meets ok s' acts

instance Meets.decidable (ok : σ → α → Prop) [∀ s a, Decidable (ok s a)] (s : σ) :
    (acts : List α) → Decidable (Meets step ok s acts)
  | [] => inferInstanceAs (Decidable True)
  | a :: acts =>
    have := fun s' => Meets.decidable ok s' acts
    inferInstanceAs (Decidable (ok s a ∧ ∀ s' ∈ step s a, Meets step ok s' acts))

variable {step}

theorem Visits.start (s : σ) (acts : List α) : Visits step s acts s :=
  ⟨[], List.nil_prefix, rfl⟩

theorem visits_of_run {s s' : σ} {acts : List α} (ran : run step s acts = some s') :
    Visits step s acts s' := ⟨acts, List.prefix_rfl, ran⟩

theorem visits_cons_iff {s s' : σ} {a : α} {acts : List α} :
    Visits step s (a :: acts) s' ↔
      s = s' ∨ ∃ next, step s a = some next ∧ Visits step next acts s' := by
  constructor
  · rintro ⟨done, before, ran⟩
    cases done with
    | nil => exact .inl (Option.some.inj ran)
    | cons b done =>
      obtain ⟨rfl, shorter⟩ := List.cons_prefix_cons.mp before
      obtain ⟨next, stepped, rest⟩ := Option.bind_eq_some_iff.mp ran
      exact .inr ⟨next, stepped, done, shorter, rest⟩
  · rintro (rfl | ⟨next, stepped, done, before, ran⟩)
    · exact .start s _
    · refine ⟨a :: done, List.cons_prefix_cons.mpr ⟨rfl, before⟩, ?_⟩
      rw [run_cons, stepped]
      exact ran

variable {ok : σ → α → Prop} {inv : σ → Prop}

/-- What every step that meets the condition keeps holds in all states of such a run. -/
theorem visits_invariant
    (keeps : ∀ s a s', inv s → ok s a → step s a = some s' → inv s') {s s' : σ} {acts : List α}
    (valid : inv s) (meets : Meets step ok s acts) (visited : Visits step s acts s') : inv s' := by
  induction acts generalizing s with
  | nil =>
    obtain ⟨done, before, ran⟩ := visited
    rw [List.prefix_nil.mp before] at ran
    exact Option.some.inj ran ▸ valid
  | cons a acts ih =>
    rcases visits_cons_iff.mp visited with rfl | ⟨next, stepped, visited⟩
    · exact valid
    · exact ih (keeps s a next valid meets.1 stepped) (meets.2 next stepped) visited

theorem meets_of_forall (always : ∀ s a, ok s a) (s : σ) (acts : List α) :
    Meets step ok s acts := by
  induction acts generalizing s with
  | nil => trivial
  | cons a acts ih => exact ⟨always s a, fun next _ => ih next⟩

theorem Meets.and {ok' : σ → α → Prop} {s : σ} {acts : List α} (meets : Meets step ok s acts)
    (meets' : Meets step ok' s acts) : Meets step (fun s a => ok s a ∧ ok' s a) s acts := by
  induction acts generalizing s with
  | nil => trivial
  | cons a acts ih =>
    exact ⟨⟨meets.1, meets'.1⟩, fun next stepped =>
      ih (meets.2 next stepped) (meets'.2 next stepped)⟩

/-- What every step keeps holds in all states of every run. -/
theorem Visits.invariant {s s' : σ} {acts : List α} (visited : Visits step s acts s')
    (keeps : ∀ s a s', inv s → step s a = some s' → inv s') (valid : inv s) : inv s' :=
  visits_invariant (fun s a s' valid (_ : True) => keeps s a s' valid) valid
    (meets_of_forall (fun _ _ => trivial) s acts) visited

/-- A condition is exact if it keeps an invariant that has the property, and a step that does
not meet it loses the property: the property then holds throughout a schedule exactly if every
step meets the condition. -/
theorem always_iff {P : σ → Prop}
    (keeps : ∀ s a s', inv s → ok s a → step s a = some s' → inv s')
    (implies : ∀ s, inv s → P s)
    (breaks : ∀ s a, inv s → ¬ ok s a → ∃ s', step s a = some s' ∧ ¬ P s')
    {s : σ} (acts : List α) (valid : inv s) :
    (∀ s', Visits step s acts s' → P s') ↔ Meets step ok s acts := by
  constructor
  · intro always
    induction acts generalizing s with
    | nil => trivial
    | cons a acts ih =>
      have after : ∀ next, step s a = some next → ∀ s', Visits step next acts s' → P s' :=
        fun next stepped s' visited =>
          always s' (visits_cons_iff.mpr (.inr ⟨next, stepped, visited⟩))
      -- otherwise this very step loses the property
      have met : ok s a := by
        by_contra broken
        obtain ⟨next, stepped, lost⟩ := breaks s a valid broken
        exact lost (after next stepped next (.start next acts))
      exact ⟨met, fun next stepped => ih (keeps s a next valid met stepped) (after next stepped)⟩
  · intro meets s' visited
    exact implies s' (visits_invariant keeps valid meets visited)

end Transition
