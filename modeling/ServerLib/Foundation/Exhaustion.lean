import ServerLib.Foundation.Transition

/-!
# Systems that come to an end

Where every step uses something up, every schedule is finite, and what matters is the states in
which no step is possible any more: whether they are those that were wanted.
-/
namespace Transition

variable {σ α : Type} (step : σ → α → Option σ)

/-- No step is possible. -/
def Stuck (s : σ) : Prop := ∀ a, step s a = none

/-- However the system goes on, it comes to an end, and what it ends in has the property. -/
structure Ends (P : σ → Prop) (s : σ) : Prop where
  finite : ∃ bound, ∀ acts s', run step s acts = some s' → acts.length ≤ bound
  final : ∀ acts s', run step s acts = some s' → Stuck step s' → P s'

variable {step}

/-- Every step uses something of an amount of work up. -/
def Uses (step : σ → α → Option σ) (work : σ → Nat) : Prop :=
  ∀ s a s', step s a = some s' → work s' < work s

variable {work : σ → Nat}

theorem Uses.length_le (uses : Uses step work) {s s' : σ} {acts : List α}
    (ran : run step s acts = some s') : acts.length + work s' ≤ work s := by
  induction acts generalizing s with
  | nil =>
    rw [Option.some.inj ran]
    simp
  | cons a acts ih =>
    obtain ⟨next, stepped, rest⟩ := Option.bind_eq_some_iff.mp ran
    have less := uses s a next stepped
    have later := ih rest
    rw [List.length_cons]
    omega

/-- A system that can go on until it is somewhere gets there. -/
theorem Uses.reaches (uses : Uses step work) {inv goal : σ → Prop}
    (goes : ∀ s, inv s → goal s ∨ ∃ a s', step s a = some s' ∧ inv s') {s : σ} (start : inv s) :
    ∃ acts s', run step s acts = some s' ∧ goal s' := by
  induction amount : work s using Nat.strongRecOn generalizing s with
  | ind amount ih =>
    rcases goes s start with there | ⟨a, next, stepped, valid⟩
    · exact ⟨[], s, rfl, there⟩
    · have less := uses s a next stepped
      rw [amount] at less
      obtain ⟨acts, s', ran, there⟩ := ih (work next) less valid rfl
      refine ⟨a :: acts, s', ?_, there⟩
      rw [run_cons, stepped]
      exact ran

/-- Some schedule goes to an end. -/
theorem Uses.exists_stuck (uses : Uses step work) (s : σ) :
    ∃ acts s', run step s acts = some s' ∧ Stuck step s' := by
  refine uses.reaches (fun s (_ : True) => ?_) trivial
  by_cases stuck : Stuck step s
  · exact .inl stuck
  · obtain ⟨a, possible⟩ := not_forall.mp stuck
    obtain ⟨next, stepped⟩ := Option.ne_none_iff_exists'.mp possible
    exact .inr ⟨a, next, stepped, trivial⟩

/-- What every step keeps, and what makes an end a wanted one, makes all ends wanted ones. -/
theorem Uses.ends (uses : Uses step work) {P inv : σ → Prop}
    (keeps : ∀ s a s', inv s → step s a = some s' → inv s')
    (wanted : ∀ s, inv s → Stuck step s → P s) {s : σ} (start : inv s) : Ends step P s where
  finite := ⟨work s, fun _ _ ran => Nat.le_of_add_right_le (uses.length_le ran)⟩
  final _ s' ran stuck := wanted s' ((visits_of_run ran).invariant keeps start) stuck

/-- Also where it goes on from. -/
theorem Ends.of_run {P : σ → Prop} {s s' : σ} {acts : List α} (ends : Ends step P s)
    (ran : run step s acts = some s') : Ends step P s' := by
  have whole : ∀ more s'', run step s' more = some s'' → run step s (acts ++ more) = some s'' := by
    intro more s'' ran'
    rw [run_append, ran]
    exact ran'
  obtain ⟨bound, finite⟩ := ends.finite
  refine ⟨⟨bound, fun more s'' ran' => ?_⟩, fun more s'' ran' stuck => ?_⟩
  · have long := finite _ _ (whole more s'' ran')
    rw [List.length_append] at long
    omega
  · exact ends.final _ _ (whole more s'' ran') stuck

/-- A system that ends as it should gets there. -/
theorem Uses.exists_wanted (uses : Uses step work) {P : σ → Prop} {s : σ}
    (ends : Ends step P s) : ∃ acts s', run step s acts = some s' ∧ P s' := by
  obtain ⟨acts, s', ran, stuck⟩ := uses.exists_stuck s
  exact ⟨acts, s', ran, ends.final acts s' ran stuck⟩

end Transition
