import Mathlib.Logic.Function.Basic
import ServerLib.Common.Strings
import ServerLib.Foundation.Transition

/-!
# `spawn_polling`

One thread takes the children that were appended out of `_pool`, polls each of them, and puts
those that have not finished back. The children are counted in `_pool_size` beside it. When the
object is destroyed the thread puts the children of its round back without the lock, and kills
all that are there.

Each locked section is one step, and so is each use of an atomic value. A vector does not hold
so many children that they could not be counted, so `_pool_size` is a number that grows as it
is, but it wraps if it is decreased at zero.
-/
namespace ServerLib

open Transition

/-- Where a thread is in `append`. -/
inductive AppendPlace (κ : Type) where
  | outside
  /-- it has found `_break` unset, and waits for the lock -/
  | appending (spawn : κ)

/-- Where the polling thread is in `wait`: what it does next is in parentheses. -/
inductive WaitPlace (κ : Type) where
  /-- in front of a round (`while (!_break)`) -/
  | checking
  /-- it waits for the lock (`std::move(_pool)`) -/
  | taking
  /-- in the round (`_break.load()` for the first of these, or the end of the round) -/
  | round (pool : List κ)
  /-- `_break` was not set (`spawn->poll()`) -/
  | polling (spawn : κ) (pool : List κ)
  /-- the child has to go on (`_pool.push_back(spawn)`) -/
  | unfinished (spawn : κ) (pool : List κ)
  /-- the child has finished (`std::atomic_fetch_sub`) -/
  | finished (pool : List κ)
  /-- `_break` is set (`spawn->kill()` for the first of these, or `_pool.clear()`) -/
  | killing (pool : List κ)
  | done

/-- The children of the current round that have not been processed. -/
def WaitPlace.unprocessed {κ : Type} : WaitPlace κ → List κ
  | .round pool => pool
  | .polling spawn pool => spawn :: pool
  | .unfinished spawn pool => spawn :: pool
  | .finished pool => pool
  | _ => []

inductive SpawnAction (κ τ : Type) where
  /-- `append` is called and looks at `_break` -/
  | append (t : τ) (spawn : κ)
  /-- its locked section -/
  | push (t : τ)
  /-- the next step of the polling thread, and what `poll` returns there -/
  | wait (finished : Bool)
  /-- `~spawn_polling` -/
  | destroy

/-- The pool, the counter, the flag and where the threads are. Behind them stands what has
happened to the children: which were appended, seen finished and killed. -/
structure SpawnPolling (κ τ : Type) where
  pool : List κ := []
  poolSize : Nat := 0
  isBroken : Bool := false
  appender : τ → AppendPlace κ := fun _ => .outside
  waiter : WaitPlace κ := .checking
  appended : List κ := []
  seen : List κ := []
  killed : List κ := []

namespace SpawnPolling

variable {κ τ : Type} [DecidableEq τ]

def count (s : SpawnPolling κ τ) : Nat := s.poolSize

/-- The locked section of `append`. -/
def pushBack (s : SpawnPolling κ τ) (spawn : κ) : SpawnPolling κ τ :=
  { s with
    pool := s.pool ++ [spawn]
    poolSize := s.poolSize + 1
    appended := spawn :: s.appended }

/-- The constructor appends the child that it is given, if any. -/
def create (spawn : Option κ) : SpawnPolling κ τ :=
  match spawn with
  | some spawn => pushBack {} spawn
  | none => {}

/-- A step of the polling thread. -/
def stepWait (s : SpawnPolling κ τ) (finished : Bool) : Option (SpawnPolling κ τ) :=
  match s.waiter with
  | .checking => some { s with waiter := if s.isBroken then .killing s.pool else .taking }
  | .taking => some { s with pool := [], waiter := .round s.pool }
  | .round [] => some { s with waiter := .checking }
  | .round (spawn :: pool) =>
    some { s with waiter := if s.isBroken then .unfinished spawn pool else .polling spawn pool }
  | .polling spawn pool =>
    if finished then some { s with waiter := .finished pool, seen := spawn :: s.seen }
    else some { s with waiter := .unfinished spawn pool }
  | .unfinished spawn pool => some { s with pool := s.pool ++ [spawn], waiter := .round pool }
  | .finished pool => some { s with poolSize := sizeSub s.poolSize 1, waiter := .round pool }
  | .killing [] => some { s with pool := [], waiter := .done }
  | .killing (spawn :: pool) =>
    some { s with waiter := .killing pool, killed := spawn :: s.killed }
  | .done => none

def step (s : SpawnPolling κ τ) : SpawnAction κ τ → Option (SpawnPolling κ τ)
  | .append t spawn =>
    match s.appender t with
    | .outside =>
      if s.isBroken then some s
      else some { s with appender := Function.update s.appender t (.appending spawn) }
    | .appending _ => none
  | .push t =>
    match s.appender t with
    | .appending spawn =>
      some { s.pushBack spawn with appender := Function.update s.appender t .outside }
    | .outside => none
  | .wait finished => s.stepWait finished
  | .destroy => if s.isBroken then none else some { s with isBroken := true }

/-- No `append` is in progress. -/
def Quiet (s : SpawnPolling κ τ) : Prop := ∀ t, s.appender t = .outside

/-- Where the children are, by the place of the polling thread. -/
def Conserved (s : SpawnPolling κ τ) : WaitPlace κ → Prop
  | .killing pool => s.isBroken ∧ (s.pool ++ s.seen).Perm s.appended ∧
      (s.killed ++ pool).Perm s.pool
  | .done => s.isBroken ∧ s.pool = [] ∧ (s.killed ++ s.seen).Perm s.appended
  | place => s.killed = [] ∧ (s.pool ++ place.unprocessed ++ s.seen).Perm s.appended

/-- A child that has been seen finished is counted until the counter is decreased. -/
def Counted (s : SpawnPolling κ τ) : WaitPlace κ → Prop
  | .finished pool => s.poolSize = s.pool.length + pool.length + 1
  | .done => True
  | place => s.poolSize = s.pool.length + place.unprocessed.length

structure Sound (s : SpawnPolling κ τ) : Prop where
  conserved : s.Conserved s.waiter
  counted : s.Counted s.waiter
  quiet : s.isBroken → s.Quiet

variable {s s' : SpawnPolling κ τ}

/-- What a step of the polling thread can do, and when. -/
inductive Waited (s : SpawnPolling κ τ) : SpawnPolling κ τ → Prop where
  | breaks (place : s.waiter = .checking) (broken : s.isBroken) :
    Waited s { s with waiter := .killing s.pool }
  | begins (place : s.waiter = .checking) (alive : ¬ s.isBroken) :
    Waited s { s with waiter := .taking }
  | takes (place : s.waiter = .taking) : Waited s { s with pool := [], waiter := .round s.pool }
  | returns (place : s.waiter = .round []) : Waited s { s with waiter := .checking }
  | gives {spawn : κ} {pool : List κ} (place : s.waiter = .round (spawn :: pool))
      (broken : s.isBroken) : Waited s { s with waiter := .unfinished spawn pool }
  | polls {spawn : κ} {pool : List κ} (place : s.waiter = .round (spawn :: pool))
      (alive : ¬ s.isBroken) : Waited s { s with waiter := .polling spawn pool }
  | sees {spawn : κ} {pool : List κ} (place : s.waiter = .polling spawn pool) :
    Waited s { s with waiter := .finished pool, seen := spawn :: s.seen }
  | keeps {spawn : κ} {pool : List κ} (place : s.waiter = .polling spawn pool) :
    Waited s { s with waiter := .unfinished spawn pool }
  | putsBack {spawn : κ} {pool : List κ} (place : s.waiter = .unfinished spawn pool) :
    Waited s { s with pool := s.pool ++ [spawn], waiter := .round pool }
  | counts {pool : List κ} (place : s.waiter = .finished pool) :
    Waited s { s with poolSize := sizeSub s.poolSize 1, waiter := .round pool }
  | kills {spawn : κ} {pool : List κ} (place : s.waiter = .killing (spawn :: pool)) :
    Waited s { s with waiter := .killing pool, killed := spawn :: s.killed }
  | ends (place : s.waiter = .killing []) : Waited s { s with pool := [], waiter := .done }

omit [DecidableEq τ] in
theorem waited_of_stepWait {finished : Bool} (stepped : s.stepWait finished = some s') :
    Waited s s' := by
  unfold stepWait at stepped
  split at stepped
  next place =>
    split at stepped <;> obtain rfl := Option.some.inj stepped
    next broken => exact .breaks place broken
    next alive => exact .begins place alive
  next place => exact Option.some.inj stepped ▸ .takes place
  next place => exact Option.some.inj stepped ▸ .returns place
  next place =>
    split at stepped <;> obtain rfl := Option.some.inj stepped
    next broken => exact .gives place broken
    next alive => exact .polls place alive
  next place =>
    split at stepped <;> obtain rfl := Option.some.inj stepped
    · exact .sees place
    · exact .keeps place
  next place => exact Option.some.inj stepped ▸ .putsBack place
  next place => exact Option.some.inj stepped ▸ .counts place
  next place => exact Option.some.inj stepped ▸ .ends place
  next place => exact Option.some.inj stepped ▸ .kills place
  · cases stepped

omit [DecidableEq τ] in
theorem Sound.wait (sound : s.Sound) {finished : Bool} (stepped : s.stepWait finished = some s') :
    s'.Sound := by
  obtain ⟨conserved, counted, quiet⟩ := sound
  cases waited_of_stepWait stepped with
  | breaks place broken =>
    -- the round is over, and all that is there will be killed
    rw [place] at conserved counted
    refine ⟨⟨broken, ?_, ?_⟩, counted, quiet⟩
    · simpa [WaitPlace.unprocessed] using conserved.2
    · simp [conserved.1]
  | takes place =>
    rw [place] at conserved counted
    refine ⟨⟨conserved.1, ?_⟩, ?_, quiet⟩
    · simpa [WaitPlace.unprocessed] using conserved.2
    · simpa [Counted, WaitPlace.unprocessed] using counted
  | sees place =>
    rw [place] at conserved counted
    refine ⟨⟨conserved.1, ?_⟩, ?_, quiet⟩
    · -- the child goes from the round to what has been seen finished
      refine List.Perm.trans ?_ conserved.2
      simp only [WaitPlace.unprocessed, List.append_assoc, List.cons_append]
      exact List.perm_middle.append_left s.pool
    · simpa [Counted, WaitPlace.unprocessed, Nat.add_assoc] using counted
  | putsBack place =>
    rw [place] at conserved counted
    refine ⟨⟨conserved.1, ?_⟩, ?_, quiet⟩
    · simpa [WaitPlace.unprocessed] using conserved.2
    · simp only [Counted, WaitPlace.unprocessed, List.length_cons, List.length_append,
        List.length_nil] at counted ⊢
      omega
  | @counts pool place =>
    rw [place] at conserved counted
    refine ⟨conserved, ?_, quiet⟩
    have counts : s.poolSize = s.pool.length + pool.length + 1 := counted
    have decreased : sizeSub s.poolSize 1 = s.pool.length + pool.length := by
      rw [sizeSub_of_le (by omega)]
      omega
    exact decreased
  | kills place =>
    rw [place] at conserved counted
    obtain ⟨broken, conserved, killed⟩ := conserved
    exact ⟨⟨broken, conserved, List.perm_middle.symm.trans killed⟩, counted, quiet⟩
  | ends place =>
    rw [place] at conserved counted
    obtain ⟨broken, conserved, killed⟩ := conserved
    rw [List.append_nil] at killed
    exact ⟨⟨broken, rfl, (killed.append_right s.seen).trans conserved⟩, trivial, quiet⟩
  | begins place | returns place | gives place | polls place | keeps place =>
    -- nothing has been moved
    rw [place] at conserved counted
    exact ⟨conserved, counted, quiet⟩

omit [DecidableEq τ] in
/-- As long as it is not broken the polling thread does not kill. -/
theorem Sound.alive (sound : s.Sound) (alive : s.isBroken = false) :
    s.killed = [] ∧ (s.pool ++ s.waiter.unprocessed ++ s.seen).Perm s.appended ∧
      s.poolSize = s.pool.length + s.waiter.unprocessed.length +
        (if s.waiter matches .finished _ then 1 else 0) := by
  obtain ⟨conserved, counted, _⟩ := sound
  cases place : s.waiter <;> rw [place] at conserved counted
  case killing => exact absurd conserved.1 (by simp [alive])
  case done => exact absurd conserved.1 (by simp [alive])
  all_goals exact ⟨conserved.1, conserved.2, counted⟩

omit [DecidableEq τ] in
/-- One more child is appended as long as the object is not being destroyed. -/
theorem Sound.pushBack (sound : s.Sound) (alive : s.isBroken = false) (spawn : κ) :
    (s.pushBack spawn).Sound := by
  obtain ⟨conserved, counted, _⟩ := sound
  refine ⟨?_, ?_, by simp [SpawnPolling.pushBack, alive]⟩
  · have appended : ∀ left : List κ, (s.pool ++ left ++ s.seen).Perm s.appended →
        (s.pool ++ [spawn] ++ left ++ s.seen).Perm (spawn :: s.appended) := by
      intro left conserved
      have front : (s.pool ++ [spawn] ++ left ++ s.seen).Perm
          (spawn :: (s.pool ++ left ++ s.seen)) := by
        simp only [List.append_assoc, List.singleton_append]
        exact List.perm_middle
      exact front.trans (conserved.cons spawn)
    change (s.pushBack spawn).Conserved s.waiter
    cases place : s.waiter <;> rw [place] at conserved
    case killing => exact absurd conserved.1 (by simp [alive])
    case done => exact absurd conserved.1 (by simp [alive])
    all_goals exact ⟨conserved.1, appended _ conserved.2⟩
  · have more : (s.pushBack spawn).poolSize = s.poolSize + 1 ∧
        (s.pushBack spawn).pool.length = s.pool.length + 1 := by
      simp [SpawnPolling.pushBack]
    change (s.pushBack spawn).Counted s.waiter
    cases place : s.waiter <;> rw [place] at counted
    case done => trivial
    all_goals
      simp only [Counted, more] at counted ⊢
      omega

/-- Every step keeps track of the children, if no `append` is in progress when the object is
destroyed. -/
theorem sound_step {a : SpawnAction κ τ} (sound : s.Sound) (quiet : a = .destroy → s.Quiet)
    (stepped : s.step a = some s') : s'.Sound := by
  cases a with
  | append t spawn =>
    simp only [step] at stepped
    split at stepped
    · split at stepped <;> obtain rfl := Option.some.inj stepped
      · exact sound
      next alive => exact ⟨sound.conserved, sound.counted, fun broken => absurd broken alive⟩
    · cases stepped
  | push t =>
    simp only [step] at stepped
    split at stepped
    next spawn appending =>
      obtain rfl := Option.some.inj stepped
      have alive : s.isBroken = false := by
        by_contra broken
        have outside := sound.quiet (Bool.eq_true_of_not_eq_false broken) t
        rw [appending] at outside
        cases outside
      obtain ⟨conserved, counted, _⟩ := sound.pushBack alive spawn
      exact ⟨conserved, counted, by simp [SpawnPolling.pushBack, alive]⟩
    · cases stepped
  | wait finished => exact sound.wait stepped
  | destroy =>
    simp only [step] at stepped
    split at stepped
    · cases stepped
    next alive =>
      obtain rfl := Option.some.inj stepped
      have unbroken : s.isBroken = false := Bool.eq_false_of_not_eq_true alive
      obtain ⟨conserved, counted, _⟩ := sound
      refine ⟨?_, counted, fun _ => quiet rfl⟩
      change Conserved { s with isBroken := true } s.waiter
      cases place : s.waiter <;> rw [place] at conserved
      case killing => exact absurd conserved.1 alive
      case done => exact absurd conserved.1 alive
      all_goals exact conserved

omit [DecidableEq τ] in
theorem sound_create (spawn : Option κ) : (create spawn : SpawnPolling κ τ).Sound := by
  have fresh : ({} : SpawnPolling κ τ).Sound := ⟨⟨rfl, .refl _⟩, rfl, nofun⟩
  cases spawn with
  | none => exact fresh
  | some spawn => exact fresh.pushBack rfl spawn

omit [DecidableEq τ] in
/-- What the polling thread leaves as it is. -/
theorem stepWait_frame {finished : Bool} (stepped : s.stepWait finished = some s') :
    s'.isBroken = s.isBroken ∧ s'.appender = s.appender ∧ s'.appended = s.appended := by
  cases waited_of_stepWait stepped <;> exact ⟨rfl, rfl, rfl⟩

/-- The flag stays set. -/
theorem broken_of_step {a : SpawnAction κ τ} (stepped : s.step a = some s')
    (broken : s.isBroken = true) : s'.isBroken = true := by
  cases a with
  | append t spawn =>
    simp only [step, broken, if_true] at stepped
    split at stepped
    · exact Option.some.inj stepped ▸ broken
    · cases stepped
  | push t =>
    simp only [step] at stepped
    split at stepped
    · exact Option.some.inj stepped ▸ broken
    · cases stepped
  | wait finished => exact (stepWait_frame stepped).1.trans broken
  | destroy =>
    simp only [step, broken, if_true] at stepped
    cases stepped

/-- As long as the object is not being destroyed, the children are where they should be. -/
theorem sound_of_visits {spawn : Option κ} {acts : List (SpawnAction κ τ)}
    (visited : Visits step (create spawn) acts s) (alive : s.isBroken = false) : s.Sound := by
  have keeps : ∀ (s : SpawnPolling κ τ) a s', (s.isBroken = false → s.Sound) →
      s.step a = some s' → s'.isBroken = false → s'.Sound := by
    intro s a s' sound stepped alive
    have before : s.isBroken = false := by
      by_contra broken
      have after := broken_of_step stepped (Bool.eq_true_of_not_eq_false broken)
      rw [alive] at after
      cases after
    apply sound_step (sound before) ?_ stepped
    rintro rfl
    simp only [step, before, Bool.false_eq_true, if_false, Option.some.injEq] at stepped
    subst stepped
    cases alive
  exact visited.invariant keeps (fun _ => sound_create spawn) alive

/-- A bound for the steps of the polling thread when `_break` is set. A child of the round is put
back, looked at once more and killed. -/
def remaining (s : SpawnPolling κ τ) : Nat :=
  match s.waiter with
  | .checking => s.pool.length + 2
  | .taking => 3 * s.pool.length + 4
  | .round pool => s.pool.length + 3 * pool.length + 3
  | .polling _ pool => s.pool.length + 3 * pool.length + 6
  | .unfinished _ pool => s.pool.length + 3 * pool.length + 5
  | .finished pool => s.pool.length + 3 * pool.length + 4
  | .killing pool => pool.length + 1
  | .done => 0

omit [DecidableEq τ] in
theorem remaining_of_stepWait {finished : Bool} (broken : s.isBroken = true)
    (stepped : s.stepWait finished = some s') : s'.remaining < s.remaining := by
  cases waited_of_stepWait stepped with
  | begins _ alive | polls _ alive => exact absurd broken alive
  | returns place | gives place | putsBack place =>
    simp only [remaining, place, List.length_append, List.length_cons, List.length_nil]
    omega
  | breaks place | takes place | sees place | keeps place | counts place | kills place
  | ends place => simp [remaining, place]

omit [DecidableEq τ] in
theorem exists_stepWait (undone : s.waiter ≠ .done) (finished : Bool) :
    ∃ next, s.stepWait finished = some next := by
  unfold stepWait
  split
  case h_5 =>
    split
    · exact ⟨_, rfl⟩
    · exact ⟨_, rfl⟩
  case h_10 done => exact absurd done undone
  all_goals exact ⟨_, rfl⟩

/-- The step is one of the polling thread. -/
def isWait : SpawnAction κ τ → Bool
  | .wait _ => true
  | _ => false

/-- Behind the destructor only the polling thread does something, and it comes to an end. -/
theorem Sound.closing {a : SpawnAction κ τ} (sound : s.Sound) (broken : s.isBroken = true)
    (stepped : s.step a = some s') :
    s'.Sound ∧ s'.isBroken = true ∧ s'.appended = s.appended ∧
      (if isWait a then 1 else 0) + s'.remaining ≤ s.remaining := by
  have undestroyed : a = .destroy → s.Quiet := fun _ => sound.quiet broken
  refine ⟨sound_step sound undestroyed stepped, broken_of_step stepped broken, ?_⟩
  cases a with
  | append t spawn =>
    simp only [step, sound.quiet broken t, broken, if_true, Option.some.injEq] at stepped
    subst stepped
    exact ⟨rfl, Nat.le_of_eq (Nat.zero_add _)⟩
  | push t =>
    simp only [step, sound.quiet broken t] at stepped
    cases stepped
  | wait finished =>
    have fewer := remaining_of_stepWait broken stepped
    refine ⟨(stepWait_frame stepped).2.2, ?_⟩
    simp only [isWait, if_true]
    omega
  | destroy =>
    simp only [step, broken, if_true] at stepped
    cases stepped

theorem Sound.closing_run {acts : List (SpawnAction κ τ)} (sound : s.Sound)
    (broken : s.isBroken = true) (ran : run step s acts = some s') :
    s'.Sound ∧ s'.appended = s.appended ∧ acts.countP isWait + s'.remaining ≤ s.remaining := by
  induction acts generalizing s with
  | nil =>
    obtain rfl := Option.some.inj ran
    exact ⟨sound, rfl, by simp⟩
  | cons a acts ih =>
    obtain ⟨next, stepped, ran⟩ := Option.bind_eq_some_iff.mp ran
    obtain ⟨sound, broken, same, fewer⟩ := sound.closing broken stepped
    obtain ⟨sound, appended, rest⟩ := ih sound broken ran
    refine ⟨sound, appended.trans same, ?_⟩
    rw [List.countP_cons]
    omega

/-- Until the object is destroyed the children in the pool and those of the round are the ones
that were appended and not seen finished, each as often, and they are counted. When it is
destroyed, and no `append` is in progress, the polling thread comes to its end, and has then
killed just them. -/
theorem children_kept {spawn : Option κ} {acts : List (SpawnAction κ τ)}
    (visited : Visits step (create spawn) acts s) (alive : s.isBroken = false) :
    (s.pool ++ s.waiter.unprocessed ++ s.seen).Perm s.appended ∧
    ((∀ pool, s.waiter ≠ .finished pool) →
      s.count = (s.pool ++ s.waiter.unprocessed).length) ∧
    (∀ pool, s.waiter = .finished pool → 1 ≤ s.poolSize) ∧
    (s.Quiet → ∀ s₁, s.step .destroy = some s₁ → ∃ bound, ∀ acts' s', run step s₁ acts' = some s' →
      acts'.countP isWait ≤ bound ∧
      (s'.waiter ≠ .done → ∀ finished, ∃ next, s'.step (.wait finished) = some next) ∧
      (s'.waiter = .done → s'.pool = [] ∧ s'.appended = s.appended ∧
        (s'.killed ++ s'.seen).Perm s.appended)) := by
  have sound := sound_of_visits visited alive
  obtain ⟨_, conserved, counted⟩ := sound.alive alive
  refine ⟨conserved, ?_, ?_, ?_⟩
  · intro booked
    rw [count, counted, List.length_append]
    split
    next place => exact absurd place (booked _)
    · rfl
  · intro pool place
    rw [counted, place]
    exact Nat.le_add_left 1 _
  · intro quiet s₁ destroyed
    have closing : s₁.Sound := sound_step sound (fun _ => quiet) destroyed
    simp only [step, alive, Bool.false_eq_true, if_false, Option.some.injEq] at destroyed
    subst destroyed
    refine ⟨s.remaining, fun acts' s' ran => ?_⟩
    obtain ⟨after, appended, fewer⟩ := closing.closing_run rfl ran
    refine ⟨Nat.le_trans (Nat.le_add_right _ _) fewer, fun undone => exists_stepWait undone, ?_⟩
    intro done
    have killed := after.conserved
    rw [done] at killed
    exact ⟨killed.2.1, appended, appended ▸ killed.2.2⟩

/-- Two children are polled, one of them has finished, and a third one is appended meanwhile. -/
def pollingRun : List (SpawnAction String (Fin 2)) :=
  [.append 0 "b", .push 0, .wait false, .wait false, .wait false, .append 1 "c", .wait true,
    .push 1]

theorem children_kept_three :
    ∃ s, run step (create (some "a")) pollingRun = some s ∧
      s.pool = ["c"] ∧ s.waiter.unprocessed = ["b"] ∧ s.seen = ["a"] ∧
      (s.pool ++ s.waiter.unprocessed ++ s.seen).Perm s.appended ∧ 1 ≤ s.poolSize := by
  have ran : run step (create (some "a")) pollingRun = some _ := rfl
  have kept := children_kept (visits_of_run ran) rfl
  exact ⟨_, rfl, rfl, rfl, rfl, kept.1, kept.2.2.1 _ rfl⟩

end SpawnPolling

end ServerLib
