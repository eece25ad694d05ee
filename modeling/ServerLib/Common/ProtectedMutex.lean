import Mathlib.Logic.Function.Basic
import ServerLib.Common.Asserts
import ServerLib.Foundation.Transition

/-!
# `protected_mutex`

The wrapper keeps the id of the owning thread in the word `_ows` beside the mutex, so that a
wrong `lock` or `unlock` throws. `unlock` clears the word after it has released the mutex, in
a loop whose compare-exchange writes the word it has found over the value it expects. If
another thread has meanwhile locked the mutex and stored its id, the loop comes to expect
that id and clears it. The new owner is then refused by its own `unlock`.

Each atomic operation of `lock` and `unlock` is one step. The results are about any number
of threads that lock and unlock in matched pairs.
-/
namespace ServerLib

open Transition

/-- The hashes of the thread ids. -/
structure ThreadIds (τ : Type) where
  hash : τ → Nat
  nonzero : ∀ t, hash t ≠ 0
  distinct : Function.Injective hash

/-- Where a thread is in `lock` and `unlock`: what it does next is in parentheses. -/
inductive MutexLoc where
  /-- not in the mutex's code (`lock`) -/
  | outside
  /-- it is not the owner (`_mutex.lock()`) -/
  | locking
  /-- it has locked the mutex (`_ows.store(et)`) -/
  | storing
  /-- `lock` has returned (`unlock`) -/
  | holding
  /-- it is the owner (`_mutex.unlock()`) -/
  | unlocking
  /-- it has released the mutex (`_ows.compare_exchange_weak(et_, 0)`) -/
  | releasing (expected : Nat)
  | threw (error : LogicError)
  deriving DecidableEq

inductive MutexAction (τ : Type) where
  | checkRelock (t : τ)
  | lockMutex (t : τ)
  | storeOwner (t : τ)
  | checkOwner (t : τ)
  | unlockMutex (t : τ)
  | release (t : τ) (spurious : Bool)

/-- The word, the thread that has locked the mutex inside, and where the threads are. -/
structure ProtectedMutex (τ : Type) where
  ows : Nat := 0
  mutex : Option τ := none
  loc : τ → MutexLoc := fun _ => .outside

namespace ProtectedMutex

variable {τ : Type} [DecidableEq τ] (ids : ThreadIds τ)

def move (m : ProtectedMutex τ) (t : τ) (loc : MutexLoc) : ProtectedMutex τ :=
  { m with loc := Function.update m.loc t loc }

@[simp] theorem move_ows (m : ProtectedMutex τ) (t : τ) (loc : MutexLoc) :
    (m.move t loc).ows = m.ows := rfl

@[simp] theorem move_mutex (m : ProtectedMutex τ) (t : τ) (loc : MutexLoc) :
    (m.move t loc).mutex = m.mutex := rfl

@[simp] theorem move_loc_same (m : ProtectedMutex τ) (t : τ) (loc : MutexLoc) :
    (m.move t loc).loc t = loc := by
  simp [move]

theorem move_loc_other (m : ProtectedMutex τ) {t u : τ} (other : u ≠ t) (loc : MutexLoc) :
    (m.move t loc).loc u = m.loc u := by
  simp [move, other]

/-- The first step of `lock`. -/
def afterRelock (m : ProtectedMutex τ) (t : τ) : MutexLoc :=
  if m.ows = ids.hash t then
    .threw ⟨"!_ows.compare_exchange_strong(et_, et)", "Owner try to relock"⟩
  else .locking

/-- The first step of `unlock`; a failed compare-exchange leaves the word in `et_`. -/
def afterOwner (m : ProtectedMutex τ) (t : τ) : MutexLoc :=
  if m.ows = ids.hash t then .unlocking
  else if m.ows ≠ 0 then .threw ⟨"!et_", "Attempt to unlock not locked mutex"⟩
  else .threw ⟨"et_ > 0", "Not owner try to unlock"⟩

def step (m : ProtectedMutex τ) : MutexAction τ → Option (ProtectedMutex τ)
  | .checkRelock t => if m.loc t = .outside then some (m.move t (m.afterRelock ids t)) else none
  | .lockMutex t =>
    if m.loc t = .locking ∧ m.mutex = none then
      some ({ m with mutex := some t }.move t .storing)
    else none
  | .storeOwner t =>
    if m.loc t = .storing then some ({ m with ows := ids.hash t }.move t .holding) else none
  | .checkOwner t => if m.loc t = .holding then some (m.move t (m.afterOwner ids t)) else none
  | .unlockMutex t =>
    if m.loc t = .unlocking then
      some ({ m with mutex := none }.move t (.releasing (ids.hash t)))
    else none
  | .release t spurious =>
    match m.loc t with
    | .releasing expected =>
      -- a failed exchange, spurious or not, leaves the word it has found in `et_`
      if m.ows = expected ∧ spurious = false then some ({ m with ows := 0 }.move t .outside)
      else some (m.move t (.releasing m.ows))
    | _ => none

/-- Nothing has thrown, and a thread that holds the mutex is named by the word. -/
def NeverPunished (m : ProtectedMutex τ) : Prop :=
  ∀ t, (∀ error, m.loc t ≠ .threw error) ∧ (m.loc t = .holding → m.ows = ids.hash t)

/-- A release that goes through does not clear the id of a thread that holds the mutex. -/
def ClearsNoHolder (m : ProtectedMutex τ) : MutexAction τ → Prop
  | .release t false =>
    m.loc t = .releasing m.ows → ∀ u, m.loc u = .holding → m.ows ≠ ids.hash u
  | _ => True

/-- What the word and the mutex are for a thread, by the place where it is. -/
def SoundAt (ows : Nat) (mutex : Option τ) (t : τ) : MutexLoc → Prop
  | .outside => mutex ≠ some t ∧ ows ≠ ids.hash t
  | .locking => mutex ≠ some t ∧ ows ≠ ids.hash t
  | .storing => mutex = some t ∧ ows ≠ ids.hash t
  | .holding => mutex = some t ∧ ows = ids.hash t
  | .unlocking => mutex = some t
  | .releasing _ => mutex ≠ some t
  | .threw _ => False

def Sound (m : ProtectedMutex τ) : Prop := ∀ t, SoundAt ids m.ows m.mutex t (m.loc t)

variable {ids} in
omit [DecidableEq τ] in
theorem Sound.place {m : ProtectedMutex τ} (sound : m.Sound ids) {t : τ} {loc : MutexLoc}
    (at_t : m.loc t = loc) : SoundAt ids m.ows m.mutex t loc := at_t ▸ sound t

omit [DecidableEq τ] in
theorem sound_fresh : ({} : ProtectedMutex τ).Sound ids := by
  intro t
  exact ⟨by simp, (ids.nonzero t).symm⟩

omit [DecidableEq τ] in
theorem neverPunished_of_sound {m : ProtectedMutex τ} (sound : m.Sound ids) :
    m.NeverPunished ids := by
  intro t
  have here := sound t
  constructor
  · intro error threw
    rw [threw] at here
    exact here
  · intro holds
    rw [holds] at here
    exact here.2

/-- A step of `t` keeps the invariant if it moves `t` to where it should be, and for the others
leaves the mutex alone, takes none of their ids for the word, and none away from a holder. -/
theorem sound_of_step {m m' : ProtectedMutex τ} {t : τ} {loc : MutexLoc}
    (sound : m.Sound ids) (same : m'.loc = m.loc) (own : SoundAt ids m'.ows m'.mutex t loc)
    (locked : ∀ u, u ≠ t → (m'.mutex = some u ↔ m.mutex = some u))
    (unnamed : ∀ u, u ≠ t → m.ows ≠ ids.hash u → m'.ows ≠ ids.hash u)
    (named : ∀ u, u ≠ t → m.loc u = .holding → m'.ows = m.ows) :
    (m'.move t loc).Sound ids := by
  intro u
  by_cases who : u = t
  · subst who
    rw [move_loc_same]
    exact own
  · rw [move_loc_other _ who, same, move_ows, move_mutex]
    have there := sound u
    -- the place of `u` is unchanged; what it requires is checked place by place
    have lockedHere := locked u who
    cases at_u : m.loc u <;> simp only [at_u, SoundAt, ne_eq, lockedHere] at there ⊢
    case outside => exact ⟨there.1, unnamed u who there.2⟩
    case locking => exact ⟨there.1, unnamed u who there.2⟩
    case storing => exact ⟨there.1, unnamed u who there.2⟩
    case holding => exact ⟨there.1, (named u who at_u).trans there.2⟩
    case unlocking => exact there
    case releasing => exact there

theorem sound_step (m : ProtectedMutex τ) (a : MutexAction τ) (m' : ProtectedMutex τ)
    (sound : m.Sound ids) (meets : m.ClearsNoHolder ids a) (stepped : m.step ids a = some m') :
    m'.Sound ids := by
  cases a with
  | checkRelock t =>
    simp only [step, Option.ite_none_right_eq_some, Option.some.injEq] at stepped
    obtain ⟨at_t, rfl⟩ := stepped
    have here := sound.place at_t
    refine sound_of_step ids sound rfl ?_ (fun _ _ => .rfl) (fun _ _ => id) (fun _ _ _ => rfl)
    rw [afterRelock, if_neg here.2]
    exact here
  | lockMutex t =>
    simp only [step, Option.ite_none_right_eq_some, Option.some.injEq] at stepped
    obtain ⟨⟨at_t, free⟩, rfl⟩ := stepped
    have here := sound.place at_t
    refine sound_of_step ids sound rfl ⟨rfl, here.2⟩ ?_ (fun _ _ => id) (fun _ _ _ => rfl)
    intro u other
    simp [free, other.symm]
  | storeOwner t =>
    simp only [step, Option.ite_none_right_eq_some, Option.some.injEq] at stepped
    obtain ⟨at_t, rfl⟩ := stepped
    have here := sound.place at_t
    refine sound_of_step ids sound rfl ⟨here.1, rfl⟩ (fun _ _ => .rfl) ?_ ?_
    · intro u other _ same
      exact other (ids.distinct same.symm)
    · intro u other at_u
      have there := sound.place at_u
      -- a holder other than `t` would have the mutex locked as well
      exact absurd (Option.some.inj (there.1.symm.trans here.1)) other
  | checkOwner t =>
    simp only [step, Option.ite_none_right_eq_some, Option.some.injEq] at stepped
    obtain ⟨at_t, rfl⟩ := stepped
    have here := sound.place at_t
    refine sound_of_step ids sound rfl ?_ (fun _ _ => .rfl) (fun _ _ => id) (fun _ _ _ => rfl)
    rw [afterOwner, if_pos here.2]
    exact here.1
  | unlockMutex t =>
    simp only [step, Option.ite_none_right_eq_some, Option.some.injEq] at stepped
    obtain ⟨at_t, rfl⟩ := stepped
    have here : m.mutex = some t := sound.place at_t
    refine sound_of_step ids sound rfl (by simp [SoundAt]) ?_ (fun _ _ => id) (fun _ _ _ => rfl)
    intro u other
    simp [here, other.symm]
  | release t spurious =>
    simp only [step] at stepped
    cases at_t : m.loc t with
    | releasing expected =>
      have here := sound.place at_t
      simp only [at_t] at stepped
      split at stepped
      next through =>
        obtain ⟨found, rfl⟩ := through
        cases stepped
        -- the exchange goes through: the word is 0, and the condition says that it was no holder's
        rw [← found] at at_t
        refine sound_of_step ids sound rfl ⟨here, (ids.nonzero t).symm⟩ (fun _ _ => .rfl)
          (fun u _ _ => (ids.nonzero u).symm) ?_
        intro u _ at_u
        have there := sound.place at_u
        exact absurd there.2 (meets at_t u at_u)
      · cases stepped
        exact sound_of_step ids sound rfl here (fun _ _ => .rfl) (fun _ _ => id) (fun _ _ _ => rfl)
    | _ => simp [at_t] at stepped

/-- Clearing the id of a holder is possible whenever it is not excluded, and the holder is then
no longer named. -/
theorem punished_of_clears {m : ProtectedMutex τ} {a : MutexAction τ}
    (clears : ¬ m.ClearsNoHolder ids a) :
    ∃ m', m.step ids a = some m' ∧ ¬ m'.NeverPunished ids := by
  cases a with
  | release t spurious =>
    cases spurious with
    | false =>
      simp only [ClearsNoHolder, Classical.not_imp, not_forall, not_not] at clears
      obtain ⟨at_t, u, at_u, named⟩ := clears
      refine ⟨{ m with ows := 0 }.move t .outside, by simp [step, at_t], fun fine => ?_⟩
      -- the thread in its release loop is not the one that holds
      have other : u ≠ t := by
        rintro rfl
        rw [at_t] at at_u
        cases at_u
      have holds : ({ m with ows := 0 }.move t .outside).loc u = .holding := by
        rw [move_loc_other _ other]
        exact at_u
      exact ids.nonzero u ((fine u).2 holds).symm
    | true => exact absurd trivial clears
  | _ => exact absurd trivial clears

/-- In every schedule, the mutex treats correct use correctly exactly as long as no release
clears the id of a thread that holds it. -/
theorem neverPunished_iff (acts : List (MutexAction τ)) :
    (∀ m, Visits (step ids) {} acts m → m.NeverPunished ids) ↔
      Meets (step ids) (ClearsNoHolder ids) {} acts :=
  always_iff (sound_step ids) (fun _ sound => neverPunished_of_sound ids sound)
    (fun _ _ _ clears => punished_of_clears ids clears) acts (sound_fresh ids)

/-- Thread 1 locks the mutex between the two exchanges of the `unlock` of thread 0, and its own
`unlock` is refused. -/
theorem holder_is_refused :
    ∃ (ids : ThreadIds Nat) (m : ProtectedMutex Nat),
      run (step ids) {} [.checkRelock 0, .lockMutex 0, .storeOwner 0, .checkRelock 1,
        .checkOwner 0, .unlockMutex 0, .lockMutex 1, .storeOwner 1,
        .release 0 false, .release 0 false, .checkOwner 1] = some m ∧
      m.loc 1 = .threw ⟨"et_ > 0", "Not owner try to unlock"⟩ :=
  ⟨⟨Nat.succ, Nat.succ_ne_zero, fun _ _ => Nat.succ.inj⟩, _, rfl, rfl⟩

end ProtectedMutex

end ServerLib
