import Mathlib.Data.List.Basic
import ServerLib.Foundation.Transition

/-!
# `wait_async_result` and `wait_async` with a timeout

The caller hands a wrapper of `asynch_func` over to another thread and waits. Both have a
reference to a mutex. When the wrapper has the mutex, it takes the number of references for
a sign of whether the caller still waits, and writes to the caller's frame only then.

The caller reads what it returns under the mutex, but gives its reference back behind that. A
result of class type may be made in place of the return object, as copy elision permits: it is
then not read, and what the wrapper writes is what the caller returns. So it is with an initial
result that is an lvalue, which `result` and what is returned are references to. An exception of
`asynch_func` leaves the caller, as `SRV_ERROR` in its `catch` clause throws in turn.

What is modelled begins when `caller_func` has returned; the wrapper may be called at any time, or
never.
-/
namespace ServerLib

open Transition

/-- What sets `wait_async_result` and `wait_async` apart, where `asynch_func` returns an `α`. -/
structure WaitFunction (α ρ : Type) where
  /-- what `result` or `complete` is at first -/
  initial : ρ
  /-- what is written to it -/
  written : α → ρ
  /-- nothing is copied: `result` is the return object itself, or what is returned refers to it -/
  elided : Bool

/-- The copy of a result can be elided if it is of class type, and there is none for an lvalue. -/
def waitAsyncResult {ρ : Type} (initialResult : ρ) (elided : Bool) : WaitFunction ρ ρ where
  initial := initialResult
  written := id
  elided

def waitAsync : WaitFunction Unit Bool where
  initial := false
  written _ := true
  elided := false

/-- What `asynch_func` comes to. -/
inductive WaitOutcome (α : Type) where
  | result (a : α)
  /-- an exception; whether it is an `std::exception` -/
  | exception (standard : Bool)
  deriving DecidableEq, Repr

inductive WaitPromise where
  | empty
  | value
  | exception (standard : Bool)
  deriving DecidableEq, Repr

/-- Where the caller is. -/
inductive WaitCaller (ρ : Type) where
  /-- in `wait_for` -/
  | waiting
  /-- at the mutex -/
  | locking
  | reading
  /-- has read what it returns, if that is copied -/
  | unlocking (r : Option ρ)
  /-- has given the mutex back -/
  | releasing (r : Option ρ)
  /-- `get` has thrown -/
  | thrown (standard : Bool)
  /-- in the `catch` clause for `std::exception`, without its reference -/
  | catching
  /-- has left by an exception -/
  | escaped
  | returned (r : ρ)
  deriving DecidableEq, Repr

/-- Where the wrapper is. -/
inductive WaitWrapper (α : Type) where
  | posted
  /-- in `asynch_func`, with a reference to the mutex -/
  | running
  /-- at the mutex -/
  | locking (outcome : WaitOutcome α)
  /-- at `use_count` -/
  | testing (outcome : WaitOutcome α)
  | writing (a : α)
  /-- at `set_value` or `set_exception` -/
  | promising (outcome : WaitOutcome α)
  | unlocking
  | ended
  deriving DecidableEq, Repr

inductive WaitParty where
  | caller
  | wrapper
  deriving DecidableEq, Repr

namespace WaitCaller

variable {ρ : Type}

def hasReference : WaitCaller ρ → Bool
  | .catching | .escaped | .returned _ => false
  | _ => true

def locks : WaitCaller ρ → Bool
  | .reading | .unlocking _ => true
  | _ => false

/-- What the caller has read to return it. -/
def read? : WaitCaller ρ → Option ρ
  | .unlocking r | .releasing r => r
  | .returned r => some r
  | _ => none

def releases : WaitCaller ρ → Bool
  | .releasing _ => true
  | _ => false

end WaitCaller

namespace WaitWrapper

variable {α : Type}

def hasReference : WaitWrapper α → Bool
  | .posted | .ended => false
  | _ => true

def locks : WaitWrapper α → Bool
  | .testing _ | .writing _ | .promising _ | .unlocking => true
  | _ => false

def tests : WaitWrapper α → Bool
  | .testing _ => true
  | _ => false

/-- The wrapper writes in its next step. -/
def writes : WaitWrapper α → Bool
  | .writing _ | .promising _ => true
  | _ => false

theorem locks_of_writes {w : WaitWrapper α} (writes : w.writes) : w.locks := by
  cases w with
  | writing a => rfl
  | promising o => rfl
  | _ => exact nomatch writes

end WaitWrapper

structure TimedWait (α ρ : Type) where
  /-- `result` or `complete` -/
  result : ρ
  waitCtx : WaitPromise := .empty
  /-- who has the mutex -/
  guard : Option WaitParty := none
  caller : WaitCaller ρ := .waiting
  wrapper : WaitWrapper α := .posted
  /-- what the wrapper has written -/
  committed : Option α := none
  deriving DecidableEq, Repr

inductive WaitAction (α : Type) where
  /-- The caller goes on; whether the promise is ready if it waits for that. -/
  | caller (ready : Bool)
  /-- The wrapper goes on; what `asynch_func` comes to. -/
  | wrapper (outcome : WaitOutcome α)
  deriving DecidableEq, Repr

namespace TimedWait

variable {α ρ : Type}

def start (f : WaitFunction α ρ) : TimedWait α ρ := { result := f.initial }

def useCount (s : TimedWait α ρ) : Nat := s.caller.hasReference.toNat + s.wrapper.hasReference.toNat

def callerStep (f : WaitFunction α ρ) (s : TimedWait α ρ) (ready : Bool) :
    Option (TimedWait α ρ) :=
  match s.caller with
  | .waiting =>
    if ready then
      match s.waitCtx with
      | .empty => none
      | .value => some { s with caller := .locking }
      | .exception standard => some { s with caller := .thrown standard }
    else some { s with caller := .locking }
  | .locking =>
    if s.guard = none then some { s with caller := .reading, guard := some .caller } else none
  | .reading => some { s with caller := .unlocking (if f.elided then none else some s.result) }
  | .unlocking r => some { s with caller := .releasing r, guard := none }
  | .releasing r => some { s with caller := .returned (r.getD s.result) }
  | .thrown standard => some { s with caller := if standard then .catching else .escaped }
  -- `SRV_ERROR` throws an `std::logic_error`
  | .catching => some { s with caller := .escaped }
  | .escaped | .returned _ => none

def wrapperStep (f : WaitFunction α ρ) (s : TimedWait α ρ) (outcome : WaitOutcome α) :
    Option (TimedWait α ρ) :=
  match s.wrapper with
  | .posted =>
    -- nobody is waiting any more
    if s.useCount = 0 then some { s with wrapper := .ended }
    else some { s with wrapper := .running }
  | .running => some { s with wrapper := .locking outcome }
  | .locking outcome =>
    if s.guard = none then
      some { s with wrapper := .testing outcome, guard := some .wrapper }
    else none
  | .testing outcome =>
    if 1 < s.useCount then
      match outcome with
      | .result a => some { s with wrapper := .writing a }
      | .exception standard => some { s with wrapper := .promising (.exception standard) }
    else some { s with wrapper := .unlocking }
  | .writing a =>
    some { s with
      wrapper := .promising (.result a), result := f.written a, committed := some a }
  | .promising (.result _) => some { s with wrapper := .unlocking, waitCtx := .value }
  | .promising (.exception standard) =>
    some { s with wrapper := .unlocking, waitCtx := .exception standard }
  | .unlocking => some { s with wrapper := .ended, guard := none }
  | .ended => none

def step (f : WaitFunction α ρ) (s : TimedWait α ρ) : WaitAction α → Option (TimedWait α ρ)
  | .caller ready => s.callerStep f ready
  | .wrapper outcome => s.wrapperStep f outcome

/-- The outcome of the wait: what `asynch_func` has returned if the wrapper has written that, and
the initial value if it has written nothing. -/
def outcome (f : WaitFunction α ρ) (s : TimedWait α ρ) : ρ := s.committed.elim f.initial f.written

/-- The wrapper writes nothing behind the caller's reading, and the caller returns the outcome. -/
structure Agreed (f : WaitFunction α ρ) (s : TimedWait α ρ) : Prop where
  inTime : s.caller.read?.isSome → s.wrapper.writes = false
  returned : ∀ r, s.caller = .returned r → r = s.outcome f

/-- The wrapper does not look at the number of references when the caller has given the mutex back
and has not given its reference back yet. If there is nothing to be copied, it may do so, but the
caller does not return before the wrapper has written. -/
def Timely (f : WaitFunction α ρ) (s : TimedWait α ρ) : WaitAction α → Prop
  | .wrapper _ => f.elided = false → s.wrapper.tests → s.caller.releases = false
  | .caller _ => f.elided = true → s.caller.releases → s.wrapper.writes = false

structure Sound (f : WaitFunction α ρ) (s : TimedWait α ρ) : Prop where
  result : s.result = s.outcome f
  caller : s.caller.locks ↔ s.guard = some .caller
  wrapper : s.wrapper.locks ↔ s.guard = some .wrapper
  read : ∀ r ∈ s.caller.read?, r = s.outcome f ∧ s.wrapper.writes = false
  copied : ∀ r, s.caller = .unlocking r ∨ s.caller = .releasing r → r.isNone = f.elided

variable {f : WaitFunction α ρ} {s s' : TimedWait α ρ}

theorem sound_start (f : WaitFunction α ρ) : (start f).Sound f where
  result := rfl
  caller := by simp [start, WaitCaller.locks]
  wrapper := by simp [start, WaitWrapper.locks]
  read := nofun
  copied := by simp [start]

/-- Where the wrapper finds that the caller has its reference, the caller has read nothing yet. -/
theorem Sound.unread (sound : s.Sound f) {o : WaitOutcome α} (testing : s.wrapper = .testing o)
    (early : f.elided = false → s.caller.releases = false) (referred : 1 < s.useCount) :
    s.caller.read? = none := by
  -- the wrapper has the mutex, so the caller is not where it would have it
  have mine : s.guard = some .wrapper := sound.wrapper.mp (by rw [testing]; rfl)
  cases caller : s.caller with
  | unlocking r =>
    have other : s.guard = some .caller := sound.caller.mp (by rw [caller]; rfl)
    exact nomatch mine.symm.trans other
  | releasing r =>
    rw [caller] at early
    have copied := sound.copied r (.inr caller)
    cases r with
    | none => rfl
    | some r => exact nomatch early copied.symm
  | returned r =>
    simp [useCount, caller, testing, WaitCaller.hasReference, WaitWrapper.hasReference] at referred
  | _ => rfl

/-- With the mutex in the caller's hands the wrapper does not write. -/
theorem Sound.calm (sound : s.Sound f) (mine : s.guard = some .caller) :
    s.wrapper.writes = false := by
  refine Bool.eq_false_iff.mpr fun writes => ?_
  exact nomatch mine.symm.trans (sound.wrapper.mp (WaitWrapper.locks_of_writes writes))

/-- What the caller's steps change. -/
theorem Sound.move (sound : s.Sound f) {caller : WaitCaller ρ} {guard : Option WaitParty}
    (locked : caller.locks ↔ guard = some .caller)
    (others : s.guard = some .wrapper ↔ guard = some .wrapper)
    (read : ∀ r ∈ caller.read?, r = s.outcome f ∧ s.wrapper.writes = false)
    (copied : ∀ r, caller = .unlocking r ∨ caller = .releasing r → r.isNone = f.elided) :
    { s with caller, guard }.Sound f :=
  ⟨sound.result, locked, sound.wrapper.trans others, read, copied⟩

/-- The caller goes on without its mutex, and has read nothing. -/
theorem Sound.unlocked (sound : s.Sound f) {caller : WaitCaller ρ}
    (before : s.caller.locks = false) (locks : caller.locks = false)
    (read : ∀ r, caller ≠ .returned r) (releases : caller.releases = false) :
    { s with caller }.Sound f := by
  apply sound.move
  · rw [locks, ← sound.caller, before]
  · exact Iff.rfl
  · intro r member
    cases caller with
    | unlocking r => cases locks
    | releasing r => cases releases
    | returned r => exact absurd rfl (read r)
    | _ => cases member
  · rintro r (rfl | rfl)
    · cases locks
    · cases releases

theorem sound_callerStep {ready : Bool} (sound : s.Sound f)
    (stepped : s.callerStep f ready = some s') (timely : s.Timely f (.caller ready)) :
    s'.Sound f := by
  unfold callerStep at stepped
  split at stepped
  next waiting =>
    have before : s.caller.locks = false := by rw [waiting]; rfl
    split at stepped
    · split at stepped
      · exact nomatch stepped
      · exact Option.some.inj stepped ▸ sound.unlocked before rfl nofun rfl
      · exact Option.some.inj stepped ▸ sound.unlocked before rfl nofun rfl
    · exact Option.some.inj stepped ▸ sound.unlocked before rfl nofun rfl
  next locking =>
    simp only [Option.ite_none_right_eq_some, Option.some.injEq] at stepped
    obtain ⟨free, rfl⟩ := stepped
    exact sound.move (by simp [WaitCaller.locks]) (by simp [free]) nofun (by simp)
  next reading =>
    obtain rfl := Option.some.inj stepped
    have mine : s.guard = some .caller := sound.caller.mp (by rw [reading]; rfl)
    refine sound.move (by simp [WaitCaller.locks, mine]) Iff.rfl ?_ ?_
    · intro r member
      simp only [WaitCaller.read?, Option.mem_def, Option.ite_none_left_eq_some] at member
      obtain ⟨-, ⟨⟩⟩ := member
      exact ⟨sound.result, sound.calm mine⟩
    · rintro _ (⟨⟨⟩⟩ | ⟨⟨⟩⟩)
      cases f.elided with
      | true => rfl
      | false => rfl
  next r unlocking =>
    obtain rfl := Option.some.inj stepped
    have mine : s.guard = some .caller := sound.caller.mp (by rw [unlocking]; rfl)
    refine sound.move (by simp [WaitCaller.locks]) (by simp [mine]) ?_ ?_
    · intro r' member
      exact sound.read r' (by rw [unlocking]; exact member)
    · rintro _ (⟨⟨⟩⟩ | ⟨⟨⟩⟩)
      exact sound.copied r (.inl unlocking)
  next r releasing =>
    obtain rfl := Option.some.inj stepped
    have copied := sound.copied r (.inr releasing)
    refine sound.move ?_ Iff.rfl ?_ (by simp)
    · rw [← sound.caller, releasing]
      rfl
    · rintro _ ⟨⟩
      cases r with
      -- what is in the return object when the caller returns
      | none => exact ⟨sound.result, timely copied.symm (by rw [releasing]; rfl)⟩
      | some r => exact sound.read r (by rw [releasing]; rfl)
  next standard thrown =>
    obtain rfl := Option.some.inj stepped
    have before : s.caller.locks = false := by rw [thrown]; rfl
    cases standard with
    | true => exact sound.unlocked before rfl nofun rfl
    | false => exact sound.unlocked before rfl nofun rfl
  next catching =>
    obtain rfl := Option.some.inj stepped
    have before : s.caller.locks = false := by rw [catching]; rfl
    exact sound.unlocked before rfl nofun rfl
  · exact nomatch stepped
  · exact nomatch stepped

/-- The wrapper goes on, and writes nothing in this step. -/
theorem Sound.early (sound : s.Sound f) {wrapper : WaitWrapper α} {guard : Option WaitParty}
    {waitCtx : WaitPromise} (locked : wrapper.locks ↔ guard = some .wrapper)
    (others : s.guard = some .caller ↔ guard = some .caller)
    (read : s.caller.read?.isSome → wrapper.writes = false) :
    { s with wrapper, guard, waitCtx }.Sound f where
  result := sound.result
  caller := sound.caller.trans others
  wrapper := locked
  read r member := ⟨(sound.read r member).1, read (Option.isSome_iff_exists.mpr ⟨r, member⟩)⟩
  copied := sound.copied

/-- The wrapper writes the result. The caller has read nothing, as it would have seen that. -/
theorem Sound.write (sound : s.Sound f) {a : α} (writing : s.wrapper = .writing a) :
    { s with
      wrapper := .promising (.result a), result := f.written a, committed := some a }.Sound f := by
  have mine : s.guard = some .wrapper := sound.wrapper.mp (by rw [writing]; rfl)
  refine ⟨rfl, sound.caller, ⟨fun _ => mine, fun _ => rfl⟩, fun r member => ?_, sound.copied⟩
  have calm := (sound.read r member).2
  rw [writing] at calm
  exact nomatch calm

theorem sound_wrapperStep {o : WaitOutcome α} (sound : s.Sound f)
    (stepped : s.wrapperStep f o = some s') (timely : s.Timely f (.wrapper o)) : s'.Sound f := by
  -- of all its steps only the test can lead to a write
  have unread {o : WaitOutcome α} (testing : s.wrapper = .testing o) (referred : 1 < s.useCount) :
      s.caller.read? = none :=
    sound.unread testing (fun copied => timely copied (by rw [testing]; rfl)) referred
  have locks (at_ : s.wrapper.locks) : s.guard = some .wrapper := sound.wrapper.mp at_
  unfold wrapperStep at stepped
  split at stepped
  next posted =>
    have free : s.guard ≠ some .wrapper := by rw [ne_eq, ← sound.wrapper, posted]; nofun
    split at stepped
    all_goals
      obtain rfl := Option.some.inj stepped
      refine sound.early ?_ Iff.rfl fun _ => rfl
      simp [WaitWrapper.locks, free]
  next running =>
    obtain rfl := Option.some.inj stepped
    have free : s.guard ≠ some .wrapper := by rw [ne_eq, ← sound.wrapper, running]; nofun
    refine sound.early ?_ Iff.rfl fun _ => rfl
    simp [WaitWrapper.locks, free]
  next locking =>
    simp only [Option.ite_none_right_eq_some, Option.some.injEq] at stepped
    obtain ⟨free, rfl⟩ := stepped
    refine sound.early ?_ (by simp [free]) fun _ => rfl
    simp [WaitWrapper.locks]
  next testing =>
    have mine := locks (by rw [testing]; rfl)
    split at stepped
    next referred =>
      have nothing := unread testing referred
      split at stepped
      all_goals
        obtain rfl := Option.some.inj stepped
        refine sound.early ?_ Iff.rfl (by simp [nothing])
        simp [WaitWrapper.locks, mine]
    · obtain rfl := Option.some.inj stepped
      refine sound.early ?_ Iff.rfl fun _ => rfl
      simp [WaitWrapper.locks, mine]
  next writing => exact Option.some.inj stepped ▸ sound.write writing
  next promising =>
    have mine := locks (by rw [promising]; rfl)
    exact Option.some.inj stepped ▸ sound.early ⟨fun _ => mine, fun _ => rfl⟩ Iff.rfl fun _ => rfl
  next standard promising =>
    have mine := locks (by rw [promising]; rfl)
    exact Option.some.inj stepped ▸ sound.early ⟨fun _ => mine, fun _ => rfl⟩ Iff.rfl fun _ => rfl
  next unlocking =>
    have mine := locks (by rw [unlocking]; rfl)
    obtain rfl := Option.some.inj stepped
    refine sound.early (by simp [WaitWrapper.locks]) ?_ fun _ => rfl
    simp [mine]
  · exact nomatch stepped

theorem Sound.agreed (sound : s.Sound f) : s.Agreed f where
  inTime hasRead := by
    obtain ⟨r, read⟩ := Option.isSome_iff_exists.mp hasRead
    exact (sound.read r read).2
  returned r returned := (sound.read r (by rw [returned]; rfl)).1

/-- A look at the number of references at the wrong moment lets the wrapper write too late. -/
theorem disagreed_of_untimely (sound : s.Sound f) {a : WaitAction α}
    (untimely : ¬ s.Timely f a) : ∃ s', s.step f a = some s' ∧ ¬ s'.Agreed f := by
  cases a with
  | caller ready =>
    obtain ⟨elided, untimely⟩ := Classical.not_imp.mp untimely
    obtain ⟨releases, writes⟩ := Classical.not_imp.mp untimely
    cases caller : s.caller with
    | releasing r =>
      -- the caller returns while the wrapper writes
      refine ⟨{ s with caller := .returned (r.getD s.result) }, ?_, fun agreed => ?_⟩
      · simp [step, callerStep, caller]
      · exact writes (agreed.inTime rfl)
    | _ =>
      rw [caller] at releases
      exact nomatch releases
  | wrapper o =>
    obtain ⟨copied, untimely⟩ := Classical.not_imp.mp untimely
    obtain ⟨tests, releases⟩ := Classical.not_imp.mp untimely
    cases wrapper : s.wrapper with
    | testing outcome =>
      cases caller : s.caller with
      | releasing r =>
        -- the caller has read, and its reference is still counted
        have referred : 1 < s.useCount := by
          simp [useCount, caller, wrapper, WaitCaller.hasReference, WaitWrapper.hasReference]
        have hasRead : s.caller.read?.isSome := by
          have there := sound.copied r (.inr caller)
          rw [copied, Option.isNone_eq_false_iff] at there
          rw [caller]
          exact there
        cases outcome with
        | result a =>
          refine ⟨{ s with wrapper := .writing a }, ?_, fun agreed => ?_⟩
          · simp [step, wrapperStep, wrapper, referred]
          · exact nomatch agreed.inTime hasRead
        | exception standard =>
          refine ⟨{ s with wrapper := .promising (.exception standard) }, ?_, fun agreed => ?_⟩
          · simp [step, wrapperStep, wrapper, referred]
          · exact nomatch agreed.inTime hasRead
      | _ =>
        rw [caller] at releases
        exact absurd rfl releases
    | _ =>
      rw [wrapper] at tests
      exact nomatch tests

theorem agreed_iff (f : WaitFunction α ρ) (acts : List (WaitAction α)) :
    (∀ s, Visits (step f) (start f) acts s → s.Agreed f) ↔
      Meets (step f) (Timely f) (start f) acts := by
  have keeps (s : TimedWait α ρ) (a : WaitAction α) (s' : TimedWait α ρ) (sound : s.Sound f)
      (timely : s.Timely f a) (stepped : s.step f a = some s') : s'.Sound f := by
    cases a with
    | caller ready => exact sound_callerStep sound stepped timely
    | wrapper o => exact sound_wrapperStep sound stepped timely
  apply always_iff keeps
  · exact fun _ sound => sound.agreed
  · exact fun _ _ sound untimely => disagreed_of_untimely sound untimely
  · exact sound_start f

/-- A timed wait either takes the result or abandons it exactly if the wrapper never looks at the
number of references between the caller's unlocking and its release; where the copy of the result
is elided, exactly if the caller never returns while the wrapper writes. -/
theorem timed_waits_agree_iff (initialResult : ρ) (elided : Bool) (acts : List (WaitAction ρ))
    (asyncActs : List (WaitAction Unit)) :
    let f := waitAsyncResult initialResult elided
    let g := waitAsync
    ((∀ s, Visits (step f) (start f) acts s → s.Agreed f) ↔
        Meets (step f) (Timely f) (start f) acts) ∧
      ((∀ s, Visits (step g) (start g) asyncActs s → s.Agreed g) ↔
        Meets (step g) (Timely g) (start g) asyncActs) :=
  ⟨agreed_iff _ acts, agreed_iff _ asyncActs⟩

/-- The wrapper has the mutex just behind the caller, which has not given its reference back. -/
private def lateTest {α : Type} (a : α) : List (WaitAction α) :=
  List.replicate 2 (.wrapper (.result a)) ++ List.replicate 4 (.caller false) ++
    List.replicate 2 (.wrapper (.result a)) ++ [.caller false]

/-- The caller returns the initial result, and the wrapper is about to write. -/
theorem timed_waits_disagree :
    (∀ elided, ∃ s, Visits (step (waitAsyncResult 0 elided)) (start (waitAsyncResult 0 elided))
      (lateTest 1) s ∧ s.caller = .returned 0 ∧ s.wrapper = .writing 1 ∧
      ¬ s.Agreed (waitAsyncResult 0 elided)) ∧
    ∃ s, Visits (step waitAsync) (start waitAsync) (lateTest ()) s ∧
      s.caller = .returned false ∧ s.wrapper = .writing () ∧ ¬ s.Agreed waitAsync := by
  constructor
  · intro elided
    cases elided with
    | true => exact ⟨_, visits_of_run rfl, rfl, rfl, fun agreed => nomatch agreed.inTime rfl⟩
    | false => exact ⟨_, visits_of_run rfl, rfl, rfl, fun agreed => nomatch agreed.inTime rfl⟩
  · exact ⟨_, visits_of_run rfl, rfl, rfl, fun agreed => nomatch agreed.inTime rfl⟩

end TimedWait

end ServerLib
