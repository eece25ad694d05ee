import ServerLib.Common.QueuedLoop
import ServerLib.Foundation.Generation

/-!
# `timer` and `periodical_timer`

A timer posts a closure to its loop with each start, and has no way to take it back. The closure
shares a number with the timer, and does nothing if that is not the one it was posted with. A
start, a stop and the destructor each increase the number, and so call off what was posted
before. The closure of a periodical timer starts the timer again, and then calls back.

The loop executes the closures one at a time, in any order, since their durations are any. Timers
are started, stopped and destroyed from outside and by the callbacks. `number` is an `int`; it is
taken not to overflow.
-/
namespace ServerLib

open Transition

inductive TimerKind where
  /-- `timer` -/
  | singleShot
  /-- `periodical_timer` -/
  | periodical
  deriving DecidableEq, Repr

inductive TimerEvent where
  /-- `start`, whose post has returned -/
  | start
  /-- `start`, whose post has thrown -/
  | refused
  | stop
  | destroy
  /-- A closure calls its callback; closures are named by the place of their start. -/
  | invoke (start : Nat)
  /-- A closure does nothing. -/
  | skip (start : Nat)
  deriving DecidableEq, Repr

/-- What increases the number. -/
def TimerEvent.renews : TimerEvent → Bool
  | .invoke _ | .skip _ => false
  | _ => true

/-- What `start` posts. -/
structure TimerClosure (κ : Type) where
  timerId : Nat
  duration : Int
  callback : κ
  /-- the place of the start in the history -/
  posted : Nat
  deriving DecidableEq, Repr

/-- A timer and what its loop holds of it. -/
structure TimerWorld (κ : Type) where
  kind : TimerKind
  currentTimerId : Nat := 0
  destroyed : Bool := false
  service : List (TimerClosure κ) := []
  /-- the callback that the loop is in -/
  running : Option κ := none
  history : List TimerEvent := []
  /-- a timer was used that had been destroyed -/
  undefined : Bool := false
  deriving DecidableEq, Repr

inductive TimerAction (κ : Type) where
  | start (duration : Int) (callback : κ)
  | stop
  | destroy
  /-- The loop executes one of the closures. -/
  | execute (i : Nat)
  /-- The callback returns. -/
  | finish
  deriving DecidableEq, Repr

namespace TimerWorld

variable {κ : Type}

def create (kind : TimerKind) : TimerWorld κ := { kind }

/-- `++_current_timer_id->value` -/
def renew (w : TimerWorld κ) (event : TimerEvent) : TimerWorld κ :=
  { w with currentTimerId := w.currentTimerId + 1, history := w.history ++ [event] }

/-- `timer::start`. A periodical timer starts it with a closure around the callback. -/
def start (w : TimerWorld κ) (duration : Int) (callback : κ) : Outcome (TimerWorld κ) :=
  match checkDuration duration with
  | some error => .thrown error (w.renew .refused)
  | none =>
    .returned { w.renew .start with
      service := w.service ++
        [⟨w.currentTimerId + 1, duration, callback, w.history.length⟩] }

def stop (w : TimerWorld κ) : TimerWorld κ := w.renew .stop

/-- The destructors. That of a periodical timer stops it before its member does so itself. -/
def destroy (w : TimerWorld κ) : TimerWorld κ :=
  { (match w.kind with
    | .singleShot => w
    | .periodical => w.stop).renew .destroy with destroyed := true }

def live (w : TimerWorld κ) (c : TimerClosure κ) : Bool := w.currentTimerId == c.timerId

/-- The closure that has been taken out of the service. -/
def execute (w : TimerWorld κ) (c : TimerClosure κ) : TimerWorld κ :=
  if w.live c then
    let w := { w with history := w.history ++ [TimerEvent.invoke c.posted] }
    match w.kind with
    | .singleShot => { w with running := some c.callback }
    | .periodical =>
      -- `this->start(duration, callback)`
      -- the closure has the address of its timer, which may be gone
      match { w with undefined := w.undefined || w.destroyed }.start c.duration c.callback with
      | .thrown _ w => w
      | .returned w => { w with running := some c.callback }
  else { w with history := w.history ++ [TimerEvent.skip c.posted] }

def step (w : TimerWorld κ) : TimerAction κ → Option (TimerWorld κ)
  | .start duration callback =>
    if w.destroyed then none else some (w.start duration callback).state
  | .stop => if w.destroyed then none else some w.stop
  | .destroy => if w.destroyed then none else some w.destroy
  | .execute i =>
    -- one closure at a time
    if w.running.isSome then none
    else w.service[i]?.map fun c => { w with service := w.service.eraseIdx i }.execute c
  | .finish => if w.running.isSome then some { w with running := none } else none

/-! ### What was posted last -/

open Generation

/-- The start of a closure is the last of the starts and stops, and the timer is not destroyed. -/
def Latest (w : TimerWorld κ) (c : TimerClosure κ) : Prop :=
  Undisturbed TimerEvent.renews w.history c.posted

instance (w : TimerWorld κ) (c : TimerClosure κ) : Decidable (w.Latest c) := by
  unfold Latest
  infer_instance

/-- A closure calls its callback exactly if its start is the latest. -/
def FiresLatest (w : TimerWorld κ) : Prop :=
  ∀ i c w', w.service[i]? = some c → w.step (.execute i) = some w' →
    w'.running = if w.Latest c then some c.callback else none

/-- Behind a stop nothing is called back before the next start. -/
def QuietBehindStop (w : TimerWorld κ) : Prop :=
  ∀ front back n, front ++ TimerEvent.stop :: back ++ [.invoke n] <+: w.history →
    TimerEvent.start ∈ back

/-- A periodical timer that has been started has one live closure until it is stopped. -/
def AlwaysArmed (w : TimerWorld κ) : Prop :=
  w.kind = .periodical → latest TimerEvent.renews w.history = some .start →
    w.service.countP w.live = 1

/-- What holds also between the call of a closure and the start that it makes. -/
structure Kept (w : TimerWorld κ) : Prop where
  counted : w.currentTimerId = value TimerEvent.renews w.history
  posted : ∀ c ∈ w.service, w.history[c.posted]? = some .start ∧
    c.timerId = value TimerEvent.renews (w.history.take (c.posted + 1)) ∧ 0 < c.duration
  increasing : w.service.Pairwise fun c d => c.timerId < d.timerId
  gone : w.destroyed → latest TimerEvent.renews w.history = some .destroy
  past : ∀ front n, front ++ [TimerEvent.invoke n] <+: w.history →
    latest TimerEvent.renews front = some .start
  defined : w.undefined = false

structure Sound (w : TimerWorld κ) : Prop extends w.Kept where
  armed : w.kind = .periodical → latest TimerEvent.renews w.history = some .start →
    ∃ c ∈ w.service, w.live c

variable {w w' : TimerWorld κ}

theorem Kept.live_iff (kept : w.Kept) {c : TimerClosure κ} (member : c ∈ w.service) :
    w.live c ↔ w.Latest c := by
  rw [Latest, ← value_take_eq_iff, live, beq_iff_eq, kept.counted, (kept.posted c member).2.1]
  exact eq_comm

theorem Kept.latest_of_live (kept : w.Kept) {c : TimerClosure κ} (member : c ∈ w.service)
    (live : w.live c) : latest TimerEvent.renews w.history = some .start :=
  latest_of_undisturbed (kept.posted c member).1 rfl ((kept.live_iff member).mp live)

/-- A destroyed timer has no live closure. -/
theorem Kept.not_destroyed (kept : w.Kept) {c : TimerClosure κ} (member : c ∈ w.service)
    (live : w.live c) : w.destroyed = false := by
  rw [Bool.eq_false_iff]
  intro destroyed
  cases (kept.gone destroyed).symm.trans (kept.latest_of_live member live)

theorem Kept.countP_live_le_one (kept : w.Kept) : w.service.countP w.live ≤ 1 := by
  have once := countP_number_le_one kept.increasing w.currentTimerId
  have same : w.live = fun c => c.timerId == w.currentTimerId := by
    funext c
    exact Bool.beq_comm
  rwa [same]

theorem Sound.alwaysArmed (sound : w.Sound) : w.AlwaysArmed := by
  intro periodical started
  obtain ⟨c, member, live⟩ := sound.armed periodical started
  exact Nat.le_antisymm sound.countP_live_le_one (List.countP_pos_iff.mpr ⟨c, member, live⟩)

theorem Kept.quietBehindStop (kept : w.Kept) : w.QuietBehindStop := by
  intro front back n before
  have last := kept.past _ n before
  exact (mem_of_latest rfl last).resolve_left nofun

/-- What was posted is not touched by later events. -/
theorem Kept.posted_concat (kept : w.Kept) (event : TimerEvent) :
    ∀ c ∈ w.service, (w.history ++ [event])[c.posted]? = some .start ∧
      c.timerId = value TimerEvent.renews ((w.history ++ [event]).take (c.posted + 1)) ∧
      0 < c.duration := by
  intro c member
  obtain ⟨here, number, long⟩ := kept.posted c member
  obtain ⟨inside, -⟩ := List.getElem?_eq_some_iff.mp here
  rw [List.getElem?_append_left inside, List.take_append_of_le_length inside]
  exact ⟨here, number, long⟩

theorem Kept.timerId_le (kept : w.Kept) {c : TimerClosure κ} (member : c ∈ w.service) :
    c.timerId ≤ w.currentTimerId := by
  rw [(kept.posted c member).2.1, kept.counted]
  exact value_take_le _ _

/-- An event that is no callback adds none. -/
theorem Kept.past_concat (kept : w.Kept) {event : TimerEvent} (renewing : event.renews) :
    ∀ front n, front ++ [TimerEvent.invoke n] <+: w.history ++ [event] →
      latest TimerEvent.renews front = some .start := by
  intro front n before
  rcases List.prefix_concat_iff.mp before with whole | earlier
  · obtain ⟨-, last⟩ := List.append_inj' whole rfl
    cases (List.cons.inj last).1
    cases renewing
  · exact kept.past front n earlier

/-- Whatever calls the closures off without a new one. -/
theorem Kept.renew (kept : w.Kept) {event : TimerEvent} (renewing : event.renews)
    (other : event ≠ .start) (alive : w.destroyed = false) : (w.renew event).Sound where
  counted := by
    simp only [TimerWorld.renew, value_concat, renewing, if_true, kept.counted]
  posted := kept.posted_concat event
  increasing := kept.increasing
  gone destroyed := absurd (alive.symm.trans destroyed) (by decide)
  past := kept.past_concat renewing
  defined := kept.defined
  armed _ started := by
    simp only [TimerWorld.renew, latest_concat, renewing, if_true, Option.some.injEq] at started
    exact absurd started other

theorem Kept.start (kept : w.Kept) (alive : w.destroyed = false) (duration : Int)
    (callback : κ) : (w.start duration callback).state.Sound := by
  unfold TimerWorld.start checkDuration
  split
  next refused =>
    exact kept.renew rfl nofun alive
  next long =>
    have long : 0 < duration := by
      by_contra short
      simp [short] at long
    -- the number of the new closure is above all others, and it is the live one
    have counted : w.currentTimerId + 1 = value TimerEvent.renews (w.history ++ [.start]) := by
      rw [value_concat, kept.counted]
      rfl
    refine ⟨⟨counted, ?_, ?_, ?_, kept.past_concat rfl, kept.defined⟩, ?_⟩
    · intro c member
      rcases List.mem_append.mp member with before | new
      · exact kept.posted_concat .start c before
      · rw [List.mem_singleton.mp new]
        refine ⟨List.getElem?_concat_length, ?_, long⟩
        rw [List.take_of_length_le (by simp [TimerWorld.renew, Outcome.state])]
        exact counted
    · refine List.pairwise_append.mpr ⟨kept.increasing, List.pairwise_singleton _ _, ?_⟩
      intro c member d new
      rw [List.mem_singleton.mp new]
      exact Nat.lt_succ_of_le (kept.timerId_le member)
    · intro destroyed
      exact absurd (alive.symm.trans destroyed) (by decide)
    · intro _ _
      exact ⟨_, List.mem_append_right _ (List.mem_singleton_self _), beq_self_eq_true _⟩

theorem Kept.destroy (kept : w.Kept) (alive : w.destroyed = false) : w.destroy.Sound := by
  unfold TimerWorld.destroy
  cases w.kind with
  | singleShot =>
    have renewed : (w.renew .destroy).Sound := kept.renew rfl nofun alive
    exact ⟨{ renewed.toKept with gone := fun _ => latest_concat _ _ }, renewed.armed⟩
  | periodical =>
    have stopped : w.stop.Sound := kept.renew rfl nofun alive
    have renewed : (w.stop.renew .destroy).Sound := stopped.renew rfl nofun alive
    exact ⟨{ renewed.toKept with gone := fun _ => latest_concat _ _ }, renewed.armed⟩

/-- A closure is taken out, and calls back or does not. -/
theorem Kept.drop (kept : w.Kept) (i : Nat) {event : TimerEvent} (calm : event.renews = false)
    (justified : ∀ n, event = .invoke n → latest TimerEvent.renews w.history = some .start) :
    { w with service := w.service.eraseIdx i, history := w.history ++ [event] }.Kept where
  counted := by
    simp only [value_concat, calm, Bool.false_eq_true, if_false, Nat.add_zero, kept.counted]
  posted c member := kept.posted_concat event c (List.mem_of_mem_eraseIdx member)
  increasing := kept.increasing.sublist (List.eraseIdx_sublist _ _)
  gone destroyed := by
    simp only [latest_concat, calm, Bool.false_eq_true, if_false]
    exact kept.gone destroyed
  past front n before := by
    rcases List.prefix_concat_iff.mp before with whole | earlier
    · obtain ⟨same, last⟩ := List.append_inj' whole rfl
      rw [same]
      exact justified n (List.cons.inj last).1.symm
    · exact kept.past front n earlier
  defined := kept.defined

/-- A closure that is not live leaves the live one where it is. -/
theorem Sound.skip (sound : w.Sound) {i : Nat} {c : TimerClosure κ}
    (here : w.service[i]? = some c) (dead : w.live c = false) :
    { w with
      service := w.service.eraseIdx i
      history := w.history ++ [TimerEvent.skip c.posted] }.Sound := by
  refine ⟨sound.drop i rfl nofun, fun periodical started => ?_⟩
  simp only [latest_concat, TimerEvent.renews, Bool.false_eq_true, if_false] at started
  -- the live closure is another one than the one that is taken out
  obtain ⟨d, member, live⟩ := sound.armed periodical started
  refine ⟨d, ?_, live⟩
  obtain ⟨j, there⟩ := List.mem_iff_getElem?.mp member
  refine List.mem_eraseIdx_iff_getElem?.mpr ⟨j, ?_, there⟩
  rintro rfl
  rw [Option.some.inj (there.symm.trans here), dead] at live
  cases live

/-- A callback is entered or left. -/
theorem Sound.enter (sound : w.Sound) (running : Option κ) : { w with running }.Sound :=
  ⟨⟨sound.counted, sound.posted, sound.increasing, sound.gone, sound.past, sound.defined⟩,
    sound.armed⟩

/-- The closure is taken out and calls back; a periodical timer is then started. -/
theorem Kept.invoked (kept : w.Kept) {i : Nat} {c : TimerClosure κ}
    (here : w.service[i]? = some c) (live : w.live c) :
    { w with
      service := w.service.eraseIdx i
      history := w.history ++ [TimerEvent.invoke c.posted]
      undefined := w.undefined || w.destroyed }.Kept := by
  have member := List.mem_of_getElem? here
  have taken := kept.drop i rfl fun _ (_ : TimerEvent.invoke c.posted = _) =>
    kept.latest_of_live member live
  have defined : (w.undefined || w.destroyed) = false := by
    rw [kept.defined, kept.not_destroyed member live]
    rfl
  exact ⟨taken.counted, taken.posted, taken.increasing, taken.gone, taken.past, defined⟩

/-- A live closure calls back. That of a periodical timer finds its timer, which takes the new start
since it has taken the old one. -/
theorem Sound.invoke (sound : w.Sound) {i : Nat} {c : TimerClosure κ}
    (here : w.service[i]? = some c) (live : w.live c) :
    ({ w with service := w.service.eraseIdx i }.execute c).Sound ∧
      ({ w with service := w.service.eraseIdx i }.execute c).running = some c.callback := by
  have member := List.mem_of_getElem? here
  have last := sound.latest_of_live member live
  have alive := sound.not_destroyed member live
  have taken : { w with
      service := w.service.eraseIdx i
      history := w.history ++ [TimerEvent.invoke c.posted] }.Kept :=
    sound.drop i rfl fun _ _ => last
  have still : { w with service := w.service.eraseIdx i }.live c := live
  simp only [execute, still, if_true]
  split
  next single =>
    -- only a periodical timer has to stay armed
    have kept : Sound { w with
        service := w.service.eraseIdx i
        history := w.history ++ [TimerEvent.invoke c.posted] } := by
      refine ⟨taken, fun periodical => ?_⟩
      cases single.symm.trans periodical
    exact ⟨kept.enter (some c.callback), rfl⟩
  next periodical =>
    -- the duration was checked when the closure was posted, so `start` does not throw
    have long := (sound.posted c member).2.2
    have kept := sound.invoked here live
    have started := kept.start alive c.duration c.callback
    simp only [TimerWorld.start, checkDuration, if_pos long] at started ⊢
    exact ⟨started.enter (some c.callback), trivial⟩

theorem Sound.execute (sound : w.Sound) {i : Nat} {c : TimerClosure κ}
    (here : w.service[i]? = some c) (free : w.running = none) :
    ({ w with service := w.service.eraseIdx i }.execute c).Sound ∧
      ({ w with service := w.service.eraseIdx i }.execute c).running =
        if w.Latest c then some c.callback else none := by
  have current := sound.live_iff (List.mem_of_getElem? here)
  cases live : w.live c with
  | true =>
    rw [if_pos (current.mp live)]
    exact sound.invoke here live
  | false =>
    have passed : ¬ w.Latest c := by
      rw [← current, live]
      decide
    have still : { w with service := w.service.eraseIdx i }.live c = false := live
    simp only [TimerWorld.execute, still, Bool.false_eq_true, if_false, if_neg passed]
    exact ⟨sound.skip here live, free⟩

theorem sound_step (w : TimerWorld κ) (a : TimerAction κ) (w' : TimerWorld κ) (sound : w.Sound)
    (stepped : w.step a = some w') : w'.Sound := by
  cases a with
  | start duration callback =>
    simp only [step, Option.ite_none_left_eq_some, Option.some.injEq] at stepped
    obtain ⟨alive, rfl⟩ := stepped
    exact sound.start (Bool.eq_false_iff.mpr alive) duration callback
  | stop =>
    simp only [step, Option.ite_none_left_eq_some, Option.some.injEq] at stepped
    obtain ⟨alive, rfl⟩ := stepped
    exact sound.renew rfl nofun (Bool.eq_false_iff.mpr alive)
  | destroy =>
    simp only [step, Option.ite_none_left_eq_some, Option.some.injEq] at stepped
    obtain ⟨alive, rfl⟩ := stepped
    exact sound.destroy (Bool.eq_false_iff.mpr alive)
  | execute i =>
    simp only [step, Option.ite_none_left_eq_some, Option.map_eq_some_iff] at stepped
    obtain ⟨free, c, here, rfl⟩ := stepped
    exact (sound.execute here (Option.not_isSome_iff_eq_none.mp free)).1
  | finish =>
    simp only [step, Option.ite_none_right_eq_some, Option.some.injEq] at stepped
    obtain ⟨-, rfl⟩ := stepped
    exact sound.enter none

theorem Sound.firesLatest (sound : w.Sound) : w.FiresLatest := by
  intro i c w' here stepped
  simp only [step, Option.ite_none_left_eq_some, Option.map_eq_some_iff] at stepped
  obtain ⟨free, d, there, rfl⟩ := stepped
  cases here.symm.trans there
  exact (sound.execute here (Option.not_isSome_iff_eq_none.mp free)).2

theorem sound_create (kind : TimerKind) : (create kind : TimerWorld κ).Sound where
  counted := rfl
  posted := nofun
  increasing := .nil
  gone := nofun
  past front n before := by simp [create] at before
  defined := rfl
  armed := nofun

/-- Whatever is done with a timer, in its callbacks or outside, and in whatever order the loop
executes the closures: a closure calls back exactly if its start is the latest of all starts and
stops; one closure at most is live; behind a stop nothing is called back before the next start;
a periodical timer that is not stopped always has one live closure; and no closure uses a timer
that has been destroyed. -/
theorem timers_fire_for_latest_start (kind : TimerKind) (acts : List (TimerAction κ)) :
    ∀ w, Visits step (create kind) acts w →
      w.FiresLatest ∧ w.service.countP w.live ≤ 1 ∧ w.QuietBehindStop ∧ w.AlwaysArmed ∧
        w.undefined = false := by
  intro w visited
  have sound : w.Sound := visited.invariant sound_step (sound_create kind)
  exact ⟨sound.firesLatest, sound.countP_live_le_one, sound.quietBehindStop, sound.alwaysArmed,
    sound.defined⟩

/-- A periodical timer is started, calls back, is started anew by its callback and then stopped. -/
def restartAndStop : List (TimerAction Nat) :=
  [.start 5 0, .execute 0, .start 9 1, .finish, .execute 0, .execute 0, .stop, .finish, .execute 0]

theorem timers_fire_for_latest_start_twice :
    ∃ w, run step (create .periodical) restartAndStop = some w ∧
      w.history = [.start, .invoke 0, .start, .start, .skip 2, .invoke 3, .start, .stop, .skip 6] ∧
      w.FiresLatest ∧ w.service.countP w.live ≤ 1 ∧ w.QuietBehindStop ∧ w.AlwaysArmed ∧
        w.undefined = false :=
  ⟨_, rfl, rfl, timers_fire_for_latest_start .periodical restartAndStop _ (visits_of_run rfl)⟩

end TimerWorld

end ServerLib
