import Mathlib.Data.List.Forall2
import Mathlib.Data.List.Induction
import Mathlib.Data.List.Nodup

/-!
# `observable`

The observers are kept in a vector of sinks with the loops they are to be called in. Who
unsubscribes leaves a hole there, and who subscribes again does not get it back but a new place
at the end. Each call is made under the guard, so a history is a list of calls.
-/
namespace ServerLib

/-- `subscribe`, with the loop if there is one, and `unsubscribe` -/
inductive ObservableCall (σ ℓ : Type) where
  | subscribe (sink : σ) (loop : Option ℓ)
  | unsubscribe (sink : σ)
  deriving DecidableEq, Repr

/-- How a sink is notified: it is posted to a loop or called right away. -/
structure Delivery (σ ℓ : Type) where
  sink : σ
  loop : Option ℓ
  deriving DecidableEq, Repr

namespace Observable

variable {σ ℓ : Type} [DecidableEq σ]

/-- `std::pair<void*, event_loop*>`, where the pointers may be null -/
abbrev Item (σ ℓ : Type) := Option σ × Option ℓ

def subscribeImpl (observers : List (Item σ ℓ)) (sink : σ) (on : Bool) (loop : Option ℓ) :
    List (Item σ ℓ) :=
  let i := observers.findIdx fun item => item.1 == some sink
  if i < observers.length then
    -- a hole is left in its place
    if on then observers else observers.set i (none, none)
  else if on then observers ++ [(some sink, loop)] else observers

def perform (observers : List (Item σ ℓ)) : ObservableCall σ ℓ → List (Item σ ℓ)
  | .subscribe sink loop => subscribeImpl observers sink true loop
  | .unsubscribe sink => subscribeImpl observers sink false none

def performAll (calls : List (ObservableCall σ ℓ)) : List (Item σ ℓ) := calls.foldl perform []

/-- A sink is posted to its loop unless this is the thread of the loop. -/
def deliver (isThisLoop : ℓ → Bool) (sink : σ) (loop : Option ℓ) : Delivery σ ℓ :=
  ⟨sink, loop.filter fun el => !isThisLoop el⟩

def notifyImpl (isThisLoop : ℓ → Bool) : List (Item σ ℓ) → List (Delivery σ ℓ)
  | [] => []
  | (none, _) :: observers => notifyImpl isThisLoop observers
  | (some sink, loop) :: observers =>
    deliver isThisLoop sink loop :: notifyImpl isThisLoop observers

/-- The call is about the sink. -/
def about (sink : σ) : ObservableCall σ ℓ → Bool
  | .subscribe other _ => other == sink
  | .unsubscribe other => other == sink

def unsubscribes (sink : σ) : ObservableCall σ ℓ → Bool
  | .subscribe _ _ => false
  | .unsubscribe other => other == sink

/-- The last call about the sink, if there is one, is a subscription. -/
def Subscribed (sink : σ) (calls : List (ObservableCall σ ℓ)) : Prop :=
  ∃ call ∈ calls.reverse.find? (about sink), unsubscribes sink call = false

instance Subscribed.decidable (sink : σ) (calls : List (ObservableCall σ ℓ)) :
    Decidable (Subscribed sink calls) :=
  inferInstanceAs (Decidable (∃ call ∈ calls.reverse.find? (about sink), _))

/-- The `n`-th call has subscribed the sink, which it was not before, and nothing has
unsubscribed it since. -/
def TookEffect (calls : List (ObservableCall σ ℓ)) (n : Nat) (sink : σ) (loop : Option ℓ) : Prop :=
  calls[n]? = some (.subscribe sink loop) ∧ ¬ Subscribed sink (calls.take n) ∧
    (calls.drop (n + 1)).any (unsubscribes sink) = false

/-- The subscriptions in force, in the order in which they were made. -/
structure InForce (calls : List (ObservableCall σ ℓ)) (made : List (Nat × σ × Option ℓ)) :
    Prop where
  sorted : made.Pairwise fun a b => a.1 < b.1
  mem_iff : ∀ n sink loop, (n, sink, loop) ∈ made ↔ TookEffect calls n sink loop

/-- What a subscription asks of its delivery: the sink is called in the loop of the subscription,
right away if there is none or the notification is made in it. -/
inductive UsesLoop (isThisLoop : ℓ → Bool) : Nat × σ × Option ℓ → Delivery σ ℓ → Prop where
  | unbound (n : Nat) (sink : σ) : UsesLoop isThisLoop (n, sink, none) ⟨sink, none⟩
  | inside (n : Nat) (sink : σ) (el : ℓ) (this : isThisLoop el = true) :
    UsesLoop isThisLoop (n, sink, some el) ⟨sink, none⟩
  | posted (n : Nat) (sink : σ) (el : ℓ) (other : isThisLoop el = false) :
    UsesLoop isThisLoop (n, sink, some el) ⟨sink, some el⟩

variable {calls : List (ObservableCall σ ℓ)} {sink : σ} {loop : Option ℓ}

omit [DecidableEq σ] in
theorem usesLoop_deliver (isThisLoop : ℓ → Bool) (entry : Nat × σ × Option ℓ) :
    UsesLoop isThisLoop entry (deliver isThisLoop entry.2.1 entry.2.2) := by
  obtain ⟨n, sink, _ | el⟩ := entry
  · exact .unbound n sink
  · rw [deliver, Option.filter_some]
    cases this : isThisLoop el with
    | true => exact .inside n sink el this
    | false => exact .posted n sink el this

/-- The last call decides if it is about the sink. -/
theorem subscribed_append_iff (call : ObservableCall σ ℓ) :
    Subscribed sink (calls ++ [call]) ↔
      (∃ loop, call = .subscribe sink loop) ∨ Subscribed sink calls ∧
        unsubscribes sink call = false := by
  unfold Subscribed
  rw [List.reverse_append, List.reverse_singleton, List.singleton_append, List.find?_cons]
  cases call with
  | subscribe other loop =>
    by_cases same : other = sink
    · simp [about, unsubscribes, same]
    · have elsewhere : about sink (.subscribe other loop : ObservableCall σ ℓ) = false :=
        beq_eq_false_iff_ne.mpr same
      rw [elsewhere]
      simp [unsubscribes, same]
  | unsubscribe other =>
    by_cases same : other = sink
    · simp [about, unsubscribes, same]
    · have elsewhere : about sink (.unsubscribe other : ObservableCall σ ℓ) = false :=
        beq_eq_false_iff_ne.mpr same
      rw [elsewhere]
      simp [unsubscribes, same]

theorem TookEffect.inside {n : Nat} (effect : TookEffect calls n sink loop) : n < calls.length :=
  (List.getElem?_eq_some_iff.mp effect.1).1

/-- One more call ends a subscription or makes one. -/
theorem tookEffect_append_iff (call : ObservableCall σ ℓ) (n : Nat) :
    TookEffect (calls ++ [call]) n sink loop ↔
      TookEffect calls n sink loop ∧ unsubscribes sink call = false ∨
        n = calls.length ∧ call = .subscribe sink loop ∧ ¬ Subscribed sink calls := by
  unfold TookEffect
  rcases Nat.lt_trichotomy n calls.length with before | rfl | behind
  · rw [List.getElem?_append_left before, List.take_append_of_le_length (Nat.le_of_lt before),
      List.drop_append_of_le_length before, List.any_append]
    simp [Nat.ne_of_lt before, and_assoc]
  · simp
  · have outside : (calls ++ [call]).length ≤ n := by
      rw [List.length_append, List.length_singleton]
      exact behind
    rw [List.getElem?_eq_none outside, List.getElem?_eq_none (Nat.le_of_lt behind)]
    simp [Nat.ne_of_gt behind]

/-- The sinks that are live, with their loops. -/
def live (observers : List (Item σ ℓ)) : List (σ × Option ℓ) :=
  observers.filterMap fun (sink, loop) => sink.map (·, loop)

omit [DecidableEq σ] in
theorem notifyImpl_eq (isThisLoop : ℓ → Bool) (observers : List (Item σ ℓ)) :
    notifyImpl isThisLoop observers =
      (live observers).map fun (sink, loop) => deliver isThisLoop sink loop := by
  induction observers with
  | nil => rfl
  | cons item observers ih =>
    obtain ⟨_ | sink, loop⟩ := item
    · rw [notifyImpl, ih]
      rfl
    · rw [notifyImpl, ih]
      rfl

/-- The search comes to the first live entry of the sink, or to the end. -/
theorem findIdx_cases (observers : List (Item σ ℓ)) (sink : σ) :
    sink ∉ (live observers).map Prod.fst ∧
        observers.findIdx (fun item => item.1 == some sink) = observers.length ∨
      ∃ front loop back, observers = front ++ (some sink, loop) :: back ∧
        sink ∉ (live front).map Prod.fst ∧
        observers.findIdx (fun item => item.1 == some sink) = front.length := by
  induction observers with
  | nil => exact .inl ⟨nofun, rfl⟩
  | cons item observers ih =>
    rw [List.findIdx_cons]
    by_cases here : item.1 = some sink
    · obtain ⟨_, loop⟩ := item
      subst here
      refine .inr ⟨[], loop, observers, rfl, nofun, ?_⟩
      rw [BEq.rfl]
      rfl
    · -- a hole or another sink
      have passed : (item.1 == some sink) = false := beq_eq_false_iff_ne.mpr here
      have absent : ∀ front : List (Item σ ℓ), sink ∉ (live front).map Prod.fst →
          sink ∉ (live (item :: front)).map Prod.fst := by
        intro front absent
        obtain ⟨_ | other, loop⟩ := item
        · exact absent
        · have different : sink ≠ other := fun same => here (congrArg some same.symm)
          exact List.not_mem_cons_of_ne_of_not_mem different absent
      rw [passed, cond_false]
      rcases ih with ⟨nowhere, last⟩ | ⟨front, loop, back, rfl, before, found⟩
      · exact .inl ⟨absent _ nowhere, congrArg (· + 1) last⟩
      · exact .inr ⟨item :: front, loop, back, rfl, absent _ before, congrArg (· + 1) found⟩

omit [DecidableEq σ] in
theorem live_append (front back : List (Item σ ℓ)) :
    live (front ++ back) = live front ++ live back :=
  List.filterMap_append ..

theorem live_subscribe (observers : List (Item σ ℓ)) (sink : σ) (loop : Option ℓ) :
    live (subscribeImpl observers sink true loop) =
      if sink ∈ (live observers).map Prod.fst then live observers
      else live observers ++ [(sink, loop)] := by
  unfold subscribeImpl
  rcases findIdx_cases observers sink with ⟨absent, last⟩ | ⟨front, its, back, is, _, found⟩
  · rw [if_neg absent]
    simp only [last, Nat.lt_irrefl, if_false, if_true]
    exact live_append _ _
  · have inside : front.length < observers.length := by
      rw [is, List.length_append, List.length_cons]
      omega
    have present : sink ∈ (live observers).map Prod.fst := by
      rw [is, live_append, List.map_append]
      exact List.mem_append_right _ List.mem_cons_self
    rw [if_pos present]
    simp only [found, inside, if_true]

theorem live_unsubscribe {observers : List (Item σ ℓ)}
    (nodup : ((live observers).map Prod.fst).Nodup) (sink : σ) :
    live (subscribeImpl observers sink false none) =
      (live observers).filter fun entry => sink != entry.1 := by
  have kept : ∀ entries : List (σ × Option ℓ), sink ∉ entries.map Prod.fst →
      entries.filter (fun entry => sink != entry.1) = entries := by
    intro entries absent
    rw [List.filter_eq_self]
    intro entry member
    have other : sink ≠ entry.1 := fun same => absent (same ▸ List.mem_map_of_mem member)
    exact bne_iff_ne.mpr other
  unfold subscribeImpl
  rcases findIdx_cases observers sink with ⟨absent, last⟩ | ⟨front, its, back, rfl, before, found⟩
  · rw [kept _ absent]
    simp only [last, Nat.lt_irrefl, if_false, Bool.false_eq_true]
  · have inside : front.length < (front ++ (some sink, its) :: back).length := by
      rw [List.length_append, List.length_cons]
      omega
    have is : live (front ++ (some sink, its) :: back) = live front ++ (sink, its) :: live back :=
      live_append _ _
    -- the live entries are distinct, so the sink has no other one behind
    have behind : sink ∉ (live back).map Prod.fst := by
      rw [is, List.map_append, List.map_cons] at nodup
      exact (List.nodup_cons.mp (List.nodup_append.mp nodup).2.1).1
    simp only [found, inside, if_true, Bool.false_eq_true, if_false]
    rw [List.set_append_right _ _ (Nat.le_refl _), Nat.sub_self, List.set_cons_zero, is,
      List.filter_append, List.filter_cons, kept _ before, kept _ behind]
    simp only [bne_self_eq_false, Bool.false_eq_true, if_false]
    exact live_append _ _

variable {made : List (Nat × σ × Option ℓ)}

theorem inForce_nil : InForce ([] : List (ObservableCall σ ℓ)) [] :=
  ⟨List.Pairwise.nil, fun n sink loop => ⟨nofun, fun effect => absurd effect.inside (by simp)⟩⟩

theorem InForce.unsubscribe (force : InForce calls made) (sink : σ) :
    InForce (calls ++ [.unsubscribe sink]) (made.filter fun entry => sink != entry.2.1) := by
  refine ⟨force.sorted.filter _, fun n other loop => ?_⟩
  rw [List.mem_filter, force.mem_iff, tookEffect_append_iff]
  simp only [unsubscribes, reduceCtorEq, false_and, and_false, or_false, bne_iff_ne,
    beq_eq_false_iff_ne]

theorem InForce.resubscribe (force : InForce calls made) {sink : σ}
    (already : Subscribed sink calls) (loop : Option ℓ) :
    InForce (calls ++ [.subscribe sink loop]) made := by
  refine ⟨force.sorted, fun n other its => ?_⟩
  rw [force.mem_iff, tookEffect_append_iff]
  constructor
  · intro effect
    exact .inl ⟨effect, rfl⟩
  · rintro (⟨effect, -⟩ | ⟨-, same, absent⟩)
    · exact effect
    · cases same
      exact absurd already absent

theorem InForce.subscribe (force : InForce calls made) {sink : σ} (absent : ¬ Subscribed sink calls)
    (loop : Option ℓ) :
    InForce (calls ++ [.subscribe sink loop]) (made ++ [(calls.length, sink, loop)]) := by
  constructor
  · rw [List.pairwise_append]
    refine ⟨force.sorted, List.pairwise_singleton _ _, ?_⟩
    rintro ⟨n, other, its⟩ member entry last
    rw [List.mem_singleton.mp last]
    exact ((force.mem_iff n other its).mp member).inside
  · intro n other its
    rw [List.mem_append, force.mem_iff, tookEffect_append_iff, List.mem_singleton]
    constructor
    · rintro (effect | made)
      · exact .inl ⟨effect, rfl⟩
      · cases made
        exact .inr ⟨rfl, rfl, absent⟩
    · rintro (⟨effect, -⟩ | ⟨rfl, same, -⟩)
      · exact .inl effect
      · cases same
        exact .inr rfl

/-- The live entries are the subscriptions in force, and no sink has two. -/
structure Keeps (calls : List (ObservableCall σ ℓ)) (observers : List (Item σ ℓ))
    (made : List (Nat × σ × Option ℓ)) : Prop where
  force : InForce calls made
  live_eq : live observers = made.map Prod.snd
  nodup : ((live observers).map Prod.fst).Nodup
  mem_iff : ∀ sink, sink ∈ (live observers).map Prod.fst ↔ Subscribed sink calls

theorem keeps_nil : Keeps ([] : List (ObservableCall σ ℓ)) [] [] :=
  ⟨inForce_nil, rfl, List.nodup_nil, fun _ => ⟨nofun, fun subscribed => nomatch subscribed⟩⟩

theorem Keeps.subscribe {observers : List (Item σ ℓ)} (keeps : Keeps calls observers made)
    (sink : σ) (loop : Option ℓ) :
    ∃ made', Keeps (calls ++ [.subscribe sink loop]) (subscribeImpl observers sink true loop)
      made' := by
  have entries := live_subscribe observers sink loop
  simp only [keeps.mem_iff] at entries
  by_cases already : Subscribed sink calls
  · rw [if_pos already] at entries
    refine ⟨made, keeps.force.resubscribe already loop, ?_, ?_, ?_⟩
    · exact entries.trans keeps.live_eq
    · rw [entries]
      exact keeps.nodup
    · intro other
      rw [entries, keeps.mem_iff, subscribed_append_iff]
      constructor
      · exact fun subscribed => .inr ⟨subscribed, rfl⟩
      · rintro (⟨its, same⟩ | ⟨subscribed, -⟩)
        · cases same
          exact already
        · exact subscribed
  · rw [if_neg already] at entries
    have absent : sink ∉ (live observers).map Prod.fst := (keeps.mem_iff sink).not.mpr already
    refine ⟨_, keeps.force.subscribe already loop, ?_, ?_, ?_⟩
    · rw [entries, keeps.live_eq, List.map_append]
      rfl
    · rw [entries, List.map_append, List.nodup_append_comm]
      exact List.nodup_cons.mpr ⟨absent, keeps.nodup⟩
    · intro other
      rw [entries, List.map_append, List.mem_append, keeps.mem_iff, subscribed_append_iff]
      constructor
      · rintro (subscribed | new)
        · exact .inr ⟨subscribed, rfl⟩
        · obtain rfl := List.mem_singleton.mp new
          exact .inl ⟨loop, rfl⟩
      · rintro (⟨its, same⟩ | ⟨subscribed, -⟩)
        · cases same
          exact .inr List.mem_cons_self
        · exact .inl subscribed

theorem Keeps.unsubscribe {observers : List (Item σ ℓ)} (keeps : Keeps calls observers made)
    (sink : σ) :
    ∃ made', Keeps (calls ++ [.unsubscribe sink]) (subscribeImpl observers sink false none)
      made' := by
  have entries := live_unsubscribe keeps.nodup sink
  refine ⟨_, keeps.force.unsubscribe sink, ?_, ?_, ?_⟩
  · rw [entries, keeps.live_eq, List.filter_map]
    rfl
  · rw [entries]
    exact keeps.nodup.sublist (List.filter_sublist.map _)
  · intro other
    rw [entries, subscribed_append_iff, ← keeps.mem_iff]
    simp only [List.mem_map, List.mem_filter, bne_iff_ne, unsubscribes, beq_eq_false_iff_ne,
      reduceCtorEq, exists_false, false_or]
    constructor
    · rintro ⟨entry, ⟨member, different⟩, rfl⟩
      exact ⟨⟨entry, member, rfl⟩, different⟩
    · rintro ⟨⟨entry, member, rfl⟩, different⟩
      exact ⟨entry, ⟨member, different⟩, rfl⟩

theorem exists_keeps (calls : List (ObservableCall σ ℓ)) :
    ∃ made, Keeps calls (performAll calls) made := by
  induction calls using List.reverseRecOn with
  | nil => exact ⟨[], keeps_nil⟩
  | append_singleton calls call ih =>
    obtain ⟨made, keeps⟩ := ih
    rw [performAll, List.foldl_append, List.foldl_cons, List.foldl_nil]
    cases call with
    | subscribe sink loop => exact keeps.subscribe sink loop
    | unsubscribe sink => exact keeps.unsubscribe sink

/-- After any history a notification is delivered for the subscriptions in force, in the order in
which they were made and with their loops: once to each sink whose last call was `subscribe`, and
to no other one. -/
theorem notify_exact (calls : List (ObservableCall σ ℓ)) (isThisLoop : ℓ → Bool) :
    ∃ made, InForce calls made ∧
      List.Forall₂ (UsesLoop isThisLoop) made (notifyImpl isThisLoop (performAll calls)) ∧
      ∀ sink, ((notifyImpl isThisLoop (performAll calls)).map Delivery.sink).count sink =
        if Subscribed sink calls then 1 else 0 := by
  obtain ⟨made, keeps⟩ := exists_keeps calls
  have delivered := notifyImpl_eq isThisLoop (performAll calls)
  refine ⟨made, keeps.force, ?_, fun sink => ?_⟩
  · rw [delivered, keeps.live_eq, List.map_map, List.forall₂_map_right_iff, List.forall₂_same]
    exact fun entry _ => usesLoop_deliver isThisLoop entry
  · have sinks : (notifyImpl isThisLoop (performAll calls)).map Delivery.sink =
        (live (performAll calls)).map Prod.fst := by
      rw [delivered, List.map_map]
      rfl
    rw [sinks, keeps.nodup.count]
    exact if_congr (keeps.mem_iff sink) rfl rfl

/-- Two sinks are notified in another order when the first one has subscribed again. -/
example : notifyImpl (fun _ => false)
    (performAll [.subscribe 1 none, .subscribe 2 (some "loop"), .subscribe 1 (some "loop"),
      .unsubscribe 1, .subscribe 1 none, .unsubscribe 3]) =
    [⟨2, some "loop"⟩, ⟨1, none⟩] := by decide

end Observable

end ServerLib
