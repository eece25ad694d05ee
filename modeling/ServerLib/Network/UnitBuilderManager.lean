import ServerLib.Foundation.Incremental
import ServerLib.Network.Builders

/-!
# `unit_builder_manager`

The manager appends what it receives to one buffer and lets its builder consume it until
no unit comes out. Its loop `while (build_unit());` has no bound of its own, so it is run
here with a number of turns; `none` says that it is still going.

The builder behind the manager is an incremental decoder. `buildLoop_iff` and
`feedAll_flatten` relate the two, so that what `Incremental` says about pieces of a
stream applies to the manager.
-/
namespace ServerLib.Network

open Incremental

structure UnitBuilderManager (σ : Type) where
  buffer : Bytes := []
  builder : σ
  availableReplies : List NetUnit := []
  deriving Repr

/-- What `build_unit` returns, or that it throws. -/
inductive BuildResult (α : Type) where
  | built (state : α)
  | notBuilt (state : α)
  | thrown (error : LogicError) (state : α)
  deriving Repr

namespace UnitBuilderManager

variable {σ : Type} [UnitBuilderI σ]

open UnitBuilderI

def buildUnit (m : UnitBuilderManager σ) : BuildResult (UnitBuilderManager σ) :=
  if m.buffer = [] then .notBuilt m
  else match consume m.builder m.buffer with
    | .thrown error (builder, buffer) => .thrown error { m with builder, buffer }
    | .returned (builder, buffer) =>
      if unitReady builder then
        .built
          { buffer
            builder := UnitBuilderI.reset builder
            availableReplies := m.availableReplies ++ [getUnit builder] }
      else .notBuilt { m with builder, buffer }

/-- `while (build_unit());` for at most so many calls. -/
def buildLoop : Nat → UnitBuilderManager σ → Option (Outcome (UnitBuilderManager σ))
  | 0, _ => none
  | calls + 1, m =>
    match m.buildUnit with
    | .built m => buildLoop calls m
    | .notBuilt m => some (.returned m)
    | .thrown error m => some (.thrown error m)

omit [UnitBuilderI σ] in
def append (m : UnitBuilderManager σ) (data : Bytes) : UnitBuilderManager σ :=
  { m with buffer := m.buffer ++ data }

/-- `operator<<`. A loop that ends makes at most one call that takes no character from the
buffer, besides the last (`feed_iff` in `FeedProgress`), so `none` means that it never ends. -/
def feed (m : UnitBuilderManager σ) (data : Bytes) : Option (Outcome (UnitBuilderManager σ)) :=
  buildLoop (m.buffer.length + data.length + 2) (m.append data)

/-- Data fed in order, up to the first exception. -/
def feedAll (m : UnitBuilderManager σ) : List Bytes → Option (Outcome (UnitBuilderManager σ))
  | [] => some (.returned m)
  | data :: chunks =>
    match m.feed data with
    | some (.returned m) => feedAll m chunks
    | outcome => outcome

/-- Data fed in order, behind an exception also: what each call throws, and what is left. -/
def feedEach (m : UnitBuilderManager σ) :
    List Bytes → Option (List (Option LogicError) × UnitBuilderManager σ)
  | [] => some ([], m)
  | data :: chunks =>
    (m.feed data).bind fun outcome =>
      (feedEach outcome.state chunks).map fun (errors, m) => (outcome.error :: errors, m)

omit [UnitBuilderI σ]

def getFront (m : UnitBuilderManager σ) : Except LogicError NetUnit :=
  match m.availableReplies with
  | [] => .error ⟨"receive_available()", "No available unit"⟩
  | unit :: _ => .ok unit

def popFront (m : UnitBuilderManager σ) : Except LogicError (UnitBuilderManager σ) :=
  match m.availableReplies with
  | [] => .error ⟨"receive_available()", "No available unit"⟩
  | _ :: units => .ok { m with availableReplies := units }

def receiveAvailable (m : UnitBuilderManager σ) : Bool := !m.availableReplies.isEmpty

def setBuilder (m : UnitBuilderManager σ) (builder : σ) : UnitBuilderManager σ :=
  { m with builder }

/-- Only the buffer is cleared. -/
def reset (m : UnitBuilderManager σ) : UnitBuilderManager σ := { m with buffer := [] }

end UnitBuilderManager

/-! ### The builder as an incremental decoder -/

section Decoder

variable {σ : Type} [UnitBuilderI σ]

open UnitBuilderI

/-- One call of `build_unit` on a builder and the buffer. -/
def turn (builder : σ) (buffer : Bytes) : Turn σ LogicError NetUnit UInt8 :=
  if buffer = [] then .wait builder []
  else match consume builder buffer with
    | .thrown error (builder, rest) => .fail error builder rest
    | .returned (builder, rest) =>
      if unitReady builder then .emit (getUnit builder) (UnitBuilderI.reset builder) rest
      else .wait builder rest

/-- The manager that a drain leaves behind, given the units it had already queued. -/
def settle (queue : List NetUnit) (r : Drained σ LogicError NetUnit UInt8) :
    Outcome (UnitBuilderManager σ) :=
  match r.error with
  | none => .returned ⟨r.rest, r.state, queue ++ r.items⟩
  | some error => .thrown error ⟨r.rest, r.state, queue ++ r.items⟩

theorem buildUnit_eq (m : UnitBuilderManager σ) :
    m.buildUnit = match turn m.builder m.buffer with
      | .wait builder buffer => .notBuilt { m with builder, buffer }
      | .emit unit builder buffer => .built ⟨buffer, builder, m.availableReplies ++ [unit]⟩
      | .fail error builder buffer => .thrown error { m with builder, buffer } := by
  obtain ⟨buffer, builder, queue⟩ := m
  simp only [UnitBuilderManager.buildUnit, turn]
  split
  next empty => simp [empty]
  · cases consume builder buffer with
    | thrown error state => rfl
    | returned state =>
      dsimp only
      split <;> rfl

omit [UnitBuilderI σ] in
theorem settle_prepend (queue : List NetUnit) (unit : NetUnit)
    (r : Drained σ LogicError NetUnit UInt8) :
    settle queue (r.prepend [unit]) = settle (queue ++ [unit]) r := by
  simp only [settle, Drained.prepend_error, Drained.prepend_rest, Drained.prepend_state,
    Drained.prepend_items, List.append_assoc]

omit [UnitBuilderI σ] in
@[simp] theorem settle_state (queue : List NetUnit) (r : Drained σ LogicError NetUnit UInt8) :
    (settle queue r).state = ⟨r.rest, r.state, queue ++ r.items⟩ := by
  unfold settle
  split <;> rfl

omit [UnitBuilderI σ] in
@[simp] theorem settle_error (queue : List NetUnit) (r : Drained σ LogicError NetUnit UInt8) :
    (settle queue r).error = r.error := by
  unfold settle
  split
  next none_thrown => exact none_thrown.symm
  next thrown => exact thrown.symm

/-- A drain is carried out by the loop, in one call more than it emits units. -/
theorem buildLoop_of_drains {builder : σ} {buffer : Bytes}
    {r : Drained σ LogicError NetUnit UInt8} (drained : Drains turn builder buffer r)
    (queue : List NetUnit) (calls : Nat) (enough : r.items.length < calls) :
    UnitBuilderManager.buildLoop calls ⟨buffer, builder, queue⟩ = some (settle queue r) := by
  obtain ⟨calls, rfl⟩ : ∃ n, calls = n + 1 := ⟨calls - 1, by omega⟩
  induction drained generalizing queue calls with
  | wait turned => simp [UnitBuilderManager.buildLoop, buildUnit_eq, turned, settle]
  | fail turned => simp [UnitBuilderManager.buildLoop, buildUnit_eq, turned, settle]
  | emit turned _ ih =>
    -- one call for the unit, and at least one more for the rest
    simp only [Drained.prepend_items, List.length_append, List.length_singleton] at enough
    obtain ⟨calls, rfl⟩ : ∃ n, calls = n + 1 := ⟨calls - 1, by omega⟩
    rw [settle_prepend, ← ih (queue ++ [_]) calls (by omega)]
    simp only [UnitBuilderManager.buildLoop, buildUnit_eq, turned]

/-- The loop ends exactly when the decoder's drain does, with the same outcome. -/
theorem buildLoop_iff (m : UnitBuilderManager σ) (outcome : Outcome (UnitBuilderManager σ)) :
    (∃ calls, m.buildLoop calls = some outcome) ↔
      ∃ r, Drains turn m.builder m.buffer r ∧ settle m.availableReplies r = outcome := by
  constructor
  · rintro ⟨calls, ended⟩
    induction calls generalizing m with
    | zero => cases ended
    | succ calls ih =>
      simp only [UnitBuilderManager.buildLoop, buildUnit_eq] at ended
      cases turned : turn m.builder m.buffer with
      | wait builder rest =>
        simp only [turned, Option.some.injEq] at ended
        exact ⟨_, .wait turned, by simp only [← ended, settle, List.append_nil]⟩
      | fail error builder rest =>
        simp only [turned, Option.some.injEq] at ended
        exact ⟨_, .fail turned, by simp only [← ended, settle, List.append_nil]⟩
      | emit unit builder rest =>
        simp only [turned] at ended
        obtain ⟨r, drained, settled⟩ := ih _ ended
        exact ⟨_, .emit turned drained, by rw [settle_prepend, settled]⟩
  · rintro ⟨r, drained, rfl⟩
    exact ⟨r.items.length + 1, buildLoop_of_drains drained _ _ (by omega)⟩

theorem feed_of_drains (m : UnitBuilderManager σ) (data : Bytes)
    {r : Drained σ LogicError NetUnit UInt8}
    (drained : Drains turn m.builder (m.buffer ++ data) r)
    (bound : r.items.length ≤ (m.buffer ++ data).length + 1) :
    m.feed data = some (settle m.availableReplies r) := by
  rw [List.length_append] at bound
  exact buildLoop_of_drains drained _ _ (by omega)

/-- Feeding chunks to the manager is feeding pieces to the decoder. -/
theorem feedAll_of_stable {inv : σ → Prop} (stable : Stable (turn (σ := σ)) inv)
    (m : UnitBuilderManager σ) (valid : inv m.builder) (chunks : List Bytes) :
    ∃ r, Feeds turn m.builder m.buffer chunks r ∧
      m.feedAll chunks = some (settle m.availableReplies r) := by
  induction chunks generalizing m with
  | nil => exact ⟨_, .done, by simp only [UnitBuilderManager.feedAll, settle, List.append_nil]⟩
  | cons data chunks ih =>
    obtain ⟨r, drained, bound⟩ := stable.drains_exists m.builder (m.buffer ++ data) valid
    have fed := feed_of_drains m data drained (by omega)
    cases waits : r.error with
    | some error =>
      -- the exception ends the feeding
      refine ⟨r, .stop drained waits, ?_⟩
      simp only [UnitBuilderManager.feedAll, fed, settle, waits]
    | none =>
      obtain ⟨q, tail, rest⟩ := ih ⟨r.rest, r.state, m.availableReplies ++ r.items⟩
        (stable.drains_keeps drained valid waits)
      refine ⟨_, .next drained waits tail, ?_⟩
      simp only [UnitBuilderManager.feedAll, fed, settle, waits] at rest ⊢
      rw [rest]
      simp only [Drained.prepend_error, Drained.prepend_items, Drained.prepend_state,
        Drained.prepend_rest, List.append_assoc]

/-- The outcome of a chunked stream is that of one drain of the whole stream; if it is an
exception, some of the stream is left unread behind the buffer. -/
theorem feedAll_flatten {inv : σ → Prop} (stable : Stable (turn (σ := σ)) inv)
    (builder : σ) (valid : inv builder) (chunks : List Bytes) :
    ∃ r unread, Drains turn builder chunks.flatten { r with rest := r.rest ++ unread } ∧
      (r.error = none → unread = [] ∧ inv r.state) ∧
      UnitBuilderManager.feedAll { builder } chunks = some (settle [] r) := by
  obtain ⟨r, fed, outcome⟩ := feedAll_of_stable stable { builder } valid chunks
  obtain ⟨unread, drained, clean⟩ := stable.drains_of_feeds fed valid (by simp [turn])
  exact ⟨r, unread, drained, clean, outcome⟩

end Decoder

end ServerLib.Network
