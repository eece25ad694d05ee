import ServerLib.Network.RejectedStream

/-!
# `unit_builder_manager::reset`

The manager clears its buffer, but not what its builder has read. Builders that keep nothing
between two calls are then as new. A message builder is so only between two messages, and it
remembers the size of the last one, which it uses again when it refuses a header.
-/
namespace ServerLib.Network

open Incremental

section Alike

variable {σ : Type} [UnitBuilderI σ] {R : σ → σ → Prop}

omit [UnitBuilderI σ] in
/-- Managers that differ in their builders only, and these are related. -/
structure UnitBuilderManager.Alike (R : σ → σ → Prop) (m m' : UnitBuilderManager σ) : Prop where
  buffer : m'.buffer = m.buffer
  queue : m'.availableReplies = m.availableReplies
  builder : R m.builder m'.builder

open UnitBuilderManager

/-- The same exception or none, and managers that are alike. -/
def Outcome.Alike (R : σ → σ → Prop) (outcome outcome' : Outcome (UnitBuilderManager σ)) : Prop :=
  outcome'.error = outcome.error ∧ outcome.state.Alike R outcome'.state

/-- Related builders take the same turns. -/
def Mirrors (R : σ → σ → Prop) : Prop :=
  ∀ b b' buffer, R b b' → (turn b buffer).Alike R (turn b' buffer)

theorem Mirrors.buildLoop (mirrors : Mirrors R) {m m' : UnitBuilderManager σ}
    (alike : m.Alike R m') (calls : Nat) :
    Option.Rel (Outcome.Alike R) (m.buildLoop calls) (m'.buildLoop calls) := by
  induction calls generalizing m m' with
  | zero => exact .none
  | succ calls ih =>
    -- the same kind of turn, with the same unit or exception and the same rest
    have same := mirrors _ _ m.buffer alike.builder
    rw [UnitBuilderManager.buildLoop, UnitBuilderManager.buildLoop, buildUnit_eq, buildUnit_eq,
      alike.buffer]
    generalize turn m.builder m.buffer = t at same
    generalize turn m'.builder m.buffer = t' at same
    cases t with
    | wait b rest =>
      cases t' with
      | wait b' rest' =>
        obtain ⟨related, rfl⟩ := same
        exact .some ⟨rfl, rfl, alike.queue, related⟩
      | emit unit b' rest' => exact absurd same id
      | fail error b' rest' => exact absurd same id
    | emit unit b rest =>
      cases t' with
      | wait b' rest' => exact absurd same id
      | emit unit' b' rest' =>
        obtain ⟨rfl, related, rfl⟩ := same
        exact ih ⟨rfl, by rw [alike.queue], related⟩
      | fail error b' rest' => exact absurd same id
    | fail error b rest =>
      cases t' with
      | wait b' rest' => exact absurd same id
      | emit unit b' rest' => exact absurd same id
      | fail error' b' rest' =>
        obtain ⟨rfl, related, rfl⟩ := same
        exact .some ⟨rfl, rfl, alike.queue, related⟩

/-- What can be observed of a manager that is fed: the exceptions, the units and the buffer. -/
def observe (m : UnitBuilderManager σ) (chunks : List Bytes) :
    Option (List (Option LogicError) × List NetUnit × Bytes) :=
  (m.feedEach chunks).map fun (errors, m) => (errors, m.availableReplies, m.buffer)

theorem observe_nil (m : UnitBuilderManager σ) :
    observe m [] = some ([], m.availableReplies, m.buffer) := rfl

theorem observe_cons (m : UnitBuilderManager σ) (data : Bytes) (chunks : List Bytes) :
    observe m (data :: chunks) = (m.feed data).bind fun outcome =>
      (observe outcome.state chunks).map fun (errors, left) => (outcome.error :: errors, left) := by
  rw [observe, feedEach]
  cases m.feed data with
  | none => rfl
  | some outcome =>
    simp only [Option.bind_some, observe, Option.map_map]
    rfl

theorem Mirrors.observe (mirrors : Mirrors R) {m m' : UnitBuilderManager σ} (alike : m.Alike R m')
    (chunks : List Bytes) : observe m' chunks = observe m chunks := by
  induction chunks generalizing m m' with
  | nil => rw [observe_nil, observe_nil, alike.queue, alike.buffer]
  | cons data chunks ih =>
    -- the managers differ in their builders only, before and behind the chunk
    have fed : Option.Rel (Outcome.Alike R) (m.feed data) (m'.feed data) := by
      rw [UnitBuilderManager.feed, UnitBuilderManager.feed, alike.buffer]
      apply mirrors.buildLoop
      exact ⟨by rw [append, append, alike.buffer], alike.queue, alike.builder⟩
    rw [observe_cons, observe_cons]
    generalize m.feed data = outcome at fed
    generalize m'.feed data = outcome' at fed
    cases fed with
    | none => rfl
    | some same =>
      rw [Option.bind_some, Option.bind_some, same.1, ih same.2]

end Alike

/-! ### After `reset` -/

section Reset

variable {σ : Type} [UnitBuilderI σ]

/-- Every unit has been taken from the queue. -/
def Emptied (m m' : UnitBuilderManager σ) : Prop :=
  Relation.ReflTransGen (fun m m' : UnitBuilderManager σ => m.popFront = .ok m') m m' ∧
    m'.receiveAvailable = false

/-- After `reset`, and with its queue emptied, the manager does what one with a new clone of its
builder does. -/
def ResetRestores (m : UnitBuilderManager σ) : Prop :=
  ∀ fresh, UnitBuilderI.clone m.builder = some fresh → ∀ m', Emptied m.reset m' →
    ∀ chunks, observe m' chunks = observe { builder := fresh } chunks

omit [UnitBuilderI σ] in
theorem eq_of_emptied {m m' : UnitBuilderManager σ} (emptied : Emptied m m') :
    m' = { m with availableReplies := [] } := by
  obtain ⟨popped, empty⟩ := emptied
  have same : m' = { m with availableReplies := m'.availableReplies } := by
    clear empty
    induction popped with
    | refl => rfl
    | tail _ step ih =>
      unfold UnitBuilderManager.popFront at step
      split at step <;> cases step
      rw [ih]
  rw [UnitBuilderManager.receiveAvailable, Bool.not_eq_false', List.isEmpty_iff] at empty
  rw [same, empty]

omit [UnitBuilderI σ] in
theorem emptied_of_queue (m : UnitBuilderManager σ) :
    Emptied m { m with availableReplies := [] } := by
  obtain ⟨buffer, builder, queue⟩ := m
  refine ⟨?_, rfl⟩
  induction queue with
  | nil => exact .refl
  | cons unit queue ih => exact .head rfl ih

theorem resetRestores_iff {m : UnitBuilderManager σ} {fresh : σ}
    (cloned : UnitBuilderI.clone m.builder = some fresh) :
    ResetRestores m ↔
      ∀ chunks, observe ⟨[], m.builder, []⟩ chunks = observe { builder := fresh } chunks := by
  constructor
  · intro restores
    exact restores fresh cloned _ (emptied_of_queue m.reset)
  · intro same fresh' cloned' m' emptied
    rw [cloned, Option.some.injEq] at cloned'
    rw [eq_of_emptied emptied, ← cloned']
    exact same

theorem observe_of_drains (m : UnitBuilderManager σ) {data : Bytes} {chunks : List Bytes}
    {r : Drained σ LogicError NetUnit UInt8} (drained : Drains turn m.builder (m.buffer ++ data) r)
    (bound : r.items.length ≤ (m.buffer ++ data).length + 1) :
    observe m (data :: chunks) =
      (observe ⟨r.rest, r.state, m.availableReplies ++ r.items⟩ chunks).map
        fun (errors, left) => (r.error :: errors, left) := by
  rw [observe_cons, feed_of_drains m data drained bound, Option.bind_some, settle_state,
    settle_error]

end Reset

/-! ### Messages -/

section Msg

variable [WideShift] {maxSize : Nat}

open MsgBuilder

omit [WideShift] in
/-- No header has been read, and no header can be refused behind a message that was not empty. -/
def Settled (b : MsgBuilder) : Prop :=
  b.sizeBuilder.unitReady = false ∧ (b.msgBuilder.size = 0 ∨ 2 ^ 32 - 1 ≤ b.msgMaxSize)

omit [WideShift] in
/-- The same builder, or two builders between messages. -/
def BetweenMessages (maxSize : Nat) (b b' : MsgBuilder) : Prop :=
  b' = b ∨ ∃ size size', b = .idle maxSize size ∧ b' = .idle maxSize size'

/-- If no header is refused, the size of the message before is never used. -/
theorem mirrors_idle (all : 2 ^ 32 - 1 ≤ maxSize) : Mirrors (BetweenMessages maxSize) := by
  rintro b b' buffer (rfl | ⟨size, size', rfl, rfl⟩)
  · exact .refl (fun _ => .inl rfl) _
  · cases unpacked : unpack buffer with
    | none =>
      rw [turn_idle_none _ _ unpacked, turn_idle_none _ _ unpacked]
      exact ⟨.inr ⟨size, size', rfl, rfl⟩, rfl⟩
    | some header =>
      have bounded : header.1.toNat ≤ maxSize := by
        have := header.1.toNat_lt
        omega
      rw [turn_idle_accepted _ unpacked bounded, turn_idle_accepted _ unpacked bounded]
      exact .refl (fun _ => .inl rfl) _

theorem drains_empty (size : Nat) :
    Drains turn (MsgBuilder.idle maxSize size) [] ⟨[], none, .idle maxSize size, []⟩ :=
  .wait rfl

/-- The header of an empty message, between two messages. -/
theorem drains_zero (size : Nat) :
    Drains turn (MsgBuilder.idle maxSize size) [0] ⟨[.ofBool true], none, .idle maxSize 0, []⟩ := by
  have turned : turn (MsgBuilder.idle maxSize size) [0] =
      .emit (.ofBool true) (.idle maxSize 0) [] :=
    turn_idle_accepted size (unpack_pack 0 []) (Nat.zero_le maxSize)
  exact .emit turned (drains_empty 0)

/-- The same character behind a header that was refused: it is not read before the empty body. -/
theorem drains_zero_stale (sz : UInt32) :
    Drains turn (MsgBuilder.collecting maxSize sz 0 []) [0]
      ⟨[.ofBool true, .ofBool true], none, .idle maxSize 0, []⟩ := by
  have turned : turn (MsgBuilder.collecting maxSize sz 0 []) [0] =
      .emit (.ofBool true) (.idle maxSize 0) [0] :=
    turn_collecting (Nat.le_refl 0) (List.cons_ne_nil 0 [])
  exact .emit turned (drains_zero 0)

/-- Inside a body the character belongs to it. -/
theorem drains_zero_inside (sz : UInt32) {size : Nat} {part : Bytes} (inside : part.length < size) :
    ∃ items s, Drains turn (MsgBuilder.collecting maxSize sz size part) [0] ⟨items, none, s, []⟩ ∧
      (items = [] ∨ items = [.ofString (part ++ [0])]) := by
  have turned : turn (MsgBuilder.collecting maxSize sz size part) [0] = _ :=
    turn_collecting_inside inside [0]
  rw [bodyTurn, List.length_singleton] at turned
  by_cases short : part.length + 1 < size
  · rw [if_pos short] at turned
    exact ⟨[], _, .wait turned, .inl rfl⟩
  · have last : size - part.length = 1 := by omega
    rw [if_neg short, last, bodyUnit, if_neg (by simp)] at turned
    exact ⟨[.ofString (part ++ [0])], _, .emit turned (drains_empty size), .inr rfl⟩

theorem drains_refused (size : Nat) {sz : UInt32} (above : maxSize < sz.toNat) :
    Drains turn (MsgBuilder.idle maxSize size) (pack sz)
      ⟨[], some ⟨"sz <= _msg_max_size", ""⟩, .collecting maxSize sz size [], []⟩ := by
  have unpacked := unpack_pack sz []
  rw [List.append_nil] at unpacked
  have turned := turn_idle_refused size unpacked above
  rw [List.drop_length] at turned
  exact .fail turned

/-- What a manager with an empty buffer and an empty queue shows of one chunk. -/
theorem observe_single {b : MsgBuilder} {data : Bytes}
    {r : Drained MsgBuilder LogicError NetUnit UInt8} (drained : Drains turn b data r)
    (bound : r.items.length ≤ data.length + 1) :
    observe ⟨[], b, []⟩ [data] = some ([r.error], r.items, r.rest) :=
  observe_of_drains ⟨[], b, []⟩ drained bound

/-- A refused header shows nothing but the exception. -/
theorem observe_refused (size : Nat) {sz : UInt32} (above : maxSize < sz.toNat)
    (chunks : List Bytes) :
    observe ⟨[], MsgBuilder.idle maxSize size, []⟩ (pack sz :: chunks) =
      (observe ⟨[], MsgBuilder.collecting maxSize sz size [], []⟩ chunks).map
        fun (errors, left) => (some ⟨"sz <= _msg_max_size", ""⟩ :: errors, left) :=
  observe_of_drains ⟨[], MsgBuilder.idle maxSize size, []⟩ (drains_refused size above)
    (Nat.zero_le _)

/-- A character that is taken for a body is not a message of its own. -/
theorem observe_inside_ne (sz : UInt32) {size : Nat} {part : Bytes} (inside : part.length < size)
    {errors : List (Option LogicError)} {units : List NetUnit} {rest : Bytes}
    (empty : NetUnit.ofBool true ∈ units) :
    observe ⟨[], MsgBuilder.collecting maxSize sz size part, []⟩ [[0]] ≠
      some (errors, units, rest) := by
  obtain ⟨items, s, drained, kinds⟩ := @drains_zero_inside _ maxSize sz size part inside
  have bound : items.length ≤ [(0 : UInt8)].length + 1 := by
    rcases kinds with rfl | rfl <;> simp
  rw [observe_single drained bound]
  intro same
  simp only [Option.some.injEq, Prod.mk.injEq] at same
  obtain ⟨-, rfl, -⟩ := same
  rcases kinds with rfl | rfl
  · exact List.not_mem_nil empty
  · cases List.mem_singleton.mp empty

/-- A header is refused, and the empty body behind it has the size of the message before. -/
theorem stale_size_shows {size : Nat} (some_size : 0 < size) (below : maxSize < 2 ^ 32 - 1) :
    observe ⟨[], MsgBuilder.idle maxSize size, []⟩ [pack (UInt32.ofNat (maxSize + 1)), [0]] ≠
      observe ⟨[], MsgBuilder.idle maxSize 0, []⟩ [pack (UInt32.ofNat (maxSize + 1)), [0]] := by
  intro shown
  -- the smallest size that is refused, which has four bytes
  have announced : (UInt32.ofNat (maxSize + 1)).toNat = maxSize + 1 := by
    rw [UInt32.toNat_ofNat']
    omega
  have above : maxSize < (UInt32.ofNat (maxSize + 1)).toNat := by omega
  rw [observe_refused size above, observe_refused 0 above,
    observe_single (drains_zero_stale _) (Nat.le_refl 2)] at shown
  cases left : observe ⟨[], MsgBuilder.collecting maxSize (UInt32.ofNat (maxSize + 1)) size [],
      []⟩ [[0]] with
  | none =>
    rw [left] at shown
    cases shown
  | some result =>
    -- the character is a unit of its own behind the reset, and belongs to a body otherwise
    obtain ⟨errors, units, rest⟩ := result
    rw [left] at shown
    simp only [Option.map_some, Option.some.injEq, Prod.mk.injEq] at shown
    refine observe_inside_ne _ some_size ?_ left
    rw [shown.2.1]
    exact List.mem_cons_self

theorem clone_of_kept {b : MsgBuilder} (kept : Kept maxSize b) :
    UnitBuilderI.clone b = some (MsgBuilder.idle maxSize 0) := by
  cases kept with
  | idle size => rfl
  | inside unfinished => rfl
  | stale sz => rfl

theorem msg_restores_iff {m : UnitBuilderManager MsgBuilder}
    (reached : Reachable (MsgBuilder.mk maxSize false {} {}) m) :
    ResetRestores m ↔ Settled m.builder := by
  have kept := kept_of_reachable reached
  have fresh_zero : observe ⟨[], MsgBuilder.idle maxSize 0, []⟩ [[0]] =
      some ([none], [.ofBool true], []) := observe_single (drains_zero 0) (Nat.le_succ 1)
  have cloned : UnitBuilderI.clone m.builder = some (MsgBuilder.idle maxSize 0) :=
    clone_of_kept kept
  rw [resetRestores_iff cloned]
  generalize m.builder = b at kept
  cases kept with
  | idle size =>
    constructor
    · intro same
      refine ⟨rfl, ?_⟩
      by_contra! later
      exact stale_size_shows (Nat.pos_of_ne_zero later.1) later.2 (same _)
    · rintro ⟨-, unused⟩ chunks
      rcases unused with zero | all
      · have zero : size = 0 := zero
        rw [zero]
      · have all : 2 ^ 32 - 1 ≤ maxSize := all
        -- the sizes differ, but no header is refused that would leave one in use
        have alike : UnitBuilderManager.Alike (BetweenMessages maxSize)
            ⟨[], MsgBuilder.idle maxSize 0, []⟩ ⟨[], MsgBuilder.idle maxSize size, []⟩ :=
          ⟨rfl, rfl, .inr ⟨0, size, rfl, rfl⟩⟩
        exact (mirrors_idle all).observe alike chunks
  | @inside sz size part unfinished =>
    constructor
    · intro same
      -- a character on its own tells the builder from a new one
      have shown := (same [[0]]).trans fresh_zero
      exact absurd shown (observe_inside_ne sz unfinished List.mem_cons_self)
    · rintro ⟨unread, -⟩
      cases unread
  | stale sz =>
    constructor
    · intro same
      have shown := (same [[0]]).trans fresh_zero
      rw [observe_single (drains_zero_stale sz) (Nat.le_refl 2)] at shown
      cases shown
    · rintro ⟨unread, -⟩
      cases unread

end Msg

/-! ### All builders -/

/-- Whatever has been fed before, `reset` restores the manager unless its message builder has read
a header, or has the size of a message left over that a refused header would uncover. -/
theorem reset_restores_iff [WideShift] :
    (∀ maxSize (m : UnitBuilderManager MsgBuilder),
      Reachable (MsgBuilder.mk maxSize false {} {}) m → (ResetRestores m ↔ Settled m.builder)) ∧
    (∀ d (m : UnitBuilderManager DstreamBuilder), d ≠ [] → Reachable { delimeter := d } m →
      ResetRestores m) ∧
    ∀ m : UnitBuilderManager RawBuilder, Reachable {} m → ResetRestores m := by
  refine ⟨fun maxSize m reached => msg_restores_iff reached, ?_, ?_⟩
  · intro d m _ reached
    have kept := splitting_of_reachable reached
    have cloned : UnitBuilderI.clone m.builder = some m.builder := by
      rw [kept]
      rfl
    rw [resetRestores_iff cloned]
    exact fun _ => rfl
  · intro m reached
    have kept := raw_of_reachable reached
    have cloned : UnitBuilderI.clone m.builder = some m.builder := by
      rw [kept]
      rfl
    rw [resetRestores_iff cloned]
    exact fun _ => rfl

/-- Managers that have received a part of a unit, or nothing yet. -/
theorem reset_restores_unfinished :
    letI := moduloShift
    ResetRestores (freshMsg 8) ∧
    (∃ m : UnitBuilderManager DstreamBuilder,
      (freshDstream [13, 10]).feed [65, 13, 10, 66, 13] = some (.returned m) ∧ m.buffer = [66, 13] ∧
      ResetRestores m) ∧
    ∃ m : UnitBuilderManager RawBuilder,
      UnitBuilderManager.feed { builder := {} } [65] = some (.returned m) ∧ ResetRestores m := by
  let _ := moduloShift
  refine ⟨?_, ⟨_, rfl, rfl, ?_⟩, ⟨_, rfl, ?_⟩⟩
  · exact (reset_restores_iff.1 8 (freshMsg 8) .fresh).mpr ⟨rfl, .inl rfl⟩
  · have start : Reachable { delimeter := [13, 10] } (freshDstream [13, 10]) := .fresh
    exact reset_restores_iff.2.1 [13, 10] _ (by decide)
      (@Reachable.fed _ _ _ _ [65, 13, 10, 66, 13] _ start rfl)
  · have start : Reachable ({} : RawBuilder) { builder := {} } := .fresh
    exact reset_restores_iff.2.2 _ (@Reachable.fed _ _ _ _ [65] _ start rfl)

/-- Half a message has been read before `reset`; the message behind it is not received. -/
theorem half_message_survives_reset :
    letI := moduloShift
    ∃ m : UnitBuilderManager MsgBuilder,
      (freshMsg 8).feed [2, 65] = some (.returned m) ∧ ¬ ResetRestores m := by
  let _ := moduloShift
  refine ⟨_, rfl, fun restores => ?_⟩
  have same := restores _ rfl _ (emptied_of_queue _) [[1, 66]]
  have units := congrArg (Option.map fun shown => shown.2.1) same
  have differ : some [NetUnit.ofString [65, 1]] = some [.ofString [66]] := units
  cases differ

end ServerLib.Network
