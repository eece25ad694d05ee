import Mathlib.Logic.Relation
import ServerLib.Network.MsgDecoder
import ServerLib.Network.DelimiterStream

/-!
# Progress of `operator<<`

The loop `while (build_unit());` has no measure of its own: it ends because each unit takes
characters from the buffer. Two builders break that. An empty delimiter is found at the
front of every buffer, again and again. And a message builder that has refused a header
keeps it: fed once more, it completes a body of the size before, which takes nothing if
that was 0.
-/
namespace ServerLib.Network

open Incremental

variable {σ : Type} [UnitBuilderI σ]

/-- The managers that the public operations lead to, exceptions included. -/
inductive Reachable (fresh : σ) : UnitBuilderManager σ → Prop where
  | fresh : Reachable fresh { builder := fresh }
  | fed {m : UnitBuilderManager σ} {data : Bytes} {outcome : Outcome (UnitBuilderManager σ)}
      (reached : Reachable fresh m) (ended : m.feed data = some outcome) :
      Reachable fresh outcome.state
  | popped {m m' : UnitBuilderManager σ} (reached : Reachable fresh m)
      (front : m.popFront = .ok m') : Reachable fresh m'
  | reset {m : UnitBuilderManager σ} (reached : Reachable fresh m) : Reachable fresh m.reset
  | rebuilt {m : UnitBuilderManager σ} (reached : Reachable fresh m) :
      Reachable fresh (m.setBuilder fresh)

/-- Feeding `data` to `m` ends, and each call of `build_unit` that returns true on the way
shortens the buffer. -/
structure MakesProgress (m : UnitBuilderManager σ) (data : Bytes) : Prop where
  ends : ∃ calls outcome, (m.append data).buildLoop calls = some outcome
  shrinks : ∀ m₁ m₂,
    Relation.ReflTransGen (fun m m' => m.buildUnit = .built m') (m.append data) m₁ →
      m₁.buildUnit = .built m₂ → m₂.buffer.length < m₁.buffer.length

/-! ### Facts about any builder -/

theorem Reachable.invariant {fresh : σ} (inv : σ → Prop) (holds : inv fresh)
    (wait_keeps : ∀ b buffer b' rest, inv b → turn b buffer = .wait b' rest → inv b')
    (emit_keeps : ∀ b buffer u b' rest, inv b → turn b buffer = .emit u b' rest → inv b')
    (fail_keeps : ∀ b buffer e b' rest, inv b → turn b buffer = .fail e b' rest → inv b')
    {m : UnitBuilderManager σ} (reached : Reachable fresh m) : inv m.builder := by
  induction reached with
  | fresh => exact holds
  | @fed m data outcome _ ended ih =>
    obtain ⟨r, drained, rfl⟩ := (buildLoop_iff _ _).mp ⟨_, ended⟩
    have kept := drained.invariant inv wait_keeps emit_keeps fail_keeps ih
    -- exceptions included, the builder is where the drain has left it
    unfold settle
    split <;> exact kept
  | @popped m m' _ front ih =>
    unfold UnitBuilderManager.popFront at front
    split at front <;> cases front
    exact ih
  | reset _ ih => exact ih
  | rebuilt _ _ => exact holds

theorem turn_of_built {m m' : UnitBuilderManager σ} (built : m.buildUnit = .built m') :
    ∃ unit, turn m.builder m.buffer = .emit unit m'.builder m'.buffer := by
  rw [buildUnit_eq] at built
  cases turned : turn m.builder m.buffer with
  | wait builder rest => simp [turned] at built
  | fail error builder rest => simp [turned] at built
  | emit unit builder rest =>
    simp only [turned, BuildResult.built.injEq] at built
    subst built
    exact ⟨unit, rfl⟩

theorem makesProgress_of_productive {inv : σ → Prop} (productive : Productive (turn (σ := σ)) inv)
    (m : UnitBuilderManager σ) (valid : inv m.builder) (data : Bytes) : MakesProgress m data := by
  constructor
  · obtain ⟨r, drained, -⟩ := productive.drains_exists m.builder (m.buffer ++ data) valid
    obtain ⟨calls, ended⟩ := (buildLoop_iff (m.append data) _).mpr ⟨r, drained, rfl⟩
    exact ⟨calls, _, ended⟩
  · intro m₁ m₂ visited built
    have kept : inv m₁.builder := by
      clear built
      induction visited with
      | refl => exact valid
      | tail _ step ih =>
        obtain ⟨unit, turned⟩ := turn_of_built step
        exact productive.emit_keeps _ _ _ _ _ ih turned
    obtain ⟨unit, turned⟩ := turn_of_built built
    exact productive.emit_shrinks _ _ _ _ _ kept turned

private theorem items_of_empty {builder : σ} {r : Drained σ LogicError NetUnit UInt8}
    (drained : Drains turn builder [] r) : r.items = [] := by
  cases drained with
  | wait => rfl
  | fail => rfl
  | emit turned => simp [turn] at turned

/-- Nothing is built from an empty buffer. -/
theorem makesProgress_of_empty (m : UnitBuilderManager σ) (data : Bytes)
    (empty : m.buffer ++ data = []) : MakesProgress m data := by
  have stops : (m.append data).buildUnit = .notBuilt (m.append data) := by
    simp [UnitBuilderManager.buildUnit, UnitBuilderManager.append, empty]
  constructor
  · exact ⟨1, .returned (m.append data), by simp only [UnitBuilderManager.buildLoop, stops]⟩
  · intro m₁ m₂ visited built
    -- the first call returns false, so no other state is visited
    have start : m.append data = m₁ := by
      rcases Relation.ReflTransGen.cases_head visited with same | ⟨_, step, -⟩
      · exact same
      · rw [stops] at step
        cases step
    rw [← start, stops] at built
    cases built

/-- The number of calls that `feed` runs is enough for every loop that ends, as long as no
drain emits more than one unit beyond the characters it has. -/
theorem feed_iff (m : UnitBuilderManager σ) (data : Bytes)
    (bounded : ∀ r, Drains turn m.builder (m.buffer ++ data) r →
      r.items.length ≤ (m.buffer ++ data).length + 1)
    (outcome : Outcome (UnitBuilderManager σ)) :
    m.feed data = some outcome ↔ ∃ calls, (m.append data).buildLoop calls = some outcome := by
  constructor
  · intro ended
    exact ⟨_, ended⟩
  · intro ended
    obtain ⟨r, drained, rfl⟩ := (buildLoop_iff _ _).mp ended
    exact feed_of_drains m data drained (bounded r drained)

/-! ### Messages -/

section Msg

variable [WideShift] {maxSize : Nat}

omit [WideShift] in
/-- The builders that a message manager can reach. -/
inductive Kept (maxSize : Nat) : MsgBuilder → Prop where
  | idle (size : Nat) : Kept maxSize (.idle maxSize size)
  | inside {sz : UInt32} {size : Nat} {part : Bytes} (unfinished : part.length < size) :
      Kept maxSize (.collecting maxSize sz size part)
  | stale (sz : UInt32) : Kept maxSize (.collecting maxSize sz 0 [])

omit [WideShift] in
/-- A header is kept although the size of the body is 0. -/
def Stale (b : MsgBuilder) : Prop := b.sizeBuilder.unitReady = true ∧ b.msgBuilder.size = 0

omit [WideShift] in
private theorem Kept.collecting (sz : UInt32) (size : Nat) :
    Kept maxSize (.collecting maxSize sz size []) := by
  cases size with
  | zero => exact .stale sz
  | succ size => exact .inside (by simp)

/-- One call on such a builder reads a header, goes on with a body, or finds the buffer empty. -/
private theorem Kept.turn_cases {b : MsgBuilder} {buffer : Bytes}
    {t : Turn MsgBuilder LogicError NetUnit UInt8} (kept : Kept maxSize b)
    (turned : turn b buffer = t) :
    (∃ size, b = .idle maxSize size ∧ Call maxSize buffer (.idle maxSize size) t) ∨
    (∃ sz size part, bodyTurn maxSize sz size part buffer = t) ∨ t = .wait b [] := by
  cases kept with
  | idle size => exact .inl ⟨size, rfl, call_of_sound (.idle size) turned⟩
  | inside unfinished =>
    rw [turn_collecting_inside unfinished] at turned
    exact .inr (.inl ⟨_, _, _, turned⟩)
  | stale sz =>
    by_cases empty : buffer = []
    · subst empty
      exact .inr (.inr turned.symm)
    · rw [turn_collecting (Nat.le_refl 0) empty] at turned
      exact .inr (.inl ⟨_, _, _, turned⟩)

theorem Kept.wait_keeps {b b' : MsgBuilder} {buffer rest : Bytes} (kept : Kept maxSize b)
    (turned : turn b buffer = .wait b' rest) : Kept maxSize b' := by
  rcases kept.turn_cases turned with ⟨size, rfl, call⟩ | ⟨sz, size, part, body⟩ | same
  · cases (msg_stable maxSize).wait_keeps _ _ _ _ (.idle size) turned with
    | idle size => exact .idle size
    | collecting inside bounded => exact .inside inside
  · obtain ⟨short, rfl, -⟩ := bodyTurn_wait body
    exact .inside (by simpa using short)
  · cases same
    exact kept

/-- A unit always leaves the builder between two messages. -/
theorem Kept.emit_idle {b b' : MsgBuilder} {buffer rest : Bytes} {unit : NetUnit}
    (kept : Kept maxSize b) (turned : turn b buffer = .emit unit b' rest) :
    ∃ size, b' = .idle maxSize size := by
  rcases kept.turn_cases turned with ⟨size, rfl, call⟩ | ⟨sz, size, part, body⟩ | same
  · cases call with
    | accepted size unpacked bounded body => exact ⟨_, (bodyTurn_emit body).2.1⟩
  · exact ⟨_, (bodyTurn_emit body).2.1⟩
  · cases same

/-- An exception leaves the header and the size of the body before. -/
theorem Kept.fail_collecting {b b' : MsgBuilder} {buffer rest : Bytes} {error : LogicError}
    (kept : Kept maxSize b) (turned : turn b buffer = .fail error b' rest) :
    ∃ sz size, b' = .collecting maxSize sz size [] := by
  rcases kept.turn_cases turned with ⟨size, rfl, call⟩ | ⟨sz, size, part, body⟩ | same
  · cases call with
    | accepted size unpacked bounded body => exact absurd body bodyTurn_ne_fail
    | refused size unpacked above => exact ⟨_, size, rfl⟩
  · exact absurd body bodyTurn_ne_fail
  · cases same

theorem Kept.fail_keeps {b b' : MsgBuilder} {buffer rest : Bytes} {error : LogicError}
    (kept : Kept maxSize b) (turned : turn b buffer = .fail error b' rest) : Kept maxSize b' := by
  obtain ⟨sz, size, rfl⟩ := kept.fail_collecting turned
  exact .collecting sz size

theorem kept_of_reachable {m : UnitBuilderManager MsgBuilder}
    (reached : Reachable (MsgBuilder.mk maxSize false {} {}) m) : Kept maxSize m.builder := by
  refine reached.invariant (Kept maxSize) (.idle 0) ?_ ?_ ?_
  · intro b buffer b' rest kept turned
    exact kept.wait_keeps turned
  · intro b buffer unit b' rest kept turned
    obtain ⟨size, rfl⟩ := kept.emit_idle turned
    exact .idle size
  · intro b buffer error b' rest kept turned
    exact kept.fail_keeps turned

omit [WideShift] in
theorem not_stale_idle (size : Nat) : ¬ Stale (.idle maxSize size) := by
  rintro ⟨ready, -⟩
  cases ready

/-- Unless the builder is stale, each unit takes a header or the rest of a body. -/
theorem msg_productive (maxSize : Nat) :
    Productive (turn (σ := MsgBuilder)) (fun b => Kept maxSize b ∧ ¬ Stale b) where
  emit_keeps b buffer unit b' rest valid turned := by
    obtain ⟨size, rfl⟩ := valid.1.emit_idle turned
    exact ⟨.idle size, not_stale_idle size⟩
  emit_shrinks b buffer unit b' rest valid turned := by
    obtain ⟨kept, fresh⟩ := valid
    cases kept with
    | idle size => exact (msg_stable maxSize).emit_shrinks _ _ _ _ _ (.idle size) turned
    | inside unfinished =>
      rw [turn_collecting_inside unfinished] at turned
      obtain ⟨enough, -, -, rfl⟩ := bodyTurn_emit turned
      rw [List.length_drop]
      omega
    | stale sz => exact absurd ⟨rfl, rfl⟩ fresh

/-- A stale builder completes an empty body and takes nothing from the buffer. -/
private theorem stale_turn {b : MsgBuilder} {buffer : Bytes} (kept : Kept maxSize b)
    (stale : Stale b) (occupied : buffer ≠ []) :
    turn b buffer = .emit (.ofBool true) (.idle maxSize 0) buffer := by
  cases kept with
  | idle size => exact absurd stale (not_stale_idle size)
  | inside unfinished =>
    have empty : _ = 0 := stale.2
    simp only [MsgBuilder.collecting] at empty
    omega
  | stale sz =>
    rw [turn_collecting (Nat.le_refl 0) occupied]
    rfl

private theorem msg_makesProgress_iff {m : UnitBuilderManager MsgBuilder}
    (reached : Reachable (MsgBuilder.mk maxSize false {} {}) m) (data : Bytes) :
    MakesProgress m data ↔ ¬ (Stale m.builder ∧ m.buffer ++ data ≠ []) := by
  have kept := kept_of_reachable reached
  constructor
  · rintro progress ⟨stale, occupied⟩
    have built : (m.append data).buildUnit =
        .built ⟨m.buffer ++ data, .idle maxSize 0, m.availableReplies ++ [.ofBool true]⟩ := by
      rw [buildUnit_eq, show (m.append data).builder = m.builder from rfl,
        show (m.append data).buffer = m.buffer ++ data from rfl, stale_turn kept stale occupied]
      rfl
    exact absurd (progress.shrinks _ _ .refl built) (Nat.lt_irrefl _)
  · intro fine
    by_cases stale : Stale m.builder
    · exact makesProgress_of_empty m data (by_contra fun occupied => fine ⟨stale, occupied⟩)
    · exact makesProgress_of_productive (msg_productive maxSize) m ⟨kept, stale⟩ data

theorem msg_feed_iff {m : UnitBuilderManager MsgBuilder}
    (reached : Reachable (MsgBuilder.mk maxSize false {} {}) m) (data : Bytes)
    (outcome : Outcome (UnitBuilderManager MsgBuilder)) :
    m.feed data = some outcome ↔ ∃ calls, (m.append data).buildLoop calls = some outcome := by
  have kept := kept_of_reachable reached
  refine feed_iff m data (fun r drained => ?_) outcome
  by_cases stale : Stale m.builder
  · by_cases empty : m.buffer ++ data = []
    · rw [empty] at drained
      simp [items_of_empty drained]
    · have first := stale_turn kept stale empty
      cases drained with
      | wait => exact Nat.zero_le _
      | fail => exact Nat.zero_le _
      | emit turned tail =>
        rw [first] at turned
        cases turned
        -- the stale message is one unit more than there are characters to take
        have bound := (msg_productive maxSize).length_items tail ⟨.idle 0, not_stale_idle 0⟩
        simp only [Drained.prepend_items, List.length_append, List.length_singleton] at bound ⊢
        omega
  · exact Nat.le_succ_of_le ((msg_productive maxSize).length_items drained ⟨kept, stale⟩)

end Msg

/-! ### Raw data -/

section Raw

/-- Everything buffered becomes one unit. -/
theorem turn_raw {buffer : Bytes} (occupied : buffer ≠ []) :
    turn ({} : RawBuilder) buffer = .emit (.ofString buffer) {} [] := by
  cases buffer with
  | nil => exact absurd rfl occupied
  | cons b bs => rfl

private theorem raw_emit {buffer rest : Bytes} {unit : NetUnit} {b : RawBuilder}
    (turned : turn ({} : RawBuilder) buffer = .emit unit b rest) :
    b = {} ∧ rest = [] ∧ buffer ≠ [] := by
  by_cases empty : buffer = []
  · subst empty
    cases turned
  · rw [turn_raw empty] at turned
    cases turned
    exact ⟨rfl, rfl, empty⟩

theorem raw_productive : Productive (turn (σ := RawBuilder)) (· = {}) where
  emit_keeps b buffer unit b' rest valid turned := by
    subst valid
    exact (raw_emit turned).1
  emit_shrinks b buffer unit b' rest valid turned := by
    subst valid
    obtain ⟨-, rfl, occupied⟩ := raw_emit turned
    exact List.length_pos_of_ne_nil occupied

theorem raw_of_reachable {m : UnitBuilderManager RawBuilder}
    (reached : Reachable {} m) : m.builder = {} := by
  refine reached.invariant (· = {}) rfl ?_ raw_productive.emit_keeps ?_
  · intro b buffer b' rest valid turned
    subst valid
    by_cases empty : buffer = []
    · subst empty
      cases turned
      rfl
    · rw [turn_raw empty] at turned
      cases turned
  · intro b buffer error b' rest valid turned
    subst valid
    by_cases empty : buffer = []
    · subst empty
      cases turned
    · rw [turn_raw empty] at turned
      cases turned

theorem raw_feed_iff {m : UnitBuilderManager RawBuilder} (reached : Reachable {} m)
    (data : Bytes) (outcome : Outcome (UnitBuilderManager RawBuilder)) :
    m.feed data = some outcome ↔ ∃ calls, (m.append data).buildLoop calls = some outcome :=
  feed_iff m data (fun _ drained => Nat.le_succ_of_le
    (raw_productive.length_items drained (raw_of_reachable reached))) outcome

end Raw

/-! ### Delimited data -/

section Dstream

/-- An empty delimiter is found at the front, and nothing is taken. -/
theorem turn_splitting_nil {buffer : Bytes} (occupied : buffer ≠ []) :
    turn (splitting []) buffer = .emit (.ofString []) (splitting []) buffer := by
  have front : Occurrence.find [] buffer = some 0 := by
    cases buffer with
    | nil => rfl
    | cons b bs => rfl
  rw [turn_splitting occupied, front]
  rfl

private theorem not_drains_nil {b : DstreamBuilder} {buffer : Bytes}
    {r : Drained DstreamBuilder LogicError NetUnit UInt8} (occupied : buffer ≠ [])
    (drained : Drains turn b buffer r) : b ≠ splitting [] := by
  induction drained with
  | wait turned =>
    rintro rfl
    rw [turn_splitting_nil occupied] at turned
    cases turned
  | fail turned =>
    rintro rfl
    rw [turn_splitting_nil occupied] at turned
    cases turned
  | emit turned _ ih =>
    rintro rfl
    rw [turn_splitting_nil occupied] at turned
    cases turned
    exact ih occupied rfl

private theorem splitting_turned {d buffer rest : Bytes} {b : DstreamBuilder} :
    (turn (splitting d) buffer = .wait b rest → b = splitting d) ∧
    (∀ unit, turn (splitting d) buffer = .emit unit b rest → b = splitting d) ∧
    ∀ error, turn (splitting d) buffer ≠ .fail error b rest := by
  by_cases empty : buffer = []
  · subst empty
    refine ⟨?_, ?_, ?_⟩
    · intro turned
      cases turned
      rfl
    · intro unit turned
      cases turned
    · intro error turned
      cases turned
  · rw [turn_splitting empty]
    cases Occurrence.find d buffer <;> simp +contextual [eq_comm]

theorem splitting_of_reachable {d : Bytes} {m : UnitBuilderManager DstreamBuilder}
    (reached : Reachable { delimeter := d } m) : m.builder = splitting d := by
  refine reached.invariant (· = splitting d) rfl ?_ ?_ ?_
  · intro b buffer b' rest valid turned
    subst valid
    exact splitting_turned.1 turned
  · intro b buffer unit b' rest valid turned
    subst valid
    exact splitting_turned.2.1 unit turned
  · intro b buffer error b' rest valid turned
    subst valid
    exact absurd turned (splitting_turned.2.2 error)

private theorem dstream_makesProgress_iff {d : Bytes} {m : UnitBuilderManager DstreamBuilder}
    (reached : Reachable { delimeter := d } m) (data : Bytes) :
    MakesProgress m data ↔ ¬ (d = [] ∧ m.buffer ++ data ≠ []) := by
  have kept := splitting_of_reachable reached
  constructor
  · rintro progress ⟨rfl, occupied⟩
    obtain ⟨calls, outcome, ended⟩ := progress.ends
    obtain ⟨r, drained, -⟩ := (buildLoop_iff _ _).mp ⟨calls, ended⟩
    exact not_drains_nil occupied drained kept
  · intro fine
    by_cases delimited : d = []
    · exact makesProgress_of_empty m data (by_contra fun occupied => fine ⟨delimited, occupied⟩)
    · exact makesProgress_of_productive (dstream_stable delimited).toProductive m kept data

theorem dstream_feed_iff {d : Bytes} {m : UnitBuilderManager DstreamBuilder}
    (reached : Reachable { delimeter := d } m) (data : Bytes)
    (outcome : Outcome (UnitBuilderManager DstreamBuilder)) :
    m.feed data = some outcome ↔ ∃ calls, (m.append data).buildLoop calls = some outcome := by
  have kept := splitting_of_reachable reached
  refine feed_iff m data (fun r drained => ?_) outcome
  by_cases delimited : d = []
  · subst delimited
    by_cases empty : m.buffer ++ data = []
    · rw [empty] at drained
      simp [items_of_empty drained]
    · exact absurd kept (not_drains_nil empty drained)
  · exact Nat.le_succ_of_le ((dstream_stable delimited).length_items drained kept)

end Dstream

/-! ### The three protocols -/

/-- Feeding makes progress unless the delimiter is empty, or the message builder still holds
a header that it refused after an empty body, and there is something to read. -/
theorem feed_makesProgress_iff [WideShift] :
    (∀ (maxSize : Nat) (m : UnitBuilderManager MsgBuilder) (data : Bytes),
      Reachable { msgMaxSize := maxSize } m →
        (MakesProgress m data ↔ ¬ (Stale m.builder ∧ m.buffer ++ data ≠ []))) ∧
    (∀ (m : UnitBuilderManager RawBuilder) (data : Bytes), Reachable {} m →
      MakesProgress m data) ∧
    ∀ (d : Bytes) (m : UnitBuilderManager DstreamBuilder) (data : Bytes),
      Reachable { delimeter := d } m →
        (MakesProgress m data ↔ ¬ (d = [] ∧ m.buffer ++ data ≠ [])) := by
  refine ⟨?_, ?_, ?_⟩
  · intro maxSize m data reached
    exact msg_makesProgress_iff reached data
  · intro m data reached
    exact makesProgress_of_productive raw_productive m (raw_of_reachable reached) data
  · intro d m data reached
    exact dstream_makesProgress_iff reached data

section ModuloShift

attribute [local instance] moduloShift

private theorem stale_reachable :
    Reachable (MsgBuilder.mk 0 false {} {}) ⟨[], .collecting 0 5 0 [], [.ofBool true]⟩ := by
  have empty : Reachable (MsgBuilder.mk 0 false {} {}) ⟨[], .idle 0 0, [.ofBool true]⟩ :=
    @Reachable.fed _ _ _ _ [0] (.returned _) .fresh rfl
  exact @Reachable.fed _ _ _ _ [5] (.thrown _ _) empty rfl

/-- An empty message, a header above the maximum, and one character more: the character is
not taken by the call that builds the second empty message. -/
theorem feed_makesProgress_iff_stale :
    ∃ m : UnitBuilderManager MsgBuilder, Reachable { msgMaxSize := 0 } m ∧
      ¬ MakesProgress m [9] :=
  ⟨_, stale_reachable, fun progress =>
    (feed_makesProgress_iff.1 0 _ [9] stale_reachable).mp progress ⟨⟨rfl, rfl⟩, by simp⟩⟩

end ModuloShift

/-- A builder made from the empty string finds its delimiter for ever. -/
theorem empty_delimiter_never_ends :
    ¬ ∃ calls outcome, UnitBuilderManager.buildLoop calls (UnitBuilderManager.append
      { builder := ({ delimeter := [] } : DstreamBuilder) } [97]) = some outcome := by
  rintro ⟨calls, outcome, ended⟩
  obtain ⟨r, drained, -⟩ := (buildLoop_iff _ _).mp ⟨calls, ended⟩
  exact not_drains_nil (List.cons_ne_nil 97 []) drained rfl

end ServerLib.Network
