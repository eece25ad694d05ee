import ServerLib.Network.MsgFrames

/-!
# Streams through the message protocol

What the manager makes of a byte stream does not depend on its chunks: messages written
by `msg_builder::create` come back one by one, and any stream, well formed or not, leaves
one state behind. What is kept for an unfinished message is bounded by the maximum only
while it is a body; nothing bounds an unfinished header.
-/
namespace ServerLib.Network

open Incremental MsgBuilder Varint

variable [WideShift]

/-! ### Messages that were created by the protocol -/

omit [WideShift] in
theorem create_eq {maxSize : Nat} {msg : Bytes} (bounded : msg.length ≤ maxSize)
    (sized : msg.length < 2 ^ 32) :
    MsgBuilder.create { msgMaxSize := maxSize } msg = .ok
      ⟨true, .bool true, [.ofString (pack (UInt32.ofNat msg.length)), .ofString msg]⟩ := by
  have small : msg.length ≤ 2 ^ 32 - 1 := by omega
  simp only [MsgBuilder.create, if_pos bounded, if_pos small]
  rfl

omit [WideShift] in
theorem toNetworkString_pair (front body : Bytes) :
    (NetUnit.mk true (.bool true) [.ofString front, .ofString body]).toNetworkString =
      front ++ body := by
  simp [NetUnit.toNetworkString, UnitData.toNetworkString, nestedNetworkString]

/-- A created unit travels as one frame. -/
private theorem exists_frame {maxSize : Nat} {msg : Bytes} (bounded : msg.length ≤ maxSize)
    (sized : msg.length < 2 ^ 32) :
    ∃ f : Frame maxSize, f.bytes = pack (UInt32.ofNat msg.length) ++ msg ∧
      f.unit = bodyUnit msg := by
  have size : (UInt32.ofNat msg.length).toNat = msg.length := UInt32.toNat_ofNat_of_lt' sized
  have announced := unpack_pack (UInt32.ofNat msg.length) []
  rw [List.append_nil] at announced
  exact ⟨⟨_, msg, _, announced, by rw [size]; exact bounded, size.symm⟩, rfl, rfl⟩

private theorem exists_units {maxSize : Nat} {msgs : List Bytes}
    (fits : ∀ msg ∈ msgs, msg.length ≤ maxSize ∧ msg.length < 2 ^ 32) :
    ∃ (units : List NetUnit) (frames : List (Frame maxSize)),
      msgs.mapM (MsgBuilder.create { msgMaxSize := maxSize }) = .ok units ∧
      units.flatMap NetUnit.toNetworkString = wire frames ∧
      frames.map Frame.unit = msgs.map bodyUnit := by
  induction msgs with
  | nil => exact ⟨[], [], rfl, rfl, rfl⟩
  | cons msg msgs ih =>
    obtain ⟨bounded, sized⟩ := fits msg (by simp)
    obtain ⟨units, frames, created, sent, items⟩ := ih fun m member => fits m (by simp [member])
    obtain ⟨f, bytes, unit⟩ := exists_frame bounded sized
    refine ⟨⟨true, .bool true,
      [.ofString (pack (UInt32.ofNat msg.length)), .ofString msg]⟩ :: units, f :: frames,
      ?_, ?_, ?_⟩
    · rw [List.mapM_cons, create_eq bounded sized, created]
      rfl
    · simp only [List.flatMap_cons, toNetworkString_pair, sent, wire, bytes]
    · simp only [List.map_cons, unit, items]

/-- Every list of messages within the limits is created, sent and received again, in any
chunks: the queue holds one unit for each message, and nothing is left over. -/
theorem created_msgs_are_received (maxSize : Nat) (msgs : List Bytes)
    (fits : ∀ msg ∈ msgs, msg.length ≤ maxSize ∧ msg.length < 2 ^ 32) :
    ∃ units, msgs.mapM (MsgBuilder.create { msgMaxSize := maxSize }) = .ok units ∧
      ∀ chunks : List Bytes, chunks.flatten = units.flatMap NetUnit.toNetworkString →
        ∃ m, (freshMsg maxSize).feedAll chunks = some (.returned m) ∧
          m.availableReplies = msgs.map bodyUnit ∧ m.buffer = [] ∧
          m.builder.ready = false ∧ m.builder.sizeBuilder.unitReady = false ∧
          m.builder.msgBuilder.ready = false ∧ m.builder.msgBuilder.buffer = [] := by
  obtain ⟨units, frames, created, sent, items⟩ := exists_units fits
  refine ⟨units, created, fun chunks cut => ?_⟩
  have whole : chunks.flatten =
      wire frames ++ (Remainder.header [] (by simp) : Remainder maxSize).bytes := by
    rw [cut, sent, Remainder.bytes, List.append_nil]
  obtain ⟨size, fed⟩ := feedAll_stream frames _
  exact ⟨_, fed chunks whole, items, rfl, rfl, rfl, rfl, rfl⟩

omit [WideShift] in
/-- An empty message and one of two bytes, cut behind the second header and inside the body. -/
theorem created_msgs_are_received_cut :
    letI := moduloShift
    ∃ m, (freshMsg 2).feedAll [[0, 2], [1], [2]] = some (.returned m) ∧
      m.availableReplies = [.ofBool true, .ofString [1, 2]] ∧ m.buffer = [] := by
  let _ := moduloShift
  obtain ⟨units, created, received⟩ := created_msgs_are_received 2 [[], [1, 2]] (by decide)
  have sent : units = [⟨true, .bool true, [.ofString [0], .ofString []]⟩,
      ⟨true, .bool true, [.ofString [2], .ofString [1, 2]]⟩] :=
    Except.ok.inj (created.symm.trans rfl)
  obtain ⟨m, fed, queued, emptied, -⟩ := received [[0, 2], [1], [2]] (by rw [sent]; decide)
  exact ⟨m, fed, queued, emptied⟩

/-! ### Any stream in any chunks -/

/-- The decoder is a function of the byte stream: two ways of cutting it both throw or both
return, with the same queue, and with the same buffer and builder unless they throw. -/
theorem msg_outcome_of_stream (maxSize : Nat) (stream : Bytes) (chunks₁ chunks₂ : List Bytes)
    (cut₁ : chunks₁.flatten = stream) (cut₂ : chunks₂.flatten = stream) :
    ∃ outcome₁ outcome₂, (freshMsg maxSize).feedAll chunks₁ = some outcome₁ ∧
      (freshMsg maxSize).feedAll chunks₂ = some outcome₂ ∧
      outcome₁.threw = outcome₂.threw ∧
      outcome₁.state.availableReplies = outcome₂.state.availableReplies ∧
      (outcome₁.threw = false →
        outcome₁.state.buffer = outcome₂.state.buffer ∧
        outcome₁.state.builder.sizeBuilder = outcome₂.state.builder.sizeBuilder ∧
        outcome₁.state.builder.msgBuilder = outcome₂.state.builder.msgBuilder) := by
  obtain ⟨frames, rem, whole⟩ := exists_frames maxSize stream
  obtain ⟨size, fed⟩ := feedAll_stream frames rem
  have fed₁ := fed chunks₁ (cut₁.trans whole)
  have fed₂ := fed chunks₂ (cut₂.trans whole)
  cases error : rem.error with
  | none =>
    simp only [error] at fed₁ fed₂
    exact ⟨_, _, fed₁, fed₂, rfl, rfl, fun _ => ⟨rfl, rfl, rfl⟩⟩
  | some e =>
    simp only [error] at fed₁ fed₂
    obtain ⟨_, fed₁⟩ := fed₁
    obtain ⟨_, fed₂⟩ := fed₂
    exact ⟨_, _, fed₁, fed₂, rfl, rfl, fun returned => by cases returned⟩

omit [WideShift] in
/-- A message followed by a header above the maximum, in one chunk and byte by byte. -/
theorem msg_outcome_of_stream_refused :
    letI := moduloShift
    ∃ outcome₁ outcome₂, (freshMsg 1).feedAll [[1, 7, 2, 9]] = some outcome₁ ∧
      (freshMsg 1).feedAll [[1], [7], [2], [9]] = some outcome₂ ∧
      outcome₁.threw = outcome₂.threw ∧
      outcome₁.state.availableReplies = outcome₂.state.availableReplies := by
  let _ := moduloShift
  obtain ⟨outcome₁, outcome₂, fed₁, fed₂, threw, queued, -⟩ :=
    msg_outcome_of_stream 1 [1, 7, 2, 9] [[1, 7, 2, 9]] [[1], [7], [2], [9]] rfl rfl
  exact ⟨outcome₁, outcome₂, fed₁, fed₂, threw, queued⟩

/-! ### What is kept for an unfinished message -/

omit [WideShift] in
/-- The bytes kept for the unfinished message. -/
def retained (m : UnitBuilderManager MsgBuilder) : Nat :=
  m.buffer.length + m.builder.msgBuilder.buffer.length

/-- After every chunk that is fed without an exception at most `maxSize + 5` bytes are kept. -/
def RetainsAtMost (maxSize : Nat) (chunks : List Bytes) : Prop :=
  ∀ fed, fed <+: chunks → ∀ m, (freshMsg maxSize).feedAll fed = some (.returned m) →
    retained m ≤ maxSize + 5

/-- The stream ends inside a header, of which more than `maxSize + 5` bytes have arrived. -/
def EndsInLongHeader (maxSize : Nat) (stream : Bytes) : Prop :=
  ∃ (frames : List (Frame maxSize)) (header : Bytes), stream = wire frames ++ header ∧
    (∀ b ∈ header, continues b = true) ∧ maxSize + 5 < header.length

private theorem retained_le_iff {maxSize : Nat} {fed : List Bytes}
    {m : UnitBuilderManager MsgBuilder}
    (returned : (freshMsg maxSize).feedAll fed = some (.returned m)) :
    retained m ≤ maxSize + 5 ↔ ¬ EndsInLongHeader maxSize fed.flatten := by
  obtain ⟨frames, rem, whole⟩ := exists_frames maxSize fed.flatten
  obtain ⟨size, outcome⟩ := feedAll_stream frames rem
  have reached := outcome fed whole
  cases rem with
  | header bytes unfinished =>
    simp only [Remainder.error, returned, Option.some.injEq, Outcome.returned.injEq] at reached
    subst reached
    simp only [retained, Remainder.buffer, Remainder.builder, idle, List.length_nil, Nat.add_zero]
    constructor
    · -- another reading of the stream as frames and a header leaves the same buffer
      rintro bound ⟨frames', header, split, open_, long⟩
      obtain ⟨size', outcome'⟩ := feedAll_stream frames' (.header header open_)
      have same := outcome' fed split
      simp only [Remainder.error, returned, Option.some.injEq, Outcome.returned.injEq,
        UnitBuilderManager.mk.injEq, Remainder.buffer] at same
      rw [same.1] at bound
      omega
    · intro short
      by_contra long
      exact short ⟨frames, bytes, whole, unfinished, by omega⟩
  | body header part sz announced bounded inside =>
    simp only [Remainder.error, returned, Option.some.injEq, Outcome.returned.injEq] at reached
    subst reached
    simp only [retained, Remainder.buffer, Remainder.builder, collecting, List.length_nil]
    constructor
    · rintro - ⟨frames', header', split, open_, long⟩
      obtain ⟨size', outcome'⟩ := feedAll_stream frames' (.header header' open_)
      have same := outcome' fed split
      simp only [Remainder.error, returned, Option.some.injEq, Outcome.returned.injEq,
        UnitBuilderManager.mk.injEq, Remainder.buffer] at same
      have empty : header' = [] := same.1.symm
      simp [empty] at long
    · intro _
      omega
  | refused header rest sz announced above =>
    -- a refused header throws, so this stream was not fed without exception
    obtain ⟨buffer, threw⟩ := reached
    rw [returned] at threw
    cases threw

private theorem returned_of_long {maxSize : Nat} {fed : List Bytes}
    (long : EndsInLongHeader maxSize fed.flatten) :
    ∃ m, (freshMsg maxSize).feedAll fed = some (.returned m) := by
  obtain ⟨frames, header, split, open_, -⟩ := long
  obtain ⟨size, outcome⟩ := feedAll_stream frames (.header header open_)
  exact ⟨_, outcome fed split⟩

/-- The bound holds for exactly the runs that never stop inside a header longer than it. -/
theorem retainsAtMost_iff (maxSize : Nat) (chunks : List Bytes) :
    RetainsAtMost maxSize chunks ↔
      ∀ fed, fed <+: chunks → ¬ EndsInLongHeader maxSize fed.flatten := by
  constructor
  · intro bounded fed before long
    obtain ⟨m, returned⟩ := returned_of_long long
    exact (retained_le_iff returned).mp (bounded fed before m returned) long
  · intro short fed before m returned
    exact (retained_le_iff returned).mpr (short fed before)

omit [WideShift] in
/-- A peer that only ever sends `0x80` makes the buffer grow. -/
theorem not_retainsAtMost :
    ¬ ∃ shift : WideShift, @RetainsAtMost shift 0 [[0x80, 0x80, 0x80], [0x80, 0x80, 0x80]] := by
  rintro ⟨shift, bounded⟩
  have long : EndsInLongHeader 0 [[0x80, 0x80, 0x80], [0x80, 0x80, 0x80]].flatten := by
    refine ⟨[], List.replicate 6 0x80, rfl, fun b member => ?_, by decide⟩
    rw [List.eq_of_mem_replicate member]
    rfl
  obtain ⟨m, returned⟩ := returned_of_long long
  exact (retained_le_iff returned).mp (bounded _ List.prefix_rfl m returned) long

end ServerLib.Network
