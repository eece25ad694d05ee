import ServerLib.Network.UnitBuilderManager

/-!
# Streams through the delimiter protocol

A delimiter builder cuts its stream at the leftmost delimiters. Sending a message only
appends the delimiter, so a message comes back as it was if no delimiter begins inside it,
not even one that needs the delimiter behind it to be complete.
-/
namespace ServerLib.Network

open Incremental Occurrence

/-- The builder between two units. -/
def splitting (d : Bytes) : DstreamBuilder := { delimeter := d }

/-- One call of `build_unit` on a buffer that is not empty. -/
theorem turn_splitting {d buffer : Bytes} (occupied : buffer ≠ []) :
    turn (splitting d) buffer = match find d buffer with
      | none => .wait (splitting d) buffer
      | some n => .emit (.ofString (buffer.take n)) (splitting d) (buffer.drop (n + d.length)) := by
  have consumed : UnitBuilderI.consume (splitting d) buffer = match find d buffer with
      | none => .returned (splitting d, buffer)
      | some n => .returned ({ delimeter := d, bufferUnit := .ofString (buffer.take n) },
          buffer.drop (n + d.length)) := rfl
  rw [turn, if_neg occupied, consumed]
  cases find d buffer <;> rfl

/-- With a delimiter that is not empty the empty buffer needs no case of its own. -/
theorem turn_splitting_some {d : Bytes} (delimited : d ≠ []) (buffer : Bytes) :
    turn (splitting d) buffer = match find d buffer with
      | none => .wait (splitting d) buffer
      | some n => .emit (.ofString (buffer.take n)) (splitting d) (buffer.drop (n + d.length)) := by
  by_cases empty : buffer = []
  · subst empty
    simp [turn, find, delimited]
  · exact turn_splitting empty

private theorem find_of_emit {d buffer rest : Bytes} {b : DstreamBuilder} {unit : NetUnit}
    (delimited : d ≠ []) (turned : turn (splitting d) buffer = .emit unit b rest) :
    ∃ n, find d buffer = some n ∧ unit = .ofString (buffer.take n) ∧ b = splitting d ∧
      rest = buffer.drop (n + d.length) := by
  rw [turn_splitting_some delimited] at turned
  cases found : find d buffer with
  | none => simp [found] at turned
  | some n =>
    simp only [found, Turn.emit.injEq] at turned
    obtain ⟨rfl, rfl, rfl⟩ := turned
    exact ⟨n, rfl, rfl, rfl, rfl⟩

private theorem find_of_wait {d buffer rest : Bytes} {b : DstreamBuilder}
    (delimited : d ≠ []) (turned : turn (splitting d) buffer = .wait b rest) :
    find d buffer = none ∧ b = splitting d ∧ rest = buffer := by
  rw [turn_splitting_some delimited] at turned
  cases found : find d buffer with
  | none =>
    simp only [found, Turn.wait.injEq] at turned
    exact ⟨rfl, turned.1.symm, turned.2.symm⟩
  | some n => simp [found] at turned

private theorem turn_ne_fail {d buffer rest : Bytes} {b : DstreamBuilder} {error : LogicError}
    (delimited : d ≠ []) : turn (splitting d) buffer ≠ .fail error b rest := by
  rw [turn_splitting_some delimited]
  cases find d buffer <;> simp

/-- The delimiter decoder does not depend on how its input is cut. -/
theorem dstream_stable {d : Bytes} (delimited : d ≠ []) :
    Stable (turn (σ := DstreamBuilder)) (· = splitting d) where
  emit_keeps b buffer unit b' rest valid turned := by
    subst valid
    obtain ⟨n, -, -, kept, -⟩ := find_of_emit delimited turned
    exact kept
  emit_shrinks b buffer unit b' rest valid turned := by
    subst valid
    obtain ⟨n, found, -, -, rfl⟩ := find_of_emit delimited turned
    have inside := ((find_eq_some_iff d buffer n).mp found).bound
    have := List.length_pos_of_ne_nil delimited
    rw [List.length_drop]
    omega
  wait_keeps b buffer b' rest valid turned := by
    subst valid
    exact (find_of_wait delimited turned).2.1
  wait_append b buffer b' rest valid turned more := by
    subst valid
    obtain ⟨-, rfl, rfl⟩ := find_of_wait delimited turned
    rfl
  emit_append b buffer unit b' rest valid turned more := by
    subst valid
    obtain ⟨n, found, rfl, rfl, rfl⟩ := find_of_emit delimited turned
    have inside := ((find_eq_some_iff d buffer n).mp found).bound
    rw [turn_splitting_some delimited, find_append found more]
    simp only [List.take_append_of_le_length (by omega : n ≤ buffer.length),
      List.drop_append_of_le_length inside]
  fail_append b buffer error b' rest valid turned := by
    subst valid
    exact absurd turned (turn_ne_fail delimited)

/-! ### The pieces between the delimiters -/

/-- A stream cut at its leftmost delimiters: `rest` has none. -/
structure Pieces (d stream : Bytes) (pieces : List Bytes) (rest : Bytes) : Prop where
  whole : stream = pieces.flatMap (· ++ d) ++ rest
  leftmost : ∀ piece ∈ pieces, LeftmostAt d (piece ++ d) piece.length
  unfinished : ¬ d <:+: rest

private theorem pieces_of_drains {d : Bytes} (delimited : d ≠ []) {b : DstreamBuilder}
    {buffer : Bytes} {r : Drained DstreamBuilder LogicError NetUnit UInt8}
    (drained : Drains turn b buffer r) (valid : b = splitting d) :
    r.error = none ∧ r.state = splitting d ∧
      ∃ pieces, r.items = pieces.map (.ofString ·) ∧ Pieces d buffer pieces r.rest := by
  induction drained with
  | wait turned =>
    subst valid
    obtain ⟨absent, rfl, rfl⟩ := find_of_wait delimited turned
    exact ⟨rfl, rfl, [], rfl, rfl, by simp, (find_eq_none_iff d _).mp absent⟩
  | fail turned =>
    subst valid
    exact absurd turned (turn_ne_fail delimited)
  | @emit _ _ buffer rest unit r turned _ ih =>
    subst valid
    obtain ⟨n, found, rfl, rfl, rfl⟩ := find_of_emit delimited turned
    obtain ⟨returned, kept, pieces, items, cut⟩ := ih rfl
    have first := (find_eq_some_iff d buffer n).mp found
    refine ⟨returned, kept, buffer.take n :: pieces, by simp [items], ?_, ?_, cut.unfinished⟩
    · rw [List.flatMap_cons, List.append_assoc, Drained.prepend_rest, ← cut.whole]
      exact first.split
    · intro piece member
      rcases List.mem_cons.mp member with rfl | member
      · rw [first.length_take]
        exact first.take
      · exact cut.leftmost piece member

private theorem Pieces.head {d stream piece rest : Bytes} {pieces : List Bytes}
    (cut : Pieces d stream (piece :: pieces) rest) :
    LeftmostAt d stream piece.length ∧ stream.take piece.length = piece ∧
      Pieces d (stream.drop (piece.length + d.length)) pieces rest := by
  have whole := cut.whole
  rw [List.flatMap_cons, List.append_assoc] at whole
  refine ⟨?_, ?_, ?_, fun u member => cut.leftmost u (by simp [member]), cut.unfinished⟩
  · rw [whole, leftmostAt_append_iff (by rw [List.length_append])]
    exact cut.leftmost piece (by simp)
  · rw [whole, List.append_assoc, List.take_left]
  · rw [whole, ← List.length_append, List.drop_left]

/-- There is one way to cut a stream at its leftmost delimiters. -/
theorem Pieces.unique {d stream rest rest' : Bytes} {pieces pieces' : List Bytes}
    (cut : Pieces d stream pieces rest) (cut' : Pieces d stream pieces' rest') :
    pieces = pieces' ∧ rest = rest' := by
  induction pieces generalizing stream pieces' with
  | nil =>
    have same : stream = rest := cut.whole
    cases pieces' with
    | nil => exact ⟨rfl, same.symm.trans cut'.whole⟩
    | cons u us =>
      -- one cut says that no delimiter is there, the other where the first one is
      have absent := (find_eq_none_iff d stream).mpr (same ▸ cut.unfinished)
      rw [(find_eq_some_iff d stream _).mpr cut'.head.1] at absent
      cases absent
  | cons piece pieces ih =>
    obtain ⟨first, front, tail⟩ := cut.head
    have found := (find_eq_some_iff d stream _).mpr first
    cases pieces' with
    | nil =>
      have same : stream = rest' := cut'.whole
      rw [(find_eq_none_iff d stream).mpr (same ▸ cut'.unfinished)] at found
      cases found
    | cons u us =>
      obtain ⟨first', front', tail'⟩ := cut'.head
      rw [(find_eq_some_iff d stream _).mpr first', Option.some.injEq] at found
      rw [found] at front' tail'
      obtain ⟨rfl, rfl⟩ := ih tail tail'
      exact ⟨by rw [← front, front'], rfl⟩

/-- The manager of a new connection with this protocol. -/
def freshDstream (d : Bytes) : UnitBuilderManager DstreamBuilder :=
  { builder := { delimeter := d } }

private theorem feedAll_pieces {d : Bytes} (delimited : d ≠ []) (chunks : List Bytes) :
    ∃ pieces rest, Pieces d chunks.flatten pieces rest ∧ (freshDstream d).feedAll chunks =
      some (.returned ⟨rest, splitting d, pieces.map (.ofString ·)⟩) := by
  obtain ⟨r, unread, drained, clean, fed⟩ :=
    feedAll_flatten (dstream_stable delimited) (splitting d) rfl chunks
  obtain ⟨returned, kept, pieces, items, split⟩ := pieces_of_drains delimited drained rfl
  simp only at returned kept items
  rw [(clean returned).1, List.append_nil] at split
  refine ⟨pieces, r.rest, split, ?_⟩
  change (freshDstream d).feedAll chunks = _ at fed
  simpa only [settle, returned, kept, items, List.nil_append] using fed

/-- Whatever the chunks are, the queue holds the pieces of the stream between its leftmost
delimiters, and the buffer what follows the last of them. -/
theorem dstream_cuts_at_leftmost (d stream : Bytes) (delimited : d ≠ []) (chunks : List Bytes)
    (cut : chunks.flatten = stream) :
    ∃ (m : UnitBuilderManager DstreamBuilder) (pieces : List Bytes),
      (freshDstream d).feedAll chunks = some (.returned m) ∧
      m.availableReplies = pieces.map (.ofString ·) ∧
      stream = pieces.flatMap (· ++ d) ++ m.buffer ∧
      (∀ piece ∈ pieces, LeftmostAt d (piece ++ d) piece.length) ∧ ¬ d <:+: m.buffer := by
  obtain ⟨pieces, rest, split, fed⟩ := feedAll_pieces delimited chunks
  rw [cut] at split
  exact ⟨_, pieces, fed, rfl, split.whole, split.leftmost, split.unfinished⟩

/-- A delimiter that overlaps itself, cut inside one of its occurrences. -/
theorem dstream_cuts_at_leftmost_overlap :
    ∃ (m : UnitBuilderManager DstreamBuilder) (pieces : List Bytes),
      (freshDstream [7, 7]).feedAll [[1, 7], [7, 7], [2]] = some (.returned m) ∧
      m.availableReplies = pieces.map (.ofString ·) ∧
      [1, 7, 7, 7, 2] = pieces.flatMap (· ++ [7, 7]) ++ m.buffer ∧
      (∀ piece ∈ pieces, LeftmostAt [7, 7] (piece ++ [7, 7]) piece.length) ∧
      ¬ [7, 7] <:+: m.buffer :=
  dstream_cuts_at_leftmost [7, 7] [1, 7, 7, 7, 2] (by decide) [[1, 7], [7, 7], [2]] rfl

/-! ### Messages that were created by the protocol -/

/-- The messages are created, sent in any chunks, and received as they were. -/
def RoundTrips (d : Bytes) (msgs : List Bytes) : Prop :=
  ∃ units, msgs.mapM (DstreamBuilder.create { delimeter := d }) = .ok units ∧
    ∀ chunks : List Bytes, chunks.flatten = units.flatMap NetUnit.toNetworkString →
      ∃ m, (freshDstream d).feedAll chunks = some (.returned m) ∧
        m.availableReplies = msgs.map (.ofString ·) ∧ m.buffer = []

private theorem create_all (d : Bytes) (msgs : List Bytes) :
    msgs.mapM (DstreamBuilder.create { delimeter := d }) =
      .ok (msgs.map fun msg => .ofString (msg ++ d)) := by
  induction msgs with
  | nil => rfl
  | cons msg msgs ih =>
    rw [List.mapM_cons, ih]
    rfl

private theorem send_all (d : Bytes) (msgs : List Bytes) :
    (msgs.map fun msg => NetUnit.ofString (msg ++ d)).flatMap NetUnit.toNetworkString =
      msgs.flatMap (· ++ d) := by
  simp only [List.flatMap_map, toNetworkString_ofString]

private theorem map_ofString_inj {xs ys : List Bytes}
    (same : xs.map (NetUnit.ofString ·) = ys.map (NetUnit.ofString ·)) : xs = ys := by
  apply List.map_injective_iff.mpr _ same
  intro x y equal
  simpa [NetUnit.ofString] using equal

/-- Messages come back as they were if and only if, in each of them with the delimiter behind
it, the delimiter first occurs at the end of the message. -/
theorem dstream_roundTrips_iff (d : Bytes) (delimited : d ≠ []) (msgs : List Bytes) :
    RoundTrips d msgs ↔ ∀ msg ∈ msgs, LeftmostAt d (msg ++ d) msg.length := by
  constructor
  · rintro ⟨units, created, received⟩
    have sent : units.flatMap NetUnit.toNetworkString = msgs.flatMap (· ++ d) := by
      rw [← Except.ok.inj ((create_all d msgs).symm.trans created), send_all]
    obtain ⟨m, fed, queued, -⟩ := received [msgs.flatMap (· ++ d)] (by simp [sent])
    obtain ⟨pieces, rest, split, outcome⟩ := feedAll_pieces delimited [msgs.flatMap (· ++ d)]
    rw [outcome, Option.some.injEq, Outcome.returned.injEq] at fed
    subst fed
    exact map_ofString_inj queued ▸ split.leftmost
  · intro leftmost
    refine ⟨_, create_all d msgs, fun chunks cut => ?_⟩
    rw [send_all] at cut
    -- the messages are one way to cut the stream, and there is only one
    have intended : Pieces d chunks.flatten msgs [] :=
      ⟨by rw [cut, List.append_nil], leftmost, by simpa using delimited⟩
    obtain ⟨pieces, rest, split, fed⟩ := feedAll_pieces delimited chunks
    obtain ⟨rfl, rfl⟩ := split.unique intended
    exact ⟨_, fed, rfl, rfl⟩

/-- The default delimiter, and a message with a line break inside. -/
theorem dstream_roundTrips_iff_default : RoundTrips [13, 10, 13, 10] [[97, 13, 10, 98]] :=
  (dstream_roundTrips_iff [13, 10, 13, 10] (by decide) [[97, 13, 10, 98]]).mpr (by
    intro msg member
    rw [List.mem_singleton.mp member]
    exact ⟨by decide, by decide⟩)

/-- A message that is one line break has no occurrence of the default delimiter, and is
received as an empty unit with the line break left in the buffer. -/
theorem line_break_is_not_received :
    ¬ [13, 10, 13, 10] <:+: [13, 10] ∧ ¬ RoundTrips [13, 10, 13, 10] [[13, 10]] := by
  refine ⟨by decide, ?_⟩
  rintro ⟨units, created, received⟩
  have sent : units = [.ofString [13, 10, 13, 10, 13, 10]] :=
    Except.ok.inj (created.symm.trans rfl)
  obtain ⟨m, fed, -, emptied⟩ := received [[13, 10, 13, 10, 13, 10]] (by rw [sent]; rfl)
  have split : (freshDstream [13, 10, 13, 10]).feedAll [[13, 10, 13, 10, 13, 10]] =
      some (.returned ⟨[13, 10], splitting [13, 10, 13, 10], [.ofString []]⟩) := rfl
  rw [split, Option.some.injEq, Outcome.returned.injEq] at fed
  subst fed
  cases emptied

end ServerLib.Network
