import ServerLib.Web.Chunked

/-!
# Streams through the chunked reader

A size line ends at the first line feed, though the reader has waited for a `\r\n`; what it
reads on after the line depends on the bytes only. `Hazard` says of a stream, without any
reader, that it has an empty size line or a size at the top of the 64-bit range where a reader
gets to; on all other streams the reader does nothing that is undefined or wraps.
-/
namespace ServerLib.Web

open Network (Bytes)
open Occurrence (LeftmostAt)

theorem split_unique {c : UInt8} {front front' back back' : Bytes} (clean : c ∉ front)
    (clean' : c ∉ front') (same : front ++ c :: back = front' ++ c :: back') :
    front = front' ∧ back = back' := by
  have lengths : front.length = front'.length := by
    have left := idxOf?_append_cons clean back
    rw [same, idxOf?_append_cons clean' back'] at left
    exact (Option.some.inj left).symm
  obtain ⟨fronts, backs⟩ := List.append_inj same lengths
  exact ⟨fronts, (List.cons.inj backs).2⟩

/-- After some complete chunks there is an empty size line, or one whose size cannot be
increased by 2. -/
inductive Hazard : Bytes → Prop where
  | empty {rest : Bytes} (ended : crlf <:+: 10 :: rest) : Hazard (10 :: rest)
  | wraps {line rest : Bytes} {length : Nat} (first : 10 ∉ line)
      (ended : crlf <:+: line ++ 10 :: rest) (size : stoul 16 line.dropLast = .ok length)
      (big : sizeMax ≤ length + 2) : Hazard (line ++ 10 :: rest)
  | behind {line rest : Bytes} {length n : Nat} (first : 10 ∉ line)
      (ended : LeftmostAt crlf (line ++ 10 :: rest) n) (size : stoul 16 line.dropLast = .ok length)
      (positive : 0 < length) (small : length + 2 < sizeMax) (allocates : length ≤ ptrdiffMax)
      (complete : n + 2 + (length + 2) ≤ (line ++ 10 :: rest).length)
      (later : Hazard (rest.drop (length + 2))) : Hazard (line ++ 10 :: rest)

/-- What a reader knows of the rest of a stream without hazards. -/
def Sound : ChunkStep → Socket → Prop
  | .readLine buf _, s => buf.good ∧ ¬ Hazard (pending buf s)
  | .readData missing buf _ length, s =>
    buf.good ∧ length + 2 ≤ buf.size + missing ∧
      (missing ≤ s.pieces.flatten.length → 0 < length → length ≤ ptrdiffMax →
        ¬ Hazard ((pending buf s).drop (length + 2)))
  | _, _ => True

theorem pending_consume {b : StreamBuf} {n : Nat} (inside : n ≤ b.size) (s : Socket) :
    pending (b.consume n) s = (pending b s).drop n := by
  rw [pending, pending, StreamBuf.consume_data, List.drop_append_of_le_length inside]

/-- A chunk that is buffered with its `\r\n` is taken without harm. -/
theorem sound_readChunk {buf : StreamBuf} (good : buf.good) {length : Nat}
    (enough : length + 2 ≤ buf.size) (chunks : StreamBuf) {s : Socket}
    (clean : 0 < length → length ≤ ptrdiffMax → ¬ Hazard ((pending buf s).drop (length + 2))) :
    (∀ e ∈ (readChunk buf chunks length).events, e.Safe) ∧
      Sound (readChunk buf chunks length).step s := by
  rcases Nat.eq_zero_or_pos length with rfl | positive
  · rw [readChunk_zero good (by omega)]
    simp [Event.Safe, Sound, enough]
  · by_cases small : length ≤ ptrdiffMax
    · rw [readChunk_of_pos good enough positive small]
      split
      · simp [Turn.after, Event.Safe, Sound, enough]
      · have rest := clean positive small
        rw [← pending_consume enough] at rest
        simp [Turn.after, Event.Safe, Sound, enough, good, rest]
    · simp only [readChunk, if_pos positive, if_pos (Nat.lt_of_not_le small)]
      simp [Turn.after, Event.Safe, Sound, enough]

/-- A read that fails ends the reader. -/
theorem afterLine_failed {r : ReadResult} {code : ErrorCode} (failed : r.ec = some code)
    (chunks : StreamBuf) :
    (∀ e ∈ (afterLine chunks r).events, e = .buffered r.buf) ∧
      ((afterLine chunks r).step = .tooLarge ∨ (afterLine chunks r).step = .failed code) := by
  simp only [afterLine, failed]
  split <;> simp [Turn.after]

/-- The size line that has been found, seen in the whole stream. -/
theorem found_in_stream {r : ReadResult} {n : Nat} (leftmost : LeftmostAt crlf r.buf.data n) :
    ∃ line tail, r.buf.data = line ++ 10 :: tail ∧ 10 ∉ line ∧ line.length + 1 ≤ n + 2 ∧
      n + 2 ≤ r.buf.size ∧
      pending r.buf r.socket = line ++ 10 :: (tail ++ r.socket.pieces.flatten) ∧
      LeftmostAt crlf (pending r.buf r.socket) n := by
  obtain ⟨line, tail, begins, first, inside, bound⟩ := exists_line leftmost
  refine ⟨line, tail, begins, first, inside, bound, ?_, ?_⟩
  · rw [pending, begins, List.append_assoc, List.cons_append]
  · exact (Occurrence.leftmostAt_append_iff bound _).mpr leftmost

theorem Turn.safe_after {σ : Type} {events : List Event} {t : Turn σ}
    (before : ∀ e ∈ events, e.Safe) (now : ∀ e ∈ t.events, e.Safe) :
    ∀ e ∈ (Turn.after events t).events, e.Safe := by
  intro e member
  rcases List.mem_append.mp member with early | late
  · exact before e early
  · exact now e late

/-- Behind a size line the reader goes on without harm, if what follows the chunk is without
hazards once the chunk is there. -/
theorem sound_afterSize {buf : StreamBuf} (good : buf.good) {ahead length : Nat}
    (inside : ahead ≤ buf.size) (small : length + 2 < sizeMax) (chunks : StreamBuf) {s : Socket}
    (clean : length + 2 ≤ buf.size - ahead + s.pieces.flatten.length → 0 < length →
      length ≤ ptrdiffMax → ¬ Hazard ((pending buf s).drop (length + 2))) :
    (∀ e ∈ (afterSize buf chunks ahead length).events, e.Safe) ∧
      Sound (afterSize buf chunks ahead length).step s := by
  have fits : 2 + length < sizeMax := by omega
  have before : ∀ e ∈ [Event.subtract buf.size ahead, .add 2 length], e.Safe := by
    simpa [Event.Safe] using ⟨inside, fits⟩
  rw [afterSize_eq inside, sizeAdd_of_lt fits]
  split
  next more =>
    refine ⟨Turn.safe_after before (by simpa [Event.Safe] using Nat.le_of_lt more), good, ?_, ?_⟩
    · omega
    · exact fun brought => clean (by omega)
  next enough =>
    obtain ⟨now, sound⟩ := sound_readChunk good (show length + 2 ≤ buf.size by omega) chunks
      (clean (by omega))
    exact ⟨Turn.safe_after before now, sound⟩

/-- A size line that has been found is taken without harm: a hazard of the line would be one of
the stream. -/
theorem sound_line {r : ReadResult} (good : r.buf.good)
    (harmless : ¬ Hazard (pending r.buf r.socket)) (clean : r.ec = none)
    (open_ : r.buf.full = false) {n : Nat} (leftmost : LeftmostAt crlf r.buf.data n)
    (offset : r.bytesTransferred = n + 2) (chunks : StreamBuf) :
    (∀ e ∈ (afterLine chunks r).events, e.Safe) ∧ Sound (afterLine chunks r).step r.socket := by
  obtain ⟨line, tail, begins, first, inside, bound, whole, occurs⟩ := found_in_stream leftmost
  have somewhere : crlf <:+: pending r.buf r.socket :=
    occurs.1.isInfix.trans (List.drop_suffix _ _).isInfix
  have total : (line ++ 10 :: (tail ++ r.socket.pieces.flatten)).length =
      r.buf.size + r.socket.pieces.flatten.length := by
    rw [← whole, pending, List.length_append, StreamBuf.size]
  have behind : pending (r.buf.consume (line.length + 1)) r.socket =
      tail ++ r.socket.pieces.flatten := by
    rw [pending_consume (by omega), whole, List.drop_length_add_append]
    rfl
  rw [whole] at somewhere occurs harmless
  rw [afterLine_found good clean open_ offset begins first inside]
  by_cases occupied : line = []
  · subst occupied
    exact absurd (.empty somewhere) harmless
  · -- the first line feed is that of the `\r\n`, or comes before it
    have before : ∀ e ∈ [Event.buffered r.buf, .subtract (n + 2) (line.length + 1),
        .popBack line], e.Safe := by
      simp only [List.forall_mem_cons, Event.Safe, true_and]
      exact ⟨inside, occupied, by simp⟩
    rw [if_neg occupied]
    -- a size that is no number throws, and nothing harmful has been done
    cases size : stoul 16 line.dropLast with
    | error => exact ⟨Turn.safe_after before (by simp), trivial⟩
    | ok length =>
      have small : length + 2 < sizeMax := by
        by_contra big
        exact harmless (.wraps first somewhere size (Nat.not_lt.mp big))
      have left := StreamBuf.size_consume r.buf (line.length + 1)
      have still_good : (r.buf.consume (line.length + 1)).good := good
      have later : length + 2 ≤ (r.buf.consume (line.length + 1)).size -
            (n + 1 - line.length) + r.socket.pieces.flatten.length →
          0 < length → length ≤ ptrdiffMax →
          ¬ Hazard
            ((pending (r.buf.consume (line.length + 1)) r.socket).drop (length + 2)) := by
        intro complete positive allocates hazard
        rw [behind] at hazard
        exact harmless (.behind first occurs size positive small allocates (by omega) hazard)
      obtain ⟨now, sound⟩ := sound_afterSize still_good (by omega) small chunks later
      exact ⟨Turn.safe_after before now, sound⟩

theorem sound_afterLine {buf chunks : StreamBuf} {s : Socket}
    (sound : Sound (.readLine buf chunks) s) {r : ReadResult}
    (completed : asyncReadUntil crlf buf s = some r) :
    (∀ e ∈ (afterLine chunks r).events, e.Safe) ∧ Sound (afterLine chunks r).step r.socket := by
  obtain ⟨carries, cases⟩ := asyncReadUntil_some completed
  have ends : ∀ code, r.ec = some code →
      (∀ e ∈ (afterLine chunks r).events, e.Safe) ∧
        Sound (afterLine chunks r).step r.socket := by
    intro code failed
    obtain ⟨events, step⟩ := afterLine_failed failed chunks
    refine ⟨fun e member => by rw [events e member]; trivial, ?_⟩
    rcases step with step | step <;> rw [step] <;> trivial
  cases cases with
  | overflow _ failed _ => exact ends _ failed
  | ended code _ failed _ _ => exact ends code failed
  | found n leftmost clean offset _ =>
    have harmless := sound.2
    rw [← carries.stream] at harmless
    cases open_ : r.buf.full with
    | true => simp [afterLine, clean, open_, Turn.after, Event.Safe, Sound]
    | false =>
      exact sound_line (carries.good.trans sound.1) harmless clean open_ leftmost offset chunks

theorem sound_afterData {missing length : Nat} {buf chunks : StreamBuf} {s : Socket}
    (sound : Sound (.readData missing buf chunks length) s) {r : ReadResult}
    (completed : asyncReadExactly missing buf s = some r) :
    (∀ e ∈ (afterData chunks length r).events, e.Safe) ∧
      Sound (afterData chunks length r).step r.socket := by
  obtain ⟨carries, cases⟩ := asyncReadExactly_some completed
  obtain ⟨good, enough, later⟩ := sound
  have before : ∀ e ∈ [Event.buffered r.buf], e.Safe := by simp [Event.Safe]
  cases cases with
  | overflow clean full _ =>
    simp only [afterData, clean, full, if_true]
    exact ⟨Turn.safe_after before (by simp), trivial⟩
  | ended code failed _ _ _ =>
    simp only [afterData, failed]
    exact ⟨Turn.safe_after before (by simp), trivial⟩
  | taken clean bound data _ =>
    simp only [afterData, clean]
    cases full : r.buf.full with
    | true => exact ⟨Turn.safe_after before (by simp), trivial⟩
    | false =>
      have size : r.buf.size = buf.size + missing := by
        rw [StreamBuf.size, data, List.length_append, List.length_take, Nat.min_eq_left bound,
          StreamBuf.size]
      obtain ⟨now, sound'⟩ := sound_readChunk (carries.good.trans good)
        (show length + 2 ≤ r.buf.size by omega) chunks (by
          rw [carries.stream]
          exact later bound)
      exact ⟨Turn.safe_after before now, sound'⟩

theorem sound_turn (step : ChunkStep) (s : Socket) (t : Turn ChunkStep) (s' : Socket)
    (sound : Sound step s) (turned : chunkTurn step s = some (t, s')) :
    (∀ e ∈ t.events, e.Safe) ∧ Sound t.step s' := by
  cases step with
  | readLine buf chunks =>
    obtain ⟨r, completed, same⟩ := Option.map_eq_some_iff.mp turned
    cases same
    exact sound_afterLine sound completed
  | readData missing buf chunks length =>
    obtain ⟨r, completed, same⟩ := Option.map_eq_some_iff.mp turned
    cases same
    exact sound_afterData sound completed
  | _ => cases turned

/-- On a stream without hazards every operand is fine, however the stream is cut. -/
theorem safe_of_not_hazard {buf chunks : StreamBuf} {s : Socket} (good : buf.good)
    (clean : ¬ Hazard (pending buf s)) (turns : Nat) :
    ∀ e ∈ (runTurns chunkTurn turns (.readLine buf chunks) s).events, e.Safe :=
  runTurns_invariant sound_turn (show Sound (.readLine buf chunks) s from ⟨good, clean⟩) turns

/-! ### How a chunk is reached -/

/-- The size line of a stream is found, unless the buffer is full before. -/
theorem exists_line_read {buf : StreamBuf} {s : Socket} {line rest : Bytes} {n : Nat}
    (occurs : LeftmostAt crlf (pending buf s) n) (whole : pending buf s = line ++ 10 :: rest)
    (first : 10 ∉ line) :
    ∃ r, asyncReadUntil crlf buf s = some r ∧ r.Carries buf s ∧
      (r.ec = none ∨ r.ec = some .notFound) ∧
      (r.buf.full = false →
        r.ec = none ∧ r.bytesTransferred = n + 2 ∧ line.length + 1 ≤ n + 2 ∧ n + 2 ≤ r.buf.size ∧
          ∃ tail, r.buf.data = line ++ 10 :: tail ∧ tail ++ r.socket.pieces.flatten = rest) := by
  obtain ⟨r, completed⟩ := asyncReadUntil_of_leftmost occurs
  obtain ⟨carries, cases⟩ := asyncReadUntil_some completed
  refine ⟨r, completed, carries, ?_⟩
  cases cases with
  | overflow _ failed full =>
    refine ⟨.inr failed, fun open_ => ?_⟩
    rw [full] at open_
    cases open_
  | ended _ absent _ _ _ =>
    exact absurd (occurs.1.isInfix.trans (List.drop_suffix _ _).isInfix) absent
  | found m leftmost clean offset _ =>
    refine ⟨.inl clean, fun _ => ?_⟩
    -- the reader's line and that of the stream end at the same line feed
    obtain ⟨line', tail, begins, first', inside, bound, whole', occurs'⟩ :=
      found_in_stream leftmost
    rw [carries.stream] at whole' occurs'
    have same : m = n := occurs'.unique occurs
    obtain ⟨rfl, rest'⟩ := split_unique first' first (whole'.symm.trans whole)
    subst same
    exact ⟨clean, offset, inside, bound, tail, begins, rest'⟩

theorem afterLine_full {r : ReadResult} (read : r.ec = none ∨ r.ec = some .notFound)
    (full : r.buf.full = true) (chunks : StreamBuf) :
    afterLine chunks r = ⟨[.buffered r.buf], .tooLarge⟩ := by
  simp only [afterLine, read, full, and_self, if_true]
  rfl

/-- The first read of a chunk fills the buffer, or leaves the reader behind the size line, with
`ahead` bytes in front of the chunk. -/
theorem exists_line_turn {buf : StreamBuf} (good : buf.good) (chunks : StreamBuf) {s : Socket}
    {line rest : Bytes} {n length : Nat} (occurs : LeftmostAt crlf (pending buf s) n)
    (whole : pending buf s = line ++ 10 :: rest) (first : 10 ∉ line)
    (size : stoul 16 line.dropLast = .ok length) :
    ∃ t s', chunkTurn (.readLine buf chunks) s = some (t, s') ∧
      ((∃ b, t = ⟨[.buffered b], .tooLarge⟩ ∧ b.full = true ∧
          buf.maxSize ≤ (pending buf s).length) ∨
        ∃ (b : StreamBuf) (ahead : Nat) (before : List Event), b.good ∧ b.maxSize = buf.maxSize ∧
          ahead ≤ b.size ∧ n + 2 + (b.size - ahead) < buf.maxSize ∧ pending b s' = rest ∧
          n + 2 + (b.size - ahead + s'.pieces.flatten.length) = (pending buf s).length ∧
          t = .after before (afterSize b chunks ahead length)) := by
  obtain ⟨r, completed, carries, read, found⟩ := exists_line_read occurs whole first
  refine ⟨afterLine chunks r, r.socket, by simp only [chunkTurn, completed, Option.map_some], ?_⟩
  cases open_ : r.buf.full with
  | true =>
    left
    exact ⟨r.buf, afterLine_full read open_ chunks, open_, carries.maxSize_le open_⟩
  | false =>
    right
    obtain ⟨clean, offset, inside, bound, tail, begins, -⟩ := found open_
    have good' : r.buf.good := carries.good.trans good
    have nonempty : line ≠ [] := by
      rintro rfl
      cases size
    have left := StreamBuf.size_consume r.buf (line.length + 1)
    have below : r.buf.size < buf.maxSize := by
      rw [← carries.maxSize]
      exact Nat.lt_of_le_of_ne r.buf.size_le (beq_eq_false_iff_ne.mp open_)
    refine ⟨r.buf.consume (line.length + 1), n + 1 - line.length,
      [.buffered r.buf, .subtract (n + 2) (line.length + 1), .popBack line], good',
      carries.maxSize, by omega, by omega, ?_, ?_, ?_⟩
    · rw [pending_consume (by omega), carries.stream, whole, List.drop_length_add_append]
      rfl
    · rw [← carries.stream, pending, List.length_append, ← StreamBuf.size]
      omega
    · rw [afterLine_found good' clean open_ offset begins first inside, if_neg nonempty, size]

/-- The second read of a chunk fills the buffer, or brings what is missing of the chunk. -/
theorem exists_data_turn {buf : StreamBuf} (good : buf.good) (chunks : StreamBuf) {s : Socket}
    {missing length : Nat} (brought : missing ≤ s.pieces.flatten.length)
    (enough : length + 2 ≤ buf.size + missing) :
    ∃ t s', chunkTurn (.readData missing buf chunks length) s = some (t, s') ∧
      ((∃ b, t = ⟨[.buffered b], .tooLarge⟩ ∧ b.full = true ∧
          buf.maxSize ≤ (pending buf s).length) ∨
        ∃ b : StreamBuf, b.good ∧ b.maxSize = buf.maxSize ∧ length + 2 ≤ b.size ∧
          b.size < buf.maxSize ∧ pending b s' = pending buf s ∧
          t = .after [.buffered b] (readChunk b chunks length)) := by
  obtain ⟨r, completed⟩ := asyncReadExactly_of_le (b := buf) brought
  obtain ⟨carries, cases⟩ := asyncReadExactly_some completed
  refine ⟨afterData chunks length r, r.socket,
    by simp only [chunkTurn, completed, Option.map_some], ?_⟩
  -- the buffer may be full though nothing of the chunk is missing
  have filled : r.ec = none → r.buf.full = true →
      afterData chunks length r = ⟨[.buffered r.buf], .tooLarge⟩ := by
    intro clean full
    simp only [afterData, clean, full, if_true]
    rfl
  cases cases with
  | ended _ _ _ short _ => exact absurd brought (Nat.not_le.mpr short)
  | overflow clean full _ => exact .inl ⟨r.buf, filled clean full, full, carries.maxSize_le full⟩
  | taken clean _ data _ =>
    cases full : r.buf.full with
    | true => exact .inl ⟨r.buf, filled clean full, full, carries.maxSize_le full⟩
    | false =>
      have grown : r.buf.size = buf.size + missing := by
        rw [StreamBuf.size, data, List.length_append, List.length_take, Nat.min_eq_left brought,
          StreamBuf.size]
      have below : r.buf.size < buf.maxSize := by
        rw [← carries.maxSize]
        exact Nat.lt_of_le_of_ne r.buf.size_le (beq_eq_false_iff_ne.mp full)
      refine .inr ⟨r.buf, carries.good.trans good, carries.maxSize, by omega, below,
        carries.stream, ?_⟩
      simp only [afterData, clean, full, Bool.false_eq_true, if_false]

/-- After one or two reads the handler enters the chunk behind a size line, unless one of them
has filled the buffer. -/
theorem enters_chunk {buf : StreamBuf} (good : buf.good) (chunks : StreamBuf) {s : Socket}
    {line rest : Bytes} {n length : Nat} (occurs : LeftmostAt crlf (pending buf s) n)
    (whole : pending buf s = line ++ 10 :: rest) (first : 10 ∉ line)
    (size : stoul 16 line.dropLast = .ok length) (small : length + 2 < sizeMax)
    (complete : n + 2 + (length + 2) ≤ (pending buf s).length) :
    ∃ reads ≤ 2, ∃ before t s',
      (∀ turns, runTurns chunkTurn (turns + reads) (.readLine buf chunks) s =
        { runTurns chunkTurn turns t.step s' with
          events := before ++ (t.events ++ (runTurns chunkTurn turns t.step s').events) }) ∧
      ((∃ b, Event.buffered b ∈ before ∧ b.full = true ∧
          buf.maxSize ≤ (pending buf s).length ∧ t = ⟨[], .tooLarge⟩) ∨
        ∃ b : StreamBuf, b.good ∧ b.maxSize = buf.maxSize ∧ length + 2 ≤ b.size ∧
          n + 2 < buf.maxSize ∧ length + 2 < buf.maxSize ∧
          pending b s' = rest ∧ t = readChunk b chunks length) := by
  have fits : 2 + length < sizeMax := by omega
  obtain ⟨t, s', turned, ⟨b, rfl, full, limit⟩ |
      ⟨b, ahead, before, good', same, inside, below, behind, total, rfl⟩⟩ :=
    exists_line_turn good chunks occurs whole first size
  · refine ⟨1, by decide, [.buffered b], ⟨[], .tooLarge⟩, s', fun turns => ?_,
      .inl ⟨b, List.mem_cons_self, full, limit, rfl⟩⟩
    rw [runTurns_of_turn turned]
    rfl
  · rw [afterSize_eq inside, sizeAdd_of_lt fits] at turned
    split at turned
    next more =>
      -- a second read is needed for the chunk
      obtain ⟨t, s'', turned', cases⟩ : ∃ t s'', chunkTurn
          (.readData (2 + length - (b.size - ahead)) b chunks length) s' = some (t, s'') ∧ _ :=
        exists_data_turn good' chunks (by omega) (by omega)
      obtain ⟨early, both⟩ : ∃ early, ∀ turns,
          runTurns chunkTurn (turns + 2) (.readLine buf chunks) s =
            { runTurns chunkTurn turns t.step s'' with
              events := early ++ (t.events ++ (runTurns chunkTurn turns t.step s'').events) } := by
        refine ⟨before ++ [.subtract b.size ahead, .add 2 length,
          .subtract (2 + length) (b.size - ahead)], fun turns => ?_⟩
        rw [runTurns_of_turn turned]
        simp only [Turn.after]
        rw [runTurns_of_turn turned']
        simp
      rcases cases with ⟨q, rfl, full, limit⟩ | ⟨q, good'', same', enough, below', stream, rfl⟩
      · refine ⟨2, Nat.le_refl 2, early ++ [.buffered q], ⟨[], .tooLarge⟩, s'', fun turns => ?_,
          .inl ⟨q, List.mem_append_right _ List.mem_cons_self, full, ?_, rfl⟩⟩
        · rw [both, List.append_assoc]
          rfl
        · rw [behind, same] at limit
          rw [whole, List.length_append, List.length_cons]
          omega
      · refine ⟨2, Nat.le_refl 2, early ++ [.buffered q], readChunk q chunks length, s'',
          fun turns => ?_, .inr ⟨q, good'', same'.trans same, enough, by omega, by omega,
            stream.trans behind, rfl⟩⟩
        rw [both, List.append_assoc]
        rfl
    next enough =>
      refine ⟨1, by decide, before ++ [.subtract b.size ahead, .add 2 length],
        readChunk b chunks length, s', fun turns => ?_,
        .inr ⟨b, good', same, by omega, by omega, by omega, behind, rfl⟩⟩
      rw [runTurns_of_turn turned]
      simp [Turn.after]

/-- A reader passes a chunk and stands in front of the next one, unless it has filled one of its
two buffers. -/
theorem passes_chunk {buf : StreamBuf} (good : buf.good) (chunks : StreamBuf) {s : Socket}
    {line rest : Bytes} {n length : Nat} (occurs : LeftmostAt crlf (pending buf s) n)
    (whole : pending buf s = line ++ 10 :: rest) (first : 10 ∉ line)
    (size : stoul 16 line.dropLast = .ok length) (positive : 0 < length)
    (small : length + 2 < sizeMax) (allocates : length ≤ ptrdiffMax)
    (complete : n + 2 + (length + 2) ≤ (pending buf s).length) :
    ∃ reads ≤ 2,
      (∃ b, b.full = true ∧
        (buf.maxSize ≤ (pending buf s).length ∨ chunks.maxSize ≤ chunks.size + length) ∧
        ∀ turns, .buffered b ∈
            (runTurns chunkTurn (turns + reads) (.readLine buf chunks) s).events ∧
          (runTurns chunkTurn (turns + reads) (.readLine buf chunks) s).step = .tooLarge) ∨
      ∃ (b : StreamBuf) (s' : Socket) (before : List Event), b.good ∧ b.maxSize = buf.maxSize ∧
        n + 2 < buf.maxSize ∧ length + 2 < buf.maxSize ∧
        pending b s' = rest.drop (length + 2) ∧
        (chunks.insert (rest.take length)).full = false ∧
        ∀ turns, runTurns chunkTurn (turns + reads) (.readLine buf chunks) s =
          let next := runTurns chunkTurn turns (.readLine b (chunks.insert (rest.take length))) s'
          { next with events := before ++ next.events } := by
  obtain ⟨reads, few, before, t, s', run, ⟨b, member, full, limit, rfl⟩ |
      ⟨b, good', same, enough, short, short', left, rfl⟩⟩ :=
    enters_chunk good chunks occurs whole first size small complete
  · refine ⟨reads, few, .inl ⟨b, full, .inl limit, fun turns => ?_⟩⟩
    rw [run, runTurns_of_none rfl]
    exact ⟨List.mem_append_left _ member, rfl⟩
  · have data : b.data.take length = rest.take length := by
      rw [← left, pending, List.take_append_of_le_length]
      exact Nat.le_trans (Nat.le_add_right _ _) enough
    have entered := readChunk_of_pos good' enough positive allocates chunks
    rw [data] at entered
    -- the data fits into the second buffer, or fills it
    cases open_ : (chunks.insert (rest.take length)).full with
    | true =>
      refine ⟨reads, few, .inl ⟨_, open_, .inr ?_, fun turns => ?_⟩⟩
      · by_contra room
        have taken := List.length_take_le length rest
        rw [(StreamBuf.insert_of_room (by omega)).2] at open_
        cases open_
      · have stopped : runTurns chunkTurn turns .tooLarge s' = ⟨[], .tooLarge, s'⟩ :=
          runTurns_of_none rfl turns
        rw [run, entered, open_]
        simp [Turn.after, stopped]
    | false =>
      refine ⟨reads, few, .inr ⟨b.consume (length + 2), s', before ++ [.chunk length b.size,
        .buffered (chunks.insert (rest.take length))], good', same, short, short', ?_, rfl,
        fun turns => ?_⟩⟩
      · rw [pending_consume enough, left]
      · rw [run, entered, open_]
        simp [Turn.after]

/-- A buffer with room for the stream is not filled by it. -/
theorem exists_line_in_room {buf : StreamBuf} {s : Socket} {line rest : Bytes}
    (ended : crlf <:+: pending buf s) (whole : pending buf s = line ++ 10 :: rest)
    (first : 10 ∉ line) (good : buf.good) (room : (pending buf s).length < buf.maxSize)
    (chunks : StreamBuf) :
    ∃ n r, asyncReadUntil crlf buf s = some r ∧ afterLine chunks r =
      .after [.buffered r.buf, .subtract (n + 2) (line.length + 1), .popBack line]
        (if line = [] then ⟨[], .broken .undefined⟩
        else match stoul 16 line.dropLast with
          | .error _ => ⟨[], .malformed⟩
          | .ok length =>
            afterSize (r.buf.consume (line.length + 1)) chunks (n + 1 - line.length) length) := by
  obtain ⟨n, occurs⟩ := Occurrence.exists_leftmostAt ended
  obtain ⟨r, completed, carries, -, found⟩ := exists_line_read occurs whole first
  have open_ : r.buf.full = false := by
    rw [Bool.eq_false_iff]
    exact fun full => Nat.not_le.mpr room (carries.maxSize_le full)
  obtain ⟨clean, offset, inside, -, tail, begins, -⟩ := found open_
  exact ⟨n, r, completed, afterLine_found (carries.good.trans good) clean open_ offset begins
    first inside chunks⟩

/-- What the handler of the first read does is done in a run. -/
theorem mem_run_of_mem_afterLine {buf chunks : StreamBuf} {s : Socket} {r : ReadResult} {e : Event}
    (completed : asyncReadUntil crlf buf s = some r) (member : e ∈ (afterLine chunks r).events) :
    e ∈ (runTurns chunkTurn 1 (.readLine buf chunks) s).events := by
  have turned : chunkTurn (.readLine buf chunks) s = some (afterLine chunks r, r.socket) := by
    simp only [chunkTurn, completed, Option.map_some]
  rw [runTurns_of_turn turned]
  exact List.mem_append_left _ member

/-- A reader with room for the stream gets to its hazard. -/
theorem unsafe_of_hazard {stream : Bytes} (hazard : Hazard stream) {buf chunks : StreamBuf}
    {s : Socket} (good : buf.good) (is : pending buf s = stream)
    (room : stream.length < buf.maxSize) (room' : chunks.size + stream.length < chunks.maxSize) :
    ∃ turns, ∃ e ∈ (runTurns chunkTurn turns (.readLine buf chunks) s).events, ¬ e.Safe := by
  -- the chunks in front of the hazard are passed one by one
  induction hazard generalizing buf chunks s with
  | @empty rest ended =>
    rw [← is] at ended room
    obtain ⟨n, r, completed, handled⟩ :=
      exists_line_in_room ended (show _ = [] ++ 10 :: rest from is) (by simp) good room chunks
    refine ⟨1, .popBack [], mem_run_of_mem_afterLine completed ?_, by simp [Event.Safe]⟩
    rw [handled]
    simp [Turn.after]
  | @wraps line rest length first ended size big =>
    rw [← is] at ended room
    obtain ⟨n, r, completed, handled⟩ := exists_line_in_room ended is first good room chunks
    have nonempty : line ≠ [] := by
      rintro rfl
      cases size
    have wraps : ¬ (Event.add 2 length).Safe := by
      rw [Event.Safe]
      omega
    refine ⟨1, .add 2 length, mem_run_of_mem_afterLine completed ?_, wraps⟩
    rw [handled, if_neg nonempty, size]
    simp [Turn.after, afterSize]
  | @behind line rest length n first occurs size positive small allocates complete later ih =>
    rw [← is] at occurs complete
    obtain ⟨reads, -, ⟨b, -, filled, -⟩ | ⟨b, s', before, good', same, -, -, behind, open_, run⟩⟩ :=
      passes_chunk good chunks occurs is first size positive small allocates complete
    · -- no buffer is filled by a stream that it has room for
      rw [is] at complete filled
      omega
    · rw [List.length_append, List.length_cons] at room room'
      have room_left : (rest.drop (length + 2)).length < b.maxSize := by
        rw [List.length_drop, same]
        omega
      have room_left' : (chunks.insert (rest.take length)).size + (rest.drop (length + 2)).length <
          (chunks.insert (rest.take length)).maxSize := by
        rw [StreamBuf.size, StreamBuf.insert_data open_, List.length_append, List.length_take,
          List.length_drop, ← StreamBuf.size, StreamBuf.insert, StreamBuf.commit_maxSize]
        omega
      obtain ⟨turns, e, member, unsafe_⟩ := ih good' behind room_left room_left'
      refine ⟨turns + reads, e, ?_, unsafe_⟩
      rw [run]
      exact List.mem_append_right _ member

end ServerLib.Web
