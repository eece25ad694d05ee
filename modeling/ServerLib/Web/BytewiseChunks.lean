import ServerLib.Web.ChunkedFrames

/-!
# Chunks that come byte by byte

Of a stream that comes byte by byte the reader never has more in its buffer than it has asked
for: one size line, or one chunk with its `\r\n`. So it needs no more room than for the longest
of them.
-/
namespace ServerLib.Web

open Network (Bytes)
open Segmented (EndsEverywhere)

variable {buf chunks : StreamBuf} {s : Socket}

/-- A size line is read alone, and the whole chunk is missing behind it. -/
theorem line_bytewise (good : buf.good) (fresh : buf.data = [])
    (everywhere : EndsEverywhere s.pieces) {digits rest : Bytes} {length : Nat}
    (line : SizeLine s.pieces.flatten digits rest length) (small : length ≤ ptrdiffMax)
    (room : digits.length + 2 < buf.maxSize) (chunks : StreamBuf) :
    ∃ t b s', chunkTurn (.readLine buf chunks) s = some (t, s') ∧
      t.step = .readData (length + 2) b chunks length ∧ b.good ∧ b.data = [] ∧
      b.maxSize = buf.maxSize ∧ s'.pieces.flatten = rest ∧ EndsEverywhere s'.pieces := by
  obtain ⟨r, completed, carries, clean, offset, data, left⟩ :=
    asyncReadUntil_bytewise fresh everywhere line.occurs room
  have held : digits.length + crlf.length = (digits ++ [13]).length + 1 := by simp [crlf]
  have begins : r.buf.data = (digits ++ [13]) ++ 10 :: [] := by
    rw [data, held, line.whole, List.take_length_add_append]
    rfl
  have within : digits.length + crlf.length ≤ s.pieces.flatten.length := line.occurs.bound
  have open_ : r.buf.full = false := by
    refine beq_eq_false_iff_ne.mpr (Nat.ne_of_lt ?_)
    rw [StreamBuf.size, data, List.length_take_of_le within, carries.maxSize]
    exact room
  have good' : r.buf.good := carries.good.trans good
  -- nothing is left in the buffer
  have empty : (r.buf.consume ((digits ++ [13]).length + 1)).data = [] := by
    rw [StreamBuf.consume_data, begins]
    apply List.drop_eq_nil_of_le
    simp
  have size : (r.buf.consume ((digits ++ [13]).length + 1)).size = 0 := by
    rw [StreamBuf.size, empty]
    rfl
  have ahead : digits.length + 1 - (digits ++ [13]).length = 0 := by simp
  have fits : sizeAdd 2 length = length + 2 := by
    rw [Nat.add_comm length 2]
    apply sizeAdd_of_lt
    unfold ptrdiffMax at small
    unfold sizeMax
    omega
  have handled := afterLine_found good' clean open_ offset begins line.first
    (Nat.le_of_eq held.symm) chunks
  rw [if_neg (by simp), line.size] at handled
  refine ⟨afterLine chunks r, r.buf.consume ((digits ++ [13]).length + 1), r.socket,
    by simp only [chunkTurn, completed, Option.map_some], ?_, good', empty, carries.maxSize, ?_, ?_⟩
  · rw [handled]
    simp only [Turn.after, ahead]
    rw [afterSize_eq (Nat.zero_le _), size, fits, if_pos (by omega)]
    rfl
  · rw [left, Segmented.flatten_dropItems, held, line.whole, List.drop_length_add_append]
    rfl
  · rw [left]
    exact everywhere.dropItems within

/-- A chunk is read alone, with its `\r\n`. -/
theorem data_bytewise (good : buf.good) (fresh : buf.data = []) {length : Nat}
    (brought : length + 2 ≤ s.pieces.flatten.length) (room : length + 2 < buf.maxSize)
    (chunks : StreamBuf) :
    ∃ t b s', chunkTurn (.readData (length + 2) buf chunks length) s = some (t, s') ∧
      t.step = (readChunk b chunks length).step ∧ b.good ∧ b.maxSize = buf.maxSize ∧
      b.data = s.pieces.flatten.take (length + 2) ∧
      s'.pieces = Segmented.dropItems (length + 2) s.pieces := by
  obtain ⟨r, completed⟩ := asyncReadExactly_of_le (b := buf) brought
  obtain ⟨carries, cases⟩ := asyncReadExactly_some completed
  have empty : buf.size = 0 := by rw [StreamBuf.size, fresh]; rfl
  cases cases with
  | ended _ _ _ short _ => exact absurd brought (Nat.not_le.mpr short)
  | overflow _ _ tight => omega
  | taken clean _ data left =>
    rw [fresh, List.nil_append] at data
    have open_ : r.buf.full = false := by
      refine beq_eq_false_iff_ne.mpr (Nat.ne_of_lt ?_)
      rw [StreamBuf.size, data, List.length_take_of_le brought, carries.maxSize]
      exact room
    refine ⟨afterData chunks length r, r.buf, r.socket,
      by simp only [chunkTurn, completed, Option.map_some], ?_, carries.good.trans good,
      carries.maxSize, data, left⟩
    simp only [afterData, clean, open_, Bool.false_eq_true, if_false]
    rfl

/-- With two reads the reader has a chunk in its buffer, and nothing else. -/
theorem chunk_bytewise (good : buf.good) (fresh : buf.data = [])
    (everywhere : EndsEverywhere s.pieces) {digits rest : Bytes} {length : Nat}
    (line : SizeLine s.pieces.flatten digits rest length) (small : length ≤ ptrdiffMax)
    (complete : length + 2 ≤ rest.length) (room : digits.length + 2 < buf.maxSize)
    (room' : length + 2 < buf.maxSize) (chunks : StreamBuf) :
    ∃ b s', b.good ∧ b.maxSize = buf.maxSize ∧ b.data = rest.take (length + 2) ∧
      s'.pieces.flatten = rest.drop (length + 2) ∧ EndsEverywhere s'.pieces ∧
      ∀ turns, (runTurns chunkTurn (turns + 2) (.readLine buf chunks) s).step =
        (runTurns chunkTurn turns (readChunk b chunks length).step s').step := by
  obtain ⟨t, b, s', turned, waits, good', fresh', same, behind, everywhere'⟩ :=
    line_bytewise good fresh everywhere line small room chunks
  rw [← behind] at complete
  obtain ⟨t', b', s'', turned', enters, good'', same', data, left⟩ :=
    data_bytewise good' fresh' complete (same ▸ room') chunks
  refine ⟨b', s'', good'', same'.trans same, by rw [data, behind], ?_, ?_, fun turns => ?_⟩
  · rw [left, Segmented.flatten_dropItems, behind]
  · rw [left]
    exact everywhere'.dropItems complete
  · rw [runTurns_of_turn turned, waits, runTurns_of_turn turned', enters]

/-- The last chunk is read alone, and what follows of the trailer is not read. -/
theorem last_bytewise (l : LastChunk) (good : buf.good) (fresh : buf.data = [])
    (everywhere : EndsEverywhere s.pieces) (is : s.pieces.flatten = l.behind [])
    (limit : chunks.maxSize ≤ buf.maxSize) (short : l.line.length + 2 < buf.maxSize) :
    ∃ b, (runTurns chunkTurn 2 (.readLine buf chunks) s).step = .finished b ∧
      b.data = chunks.data := by
  have line := l.sizeLine
  have complete : 0 + 2 ≤ (l.trailer ++ crlf).length := by
    rw [List.length_append]
    exact Nat.le_add_left _ _
  have room : 0 + 2 < buf.maxSize := Nat.lt_of_le_of_lt (Nat.le_add_left _ _) short
  rw [← is] at line
  obtain ⟨b, s', good', same, data, -, -, run⟩ := chunk_bytewise good fresh everywhere line
    (by decide) complete short room chunks
  have enough : 2 ≤ b.size := by
    rw [StreamBuf.size, data, List.length_take_of_le complete]
  -- nothing is buffered behind the two bytes that are taken for the `\r\n` of the chunk
  have consumed : (b.consume 2).data = [] := by
    rw [StreamBuf.consume_data, data, List.drop_take]
    rfl
  have finished := run 0
  rw [readChunk_zero good' enough] at finished
  refine ⟨_, finished, ?_⟩
  rw [putBack_data, consumed, StreamBuf.consume_maxSize, same, List.nil_append,
    List.take_of_length_le (Nat.le_trans chunks.fits limit)]

/-- A chunk that comes byte by byte is moved into the second buffer, and leaves nothing in the
first one. -/
theorem moved_bytewise (c : SentChunk) {l : LastChunk} {cs : List SentChunk} (good : buf.good)
    (fresh : buf.data = []) (everywhere : EndsEverywhere s.pieces)
    (is : s.pieces.flatten = l.behind (c :: cs)) (short : c.line.length + 2 < buf.maxSize)
    (short' : c.data.length + 2 < buf.maxSize)
    (room : chunks.size + c.data.length < chunks.maxSize) :
    ∃ (b : StreamBuf) (s' : Socket), b.good ∧ b.data = [] ∧ b.maxSize = buf.maxSize ∧
      s'.pieces.flatten = l.behind cs ∧ EndsEverywhere s'.pieces ∧
      (chunks.insert c.data).data = chunks.data ++ c.data ∧
      ∀ turns, (runTurns chunkTurn (turns + 2) (.readLine buf chunks) s).step =
        (runTurns chunkTurn turns (.readLine b (chunks.insert c.data)) s').step := by
  have line := c.sizeLine l cs
  rw [← is] at line
  have positive : 0 < c.data.length := List.length_pos_iff.mpr c.nonempty
  have complete : c.data.length + 2 ≤ (c.data ++ crlf ++ l.behind cs).length := by
    simp only [crlf, List.length_append, List.length_cons, List.length_nil]
    omega
  obtain ⟨b, s', good', same, data, behind, everywhere', run⟩ := chunk_bytewise good fresh
    everywhere line c.allocates complete short short' chunks
  rw [drop_chunk] at behind
  have size : b.size = c.data.length + 2 := by
    rw [StreamBuf.size, data, List.length_take_of_le complete]
  have taken : b.data.take c.data.length = c.data := by
    rw [data, List.take_take, Nat.min_eq_left (Nat.le_add_right _ 2), List.append_assoc,
      List.take_left]
  have empty : (b.consume (c.data.length + 2)).data = [] := by
    rw [StreamBuf.consume_data]
    exact List.drop_eq_nil_of_le (Nat.le_of_eq size)
  obtain ⟨whole, open_⟩ := StreamBuf.insert_of_room room
  have entered := readChunk_of_pos good' (Nat.le_of_eq size.symm) positive c.allocates chunks
  rw [taken, open_] at entered
  refine ⟨b.consume (c.data.length + 2), s', good', empty, same, behind, everywhere', whole,
    fun turns => ?_⟩
  rw [run, entered]
  rfl

/-- Byte by byte the reader finishes with what the chunks carry, if they fit into its buffers. -/
theorem behind_bytewise (l : LastChunk) (cs : List SentChunk) (good : buf.good)
    (fresh : buf.data = []) (everywhere : EndsEverywhere s.pieces)
    (is : s.pieces.flatten = l.behind cs) (limit : chunks.maxSize ≤ buf.maxSize)
    (pass : PassOneByOne buf.maxSize l cs)
    (room : chunks.size + (contentOf cs).length < chunks.maxSize) :
    ∃ b, (runTurns chunkTurn (2 * (cs.length + 1)) (.readLine buf chunks) s).step =
        .finished b ∧
      b.data = chunks.data ++ contentOf cs := by
  induction cs generalizing buf chunks s with
  | nil =>
    obtain ⟨b, finished, data⟩ := last_bytewise l good fresh everywhere is limit pass.1
    exact ⟨b, finished, by rw [data, contentOf, List.map_nil, List.flatten_nil, List.append_nil]⟩
  | cons c cs ih =>
    obtain ⟨short, short'⟩ := pass.2 c List.mem_cons_self
    rw [length_contentOf_cons, ← Nat.add_assoc] at room
    obtain ⟨b, s', good', fresh', same, behind, everywhere', whole, run⟩ :=
      moved_bytewise c good fresh everywhere is short short'
        (Nat.lt_of_le_of_lt (Nat.le_add_right _ _) room)
    have size : (chunks.insert c.data).size = chunks.size + c.data.length := by
      rw [StreamBuf.size, whole, List.length_append, StreamBuf.size]
    have limit' : (chunks.insert c.data).maxSize ≤ b.maxSize := by rwa [same]
    have pass' : PassOneByOne b.maxSize l cs := by
      rw [same]
      exact ⟨pass.1, fun d member => pass.2 d (List.mem_cons_of_mem c member)⟩
    have room' : (chunks.insert c.data).size + (contentOf cs).length <
        (chunks.insert c.data).maxSize := by
      rwa [size, StreamBuf.insert, StreamBuf.commit_maxSize]
    obtain ⟨b', finished, data⟩ := ih good' fresh' everywhere' behind limit' pass' room'
    refine ⟨b', ?_, ?_⟩
    · rw [List.length_cons, show 2 * (cs.length + 1 + 1) = 2 * (cs.length + 1) + 2 by omega, run]
      exact finished
    · rw [data, whole, contentOf, contentOf, List.map_cons, List.flatten_cons, List.append_assoc]

end ServerLib.Web
