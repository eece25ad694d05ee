import ServerLib.Web.ChunkedStream

/-!
# Chunks as they are framed

The first line feed of a size line is that of its `\r\n`, and what the reader goes on with behind
the chunk is the next size line. Chunk by chunk the reader moves the data into its second buffer;
the last chunk of size 0 puts it back into the first one. A framed chunk has only digits in
its size line. In general more may follow them there, and a trailer may follow the last chunk.
-/
namespace ServerLib.Web

open Network (Bytes)
open Occurrence (LeftmostAt)

/-- A chunk with the digits that announce its size. -/
structure FramedChunk where
  digits : Bytes
  data : Bytes
  isNumeral : IsNumeral 16 digits
  announces : numeral 16 digits = data.length
  nonempty : data ≠ []
  allocates : data.length ≤ ptrdiffMax

def FramedChunk.bytes (c : FramedChunk) : Bytes := c.digits ++ crlf ++ c.data ++ crlf

/-- The chunks on the wire, with the empty chunk at the end. -/
def framed : List FramedChunk → Bytes
  | [] => 48 :: crlf ++ crlf
  | c :: cs => c.bytes ++ framed cs

/-- What the chunks carry. -/
def carried (cs : List FramedChunk) : Bytes := (cs.map FramedChunk.data).flatten

/-- A chunk with its size line, in which more than the size may stand. -/
structure SentChunk where
  line : Bytes
  data : Bytes
  clean : 10 ∉ line
  announces : stoul 16 line = .ok data.length
  nonempty : data ≠ []
  allocates : data.length ≤ ptrdiffMax

def SentChunk.bytes (c : SentChunk) : Bytes := c.line ++ crlf ++ c.data ++ crlf

/-- The line of size 0 behind the chunks, and the trailer, which no code knows of. -/
structure LastChunk where
  line : Bytes
  trailer : Bytes
  clean : 10 ∉ line
  announces : stoul 16 line = .ok 0

def LastChunk.bytes (l : LastChunk) : Bytes := l.line ++ crlf ++ (l.trailer ++ crlf)

/-- Chunks in front of the last one. -/
def LastChunk.behind (l : LastChunk) : List SentChunk → Bytes
  | [] => l.bytes
  | c :: cs => c.bytes ++ l.behind cs

def contentOf (cs : List SentChunk) : Bytes := (cs.map SentChunk.data).flatten

/-! ### Size lines -/

/-- A line feed that is not in the line is the one of its `\r\n`. -/
theorem leftmostAt_crlf {line : Bytes} (clean : 10 ∉ line) (rest : Bytes) :
    LeftmostAt crlf (line ++ crlf ++ rest) line.length := by
  constructor
  · rw [List.append_assoc, List.drop_left]
    exact List.prefix_append _ _
  · intro m below occurs
    rw [List.append_assoc, List.drop_append_of_le_length (Nat.le_of_lt below),
      List.drop_eq_getElem_cons below, crlf, List.cons_append, List.cons_prefix_cons] at occurs
    -- the line feed would be in the line, or where its `\r` is
    cases later : line.drop (m + 1) with
    | nil =>
      rw [later] at occurs
      exact absurd (List.cons_prefix_cons.mp occurs.2).1 (by decide)
    | cons b tail =>
      rw [later] at occurs
      have member : b ∈ line.drop (m + 1) := later ▸ List.mem_cons_self
      rw [← (List.cons_prefix_cons.mp occurs.2).1] at member
      exact clean (List.mem_of_mem_drop member)

/-- A size line in front of its chunk. -/
structure SizeLine (stream digits rest : Bytes) (length : Nat) : Prop where
  whole : stream = (digits ++ [13]) ++ 10 :: rest
  occurs : LeftmostAt crlf stream digits.length
  first : 10 ∉ digits ++ [13]
  size : stoul 16 (digits ++ [13]).dropLast = .ok length

theorem sizeLine_of_clean {line : Bytes} (clean : 10 ∉ line) {length : Nat}
    (size : stoul 16 line = .ok length) (rest : Bytes) :
    SizeLine (line ++ crlf ++ rest) line rest length := by
  refine ⟨by simp [crlf], leftmostAt_crlf clean rest, by simp [clean], ?_⟩
  rw [List.dropLast_concat]
  exact size

theorem LastChunk.sizeLine (l : LastChunk) :
    SizeLine (l.behind []) l.line (l.trailer ++ crlf) 0 :=
  sizeLine_of_clean l.clean l.announces _

theorem SentChunk.sizeLine (c : SentChunk) (l : LastChunk) (cs : List SentChunk) :
    SizeLine (l.behind (c :: cs)) c.line (c.data ++ crlf ++ l.behind cs) c.data.length := by
  have line := sizeLine_of_clean c.clean c.announces (c.data ++ crlf ++ l.behind cs)
  simpa only [LastChunk.behind, SentChunk.bytes, List.append_assoc] using line

/-! ### Framed chunks -/

/-- A framed chunk has nothing but digits in its size line. -/
def FramedChunk.sent (c : FramedChunk) : SentChunk where
  line := c.digits
  data := c.data
  clean member := (digit_plain (by decide) (c.isNumeral.2 _ member)).2.2.2.2.2.2 rfl
  announces := by
    rw [← c.announces]
    apply stoul_numeral (by decide) c.isNumeral
    rw [c.announces]
    exact Nat.lt_of_le_of_lt c.allocates (by decide)
  nonempty := c.nonempty
  allocates := c.allocates

def plainLast : LastChunk where
  line := [48]
  trailer := []
  clean := by decide
  announces := rfl

theorem framed_eq (cs : List FramedChunk) :
    framed cs = plainLast.behind (cs.map FramedChunk.sent) := by
  induction cs with
  | nil => rfl
  | cons c cs ih =>
    rw [framed, ih]
    rfl

theorem carried_eq (cs : List FramedChunk) : carried cs = contentOf (cs.map FramedChunk.sent) := by
  rw [carried, contentOf, List.map_map]
  rfl

/-- A stream whose size line is in order has its hazards behind the chunk. -/
theorem SizeLine.not_hazard {stream digits rest : Bytes} {length : Nat}
    (line : SizeLine stream digits rest length) (small : length ≤ ptrdiffMax)
    (later : 0 < length → ¬ Hazard (rest.drop (length + 2))) : ¬ Hazard stream := by
  have below : length + 2 < sizeMax := Nat.lt_of_le_of_lt (Nat.add_le_add_right small 2) (by decide)
  have whole := line.whole
  -- the line of a hazard is the size line, which is not empty and has a small size
  intro hazard
  cases hazard with
  | empty _ =>
    obtain ⟨none_, -⟩ := split_unique (by simp) line.first (show [] ++ 10 :: _ = _ from whole)
    simp at none_
  | wraps first _ size big =>
    obtain ⟨rfl, -⟩ := split_unique first line.first whole
    rw [line.size] at size
    cases size
    omega
  | behind first _ size positive _ _ _ hazard =>
    obtain ⟨rfl, rfl⟩ := split_unique first line.first whole
    rw [line.size] at size
    cases size
    exact later positive hazard

theorem drop_chunk (data rest : Bytes) : (data ++ crlf ++ rest).drop (data.length + 2) = rest := by
  rw [List.append_assoc, List.drop_length_add_append]
  rfl

theorem not_hazard_behind (l : LastChunk) (cs : List SentChunk) : ¬ Hazard (l.behind cs) := by
  induction cs with
  | nil => exact l.sizeLine.not_hazard (by decide) fun positive => absurd positive (by decide)
  | cons c cs ih =>
    refine (c.sizeLine l cs).not_hazard c.allocates fun _ => ?_
    rwa [drop_chunk]

theorem not_hazard_framed (cs : List FramedChunk) : ¬ Hazard (framed cs) := by
  rw [framed_eq]
  exact not_hazard_behind _ _

/-! ### Reading chunks -/

/-- The lines and the chunks fit into a buffer of this size one by one. -/
def PassOneByOne (limit : Nat) (l : LastChunk) (cs : List SentChunk) : Prop :=
  l.line.length + 2 < limit ∧ ∀ c ∈ cs, c.line.length + 2 < limit ∧ c.data.length + 2 < limit

theorem length_behind_cons (l : LastChunk) (c : SentChunk) (cs : List SentChunk) :
    (l.behind (c :: cs)).length =
      c.line.length + 2 + (c.data.length + 2) + (l.behind cs).length := by
  simp only [LastChunk.behind, SentChunk.bytes, crlf, List.length_append, List.length_cons,
    List.length_nil]
  omega

theorem length_contentOf_cons (c : SentChunk) (cs : List SentChunk) :
    (contentOf (c :: cs)).length = c.data.length + (contentOf cs).length := by
  rw [contentOf, contentOf, List.map_cons, List.flatten_cons, List.length_append]

/-- The buffer gets back what the chunks have carried, behind what is left in it. -/
theorem putBack_data (buf chunks : StreamBuf) :
    (if 0 < chunks.size then buf.insert chunks.data else buf).data =
      (buf.data ++ chunks.data).take buf.maxSize := by
  split
  · rfl
  next nothing =>
    have empty : chunks.data = [] :=
      List.eq_nil_of_length_eq_zero (by simpa [StreamBuf.size] using nothing)
    rw [empty, List.append_nil, List.take_of_length_le buf.fits]

/-- The reader has finished with that content, behind what it has of the trailer but the two bytes
that it takes for the `\r\n` of the last chunk. -/
def FinishedWith (l : LastChunk) (limit : Nat) (content : Bytes) (r : Run ChunkStep) : Prop :=
  ∃ b surplus, r.step = .finished b ∧
    surplus ++ r.socket.pieces.flatten = (l.trailer ++ crlf).drop 2 ∧
    b.data = (surplus ++ content).take limit

/-- The reader fills its first buffer, or finishes with what was carried before. -/
theorem last_cases (l : LastChunk) {buf : StreamBuf} (chunks : StreamBuf) {s : Socket}
    (good : buf.good) (is : pending buf s = l.behind []) {turns : Nat} (enough : 2 ≤ turns) :
    ((runTurns chunkTurn turns (.readLine buf chunks) s).step = .tooLarge ∧
      buf.maxSize ≤ (l.behind []).length ∧
      ∃ b, b.full = true ∧
        .buffered b ∈ (runTurns chunkTurn turns (.readLine buf chunks) s).events) ∨
    (FinishedWith l buf.maxSize chunks.data (runTurns chunkTurn turns (.readLine buf chunks) s) ∧
      l.line.length + 2 < buf.maxSize) := by
  have line := l.sizeLine
  have complete : l.line.length + 2 + (0 + 2) ≤ (pending buf s).length := by
    rw [is, LastChunk.behind, LastChunk.bytes, crlf]
    simp only [List.length_append, List.length_cons, List.length_nil]
    omega
  rw [← is] at line
  obtain ⟨reads, few, before, t, s', run, cases⟩ :=
    enters_chunk good chunks line.occurs line.whole line.first line.size (by decide) complete
  obtain ⟨left, rfl⟩ := Nat.exists_eq_add_of_le' (Nat.le_trans few enough)
  rw [run left]
  rcases cases with ⟨b, member, full, tight, rfl⟩ | ⟨b, good', same, size, short, -, rest, rfl⟩
  · left
    rw [runTurns_of_none rfl]
    exact ⟨rfl, is ▸ tight, b, full, List.mem_append_left _ member⟩
  · right
    rw [readChunk_zero good' size, runTurns_of_none rfl]
    refine ⟨⟨_, (b.consume 2).data, rfl, ?_, ?_⟩, short⟩
    · rw [← rest]
      exact pending_consume size s'
    · rw [putBack_data, StreamBuf.consume_maxSize, same]

/-- The reader fills one of its buffers, or moves the data of a chunk into its second one. -/
theorem chunk_cases (c : SentChunk) {l : LastChunk} {cs : List SentChunk} {buf : StreamBuf}
    (chunks : StreamBuf) {s : Socket} (good : buf.good)
    (is : pending buf s = l.behind (c :: cs)) :
    ∃ reads ≤ 2,
      (∃ b, b.full = true ∧ (buf.maxSize ≤ (l.behind (c :: cs)).length ∨
          chunks.maxSize ≤ chunks.size + c.data.length) ∧
        ∀ turns, .buffered b ∈
            (runTurns chunkTurn (turns + reads) (.readLine buf chunks) s).events ∧
          (runTurns chunkTurn (turns + reads) (.readLine buf chunks) s).step = .tooLarge) ∨
      ∃ (b : StreamBuf) (s' : Socket) (before : List Event), b.good ∧ b.maxSize = buf.maxSize ∧
        c.line.length + 2 < buf.maxSize ∧ c.data.length + 2 < buf.maxSize ∧
        pending b s' = l.behind cs ∧ (chunks.insert c.data).data = chunks.data ++ c.data ∧
        chunks.size + c.data.length < chunks.maxSize ∧
        ∀ turns, runTurns chunkTurn (turns + reads) (.readLine buf chunks) s =
          let next := runTurns chunkTurn turns (.readLine b (chunks.insert c.data)) s'
          { next with events := before ++ next.events } := by
  have line := c.sizeLine l cs
  have positive : 0 < c.data.length := List.length_pos_iff.mpr c.nonempty
  have small : c.data.length + 2 < sizeMax :=
    Nat.lt_of_le_of_lt (Nat.add_le_add_right c.allocates 2) (by decide)
  -- the size line and the whole chunk are in front of the reader
  have complete : c.line.length + 2 + (c.data.length + 2) ≤ (pending buf s).length := by
    rw [is, length_behind_cons]
    exact Nat.le_add_right _ _
  rw [← is] at line ⊢
  obtain ⟨reads, few, passes⟩ := passes_chunk good chunks line.occurs line.whole line.first
    line.size positive small c.allocates complete
  refine ⟨reads, few, passes.imp_right ?_⟩
  rintro ⟨b, s', before, good', same, short, short', behind, open_, run⟩
  -- what is taken is the data, and what is left begins with the next size line
  have data : (c.data ++ crlf ++ l.behind cs).take c.data.length = c.data := by
    rw [List.append_assoc, List.take_left]
  rw [data] at open_ run
  rw [drop_chunk] at behind
  have whole := StreamBuf.insert_data open_
  have room : (chunks.insert c.data).size < chunks.maxSize :=
    Nat.lt_of_le_of_ne (chunks.insert c.data).size_le (beq_eq_false_iff_ne.mp open_)
  rw [StreamBuf.size, whole, List.length_append] at room
  exact ⟨b, s', before, good', same, short, short', behind, whole, room, run⟩

/-- The reader fills one of its buffers, or finishes with what the chunks carry, behind what was
carried before. It cannot fill buffers with room for the stream, nor finish with too small ones. -/
theorem behind_cases (l : LastChunk) (cs : List SentChunk) {buf chunks : StreamBuf} {s : Socket}
    (good : buf.good) (is : pending buf s = l.behind cs) (limit : chunks.maxSize ≤ buf.maxSize)
    {turns : Nat} (enough : 2 * (cs.length + 1) ≤ turns) :
    ((runTurns chunkTurn turns (.readLine buf chunks) s).step = .tooLarge ∧
      chunks.maxSize ≤ chunks.size + (l.behind cs).length ∧
      ∃ b, b.full = true ∧
        .buffered b ∈ (runTurns chunkTurn turns (.readLine buf chunks) s).events) ∨
    (FinishedWith l buf.maxSize (chunks.data ++ contentOf cs)
        (runTurns chunkTurn turns (.readLine buf chunks) s) ∧
      PassOneByOne buf.maxSize l cs ∧ chunks.size + (contentOf cs).length ≤ chunks.maxSize ∧
      (chunks.size < chunks.maxSize →
        chunks.size + (contentOf cs).length < chunks.maxSize)) := by
  induction cs generalizing buf chunks s turns with
  | nil =>
    have nothing : chunks.data ++ contentOf [] = chunks.data := List.append_nil _
    rcases last_cases l chunks good is enough with ⟨refused, tight, filled⟩ | ⟨finished, short⟩
    · exact .inl ⟨refused, Nat.le_trans limit (Nat.le_trans tight (Nat.le_add_left _ _)), filled⟩
    · rw [nothing]
      exact .inr ⟨finished, ⟨short, fun c member => by cases member⟩, chunks.size_le,
        fun open_ => open_⟩
  | cons c cs ih =>
    have longer := length_behind_cons l c cs
    have more := length_contentOf_cons c cs
    obtain ⟨reads, few, passes⟩ := chunk_cases c chunks good is
    obtain ⟨left, rfl⟩ :=
      Nat.exists_eq_add_of_le' (show reads ≤ turns by rw [List.length_cons] at enough; omega)
    rcases passes with ⟨b, full, tight, filled⟩ |
      ⟨b, s', before, good', same, short, short', behind, whole, room, run⟩
    · left
      refine ⟨(filled left).2, ?_, b, full, (filled left).1⟩
      omega
    · -- the chunk is passed, and the rest is read with what is left of the room
      have size : (chunks.insert c.data).size = chunks.size + c.data.length := by
        rw [StreamBuf.size, whole, List.length_append, StreamBuf.size]
      have limit' : (chunks.insert c.data).maxSize ≤ b.maxSize := by rwa [same]
      have enough' : 2 * (cs.length + 1) ≤ left := by
        rw [List.length_cons] at enough
        omega
      rw [run left]
      rcases ih good' behind limit' enough' with
        ⟨refused, tight, b', full, member⟩ |
        ⟨⟨b', surplus, finished, left_over, data⟩, ⟨last, each⟩, -, kept⟩
      · left
        refine ⟨refused, ?_, b', full, List.mem_append_right _ member⟩
        rw [size, StreamBuf.insert, StreamBuf.commit_maxSize] at tight
        omega
      · right
        rw [same] at last each
        rw [size, StreamBuf.insert, StreamBuf.commit_maxSize] at kept
        have fits : chunks.size + (contentOf (c :: cs)).length < chunks.maxSize := by
          have below := kept room
          omega
        refine ⟨⟨b', surplus, finished, left_over, ?_⟩, ⟨last, ?_⟩, Nat.le_of_lt fits,
          fun _ => fits⟩
        · rw [data, same, whole, contentOf, contentOf, List.map_cons, List.flatten_cons,
            List.append_assoc chunks.data]
        · rintro d (_ | ⟨_, member⟩)
          · exact ⟨short, short'⟩
          · exact each d member

/-- Without a trailer nothing is left in front of the content. -/
theorem FinishedWith.content {l : LastChunk} (alone : l.trailer = []) {limit : Nat}
    {content : Bytes} (room : content.length ≤ limit) {r : Run ChunkStep}
    (finished : FinishedWith l limit content r) :
    ∃ b, r.step = .finished b ∧ b.data = content := by
  obtain ⟨b, surplus, finished, left, data⟩ := finished
  rw [alone] at left
  obtain ⟨rfl, -⟩ := List.append_eq_nil_iff.mp (show surplus ++ _ = [] from left)
  exact ⟨b, finished, by rw [data, List.nil_append, List.take_of_length_le room]⟩

/-- The reader finishes with what framed chunks carry, behind what was carried before. -/
theorem run_framed (cs : List FramedChunk) {buf chunks : StreamBuf} {s : Socket}
    (good : buf.good) (is : pending buf s = framed cs) (limit : chunks.maxSize ≤ buf.maxSize)
    {turns : Nat} (enough : 2 * (cs.length + 1) ≤ turns)
    (below : BelowMax (runTurns chunkTurn turns (.readLine buf chunks) s).events) :
    ∃ b, (runTurns chunkTurn turns (.readLine buf chunks) s).step = .finished b ∧
      b.data = chunks.data ++ carried cs := by
  rw [framed_eq] at is
  rw [carried_eq]
  have enough' : 2 * ((cs.map FramedChunk.sent).length + 1) ≤ turns := by
    rwa [List.length_map]
  rcases behind_cases plainLast _ good is limit enough' with
    ⟨-, -, b, full, member⟩ | ⟨finished, -, room, -⟩
  · rw [below b member] at full
    cases full
  · apply finished.content rfl
    rw [List.length_append]
    exact Nat.le_trans room limit

end ServerLib.Web
