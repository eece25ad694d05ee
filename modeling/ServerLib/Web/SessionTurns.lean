import ServerLib.Web.ChunkedTransfer
import ServerLib.Web.HeaderParsing

/-!
# What a session's read handlers come to

On whatever a server sends a session gets on: each completion of a read is followed by another
read or by the session's callback, and the number of reads that can follow is bounded by the
sizes of the buffers. Three things break this, and only these: a `Content-Length` that `stoull`
does not accept, an empty size line, and a chunk of a size that cannot be allocated. They are
collected in `Breaks`; a header that has been found is always parsed to its end.
-/
namespace ServerLib.Web

open Network (Bytes)

/-! ### Parsing a header that has been found -/

/-- Behind the delimiter that `async_read_until` has found the parser neither throws nor loops. -/
theorem parseResponse_of_headerEnd {stream : StreamBuf} (good : stream.good)
    (ended : headerEnd <:+: stream.data) (message : ResponseMessage) :
    ∃ parsed message' stream', parseResponse stream message = .ok (parsed, message', stream') ∧
      stream'.good := by
  obtain ⟨line, rest, split, clean, behind⟩ := exists_first_line ended
  have begins : stream.data = (line ++ 10 :: rest) ++ [] := by rw [split, List.append_nil]
  obtain ⟨read, begins'⟩ := getline_append clean good begins []
  have good' : (stream.consume (line.length + 1)).good := good
  obtain ⟨header, k, -, parses⟩ := exists_parsed_header behind
  have parsed := parses _ [] good' begins'
  have good'' : ((stream.consume (line.length + 1)).consume k).good := good'
  simp only [parseResponse, read]
  cases blank : line.idxOf? 32 with
  | none => exact ⟨false, _, _, rfl, good'⟩
  | some versionEnd =>
    simp only
    split
    next long =>
      rw [substr_of_le (Nat.le_of_lt long)]
      simp only [Except.bind, bind]
      split
      next inside =>
        rw [substr_of_le (Nat.le_of_lt inside)]
        simp only [parsed]
        exact ⟨true, _, _, rfl, good''⟩
      next => exact ⟨false, _, _, rfl, good'⟩
    next => exact ⟨false, _, _, rfl, good'⟩

/-! ### The chunked reader -/

def ChunkStep.isBroken : ChunkStep → Bool
  | .broken _ => true
  | _ => false

/-- Another read has been started. -/
def ChunkStep.isRead : ChunkStep → Bool
  | .readLine _ _ | .readData _ _ _ _ => true
  | _ => false

/-- The read completes with an empty size line, or with a chunk that has come and cannot be
allocated. -/
def ChunkStep.Breaks : ChunkStep → Socket → Prop
  | .readLine buf _, s =>
    ∃ r, asyncReadUntil crlf buf s = some r ∧ r.ec = none ∧ r.buf.full = false ∧
      let (line, rest) := r.buf.getline []
      line = [] ∨ ∃ length, stoul 16 line.dropLast = .ok length ∧ ptrdiffMax < length ∧
        sizeAdd 2 length ≤ sizeSub rest.size (sizeSub r.bytesTransferred (line.length + 1))
  | .readData missing buf _ length, s =>
    ptrdiffMax < length ∧
      ∃ r, asyncReadExactly missing buf s = some r ∧ r.ec = none ∧ r.buf.full = false
  | _, _ => False

theorem readChunk_isBroken (buf chunks : StreamBuf) (length : Nat) :
    (readChunk buf chunks length).step.isBroken = true ↔ ptrdiffMax < length := by
  unfold readChunk
  split
  · split
    next huge => simp [Turn.after, ChunkStep.isBroken, huge]
    next small =>
      simp only [Turn.after]
      split <;> simp [ChunkStep.isBroken, small]
  next empty =>
    have small : ¬ ptrdiffMax < length := by omega
    simp [Turn.after, ChunkStep.isBroken, small]

theorem afterSize_isBroken (buf chunks : StreamBuf) (ahead length : Nat) :
    (afterSize buf chunks ahead length).step.isBroken = true ↔
      ptrdiffMax < length ∧ sizeAdd 2 length ≤ sizeSub buf.size ahead := by
  simp only [afterSize, Turn.after]
  split
  next more => simp [ChunkStep.isBroken, Nat.not_le.mpr more]
  next enough => rw [readChunk_isBroken, and_iff_left (Nat.not_lt.mp enough)]

theorem afterLine_isBroken (chunks : StreamBuf) (r : ReadResult) :
    (afterLine chunks r).step.isBroken = true ↔
      r.ec = none ∧ r.buf.full = false ∧
        let (line, rest) := r.buf.getline []
        line = [] ∨ ∃ length, stoul 16 line.dropLast = .ok length ∧ ptrdiffMax < length ∧
          sizeAdd 2 length ≤ sizeSub rest.size (sizeSub r.bytesTransferred (line.length + 1)) := by
  simp only [afterLine, Turn.after]
  cases failed : r.ec with
  | some code => split <;> simp [ChunkStep.isBroken]
  | none =>
    cases full : r.buf.full with
    | true => simp [ChunkStep.isBroken]
    | false =>
      simp only [Bool.false_eq_true, and_false, if_false, true_and]
      split
      next empty => simp [ChunkStep.isBroken, empty]
      next occupied =>
        rw [or_iff_right occupied]
        cases size : stoul 16 (r.buf.getline []).1.dropLast with
        | error failure => simp [ChunkStep.isBroken]
        | ok length => simp [afterSize_isBroken]

theorem chunkTurn_isBroken {step : ChunkStep} {s s' : Socket} {t : Turn ChunkStep}
    (turned : chunkTurn step s = some (t, s')) : t.step.isBroken = true ↔ step.Breaks s := by
  cases step with
  | readLine buf chunks =>
    obtain ⟨r, completed, same⟩ := Option.map_eq_some_iff.mp turned
    cases same
    rw [afterLine_isBroken]
    simp [ChunkStep.Breaks, completed]
  | readData missing buf chunks length =>
    obtain ⟨r, completed, same⟩ := Option.map_eq_some_iff.mp turned
    cases same
    simp only [afterData, Turn.after, ChunkStep.Breaks, completed]
    cases failed : r.ec with
    | some code => simp [ChunkStep.isBroken, failed]
    | none =>
      cases full : r.buf.full with
      | true => simp [ChunkStep.isBroken, full]
      | false => simp [readChunk_isBroken, full, failed]
  | _ => cases turned

theorem ChunkStep.exists_turn_of_breaks {step : ChunkStep} {s : Socket} (breaks : step.Breaks s) :
    ∃ t s', chunkTurn step s = some (t, s') := by
  cases step with
  | readLine buf chunks =>
    obtain ⟨r, completed, -⟩ := breaks
    refine ⟨afterLine chunks r, r.socket, ?_⟩
    simp only [chunkTurn, completed, Option.map_some]
  | readData missing buf chunks length =>
    obtain ⟨-, r, completed, -⟩ := breaks
    refine ⟨afterData chunks length r, r.socket, ?_⟩
    simp only [chunkTurn, completed, Option.map_some]
  | _ => cases breaks

/-- A read from a socket that fails some day is completed. -/
theorem ChunkStep.turn_of_ending (step : ChunkStep) (reads : step.isRead) {s : Socket}
    {code : ErrorCode} (ending : s.ending = some code) :
    ∃ result, chunkTurn step s = some result := by
  cases step with
  | readLine buf chunks =>
    obtain ⟨r, completed⟩ : ∃ r, asyncReadUntil crlf buf s = some r :=
      asyncReadUntil_of_ending ending
    exact ⟨_, by rw [chunkTurn, completed]; rfl⟩
  | readData missing buf chunks length =>
    obtain ⟨r, completed⟩ := asyncReadExactly_of_ending (n := missing) (b := buf) ending
    exact ⟨_, by rw [chunkTurn, completed]; rfl⟩
  | _ => cases reads

/-- How many reads can follow at most, if no buffer for chunks is larger than `limit`. -/
def ChunkStep.rank (limit : Nat) : ChunkStep → Nat
  | .readLine _ chunks => 2 * (limit - chunks.size) + 2
  | .readData _ _ chunks _ => 2 * (limit - chunks.size) + 1
  | _ => 0

/-- The stream has not come to its end, and a chunk that is read comes with its `\r\n`. -/
def ChunkStep.Steady (limit : Nat) : ChunkStep → Prop
  | .readLine buf chunks => buf.good ∧ chunks.maxSize = limit
  | .readData missing buf chunks length =>
    buf.good ∧ chunks.maxSize = limit ∧ (length ≤ ptrdiffMax → length + 2 ≤ buf.size + missing)
  | _ => True

variable {limit : Nat}

/-- A chunk that is complete makes the buffer for chunks grow, unless it is the last one. -/
theorem steady_readChunk {buf chunks : StreamBuf} (good : buf.good) (same : chunks.maxSize = limit)
    {length : Nat} (enough : length ≤ ptrdiffMax → length + 2 ≤ buf.size) :
    (readChunk buf chunks length).step.Steady limit ∧
      (readChunk buf chunks length).step.rank limit < 2 * (limit - chunks.size) + 1 := by
  by_cases small : length ≤ ptrdiffMax
  · rcases Nat.eq_zero_or_pos length with rfl | positive
    · rw [readChunk_zero good (by have := enough small; omega)]
      exact ⟨trivial, Nat.succ_pos _⟩
    · rw [readChunk_of_pos good (enough small) positive small]
      split
      · exact ⟨trivial, Nat.succ_pos _⟩
      next open_ =>
        -- the buffer for chunks has taken all of the chunk, and stays within its limit
        have grown := StreamBuf.insert_data (Bool.eq_false_iff.mpr open_)
        have size : (chunks.insert (buf.data.take length)).size = chunks.size + length := by
          have inside : length ≤ buf.data.length := by
            have := enough small
            rw [StreamBuf.size] at this
            omega
          rw [StreamBuf.size, grown, List.length_append, List.length_take_of_le inside,
            StreamBuf.size]
        have bound := (chunks.insert (buf.data.take length)).size_le
        rw [StreamBuf.insert, StreamBuf.commit_maxSize, same, ← StreamBuf.insert, size] at bound
        refine ⟨⟨good, same⟩, ?_⟩
        simp only [Turn.after, ChunkStep.rank, size]
        omega
  · have huge : (readChunk buf chunks length).step.isBroken = true :=
      (readChunk_isBroken _ _ _).mpr (Nat.lt_of_not_le small)
    revert huge
    cases (readChunk buf chunks length).step <;>
      simp [ChunkStep.isBroken, ChunkStep.Steady, ChunkStep.rank]

theorem steady_afterLine {buf chunks : StreamBuf} (good : buf.good) (same : chunks.maxSize = limit)
    {s : Socket} {r : ReadResult} (completed : asyncReadUntil crlf buf s = some r) :
    (afterLine chunks r).step.Steady limit ∧
      (afterLine chunks r).step.rank limit < 2 * (limit - chunks.size) + 2 := by
  obtain ⟨carries, cases⟩ := asyncReadUntil_some completed
  have ends : ∀ code, r.ec = some code →
      (afterLine chunks r).step.Steady limit ∧
        (afterLine chunks r).step.rank limit < 2 * (limit - chunks.size) + 2 := by
    intro code failed
    obtain ⟨-, step | step⟩ := afterLine_failed failed chunks <;> rw [step] <;>
      exact ⟨trivial, Nat.succ_pos _⟩
  cases cases with
  | overflow _ failed _ => exact ends _ failed
  | ended code _ failed _ _ => exact ends code failed
  | found n leftmost clean offset _ =>
    have good' : r.buf.good := carries.good.trans good
    cases open_ : r.buf.full with
    | true =>
      rw [afterLine_full (.inl clean) open_]
      exact ⟨trivial, Nat.succ_pos _⟩
    | false =>
      obtain ⟨line, tail, begins, first, inside, bound⟩ := exists_line leftmost
      have left := StreamBuf.size_consume r.buf (line.length + 1)
      rw [afterLine_found good' clean open_ offset begins first inside]
      simp only [Turn.after]
      split
      · exact ⟨trivial, Nat.succ_pos _⟩
      · split
        · exact ⟨trivial, Nat.succ_pos _⟩
        next length size =>
          have ahead : n + 1 - line.length ≤ (r.buf.consume (line.length + 1)).size := by
            rw [left, StreamBuf.size]
            omega
          rw [afterSize_eq ahead]
          simp only [Turn.after]
          -- the sum only wraps for sizes that cannot be allocated
          have fits : length ≤ ptrdiffMax → sizeAdd 2 length = 2 + length := fun small =>
            sizeAdd_of_lt (by unfold ptrdiffMax at small; unfold sizeMax; omega)
          split
          next more =>
            refine ⟨⟨good', same, fun small => ?_⟩, Nat.lt_succ_self _⟩
            have := fits small
            omega
          next enough =>
            have whole : length ≤ ptrdiffMax →
                length + 2 ≤ (r.buf.consume (line.length + 1)).size := fun small => by
              have := fits small
              omega
            have still_good : (r.buf.consume (line.length + 1)).good := good'
            obtain ⟨steady, shorter⟩ := steady_readChunk still_good same whole
            exact ⟨steady, Nat.lt_succ_of_lt shorter⟩

theorem steady_afterData {missing length : Nat} {buf chunks : StreamBuf} {s : Socket}
    (steady : (ChunkStep.readData missing buf chunks length).Steady limit) {r : ReadResult}
    (completed : asyncReadExactly missing buf s = some r) :
    (afterData chunks length r).step.Steady limit ∧
      (afterData chunks length r).step.rank limit < 2 * (limit - chunks.size) + 1 := by
  obtain ⟨good, same, enough⟩ := steady
  obtain ⟨carries, cases⟩ := asyncReadExactly_some completed
  simp only [afterData, Turn.after]
  cases cases with
  | overflow clean full _ =>
    simp only [clean, full, if_true]
    exact ⟨trivial, Nat.succ_pos _⟩
  | ended code failed _ _ _ =>
    simp only [failed]
    exact ⟨trivial, Nat.succ_pos _⟩
  | taken clean bound data _ =>
    simp only [clean]
    split
    · exact ⟨trivial, Nat.succ_pos _⟩
    · have size : r.buf.size = buf.size + missing := by
        rw [StreamBuf.size, data, List.length_append, List.length_take_of_le bound,
          StreamBuf.size]
      apply steady_readChunk (carries.good.trans good) same
      rwa [size]

theorem steady_chunkTurn {step : ChunkStep} {s s' : Socket} {t : Turn ChunkStep}
    (steady : step.Steady limit) (turned : chunkTurn step s = some (t, s')) :
    t.step.Steady limit ∧ t.step.rank limit < step.rank limit := by
  cases step with
  | readLine buf chunks =>
    obtain ⟨r, completed, same⟩ := Option.map_eq_some_iff.mp turned
    cases same
    exact steady_afterLine steady.1 steady.2 completed
  | readData missing buf chunks length =>
    obtain ⟨r, completed, same⟩ := Option.map_eq_some_iff.mp turned
    cases same
    exact steady_afterData steady completed
  | _ => cases turned

/-! ### The session -/

variable [HeaderFind] {c : ClientConfig} {step : ClientStep} {s s' : Socket} {t : Turn ClientStep}

namespace ClientStep

def isBroken : ClientStep → Bool
  | .broken _ => true
  | _ => false

/-- Another read has been started. -/
def isRead : ClientStep → Bool
  | .readHeader _ | .readContent _ _ | .readToEnd _ => true
  | .readChunked _ step => step.isRead
  | _ => false

/-- The read completes with what its handler throws an exception on, or cannot handle. -/
def Breaks : ClientStep → Socket → Prop
  | .readHeader response, s =>
    ∃ r, asyncReadUntil headerEnd response.streambuf s = some r ∧ r.ec = none ∧
      r.buf.full = false ∧
      ∃ message buf, parseResponse r.buf response.message = .ok (true, message, buf) ∧
        ∃ value, HeaderFind.find message.header (ascii "Content-Length") = some value ∧
          ∀ contentLength, stoul 10 value ≠ .ok contentLength
  | .readChunked _ step, s => step.Breaks s
  | _, _ => False

/-- How many reads can follow at most. -/
def rank (c : ClientConfig) : ClientStep → Nat
  | .readHeader _ => 2 * c.maxResponseStreambufSize + 3
  | .readContent _ _ | .readToEnd _ => 1
  | .readChunked _ step => step.rank c.maxResponseStreambufSize
  | _ => 0

def Steady (c : ClientConfig) : ClientStep → Prop
  | .readHeader response | .lost response _ => response.streambuf.good
  | .readChunked _ step => step.isRead ∧ step.Steady c.maxResponseStreambufSize
  | _ => True

omit [HeaderFind] in
theorem isBroken_ofChunkStep (message : ResponseMessage) (step : ChunkStep) :
    (ofChunkStep message step).isBroken = step.isBroken := by
  cases step <;> rfl

omit [HeaderFind] in
theorem ofChunkStep_steady {message : ResponseMessage} {step : ChunkStep}
    (steady : step.Steady c.maxResponseStreambufSize) : (ofChunkStep message step).Steady c := by
  cases step with
  | readLine | readData => exact ⟨rfl, steady⟩
  | _ => trivial

omit [HeaderFind] in
theorem rank_ofChunkStep_le (message : ResponseMessage) (step : ChunkStep) :
    (ofChunkStep message step).rank c ≤ step.rank c.maxResponseStreambufSize := by
  cases step <;> exact Nat.le_refl _

/-- Behind a header the session has read what there is of it, and all that can break is the
number in front of the content. -/
theorem ofHeader_spec (numAdditionalBytes : Nat) {response : Response}
    (good : response.streambuf.good) :
    (ofHeader c numAdditionalBytes response).Steady c ∧
      (ofHeader c numAdditionalBytes response).rank c < 2 * c.maxResponseStreambufSize + 3 ∧
      ((ofHeader c numAdditionalBytes response).isBroken = true ↔
        ∃ value, HeaderFind.find response.message.header (ascii "Content-Length") = some value ∧
          ∀ contentLength, stoul 10 value ≠ .ok contentLength) ∧
      ∀ response' ec, ofHeader c numAdditionalBytes response ≠ .lost response' ec := by
  simp only [ofHeader]
  cases HeaderFind.find response.message.header (ascii "Content-Length") with
  | some value =>
    simp only [Option.some.injEq, exists_eq_left']
    cases stoul 10 value with
    | error failure => simp [Steady, rank, isBroken]
    | ok contentLength =>
      simp only
      split <;> simp [Steady, rank, isBroken]
  | none =>
    simp only
    split
    · simp [Steady, rank, isBroken, readChunkedTransferEncoded, ChunkStep.isRead,
        ChunkStep.Steady, ChunkStep.rank, StreamBuf.size, good]
    · split <;> simp [Steady, rank, isBroken]

/-- What the handler of a header comes to. -/
theorem afterHeader_spec {response : Response} (good : response.streambuf.good) {r : ReadResult}
    (completed : asyncReadUntil headerEnd response.streambuf s = some r) :
    (afterHeader c response.message r).step.Steady c ∧
      (afterHeader c response.message r).step.rank c < (readHeader response).rank c ∧
      ((afterHeader c response.message r).step.isBroken = true ↔ (readHeader response).Breaks s) ∧
      ∀ response' ec, (afterHeader c response.message r).step = .lost response' ec →
        r.ec.isNone = false := by
  obtain ⟨carries, cases⟩ := asyncReadUntil_some completed
  have good' : r.buf.good := carries.good.trans good
  simp only [afterHeader, Turn.after, Breaks, completed, Option.some.injEq, exists_eq_left']
  cases failed : r.ec with
  | some code => split <;> simp [Steady, rank, isBroken, good']
  | none =>
    cases full : r.buf.full with
    | true => simp [Steady, rank, isBroken]
    | false =>
      -- the delimiter has been found, so the parser gets to its end
      have ended : headerEnd <:+: r.buf.data := cases.found_of_clean failed
      obtain ⟨parsed, message, buf, parses, still_good⟩ :=
        parseResponse_of_headerEnd good' ended response.message
      simp only [Bool.false_eq_true, and_false, if_false, parses, Except.ok.injEq, Prod.mk.injEq,
        true_and]
      cases parsed with
      | false => simp [Steady, rank, isBroken]
      | true =>
        have good_response : (Response.mk message buf).streambuf.good := still_good
        obtain ⟨steady, shorter, breaks, kept⟩ :=
          ofHeader_spec (sizeSub r.buf.size r.bytesTransferred) good_response
        refine ⟨steady, shorter, ?_, ?_⟩
        · rw [breaks]
          simp
        · exact fun response' ec lost => absurd lost (kept response' ec)

omit [HeaderFind] in
theorem afterContent_spec (message : ResponseMessage) (r : ReadResult) :
    ∃ result, (afterContent message r).step = .callback result := by
  simp only [afterContent, Turn.after]
  cases r.ec with
  | some code => exact ⟨_, rfl⟩
  | none => cases r.buf.full <;> exact ⟨_, rfl⟩

omit [HeaderFind] in
theorem afterEnd_spec (message : ResponseMessage) (r : ReadResult) :
    ∃ result, (afterEnd message r).step = .callback result := by
  simp only [afterEnd, Turn.after]
  cases r.ec with
  | some code =>
    by_cases eof : code = .eof
    · exact ⟨_, by simp only [if_pos eof]; rfl⟩
    · exact ⟨_, by simp only [if_neg eof]; rfl⟩
  | none => cases r.buf.full <;> exact ⟨_, rfl⟩

/-- What the completion of a read comes to. -/
theorem turn_spec (steady : step.Steady c) (turned : clientTurn c step s = some (t, s')) :
    t.step.Steady c ∧ t.step.rank c < step.rank c ∧ (t.step.isBroken = true ↔ step.Breaks s) ∧
      ∀ response ec, t.step = .lost response ec →
        (∃ response', step = .readHeader response') ∧ step.headerRead s = false := by
  cases step with
  | readHeader response =>
    obtain ⟨r, completed, same⟩ := Option.map_eq_some_iff.mp turned
    cases same
    obtain ⟨steady', shorter, breaks, lost⟩ := afterHeader_spec steady completed
    refine ⟨steady', shorter, breaks, fun response' ec is => ⟨⟨response, rfl⟩, ?_⟩⟩
    simp only [headerRead, completed, lost response' ec is, Bool.false_and]
  | readContent missing response =>
    obtain ⟨r, completed, same⟩ := Option.map_eq_some_iff.mp turned
    cases same
    obtain ⟨result, is⟩ := afterContent_spec response.message r
    simp [is, Steady, rank, isBroken, Breaks]
  | readToEnd response =>
    obtain ⟨r, completed, same⟩ := Option.map_eq_some_iff.mp turned
    cases same
    obtain ⟨result, is⟩ := afterEnd_spec response.message r
    simp [is, Steady, rank, isBroken, Breaks]
  | readChunked message step =>
    obtain ⟨⟨t', s''⟩, turned', same⟩ := Option.map_eq_some_iff.mp turned
    cases same
    obtain ⟨steady', shorter⟩ := steady_chunkTurn steady.2 turned'
    refine ⟨ofChunkStep_steady steady',
      Nat.lt_of_le_of_lt (rank_ofChunkStep_le message t'.step) shorter, ?_, ?_⟩
    · rw [Turn.map, isBroken_ofChunkStep]
      exact chunkTurn_isBroken turned'
    · intro response ec lost
      revert lost
      simp only [Turn.map]
      cases t'.step <;> simp [ofChunkStep]
  | _ => cases turned

theorem exists_turn_of_breaks (c : ClientConfig) (breaks : step.Breaks s) :
    ∃ t s', clientTurn c step s = some (t, s') := by
  cases step with
  | readHeader response =>
    obtain ⟨r, completed, -⟩ := breaks
    exact ⟨_, _, by simp only [clientTurn, completed, Option.map_some]; rfl⟩
  | readChunked message step =>
    obtain ⟨t, s', turned⟩ := ChunkStep.exists_turn_of_breaks breaks
    exact ⟨_, _, by simp only [clientTurn, turned, Option.map_some]; rfl⟩
  | _ => cases breaks

/-- A read from a socket that fails some day is completed. -/
theorem turn_of_ending (reads : step.isRead) {code : ErrorCode} (ending : s.ending = some code) :
    ∃ result, clientTurn c step s = some result := by
  have until_ : ∀ delim buf, ∃ r, asyncReadUntil delim buf s = some r :=
    fun _ _ => asyncReadUntil_of_ending ending
  have exactly : ∀ n buf, ∃ r, asyncReadExactly n buf s = some r :=
    fun _ _ => asyncReadExactly_of_ending ending
  cases step with
  | readHeader response =>
    obtain ⟨r, completed⟩ := until_ headerEnd response.streambuf
    exact ⟨_, by rw [clientTurn, completed]; rfl⟩
  | readContent missing response =>
    obtain ⟨r, completed⟩ := exactly missing response.streambuf
    exact ⟨_, by rw [clientTurn, completed]; rfl⟩
  | readToEnd response =>
    obtain ⟨r, completed⟩ :=
      exactly (response.streambuf.maxSize - response.streambuf.size) response.streambuf
    exact ⟨_, by rw [clientTurn, asyncReadAll, completed]; rfl⟩
  | readChunked message step =>
    obtain ⟨result, turned⟩ := step.turn_of_ending reads ending
    exact ⟨_, by rw [clientTurn, turned]; rfl⟩
  | _ => cases reads

end ClientStep

end ServerLib.Web
