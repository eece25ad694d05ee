import ServerLib.Web.BytewiseChunks
import ServerLib.Web.ChunkedTransfer
import ServerLib.Web.RequestHeader

/-!
# The size limit of the server

`max_request_streambuf_size` limits what is buffered of a request at a time, and how much that
is depends on how the request is cut. A request that is shorter than the limit is handed over
however it is cut, and one with a part that has to be buffered as a whole and reaches the limit
is always refused. In between it is the cut that decides: a request that comes with one read is
refused, and the same request is handed over if it comes byte by byte.

A trailer behind the last chunk is not known to the server. What has been buffered of it stands in
front of the content.
-/
namespace ServerLib.Web

open Network (Bytes)
open Occurrence (LeftmostAt)
open Segmented (EndsAt EndsEverywhere)

/-! ### Requests -/

/-- What is sent behind a header. -/
inductive SentContent where
  | plain (body : Bytes)
  | chunked (chunks : List SentChunk) (last : LastChunk)

namespace SentContent

def bytes : SentContent → Bytes
  | .plain body => body
  | .chunked chunks last => last.behind chunks

def content : SentContent → Bytes
  | .plain body => body
  | .chunked chunks _ => contentOf chunks

def trailer : SentContent → Bytes
  | .plain _ => []
  | .chunked _ last => last.trailer

/-- What nobody takes out of the buffer once it has got there. -/
def untaken : SentContent → Bytes
  | .plain _ => []
  | .chunked _ last => (last.trailer ++ crlf).drop 2

/-- The header says how the end of the content is found. -/
def AnnouncedBy [HeaderFind] (header : Header) : SentContent → Prop
  | .plain body => header.AnnouncesPlain body.length
  | .chunked _ _ => header.AnnouncesChunks

/-- Each part of the content that has to be buffered as a whole is shorter than this. -/
def PassesWithin (limit : Nat) : SentContent → Prop
  | .plain body => body.length < limit
  | .chunked chunks last =>
    PassOneByOne limit last chunks ∧ (contentOf chunks).length < limit

theorem untaken_eq_nil_iff (sent : SentContent) : sent.untaken = [] ↔ sent.trailer = [] := by
  cases sent with
  | plain body => exact Iff.rfl
  | chunked chunks last =>
    rw [untaken, trailer, List.drop_eq_nil_iff, List.length_append, crlf]
    simp

/-- What is taken and what is not is all in the request. -/
theorem length_le (sent : SentContent) :
    (sent.untaken ++ sent.content).length ≤ sent.bytes.length := by
  cases sent with
  | plain body => exact Nat.le_refl _
  | chunked chunks last =>
    rw [List.length_append, untaken, content, bytes, List.length_drop]
    induction chunks with
    | nil =>
      simp only [LastChunk.behind, LastChunk.bytes, contentOf, List.length_append, List.map_nil,
        List.flatten_nil, List.length_nil]
      omega
    | cons c chunks ih =>
      rw [length_behind_cons, length_contentOf_cons]
      omega

theorem content_lt (sent : SentContent) {limit : Nat} (pass : sent.PassesWithin limit) :
    sent.content.length < limit := by
  cases sent with
  | plain body => exact pass
  | chunked chunks last => exact pass.2

end SentContent

/-- A request: its header, and the content that is announced in it. -/
structure SentRequest [HeaderFind] where
  block : Bytes
  message : RequestMessage
  sent : SentContent
  header : RequestHeader block message
  announced : sent.AnnouncedBy message.header

variable [HeaderFind]

def SentRequest.bytes (r : SentRequest) : Bytes := r.block ++ r.sent.bytes

/-! ### Outcomes -/

variable (c : ServerConfig)

/-- The request is refused, with a `client_error_payload_too_large`. -/
def Refused (s : Socket) : Prop := ∃ turns, (serverReads c s turns).step = .tooLarge

/-- The handler for a request is invoked, and finds this message and content in it. -/
def Handed (s : Socket) (message : RequestMessage) (content : Bytes) : Prop :=
  ∃ turns request, (serverReads c s turns).step = .findResource request ∧
    request.message = message ∧ request.loadContent = content

def SameOutcome (s s' : Socket) : Prop :=
  (Refused c s ∧ Refused c s') ∨
    ∃ message content, Handed c s message content ∧ Handed c s' message content

/-- The stream comes in reads of at least one byte. -/
structure Cuts (s : Socket) (stream : Bytes) : Prop where
  whole : s.pieces.flatten = stream
  nonempty : ∀ piece ∈ s.pieces, piece ≠ []

/-- However it is cut, the request has the same outcome. -/
def CutIndependent (r : SentRequest) : Prop :=
  ∀ s s', Cuts s r.bytes → Cuts s' r.bytes → SameOutcome c s s'

variable {c}

theorem not_handed_of_refused {s : Socket} (refused : Refused c s) (message : RequestMessage)
    (content : Bytes) : ¬ Handed c s message content := by
  rintro ⟨turns, request, found, -, -⟩
  obtain ⟨turns', tooLarge⟩ := refused
  have same : (serverReads c s turns).step = (serverReads c s turns').step := by
    apply step_unique
    · intro s'
      rw [← serverReads, found]
      rfl
    · intro s'
      rw [← serverReads, tooLarge]
      rfl
  rw [found, tooLarge] at same
  cases same

/-- A session invokes one handler only. -/
theorem handed_unique {s : Socket} {message message' : RequestMessage} {content content' : Bytes}
    (handed : Handed c s message content) (handed' : Handed c s message' content') :
    content = content' := by
  obtain ⟨turns, request, found, -, rfl⟩ := handed
  obtain ⟨turns', request', found', -, rfl⟩ := handed'
  have same : (serverReads c s turns).step = (serverReads c s turns').step := by
    apply step_unique
    · intro s'
      rw [← serverReads, found]
      rfl
    · intro s'
      rw [← serverReads, found']
      rfl
  rw [found, found'] at same
  cases same
  rfl

/-! ### The reads of a session -/

/-- A plain content is refused if it reaches the limit, and handed over if not. -/
theorem plain_cases {message : RequestMessage} {body : Bytes}
    (announced : message.header.AnnouncesPlain body.length) {buf : StreamBuf}
    {s : Socket} (same : buf.maxSize = c.maxRequestStreambufSize)
    (room : buf.size < c.maxRequestStreambufSize) (is : pending buf s = body) :
    (c.maxRequestStreambufSize ≤ body.length ∧
      (runTurns (serverTurn c) 1 (.ofHeader c buf.size ⟨message, buf⟩) s).step = .tooLarge) ∨
    (body.length < c.maxRequestStreambufSize ∧ ∃ buf' : StreamBuf,
      (runTurns (serverTurn c) 1 (.ofHeader c buf.size ⟨message, buf⟩) s).step =
        .findResource ⟨message, buf'⟩ ∧ buf'.data = body) := by
  have total : buf.size + s.pieces.flatten.length = body.length := by
    rw [← is, pending, List.length_append, StreamBuf.size]
  rw [ofHeader_plain c announced]
  split
  next missing =>
    have brought : body.length - buf.size ≤ s.pieces.flatten.length := by omega
    obtain ⟨q, completed⟩ : ∃ q, asyncReadExactly (body.length - buf.size) buf s = some q :=
      asyncReadExactly_of_le brought
    obtain ⟨carries, cases⟩ := asyncReadExactly_some completed
    have turned : serverTurn c (.readContent (body.length - buf.size) ⟨message, buf⟩) s =
        some (afterRequestContent message q, q.socket) := by
      simp only [serverTurn, completed, Option.map_some]
    rw [runTurns_of_turn turned]
    have bound := q.buf.size_le
    rw [carries.maxSize, same] at bound
    cases cases with
    | ended _ _ _ short _ => exact absurd brought (Nat.not_le.mpr short)
    | overflow clean full tight =>
      refine .inl ⟨by omega, ?_⟩
      simp only [afterRequestContent, clean, full]
      rfl
    | taken clean _ data _ =>
      have whole : q.buf.data = body := by
        rw [data, List.take_of_length_le (by omega), ← pending, is]
      cases open_ : q.buf.full with
      | true =>
        have filled := (StreamBuf.full_iff _).mp open_
        rw [StreamBuf.size, whole, carries.maxSize, same] at filled
        refine .inl ⟨Nat.le_of_eq filled.symm, ?_⟩
        simp only [afterRequestContent, clean, open_]
        rfl
      | false =>
        have unfilled := beq_eq_false_iff_ne.mp open_
        rw [carries.maxSize, same] at unfilled
        rw [StreamBuf.size, whole] at bound unfilled
        refine .inr ⟨Nat.lt_of_le_of_ne bound unfilled, q.buf, ?_, whole⟩
        simp only [afterRequestContent, clean, open_]
        rfl
  next there =>
    -- all of it has come with the header
    have nothing : s.pieces.flatten = [] := List.eq_nil_of_length_eq_zero (by omega)
    refine .inr ⟨by omega, buf, rfl, ?_⟩
    rw [← is, pending, nothing, List.append_nil]

/-- The reader of chunks, as the session runs it. -/
theorem run_chunked (message : RequestMessage) (buf : StreamBuf) (s : Socket) (turns : Nat) :
    (runTurns (serverTurn c) turns
      (.readChunked message (readChunkedTransferEncoded c.maxRequestStreambufSize buf)) s).step =
      .ofChunkStep message (runTurns chunkTurn turns
        (.readLine buf { maxSize := c.maxRequestStreambufSize }) s).step :=
  congrArg Run.step (serverChunks_eq c message buf s turns)

/-- What becomes of a request behind its header: it is refused, and reaches the limit, or it is
handed over, and each part of it is shorter. In front of the content stands what has been
buffered behind it and was not taken. -/
theorem content_cases {message : RequestMessage} {sent : SentContent}
    (announced : sent.AnnouncedBy message.header) {buf : StreamBuf} {s : Socket}
    (good : buf.good) (same : buf.maxSize = c.maxRequestStreambufSize)
    (room : buf.size < c.maxRequestStreambufSize) (is : pending buf s = sent.bytes) :
    ∃ turns,
      (c.maxRequestStreambufSize ≤ sent.bytes.length ∧
        (runTurns (serverTurn c) turns (.ofHeader c buf.size ⟨message, buf⟩) s).step =
          .tooLarge) ∨
      (sent.PassesWithin c.maxRequestStreambufSize ∧ ∃ (buf' : StreamBuf) (surplus left : Bytes),
        (runTurns (serverTurn c) turns (.ofHeader c buf.size ⟨message, buf⟩) s).step =
          .findResource ⟨message, buf'⟩ ∧
        surplus ++ left = sent.untaken ∧ (s.pieces.flatten = [] → left = []) ∧
        buf'.data = (surplus ++ sent.content).take c.maxRequestStreambufSize) := by
  cases sent with
  | plain body =>
    refine ⟨1, ?_⟩
    rcases plain_cases announced same room is with refused | ⟨short, buf', found, data⟩
    · exact .inl refused
    · refine .inr ⟨short, buf', [], [], found, rfl, fun _ => rfl, ?_⟩
      rw [data, List.nil_append, SentContent.content, List.take_of_length_le (Nat.le_of_lt short)]
  | chunked chunks last =>
    -- a chunk takes two reads at most, and so does the last one
    rw [ofHeader_chunked c announced]
    refine ⟨2 * (chunks.length + 1), ?_⟩
    rw [run_chunked]
    have limit : ({ maxSize := c.maxRequestStreambufSize } : StreamBuf).maxSize ≤ buf.maxSize :=
      Nat.le_of_eq same.symm
    rcases behind_cases last chunks good is limit (Nat.le_refl _) with
      ⟨refused, tight, -⟩ | ⟨⟨buf', surplus, finished, left, data⟩, pass, -, shorter⟩
    · left
      rw [refused]
      refine ⟨?_, rfl⟩
      simpa [StreamBuf.size, SentContent.bytes] using tight
    · right
      rw [finished]
      have positive : 0 < c.maxRequestStreambufSize := Nat.lt_of_le_of_lt (Nat.zero_le _) room
      rw [same] at pass data
      refine ⟨⟨pass, by simpa [StreamBuf.size] using shorter positive⟩, buf', surplus, _, rfl, left,
        fun nothing => ?_, data⟩
      have rest := suffix_of_run (2 * (chunks.length + 1))
        (.readLine buf { maxSize := c.maxRequestStreambufSize }) s
      rw [nothing] at rest
      exact List.suffix_nil.mp rest

/-- The steps of a session behind its first read. -/
theorem serverReads_succ {s : Socket} {q : ReadResult}
    (completed : asyncReadUntil headerEnd (Request.new c).streambuf s = some q) (turns : Nat) :
    (serverReads c s (turns + 1)).step =
      (runTurns (serverTurn c) turns (afterRequestHeader c {} q).step q.socket).step := by
  rw [serverReads, runTurns_of_turn (turn_of_header c completed)]

/-- The first read leaves nothing to be read behind it. -/
def FirstTakesAll (c : ServerConfig) (s : Socket) : Prop :=
  ∀ q, asyncReadUntil headerEnd (Request.new c).streambuf s = some q → q.socket.pieces.flatten = []

/-- A request is refused, and reaches the limit, or it is handed over, and each part of it is
shorter. -/
theorem session_cases (r : SentRequest) {s : Socket} (stream : s.pieces.flatten = r.bytes) :
    (Refused c s ∧ c.maxRequestStreambufSize ≤ r.bytes.length) ∨
    ∃ surplus left,
      Handed c s r.message ((surplus ++ r.sent.content).take c.maxRequestStreambufSize) ∧
      surplus ++ left = r.sent.untaken ∧ (FirstTakesAll c s → left = []) ∧
      r.block.length < c.maxRequestStreambufSize ∧
      r.sent.PassesWithin c.maxRequestStreambufSize := by
  obtain ⟨q, completed, carries, ⟨full, refused, -⟩ | ⟨open_, read, goesOn⟩⟩ :=
    r.header.first_read c stream
  · left
    refine ⟨⟨1, ?_⟩, ?_⟩
    · rw [serverReads_succ completed, refused]
      rfl
    · -- the header fills the buffer
      have tight := carries.maxSize_le full
      rw [pending, stream] at tight
      exact tight
  · have same : q.buf.maxSize = c.maxRequestStreambufSize := carries.maxSize
    have below : q.buf.size < c.maxRequestStreambufSize := by
      rw [← same]
      exact Nat.lt_of_le_of_ne q.buf.size_le (beq_eq_false_iff_ne.mp open_)
    have behind := read.behind
    have size := StreamBuf.size_consume q.buf r.block.length
    have is : pending (q.buf.consume r.block.length) q.socket = r.sent.bytes := by
      rw [pending_consume behind, carries.stream, pending, stream, SentRequest.bytes]
      exact List.drop_left
    have good : (q.buf.consume r.block.length).good := carries.good
    obtain ⟨turns, cases⟩ := content_cases (c := c) r.announced good same
      (by rw [size]; omega) is
    rw [size, ← goesOn] at cases
    rcases cases with ⟨tight, refused⟩ | ⟨pass, buf, surplus, left, found, whole, taken, data⟩
    · left
      refine ⟨⟨turns + 1, ?_⟩, ?_⟩
      · rw [serverReads_succ completed]
        exact refused
      · rw [SentRequest.bytes, List.length_append]
        exact Nat.le_trans tight (Nat.le_add_left _ _)
    · right
      refine ⟨surplus, left, ⟨turns + 1, ⟨r.message, buf⟩, ?_, rfl, data⟩, whole,
        fun all => taken (all q completed), by omega, pass⟩
      rw [serverReads_succ completed]
      exact found

/-- Without a trailer only the content is handed over. -/
theorem handed_of_plain (r : SentRequest) (alone : r.sent.trailer = []) {s : Socket}
    (stream : s.pieces.flatten = r.bytes) :
    (Refused c s ∧ c.maxRequestStreambufSize ≤ r.bytes.length) ∨
    (Handed c s r.message r.sent.content ∧ r.block.length < c.maxRequestStreambufSize ∧
      r.sent.PassesWithin c.maxRequestStreambufSize) := by
  rcases session_cases r stream with refused | ⟨surplus, left, handed, whole, -, short, pass⟩
  · exact .inl refused
  · right
    rw [r.sent.untaken_eq_nil_iff.mpr alone] at whole
    obtain ⟨rfl, -⟩ := List.append_eq_nil_iff.mp whole
    rw [List.nil_append, List.take_of_length_le] at handed
    · exact ⟨handed, short, pass⟩
    · exact Nat.le_of_lt (r.sent.content_lt pass)

/-! ### The two extreme cuts -/

/-- If a request comes with one read, the buffer is full then or holds all of it. -/
theorem one_read_cases (r : SentRequest) (ending : Option ErrorCode) :
    Refused c ⟨[r.bytes], ending⟩ ∨
      r.bytes.length < c.maxRequestStreambufSize ∧ FirstTakesAll c ⟨[r.bytes], ending⟩ := by
  have stream : (Socket.mk [r.bytes] ending).pieces.flatten = r.bytes := List.append_nil _
  obtain ⟨q, completed, carries, ⟨-, refused, -⟩ | ⟨open_, read, -⟩⟩ :=
    r.header.first_read c stream
  · refine .inl ⟨1, ?_⟩
    rw [serverReads_succ completed, refused]
    rfl
  · right
    have positive := r.header.length_pos
    have behind := read.behind
    -- the read ends where the piece ends
    have whole : r.bytes.length ≤ q.buf.size := by
      rcases Segmented.endsAt_cons_iff.mp (read.ends open_) with none_ | ⟨k, -, more⟩
      · omega
      · rw [more]
        exact Nat.le_add_right _ _
    have below := Nat.lt_of_le_of_ne q.buf.size_le (beq_eq_false_iff_ne.mp open_)
    rw [carries.maxSize] at below
    refine ⟨Nat.lt_of_le_of_lt whole below, fun q' completed' => ?_⟩
    cases completed.symm.trans completed'
    rw [read.left, Segmented.flatten_dropItems, stream]
    exact List.drop_eq_nil_of_le whole

/-- A request that comes with one read is refused if it reaches the limit. -/
theorem refused_of_one_read (r : SentRequest) (ending : Option ErrorCode)
    (tight : c.maxRequestStreambufSize ≤ r.bytes.length) : Refused c ⟨[r.bytes], ending⟩ :=
  (one_read_cases r ending).resolve_right fun ⟨short, _⟩ => absurd tight (Nat.not_le.mpr short)

/-- Otherwise all that is not taken of it stands in front of the content. -/
theorem handed_of_one_read (r : SentRequest) (ending : Option ErrorCode)
    (short : r.bytes.length < c.maxRequestStreambufSize) :
    Handed c ⟨[r.bytes], ending⟩ r.message (r.sent.untaken ++ r.sent.content) := by
  have stream : (Socket.mk [r.bytes] ending).pieces.flatten = r.bytes := List.append_nil _
  rcases session_cases (c := c) r stream with ⟨-, tight⟩ | ⟨surplus, left, handed, whole, taken, -⟩
  · exact absurd tight (Nat.not_le.mpr short)
  rcases one_read_cases (c := c) r ending with refused | ⟨-, all⟩
  · exact absurd handed (not_handed_of_refused refused _ _)
  · rw [taken all, List.append_nil] at whole
    have fits : (r.sent.untaken ++ r.sent.content).length ≤ c.maxRequestStreambufSize := by
      have length := r.sent.length_le
      rw [SentRequest.bytes, List.length_append] at short
      omega
    rwa [whole, List.take_of_length_le fits] at handed

/-- Byte by byte the header is read alone. -/
theorem header_bytewise (r : SentRequest) (ending : Option ErrorCode)
    (short : r.block.length < c.maxRequestStreambufSize) :
    ∃ (buf : StreamBuf) (s : Socket), buf.good ∧ buf.data = [] ∧
      buf.maxSize = c.maxRequestStreambufSize ∧ s.pieces.flatten = r.sent.bytes ∧
      EndsEverywhere s.pieces ∧
      ∀ turns, (serverReads c ⟨r.bytes.map fun byte => [byte], ending⟩ (turns + 1)).step =
        (runTurns (serverTurn c) turns (.ofHeader c 0 ⟨r.message, buf⟩) s).step := by
  have stream : (r.bytes.map fun byte => [byte]).flatten = r.bytes :=
    Segmented.flatten_singletons r.bytes
  have everywhere := Segmented.endsEverywhere_singletons r.bytes
  have within : r.block.length ≤ r.bytes.length := by
    rw [SentRequest.bytes, List.length_append]
    exact Nat.le_add_right _ _
  obtain ⟨q, completed, carries, cases⟩ :=
    r.header.first_read c (s := ⟨r.bytes.map fun byte => [byte], ending⟩) stream
  have read : HeaderRead q ⟨r.bytes.map fun byte => [byte], ending⟩ r.block r.sent.bytes
      q.buf.size := by
    rcases cases with ⟨-, -, found⟩ | ⟨-, found, -⟩
    · exact found (Nat.le_of_lt short)
    · exact found
  -- a read ends behind the header, so it is the first one that does
  have size : q.buf.size = r.block.length := by
    apply Nat.le_antisymm _ read.behind
    exact read.first _ (everywhere _ (by rwa [stream])) (Nat.le_refl _)
  rcases cases with ⟨full, -⟩ | ⟨-, -, goesOn⟩
  · rw [StreamBuf.full_iff, size, carries.maxSize] at full
    exact absurd full (Nat.ne_of_lt short)
  · refine ⟨q.buf.consume r.block.length, q.socket, carries.good, ?_, carries.maxSize, ?_, ?_,
      fun turns => ?_⟩
    · rw [StreamBuf.consume_data]
      exact List.drop_eq_nil_of_le (Nat.le_of_eq size)
    · rw [read.left, Segmented.flatten_dropItems, size, stream, SentRequest.bytes, List.drop_left]
    · rw [read.left, size]
      exact everywhere.dropItems (by rwa [stream])
    · rw [serverReads_succ completed, goesOn, size, Nat.sub_self]

/-- A request that comes byte by byte is handed over if each part of it is shorter than the
limit. -/
theorem handed_bytewise (r : SentRequest) (ending : Option ErrorCode)
    (short : r.block.length < c.maxRequestStreambufSize)
    (pass : r.sent.PassesWithin c.maxRequestStreambufSize) :
    Handed c ⟨r.bytes.map fun byte => [byte], ending⟩ r.message r.sent.content := by
  obtain ⟨buf, s, good, empty, same, behind, everywhere, later⟩ :=
    header_bytewise (c := c) r ending short
  have none_ : buf.size = 0 := congrArg List.length empty
  have handed : ∃ turns, ∃ buf' : StreamBuf,
      (runTurns (serverTurn c) turns (.ofHeader c 0 ⟨r.message, buf⟩) s).step =
        .findResource ⟨r.message, buf'⟩ ∧ buf'.data = r.sent.content := by
    have announced := r.announced
    cases sent : r.sent with
    | plain body =>
      rw [sent] at announced pass behind
      have room : buf.size < c.maxRequestStreambufSize := by
        rw [none_]
        exact Nat.lt_of_le_of_lt (Nat.zero_le _) short
      have cases := plain_cases (c := c) announced same room (by rw [pending, empty, behind]; rfl)
      rw [none_] at cases
      rcases cases with ⟨tight, -⟩ | ⟨-, buf', found, whole⟩
      · exact absurd pass (Nat.not_lt.mpr tight)
      · exact ⟨1, buf', found, whole⟩
    | chunked chunks last =>
      rw [sent] at announced pass behind
      rw [ofHeader_chunked c announced]
      have limit : ({ maxSize := c.maxRequestStreambufSize } : StreamBuf).maxSize ≤ buf.maxSize :=
        Nat.le_of_eq same.symm
      obtain ⟨buf', finished, whole⟩ := behind_bytewise last chunks good empty everywhere behind
        limit (same ▸ pass.1) (by simpa [StreamBuf.size] using pass.2)
      refine ⟨2 * (chunks.length + 1), buf', ?_, whole⟩
      rw [run_chunked, finished]
      rfl
  obtain ⟨turns, buf', found, whole⟩ := handed
  refine ⟨turns + 1, ⟨r.message, buf'⟩, ?_, rfl, whole⟩
  rw [later]
  exact found

/-- In between, and if there is a trailer, one read and many of them have different outcomes. -/
theorem not_cutIndependent {r : SentRequest}
    (divided : c.maxRequestStreambufSize ≤ r.bytes.length ∨ r.sent.trailer ≠ [])
    (short : r.block.length < c.maxRequestStreambufSize)
    (pass : r.sent.PassesWithin c.maxRequestStreambufSize) : ¬ CutIndependent c r := by
  have positive : r.bytes ≠ [] := by
    intro nothing
    have none_ := congrArg List.length nothing
    rw [SentRequest.bytes, List.length_append] at none_
    exact Nat.ne_of_gt (Nat.add_pos_left r.header.length_pos _) none_
  have handed := handed_bytewise r none short pass
  intro independent
  have same := independent ⟨[r.bytes], none⟩ ⟨r.bytes.map fun byte => [byte], none⟩
    ⟨List.append_nil _, by simpa using positive⟩
    ⟨Segmented.flatten_singletons r.bytes, by simp⟩
  rcases same with ⟨-, refused⟩ | ⟨message, content, atOnce, bytewise⟩
  · exact not_handed_of_refused refused _ _ handed
  rcases Nat.lt_or_ge r.bytes.length c.maxRequestStreambufSize with small | tight
  · -- the trailer is in front of the content, or it is not
    have trailer := divided.resolve_left (Nat.not_le.mpr small)
    have whole := handed_unique (handed_of_one_read r none small) atOnce
    rw [handed_unique bytewise handed] at whole
    have nothing := List.append_left_eq_self.mp whole
    exact trailer (r.sent.untaken_eq_nil_iff.mp nothing)
  · exact not_handed_of_refused (refused_of_one_read r none tight) _ _ atOnce

/-- The outcome does not depend on the cut exactly if the request has no trailer and is shorter
than the limit, or a part of it that has to be buffered as a whole is not shorter. -/
theorem cutIndependent_iff (r : SentRequest) :
    CutIndependent c r ↔
      (r.bytes.length < c.maxRequestStreambufSize ∧ r.sent.trailer = []) ∨
      ¬ (r.block.length < c.maxRequestStreambufSize ∧
        r.sent.PassesWithin c.maxRequestStreambufSize) := by
  constructor
  · intro independent
    by_contra undecided
    rw [not_or, not_not, not_and_or, Nat.not_lt] at undecided
    obtain ⟨divided, short, pass⟩ := undecided
    exact not_cutIndependent divided short pass independent
  · intro decided s s' cuts cuts'
    rcases decided with ⟨small, alone⟩ | large
    · -- there is room for all of it, so nothing is refused
      have handed (t : Socket) (cuts : Cuts t r.bytes) : Handed c t r.message r.sent.content := by
        rcases handed_of_plain (c := c) r alone cuts.whole with ⟨-, tight⟩ | ⟨handed, -⟩
        · exact absurd small (Nat.not_lt.mpr tight)
        · exact handed
      exact .inr ⟨r.message, r.sent.content, handed s cuts, handed s' cuts'⟩
    · -- a part is never buffered as a whole
      have refused (t : Socket) (cuts : Cuts t r.bytes) : Refused c t := by
        rcases session_cases (c := c) r cuts.whole with ⟨refused, -⟩ | ⟨_, _, -, -, -, fits⟩
        · exact refused
        · exact absurd fits large
      exact .inl ⟨refused s cuts, refused s' cuts'⟩

/-- A request of 42 bytes, 38 of which are its header. -/
def smallPost : @SentRequest findFirst :=
  @SentRequest.mk findFirst (headerBlock [ascii "POST / HTTP/1.1", ascii "Content-Length: 4"])
    { method := ascii "POST", path := ascii "/", httpVersion := ascii "1.1",
      header := [(ascii "Content-Length", ascii "4")] }
    (.plain (ascii "ping"))
    ⟨⟨34, rfl, (Occurrence.find_eq_some_iff _ _ _).mp (by decide)⟩, rfl⟩
    (.inl ⟨ascii "4", rfl, rfl⟩)

omit [HeaderFind] in
/-- With a limit of 40 bytes the request is refused if it comes with one read, and handed over if
it comes byte by byte. -/
theorem smallPost_depends_on_cut : ¬ @CutIndependent findFirst ⟨40⟩ smallPost := by
  apply @not_cutIndependent findFirst ⟨40⟩ smallPost
  · exact .inl (by decide)
  · decide
  · exact (by decide : (ascii "ping").length < 40)

end ServerLib.Web
