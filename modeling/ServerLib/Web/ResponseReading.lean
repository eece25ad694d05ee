import ServerLib.Web.HeaderBlock
import ServerLib.Web.HttpClient
import ServerLib.Web.HttpServer
import ServerLib.Web.StatusLine

/-!
# The server's responses in the client's reader

What `__http_response::post` writes is a header block with the content behind it. With a
`Content-Length` the client knows how much to read on. A response that is ended by closing the
connection carries none, and for those the client looks at the `Session` field where the
`Connection` field is meant: as a rule it takes what has been read with the header for the
whole content.
-/
namespace ServerLib.Web

open Network (Bytes)

/-! ### The status line -/

def statusLine (code : HttpStatusCode) : Bytes := ascii "HTTP/1.1 " ++ statusCode code

theorem statusCode_plain (code : HttpStatusCode) : Plain (statusCode code) := by
  cases code <;> decide +kernel

theorem statusLine_plain (code : HttpStatusCode) :
    statusLine code ≠ [] ∧ Plain (statusLine code) :=
  ⟨by simp [statusLine, ascii], Plain.append (by decide) (statusCode_plain code)⟩

/-- A response is parsed into its parts, and the stream is left behind its blank line. -/
theorem parseResponse_written (code : HttpStatusCode) (fields : List SpacedField)
    {stream : StreamBuf} (good : stream.good) {rest : Bytes}
    (begins : stream.data = headerBlock (statusLine code :: fields.map SpacedField.line) ++ rest)
    (message : ResponseMessage) :
    parseResponse stream message = .ok (true,
      { httpVersion := ascii "1.1", statusCode := statusCode code,
        header := fields.map SpacedField.field },
      stream.consume
        (headerBlock (statusLine code :: fields.map SpacedField.line)).length) := by
  obtain ⟨behind, line, header⟩ :=
    parseHeader_behind_line (statusLine_plain code).2.2 fields good begins
  have shape : statusLine code ++ [13] = ascii "HTTP/1.1" ++ 32 :: (statusCode code ++ [13]) := by
    simp [statusLine, show ascii "HTTP/1.1 " = ascii "HTTP/1.1" ++ [32] from rfl]
  rw [shape] at line
  have parsed := parseResponseBy_accepted subtracts_sizeSub line (by decide) (by decide)
    (List.append_ne_nil_of_right_ne_nil _ (List.cons_ne_nil 13 [])) message
  rw [parseResponse_eq, parsed, header, List.dropLast_concat]
  rfl

/-! ### What the server writes -/

theorem caseInsensitiveEqual_congr {s t : Bytes} (same : caseInsensitiveEqual s t = true)
    (name : Bytes) : caseInsensitiveEqual name s = caseInsensitiveEqual name t := by
  unfold caseInsensitiveEqual at same ⊢
  rw [eq_of_beq same]

/-- The fields that the server writes. -/
def responseFields (closeConnectionAfterResponse : Bool) (content : Bytes) (header : Header) :
    Header :=
  header ++ if closeConnectionAfterResponse then [] else [lengthField content]

theorem post_eq (close : Bool) (code : HttpStatusCode) (content : Bytes) {header : Header}
    (lacks : header.Lacks (ascii "Content-Length"))
    (lacks' : header.Lacks (ascii "Transfer-Encoding")) :
    post close code content header =
      statusLine code ++ crlf ++ (responseFields close content header).flatMap fieldLine ++ crlf ++
        content := by
  have length_name :
      caseInsensitiveEqual (ascii "content-length") (ascii "Content-Length") = true := by decide
  have encoding_name :
      caseInsensitiveEqual (ascii "transfer-encoding") (ascii "Transfer-Encoding") = true := by
    decide
  have unsized : (header.any fun field =>
      caseInsensitiveEqual field.1 (ascii "content-length")) = false := by
    rw [List.any_eq_false]
    intro field member
    rw [caseInsensitiveEqual_congr length_name, lacks field member]
    exact Bool.false_ne_true
  have unchunked : (header.any fun field =>
      caseInsensitiveEqual field.1 (ascii "transfer-encoding") &&
        caseInsensitiveEqual field.2 (ascii "chunked")) = false := by
    rw [List.any_eq_false]
    intro field member
    rw [caseInsensitiveEqual_congr encoding_name, lacks' field member, Bool.false_and]
    exact Bool.false_ne_true
  have length : fieldLine (lengthField content) =
      ascii "Content-Length: " ++ decimal content.length ++ crlf := by
    simp [fieldLine, lengthField,
      show ascii "Content-Length: " = ascii "Content-Length" ++ ascii ": " from rfl]
  simp only [post, writeHeader, unsized, unchunked]
  cases close <;> simp [responseFields, statusLine, length]

/-- A response that closes the connection has the same header whatever its content. -/
theorem post_close (code : HttpStatusCode) (content : Bytes) (header : Header) :
    post true code content header = post true code [] header ++ content := by
  simp [post, writeHeader]

/-- The lines of what the server writes. -/
theorem exists_response_lines (close : Bool) (code : HttpStatusCode) (content : Bytes)
    {header : Header} (plain : PlainHeader header) :
    ∃ spaced : List SpacedField,
      spaced.map SpacedField.field = responseFields close content header ∧
      (∀ l ∈ statusLine code :: spaced.map SpacedField.line, l ≠ [] ∧ Plain l) ∧
      post close code content header =
        headerBlock (statusLine code :: spaced.map SpacedField.line) ++ content := by
  have each : ∀ field ∈ responseFields close content header, PlainField field := by
    intro field member
    rcases List.mem_append.mp member with given | added
    · exact plain.fields field given
    · split at added
      · cases added
      · rw [List.mem_singleton.mp added]
        exact plainField_length content
  obtain ⟨spaced, fields, lines⟩ := exists_written fun field member => (each field member).readable
  refine ⟨spaced, fields, ?_, ?_⟩
  · intro l member
    rcases List.mem_cons.mp member with rfl | later
    · exact statusLine_plain code
    · obtain ⟨f, among, rfl⟩ := List.mem_map.mp later
      apply SpacedField.line_plain
      apply each
      rw [← fields]
      exact List.mem_map_of_mem among
  · rw [post_eq close code content plain.unsized plain.unchunked, headerBlock, headerBlock_eq,
      lines]
    simp only [List.append_assoc]

/-! ### The client's reads -/

variable [HeaderFind]

/-- The client's reads of a response, for so many completions. -/
def clientReads (c : ClientConfig) (s : Socket) (turns : Nat) : Run ClientStep :=
  runTurns (clientTurn c) turns (.readHeader (.new c)) s

/-- What the client knows after the first read: the message, and the bytes of the content that
came with it. -/
structure ReadOn (c : ClientConfig) (s : Socket) (block m : Nat) (message : ResponseMessage)
    (content : Bytes) (response : Response) (s' : Socket) : Prop where
  behind : block ≤ m
  ends : Segmented.EndsAt s.pieces m
  first : ∀ n, Segmented.EndsAt s.pieces n → block ≤ n → m ≤ n
  message_eq : response.message = message
  data : response.streambuf.data = content.take (m - block)
  rest : s'.pieces.flatten = content.drop (m - block)
  ending : s'.ending = s.ending

/-- The first read brings the header and some of the content, unless the buffer is full. -/
theorem header_is_read (c : ClientConfig) (close : Bool) (code : HttpStatusCode) (content : Bytes)
    {header : Header} (plain : PlainHeader header) {s : Socket}
    (stream : s.pieces.flatten = post close code content header) {turns : Nat}
    (below : BelowMax (clientReads c s (turns + 1)).events) :
    ∃ (block m : Nat) (response : Response) (s' : Socket),
      block + content.length = s.pieces.flatten.length ∧
      ReadOn c s block m ⟨ascii "1.1", statusCode code, responseFields close content header⟩ content
        response s' ∧
      (clientReads c s (turns + 1)).step =
        (runTurns (clientTurn c) turns (.ofHeader c (min (m - block) content.length) response)
          s').step ∧
      BelowMax (runTurns (clientTurn c) turns
        (.ofHeader c (min (m - block) content.length) response) s').events := by
  obtain ⟨spaced, fields, clean, written⟩ := exists_response_lines close code content plain
  rw [written] at stream
  obtain ⟨r, completed, carries, found⟩ :=
    exists_header_read clean (show (Response.new c).streambuf.data = [] from rfl) stream
  have turned : clientTurn c (.readHeader (.new c)) s = some (afterHeader c {} r, r.socket) := by
    simp only [clientTurn, completed, Option.map_some]
    rfl
  have ran := runTurns_of_turn turned turns
  unfold clientReads at below ⊢
  rw [ran] at below ⊢
  obtain ⟨now, later⟩ := BelowMax.of_append below
  have open_ : r.buf.full = false := by
    refine now r.buf ?_
    unfold afterHeader
    exact List.mem_append_left _ List.mem_cons_self
  rcases found with ⟨m, header_read⟩ | ⟨-, full, -⟩
  case inr =>
    rw [full] at open_
    cases open_
  have parsed := parseResponse_written code spaced carries.good header_read.data {}
  rw [fields] at parsed
  -- from here on only the length of the block matters
  generalize headerBlock (statusLine code :: spaced.map SpacedField.line) = block at *
  have size : r.buf.size = block.length + min (m - block.length) content.length := by
    rw [StreamBuf.size, header_read.data, List.length_append, List.length_take]
  have additional : sizeSub r.buf.size r.bytesTransferred =
      min (m - block.length) content.length := by
    rw [header_read.offset, size, sizeSub_of_le (Nat.le_add_right _ _), Nat.add_sub_cancel_left]
  have handled : afterHeader c {} r = ⟨[.buffered r.buf],
      .ofHeader c (min (m - block.length) content.length)
        ⟨⟨ascii "1.1", statusCode code, responseFields close content header⟩,
          r.buf.consume block.length⟩⟩ := by
    simp only [afterHeader, header_read.clean, open_, Bool.false_eq_true, and_false, if_false,
      additional, parsed]
    rfl
  rw [handled] at later ⊢
  refine ⟨_, m, _, r.socket, ?_, ⟨header_read.behind, header_read.ends open_, header_read.first,
    rfl, ?_, ?_, carries.ending⟩, rfl, later⟩
  · rw [stream, List.length_append]
  · rw [StreamBuf.consume_data, header_read.data, List.drop_left]
  · rw [header_read.left, Segmented.flatten_dropItems, stream, List.drop_append,
      List.drop_eq_nil_of_le header_read.behind, List.nil_append]

/-- The second read brings the rest of the content, if that is what the server still sends. -/
theorem missing_is_read (c : ClientConfig) (response : Response) {s : Socket} {missing : Nat}
    (brings : s.pieces.flatten.length = missing) {turns : Nat}
    (below : BelowMax
      (runTurns (clientTurn c) (turns + 1) (.readContent missing response) s).events) :
    ∃ buf : StreamBuf,
      (runTurns (clientTurn c) (turns + 1) (.readContent missing response) s).step =
        .callback (.ok ⟨response.message, buf⟩) ∧
      buf.data = response.streambuf.data ++ s.pieces.flatten := by
  obtain ⟨r, completed⟩ : ∃ r, asyncReadExactly missing response.streambuf s = some r :=
    asyncReadExactly_of_le (Nat.le_of_eq brings.symm)
  obtain ⟨-, cases⟩ := asyncReadExactly_some completed
  have turned : clientTurn c (.readContent missing response) s =
      some (afterContent response.message r, r.socket) := by
    simp only [clientTurn, completed, Option.map_some]
  rw [runTurns_of_turn turned] at below ⊢
  have open_ : r.buf.full = false := by
    apply below r.buf
    unfold afterContent
    exact List.mem_append_left _ List.mem_cons_self
  cases cases with
  | ended _ _ _ short _ => exact absurd brings (Nat.ne_of_lt short)
  | overflow _ full _ =>
    rw [full] at open_
    cases open_
  | taken clean _ data _ =>
    have handled : (afterContent response.message r).step =
        .callback (.ok ⟨response.message, r.buf⟩) := by
      simp only [afterContent, clean, open_]
      rfl
    rw [handled, runTurns_of_none rfl]
    rw [List.take_of_length_le (Nat.le_of_eq brings)] at data
    exact ⟨r.buf, rfl, data⟩

/-- The second read brings all that the server sends before it closes the connection. -/
theorem end_is_read (c : ClientConfig) (response : Response) {s : Socket}
    (closed : s.ending = some .eof) {turns : Nat}
    (below : BelowMax (runTurns (clientTurn c) (turns + 1) (.readToEnd response) s).events) :
    ∃ buf : StreamBuf,
      (runTurns (clientTurn c) (turns + 1) (.readToEnd response) s).step =
        .callback (.ok ⟨response.message, buf⟩) ∧
      buf.data = response.streambuf.data ++ s.pieces.flatten := by
  obtain ⟨r, completed⟩ : ∃ r, asyncReadAll response.streambuf s = some r :=
    asyncReadExactly_of_ending closed
  obtain ⟨carries, cases⟩ := asyncReadExactly_some completed
  have turned : clientTurn c (.readToEnd response) s =
      some (afterEnd response.message r, r.socket) := by
    simp only [clientTurn, completed, Option.map_some]
  rw [runTurns_of_turn turned] at below ⊢
  have open_ : r.buf.full = false := by
    apply below r.buf
    unfold afterEnd
    exact List.mem_append_left _ List.mem_cons_self
  cases cases with
  | taken _ _ data _ =>
    -- it takes all the room there is only if the buffer is full then
    have fits := response.streambuf.size_le
    have full : r.buf.full = true := by
      rw [StreamBuf.full_iff, carries.maxSize, StreamBuf.size, data, List.length_append,
        List.length_take, ← StreamBuf.size]
      omega
    rw [full] at open_
    cases open_
  | overflow _ full _ =>
    rw [full] at open_
    cases open_
  | ended code failed ending _ data =>
    have eof : code = .eof := Option.some.inj (ending.symm.trans closed)
    have handled : (afterEnd response.message r).step =
        .callback (.ok ⟨response.message, r.buf⟩) := by
      simp only [afterEnd, failed, eof]
      rfl
    rw [handled, runTurns_of_none rfl]
    exact ⟨r.buf, rfl, data⟩

/-- The content that is exposed to the callback. -/
def ClientStep.content : ClientStep → Option Bytes
  | .callback (.ok response) => some response.loadContent
  | _ => none

/-- A response is read as it was posted. -/
theorem posted_response_comes_back (c : ClientConfig) (code : HttpStatusCode) {content : Bytes}
    (fits : content.length < sizeMax) {header : Header} (plain : PlainHeader header) {s : Socket}
    (stream : s.pieces.flatten = post false code content header) {turns : Nat}
    (enough : 2 ≤ turns) (below : BelowMax (clientReads c s turns).events) :
    ∃ response, (clientReads c s turns).step = .callback (.ok response) ∧
      response.message.httpVersion = ascii "1.1" ∧
      response.message.statusCode = statusCode code ∧
      response.message.header.Perm (header ++ [lengthField content]) ∧
      response.loadContent = content := by
  obtain ⟨turns, rfl⟩ := Nat.exists_eq_add_of_le' enough
  obtain ⟨block, m, response, s', total, on, step, later⟩ :=
    header_is_read c false code content plain stream below
  have found : HeaderFind.find response.message.header (ascii "Content-Length") =
      some (decimal content.length) := by
    rw [on.message_eq]
    exact find_unique plain.unsized (fun field member => by cases member) (by decide)
  have known : ∀ buf, buf.data = content →
      ∃ response', ClientStep.callback (.ok ⟨response.message, buf⟩) = .callback (.ok response') ∧
      response'.message.httpVersion = ascii "1.1" ∧
      response'.message.statusCode = statusCode code ∧
      response'.message.header.Perm (header ++ [lengthField content]) ∧
      response'.loadContent = content := by
    intro buf whole
    refine ⟨_, rfl, ?_, ?_, ?_, whole⟩ <;> rw [on.message_eq]
    exact List.Perm.refl _
  rw [step]
  unfold ClientStep.ofHeader at later ⊢
  simp only [found, stoul_decimal fits] at later ⊢
  split at later
  next missing =>
    -- a part of the content has come with the header
    rw [if_pos missing]
    have brings : s'.pieces.flatten.length = content.length - min (m - block) content.length := by
      rw [on.rest, List.length_drop]
      omega
    obtain ⟨buf, read, data⟩ := missing_is_read c response brings later
    rw [read]
    apply known
    rw [data, on.data, on.rest, List.take_append_drop]
  next there =>
    -- the whole content has come with the header
    rw [if_neg there, runTurns_of_none rfl]
    have whole : response.streambuf.data = content := by
      rw [on.data, List.take_of_length_le]
      omega
    exact known response.streambuf whole

omit [HeaderFind] in
theorem posted_response_comes_back_cut :
    let c : ClientConfig :=
      { host := ascii "localhost", port := 80, maxResponseStreambufSize := 99 }
    let stream := post false .successOk (ascii "a\r\n\r\nb") [(ascii "Server", ascii "x:y")]
    ∃ response,
      (@clientReads findFirst c (.cut stream 60 none) 2).step = .callback (.ok response) ∧
      response.message.httpVersion = ascii "1.1" ∧
      response.message.statusCode = ascii "200 OK" ∧
      response.message.header.Perm
        ([(ascii "Server", ascii "x:y")] ++ [lengthField (ascii "a\r\n\r\nb")]) ∧
      response.loadContent = ascii "a\r\n\r\nb" := by
  have plain : PlainHeader [(ascii "Server", ascii "x:y")] := ⟨by decide, by decide, by decide⟩
  exact @posted_response_comes_back findFirst _ .successOk _ (by decide) _ plain _
    (Socket.flatten_cut _ _ _) 2 (Nat.le_refl 2) (by decide)

/-- A response that is ended by closing the connection is read to its end exactly if its header
says `Session: close`, or all of it comes with the read that completes the header. -/
theorem closed_response_iff (c : ClientConfig) (code : HttpStatusCode) {content : Bytes}
    {header : Header} (plain : PlainHeader header) {s : Socket}
    (stream : s.pieces.flatten = post true code content header) (closed : s.ending = some .eof)
    {turns : Nat} (enough : 2 ≤ turns) (below : BelowMax (clientReads c s turns).events) :
    (clientReads c s turns).step.content = some content ↔
      HeaderFind.find header (ascii "Session") = some (ascii "close") ∨
        ∀ n, Segmented.EndsAt s.pieces n → (post true code [] header).length ≤ n →
          n = s.pieces.flatten.length := by
  obtain ⟨turns, rfl⟩ := Nat.exists_eq_add_of_le' enough
  obtain ⟨block, m, response, s', total, on, step, later⟩ :=
    header_is_read c true code content plain stream below
  have message : response.message.header = header := by
    rw [on.message_eq]
    exact List.append_nil header
  have version : ¬ response.message.httpVersion < ascii "1.1" := by
    rw [on.message_eq]
    exact List.lt_irrefl _
  have headerLength : (post true code [] header).length = block := by
    rw [stream, post_close, List.length_append] at total
    omega
  rw [step, headerLength]
  unfold ClientStep.ofHeader at later ⊢
  simp only [message, find_eq_none plain.unsized, find_eq_none plain.unchunked, version,
    false_or, reduceCtorEq, if_false] at later ⊢
  split at later
  next session =>
    rw [if_pos session]
    refine iff_of_true ?_ (.inl session)
    obtain ⟨buf, read, data⟩ := end_is_read c response (on.ending.trans closed) later
    rw [read]
    apply congrArg some
    change buf.data = content
    rw [data, on.data, on.rest, List.take_append_drop]
  next other =>
    rw [if_neg other, runTurns_of_none rfl]
    have exposed : (ClientStep.callback (.ok response)).content =
        some (content.take (m - block)) := congrArg some on.data
    have within := on.ends.le
    have behind := on.behind
    -- what is exposed is the content up to the end of the first read
    rw [exposed, Option.some.injEq, or_iff_right other]
    constructor
    · intro same n ends header_read
      have all := congrArg List.length same
      rw [List.length_take] at all
      have before := on.first n ends header_read
      have after := ends.le
      omega
    · intro only
      have last := only m on.ends behind
      apply List.take_of_length_le
      omega

omit [HeaderFind] in
/-- The content is lost if it comes behind the header. -/
theorem content_behind_header_is_lost :
    let c : ClientConfig :=
      { host := ascii "localhost", port := 80, maxResponseStreambufSize := 99 }
    let stream := post true .successOk (ascii "content") []
    let s : Socket := .cut stream 19 (some .eof)
    s.pieces.flatten = stream ∧ BelowMax (@clientReads findFirst c s 2).events ∧
      (@clientReads findFirst c s 2).step.content ≠ some (ascii "content") := by
  decide

omit [HeaderFind] in
theorem closed_response_iff_cut :
    let c : ClientConfig :=
      { host := ascii "localhost", port := 80, maxResponseStreambufSize := 99 }
    let stream := post true .successOk (ascii "content") [(ascii "session", ascii "close")]
    let s : Socket := .cut stream 9 (some .eof)
    (@clientReads findFirst c s 2).step.content = some (ascii "content") ↔
      @HeaderFind.find findFirst [(ascii "session", ascii "close")] (ascii "Session") =
          some (ascii "close") ∨
        ∀ n, Segmented.EndsAt s.pieces n →
          (post true .successOk [] [(ascii "session", ascii "close")]).length ≤ n →
            n = s.pieces.flatten.length := by
  have plain : PlainHeader [(ascii "session", ascii "close")] := ⟨by decide, by decide, by decide⟩
  exact @closed_response_iff findFirst _ .successOk _ _ plain _ (Socket.flatten_cut _ _ _) rfl 2
    (Nat.le_refl 2) (by decide)

end ServerLib.Web
