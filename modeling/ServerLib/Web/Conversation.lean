import Mathlib.Data.List.Forall2
import ServerLib.Web.Pipelining
import ServerLib.Web.RequestEncoding
import ServerLib.Web.RequestRegistry
import ServerLib.Web.ResponseReading

/-!
# Conversations between the two sides

A client that keeps its connection makes one request after the other, each when the response to
the one before has been read. The server reads them from one stream, looks up a callback for each
of them and writes what the callback posts, which the client reads. The reads of both sides may
end anywhere, but none of the server's brings bytes of two requests: the next one has not been
written yet.
-/
namespace ServerLib.Web

open Network (Bytes)
open Segmented (EndsAt dropItems)

/-- No field asks to close the connection. -/
def Persistent (header : Header) : Prop :=
  ∀ field ∈ header, caseInsensitiveEqual field.1 (ascii "Connection") = true →
    caseInsensitiveEqual field.2 (ascii "close") = false

/-- A request as it is given to the client. -/
structure Call where
  method : Bytes
  path : Bytes
  query : Bytes := []
  content : Bytes := []
  header : Header := []

/-- What a callback posts. -/
structure Reply where
  code : HttpStatusCode
  content : Bytes := []
  header : Header := []

namespace Reply

def text (reply : Reply) : Bytes := post false reply.code reply.content reply.header

/-- There is room for it in the client's buffer. -/
structure Plain (config : ClientConfig) (reply : Reply) : Prop where
  header : PlainHeader reply.header
  fits : reply.content.length < sizeMax
  room : reply.text.length < config.maxResponseStreambufSize

end Reply

namespace Call

variable [HeaderFind]

/-- What the client writes. -/
def text (client : Client) (call : Call) : Bytes :=
  requestStreambuf client call.method (target call.path call.query) call.content call.header

/-- The call does not ask to close the connection, and there is room for it in the server's
buffer. -/
structure Plain (client : Client) (config : ServerConfig) (call : Call) : Prop where
  line : PlainRequestLine call.method call.path call.query
  rooted : call.path.head? = some 47
  header : PlainHeader call.header
  fits : call.content.length < sizeMax
  persistent : Persistent call.header
  room : (call.text client).length < config.maxRequestStreambufSize

/-- The message that the server has read for a call. -/
def message (client : Client) (call : Call) : RequestMessage where
  method := call.method
  path := call.path
  queryString := call.query
  httpVersion := ascii "1.1"
  header := writtenFields client call.content call.header

end Call

/-! ### The requests -/

theorem Header.Lacks.append {front back : Header} {name : Bytes} (lacks : front.Lacks name)
    (lacks' : back.Lacks name) : Header.Lacks (front ++ back) name := by
  intro field member
  rcases List.mem_append.mp member with early | late
  · exact lacks field early
  · exact lacks' field late

theorem hostField_lacks (client : Client) {name : Bytes}
    (other : caseInsensitiveEqual (ascii "Host") name = false) :
    Header.Lacks [hostField client] name := by
  intro field member
  rw [List.mem_singleton.mp member]
  exact other

/-- The length is announced if there is a content. -/
theorem sized_writtenFields (client : Client) {content : Bytes} {header : Header}
    (plain : PlainHeader header) : Sized (writtenFields client content header) content := by
  have unsized := (hostField_lacks client (by decide)).append plain.unsized
  have unchunked := (hostField_lacks client (by decide)).append plain.unchunked
  by_cases empty : content = []
  · rw [writtenFields, if_pos empty, List.append_nil]
    exact .absent unsized unchunked empty
  · rw [writtenFields, if_neg empty]
    exact .announced (hostField client :: header) [] (ascii "Content-Length")
      (decimal content.length) rfl unsized (fun _ member => by cases member) (by decide)
      (isNumeral_decimal _) (numeral_decimal _)

/-- None of the fields that the client adds asks to close the connection. -/
theorem persistent_writtenFields (client : Client) (content : Bytes) {header : Header}
    (persistent : Persistent header) : Persistent (writtenFields client content header) := by
  intro field member named
  rcases List.mem_cons.mp member with rfl | member
  · cases named.symm.trans (show caseInsensitiveEqual (ascii "Host") _ = false by decide)
  · rcases List.mem_append.mp member with given | added
    · exact persistent field given named
    · split at added
      · cases added
      · rw [List.mem_singleton.mp added] at named
        cases named.symm.trans (show caseInsensitiveEqual (ascii "Content-Length") _ = false by
          decide)

variable [HeaderFind]

/-- The request that the client writes for a call. -/
structure Call.Written (client : Client) (call : Call) (r : PersistentRequest) : Prop where
  text : r.bytes = call.text client
  message : r.message = call.message client
  content : r.body = call.content

/-- What the client writes is a request that the server can read. -/
theorem Call.exists_request {client : Client} {config : ServerConfig} {call : Call}
    (direct : client.config.proxyServer = []) (host : PlainField (hostField client))
    (plain : call.Plain client config) : ∃ r, call.Written client r := by
  have each : ∀ field ∈ writtenFields client call.content call.header, PlainField field := by
    intro field member
    rcases List.mem_cons.mp member with rfl | member
    · exact host
    · rcases List.mem_append.mp member with given | added
      · exact plain.header.fields field given
      · split at added
        · cases added
        · rw [List.mem_singleton.mp added]
          exact plainField_length call.content
  obtain ⟨spaced, fields, lines⟩ := exists_written fun field member => (each field member).readable
  have named : ∀ f ∈ spaced, f.field ∈ writtenFields client call.content call.header :=
    fun f member => fields ▸ List.mem_map_of_mem member
  let r : PersistentRequest :=
    { method := call.method
      target := target call.path call.query
      fields := spaced
      body := call.content
      method_plain := plain.line.method_plain
      target_plain := target_plain plain.line
      plain := fun f member => each _ (named f member)
      sized := fields ▸ sized_writtenFields client plain.header
      fits := plain.fits
      persistent := fun f member =>
        persistent_writtenFields client call.content plain.persistent _ (named f member) }
  refine ⟨r, ?_, ?_, rfl⟩
  · rw [Call.text, requestStreambuf_eq direct plain.rooted plain.header.unsized
      plain.header.unchunked, PersistentRequest.bytes, PersistentRequest.block, headerBlock,
      headerBlock_eq, lines]
    simp only [List.append_assoc, r, requestLine]
  · have query : (if call.query = [] then [] else call.query) = call.query := by
      split
      next absent => exact absent.symm
      · rfl
    rw [PersistentRequest.message, PersistentRequest.header, Call.message, fields,
      scannedTarget_target plain.line, query]

/-- All calls of a conversation. -/
theorem Call.exists_requests {client : Client} {config : ServerConfig}
    (direct : client.config.proxyServer = []) (host : PlainField (hostField client))
    {calls : List Call} (plain : ∀ call ∈ calls, call.Plain client config) :
    ∃ requests, List.Forall₂ (Call.Written client) calls requests := by
  induction calls with
  | nil => exact ⟨[], .nil⟩
  | cons call calls ih =>
    obtain ⟨r, here⟩ := exists_request direct host (plain call List.mem_cons_self)
    obtain ⟨requests, behind⟩ := ih fun c member => plain c (List.mem_cons_of_mem call member)
    exact ⟨r :: requests, .cons here behind⟩

/-- What is written for the calls, and where each request comes from. -/
theorem Call.written_eq {client : Client} {calls : List Call} {requests : List PersistentRequest}
    (written : List.Forall₂ (Call.Written client) calls requests) :
    requests.map PersistentRequest.bytes = calls.map (Call.text client) ∧
      ∀ r ∈ requests, ∃ call ∈ calls, call.Written client r := by
  induction written with
  | nil => exact ⟨rfl, fun _ member => by cases member⟩
  | cons here _ ih =>
    refine ⟨?_, fun r member => ?_⟩
    · rw [List.map_cons, List.map_cons, here.text, ih.1]
    · rcases List.mem_cons.mp member with rfl | later
      · exact ⟨_, List.mem_cons_self, here⟩
      · obtain ⟨call, among, writes⟩ := ih.2 r later
        exact ⟨call, List.mem_cons_of_mem _ among, writes⟩

/-! ### The server's side -/

omit [HeaderFind] in
/-- Requests that arrive in pieces of their own are cut as the server needs it. -/
theorem cutBetween_flatten (requests : List PersistentRequest) (front : List Bytes)
    {arriving : List (List Bytes)}
    (apart : arriving.map List.flatten = requests.map PersistentRequest.bytes) :
    CutBetween (front ++ arriving.flatten) front.flatten.length requests := by
  induction requests generalizing front arriving with
  | nil => trivial
  | cons r requests ih =>
    obtain ⟨pieces, arriving, rfl, whole, behind⟩ := List.map_eq_cons_iff.mp apart
    have length : (front ++ pieces).flatten.length = front.flatten.length + r.bytes.length := by
      rw [List.flatten_append, List.length_append, whole]
    have within : r.block.length ≤ r.bytes.length := by
      rw [PersistentRequest.bytes, List.length_append]
      exact Nat.le_add_right _ _
    have rest := ih (front ++ pieces) behind
    rw [length, List.append_assoc, ← List.flatten_cons] at rest
    refine ⟨⟨front.flatten.length + r.bytes.length, ?_, by omega, Nat.le_refl _⟩, rest⟩
    exact ⟨front ++ pieces, arriving.flatten, by rw [List.flatten_cons, List.append_assoc], length⟩

/-- The handler that is looked up for a request is given it. -/
structure HandedOver {η : Type} [RegexMatch] (resources : Resources η) (r : PersistentRequest)
    (served : η × Request) : Prop where
  found : findResource resources r.message = some served.1
  message : served.2.message = r.message
  content : served.2.loadContent = r.body

/-- Each request is handed over, as long as there is a handler for each of them. -/
theorem exists_handed {η : Type} [RegexMatch] (c : ServerConfig) (resources : Resources η)
    (requests : List PersistentRequest)
    (room : ∀ r ∈ requests, r.bytes.length < c.maxRequestStreambufSize)
    (registered : ∀ r ∈ requests, (findResource resources r.message).isSome) {s : Socket}
    (stream : s.pieces.flatten = requests.flatMap PersistentRequest.bytes)
    (cut : CutBetween s.pieces 0 requests) :
    ∃ turns, ∀ more, List.Forall₂ (HandedOver resources) requests
      (serve c resources (fun _ _ => {}) (more + turns) (.readHeader (.new c)) s) := by
  induction requests generalizing s with
  | nil =>
    refine ⟨0, fun more => ?_⟩
    rw [serve_nothing c resources _ stream]
    exact .nil
  | cons r rs ih =>
    rw [List.flatMap_cons] at stream
    rw [CutBetween, Nat.zero_add, Nat.zero_add] at cut
    obtain ⟨turns, ⟨message, buf⟩, same, content, served⟩ :=
      session_exact c resources (fun _ _ => {}) r stream (room r List.mem_cons_self) cut.1
    dsimp only at same
    subst same
    obtain ⟨handler, found⟩ := Option.isSome_iff_exists.mp (registered r List.mem_cons_self)
    have left : (dropItems r.bytes.length s.pieces).flatten =
        rs.flatMap PersistentRequest.bytes := by
      rw [Segmented.flatten_dropItems, stream, List.drop_left]
    -- the next session begins behind the request
    obtain ⟨turns', rest⟩ := ih (fun r' member => room r' (List.mem_cons_of_mem r member))
      (fun r' member => registered r' (List.mem_cons_of_mem r member))
      (s := { s with pieces := dropItems r.bytes.length s.pieces }) left
      ((cutBetween_dropItems_iff s.pieces r.bytes.length 0 rs).mpr cut.2)
    refine ⟨turns' + 1 + turns, fun more => ?_⟩
    rw [show more + (turns' + 1 + turns) = more + turns' + 1 + turns by omega, served]
    simp only [serve, found, r.readsOn, if_true]
    exact .cons ⟨found, rfl, content⟩ (rest more)

/-! ### The client's side -/

/-- The callback of the client's session gets the reply. -/
def Reply.ReadBy (reply : Reply) (step : ClientStep) : Prop :=
  ∃ response, step = .callback (.ok response) ∧
    response.message = ⟨ascii "1.1", statusCode reply.code,
      reply.header ++ [lengthField reply.content]⟩ ∧
    response.loadContent = reply.content

omit [HeaderFind] in
/-- A buffer with room for the whole stream is never full. -/
theorem ReadResult.Carries.not_full {r : ReadResult} {b : StreamBuf} {s : Socket}
    (carries : r.Carries b s) (room : (pending b s).length < b.maxSize) : r.buf.full = false := by
  rw [Bool.eq_false_iff]
  intro full
  exact absurd (carries.maxSize_le full) (Nat.not_le.mpr room)

/-- The second read of a response brings what is missing. -/
theorem rest_is_read (c : ClientConfig) (response : Response) (s : Socket)
    (room : (pending response.streambuf s).length < response.streambuf.maxSize) (turns : Nat) :
    ∃ buf : StreamBuf,
      (runTurns (clientTurn c) (turns + 1)
        (.readContent s.pieces.flatten.length response) s).step =
          .callback (.ok ⟨response.message, buf⟩) ∧
      buf.data = pending response.streambuf s := by
  obtain ⟨r, completed⟩ : ∃ r,
      asyncReadExactly s.pieces.flatten.length response.streambuf s = some r :=
    asyncReadExactly_of_le (Nat.le_refl _)
  obtain ⟨carries, cases⟩ := asyncReadExactly_some completed
  have open_ := carries.not_full room
  have turned : clientTurn c (.readContent s.pieces.flatten.length response) s =
      some (afterContent response.message r, r.socket) := by
    simp only [clientTurn, completed, Option.map_some]
  rw [runTurns_of_turn turned]
  cases cases with
  | ended _ _ _ short _ => exact absurd short (Nat.lt_irrefl _)
  | overflow _ full _ =>
    rw [full] at open_
    cases open_
  | taken clean _ data _ =>
    have handled : (afterContent response.message r).step =
        .callback (.ok ⟨response.message, r.buf⟩) := by
      simp only [afterContent, clean, open_]
      rfl
    rw [handled, runTurns_of_none rfl]
    exact ⟨r.buf, rfl, by rw [data, List.take_length, pending]⟩

/-- A reply that the client has room for is read. -/
theorem reply_is_read (c : ClientConfig) {reply : Reply} (plain : reply.Plain c) {s : Socket}
    (stream : s.pieces.flatten = reply.text) (turns : Nat) :
    reply.ReadBy (clientReads c s (turns + 2)).step := by
  obtain ⟨spaced, fields, clean, written⟩ :=
    exists_response_lines false reply.code reply.content plain.header
  have whole := stream.trans written
  obtain ⟨r, completed, carries, found⟩ :=
    exists_header_read clean (show (Response.new c).streambuf.data = [] from rfl) whole
  have fresh : pending (Response.new c).streambuf s = reply.text := stream
  have open_ : r.buf.full = false := carries.not_full (by rw [fresh]; exact plain.room)
  rcases found with ⟨m, header_read⟩ | ⟨-, full, -⟩
  case inr =>
    rw [full] at open_
    cases open_
  have parsed := parseResponse_written reply.code spaced carries.good header_read.data {}
  rw [fields] at parsed
  -- from here on only the length of the block matters
  generalize headerBlock (statusLine reply.code :: spaced.map SpacedField.line) = block at *
  have additional : sizeSub r.buf.size r.bytesTransferred =
      min (m - block.length) reply.content.length := by
    rw [header_read.offset, StreamBuf.size, header_read.data, List.length_append,
      List.length_take, sizeSub_of_le (Nat.le_add_right _ _), Nat.add_sub_cancel_left]
  let message : ResponseMessage :=
    ⟨ascii "1.1", statusCode reply.code, responseFields false reply.content reply.header⟩
  let buf := r.buf.consume block.length
  have turned : clientTurn c (.readHeader (.new c)) s =
      some (⟨[.buffered r.buf], .ofHeader c (min (m - block.length) reply.content.length)
        ⟨message, buf⟩⟩, r.socket) := by
    simp only [clientTurn, completed, Option.map_some, afterHeader, header_read.clean, open_,
      Bool.false_eq_true, and_false, if_false, additional]
    rw [show (Response.new c).message = {} from rfl, parsed]
    rfl
  have announced : HeaderFind.find message.header (ascii "Content-Length") =
      some (decimal reply.content.length) :=
    find_unique plain.header.unsized (fun field member => by cases member) (by decide)
  have held : buf.data = reply.content.take (m - block.length) := by
    rw [StreamBuf.consume_data, header_read.data, List.drop_left]
  have behind : r.socket.pieces.flatten = reply.content.drop (m - block.length) := by
    rw [header_read.left, Segmented.flatten_dropItems, whole, List.drop_append,
      List.drop_eq_nil_of_le header_read.behind, List.nil_append]
  rw [clientReads, runTurns_of_turn turned]
  unfold ClientStep.ofHeader
  simp only [announced, stoul_decimal plain.fits]
  split
  next missing =>
    -- a part of the content has come with the header
    have brings : reply.content.length - min (m - block.length) reply.content.length =
        r.socket.pieces.flatten.length := by
      rw [behind, List.length_drop]
      omega
    have total : pending buf r.socket = reply.content := by
      rw [pending, held, behind, List.take_append_drop]
    have limit : buf.maxSize = c.maxResponseStreambufSize := carries.maxSize
    have shorter : reply.content.length ≤ reply.text.length := by
      rw [← stream, whole, List.length_append]
      exact Nat.le_add_left _ _
    obtain ⟨rest, read, data⟩ := rest_is_read c ⟨message, buf⟩ r.socket
      (show (pending buf r.socket).length < buf.maxSize by
        rw [total, limit]
        exact Nat.lt_of_le_of_lt shorter plain.room) turns
    rw [brings, read]
    exact ⟨_, rfl, rfl, data.trans total⟩
  next there =>
    -- the whole content has come with the header
    rw [runTurns_of_none rfl]
    refine ⟨_, rfl, rfl, held.trans (List.take_of_length_le ?_)⟩
    omega

/-! ### Both sides -/

omit [HeaderFind] in
theorem forall₂_compose {α β γ : Type} {R : α → β → Prop} {S : β → γ → Prop} {T : α → γ → Prop}
    (compose : ∀ a b c, R a b → S b c → T a c) {as : List α} {bs : List β} {cs : List γ}
    (first : List.Forall₂ R as bs) (second : List.Forall₂ S bs cs) : List.Forall₂ T as cs := by
  induction first generalizing cs with
  | nil =>
    cases second
    exact .nil
  | cons here _ ih =>
    cases second with
    | cons here' behind => exact .cons (compose _ _ _ here here') (ih behind)

variable [RegexMatch]

/-- The first callback for a call is given the call, and the client reads what it replies. -/
structure Answered (table : Registered (Request → Reply))
    (impl : WebServerImpl (Request → Reply)) (client : Client) (call : Call)
    (served : UInt64 × Request) : Prop where
  message : served.2.message = call.message client
  content : served.2.loadContent = call.content
  replied : ∃ pattern callback, impl.requestCallbacks[served.1]? = some callback ∧
    table.First (call.message client) pattern callback ∧
    ((callback served.2).Plain client.config → ∀ down : Socket,
      down.pieces.flatten = (callback served.2).text → ∀ turns, 2 ≤ turns →
        (callback served.2).ReadBy (clientReads client.config down turns).step)

/-- All calls of a conversation are answered, one after the other, if there is a callback for
each of them and each of them arrives in pieces of its own. -/
theorem calls_are_answered (valid : Bytes → Bool)
    {registrations : List (RequestCall (Request → Reply))} (few : registrations.length < sizeMax)
    {impl : WebServerImpl (Request → Reply)}
    (started : (WebServer.after registrations).start valid = some impl) {client : Client}
    (direct : client.config.proxyServer = []) (host : PlainField (hostField client))
    (config : ServerConfig) {calls : List Call} (plain : ∀ call ∈ calls, call.Plain client config)
    (matched : ∀ call ∈ calls, ∃ pattern callback,
      (registered registrations).First (call.message client) pattern callback)
    {arriving : List (List Bytes)}
    (apart : arriving.map List.flatten = calls.map (Call.text client))
    (ending : Option ErrorCode) :
    ∃ turns, ∀ more, List.Forall₂ (Answered (registered registrations) impl client) calls
      (serve config impl.resources (fun _ _ => {}) (more + turns) (.readHeader (.new config))
        ⟨arriving.flatten, ending⟩) := by
  have represents := represents_after registrations few
  obtain ⟨-, -, copied⟩ := (start_eq_some_iff represents valid impl).mp started
  obtain ⟨requests, all⟩ := Call.exists_requests direct host plain
  obtain ⟨texts, origin⟩ := Call.written_eq all
  have stream : arriving.flatten.flatten = requests.flatMap PersistentRequest.bytes := by
    rw [List.flatMap_def, texts, ← apart, ← List.flatten_flatten]
  -- what the walk through the resources meets leads to the first callback
  have leads : ∀ call ∈ calls, ∃ pattern callback,
      (registered registrations).First (call.message client) pattern callback ∧
        impl.answerer (call.message client) = some callback := by
    intro call member
    obtain ⟨pattern, callback, first⟩ := matched call member
    refine ⟨pattern, callback, first, ?_⟩
    rw [copied]
    exact (answerer_eq_some_iff represents _ callback).mpr ⟨pattern, first⟩
  have room : ∀ r ∈ requests, r.bytes.length < config.maxRequestStreambufSize := by
    intro r member
    obtain ⟨call, among, writes⟩ := origin r member
    rw [writes.text]
    exact (plain call among).room
  have found : ∀ r ∈ requests, (findResource impl.resources r.message).isSome := by
    intro r member
    obtain ⟨call, among, writes⟩ := origin r member
    obtain ⟨-, callback, -, answers⟩ := leads call among
    obtain ⟨id, found, -⟩ := Option.bind_eq_some_iff.mp answers
    rw [writes.message, found]
    rfl
  obtain ⟨turns, handed⟩ := exists_handed config impl.resources requests room found
    (s := ⟨arriving.flatten, ending⟩) stream
    (cutBetween_flatten requests [] (apart.trans texts.symm))
  have written := (List.forall₂_and_left (p := (· ∈ calls)) calls requests).mpr
    ⟨fun call member => member, all⟩
  refine ⟨turns, fun more => forall₂_compose ?_ written (handed more)⟩
  rintro call r served ⟨member, writes⟩ takes
  obtain ⟨pattern, callback, first, answers⟩ := leads call member
  rw [WebServerImpl.answerer, ← writes.message, takes.found, Option.bind_some] at answers
  refine ⟨takes.message.trans writes.message, takes.content.trans writes.content, pattern,
    callback, answers, first, fun fits down carried turns enough => ?_⟩
  obtain ⟨turns, rfl⟩ := Nat.exists_eq_add_of_le' enough
  exact reply_is_read client.config fits carried turns

/-- The path that the pattern spells. -/
@[reducible] private def literal : RegexMatch where
  regexMatch regex path := regex == ascii "^" ++ path ++ ascii "$"

/-- The content is sent back. -/
private def echo (request : Request) : Reply where
  code := .successOk
  content := request.loadContent

private def echoing : List (RequestCall (Request → Reply)) :=
  [.request (ascii "/a") (ascii "GET") (some echo), .post (ascii "/a") (some echo)]

private def localhost : Client :=
  ⟨{ host := ascii "localhost", port := 80 }, ascii "localhost", 80, 80, .http⟩

private def twoCalls : List Call :=
  [⟨ascii "GET", ascii "/a", ascii "x=1", [], []⟩, ⟨ascii "POST", ascii "/a", [], ascii "body", []⟩]

/-- The second call arrives in two pieces. -/
private def arrivals : List (List Bytes) :=
  twoCalls.map fun call =>
    let text := @Call.text findFirst localhost call
    [text.take 50, text.drop 50]

omit [HeaderFind] [RegexMatch] in
theorem calls_are_answered_twice :
    ∃ impl, (WebServer.after echoing).start (fun _ => true) = some impl ∧
      ∃ turns, ∀ more,
        List.Forall₂ (@Answered findFirst literal (registered echoing) impl localhost) twoCalls
          (@serve UInt64 findFirst literal {} impl.resources (fun _ _ => {}) (more + turns)
            (.readHeader (.new {})) ⟨arrivals.flatten, none⟩) := by
  have starts : ((WebServer.after echoing).start fun _ => true).isSome = true := by decide +kernel
  obtain ⟨impl, started⟩ := Option.isSome_iff_exists.mp starts
  refine ⟨impl, started, @calls_are_answered findFirst literal (fun _ => true) echoing (by decide)
    impl started localhost rfl (by decide) {} twoCalls ?_ ?_ arrivals (by decide +kernel) none⟩
  · intro call member
    have plain : ∀ call ∈ twoCalls, PlainRequestLine call.method call.path call.query ∧
        call.path.head? = some 47 ∧ call.header = [] ∧ call.content.length < sizeMax ∧
        (@Call.text findFirst localhost call).length < sizeMax - 1 := by decide +kernel
    obtain ⟨line, rooted, bare, fits, room⟩ := plain call member
    refine @Call.Plain.mk findFirst _ _ _ line rooted ?_ fits ?_ room
    · rw [bare]
      exact ⟨by decide, by decide, by decide⟩
    · rw [bare]
      intro field none_
      cases none_
  · intro call member
    have known : ∀ call ∈ twoCalls, call.path = ascii "/a" ∧
        (call.method = ascii "GET" ∨ call.method = ascii "POST") := by decide
    obtain ⟨path, method⟩ := known call member
    refine ⟨ascii "^/a$", echo, @Registered.First.mk _ literal _ _ _ _ ?_ ?_ ?_⟩
    · show registered echoing _ call.method = _
      rcases method with method | method <;> rw [method] <;> rfl
    · show (ascii "^/a$" == _) = true
      rw [show (call.message localhost).path = call.path from rfl, path]
      rfl
    · intro other less _
      show (other == _) = false
      rw [show (call.message localhost).path = call.path from rfl, path, beq_eq_false_iff_ne]
      rintro rfl
      revert less
      decide

end ServerLib.Web
