import ServerLib.Web.Chunked
import ServerLib.Web.HttpMessage

/-!
# `http_client_base_impl`: what one session writes and reads

A session writes one request and reads one response. Its read handlers go from one read
operation to the next until the callback is called; what becomes of the connection is not
their business, except that a header that could not be read leaves it to the pool whether there
is another attempt. The read handlers have no `try` block: whatever is thrown in them goes to
the loop that runs them.
-/
namespace ServerLib.Web

open Network (Bytes)

/-- What the client uses of its configuration. -/
structure ClientConfig where
  host : Bytes
  port : UInt16
  proxyServer : Bytes := []
  maxResponseStreambufSize : Nat := sizeMax - 1

def parseHostPort (hostPort : Bytes) (defaultPort : UInt16) : Except Failure (Bytes × UInt16) :=
  match hostPort.idxOf? 58 with
  | none => .ok (hostPort, defaultPort)
  | some hostEnd => do
    let host ← substr hostPort 0 hostEnd
    let port ← stoul 10 (← substr hostPort (hostEnd + 1) hostPort.length)
    pure (host, port.toUInt16)

/-- `socket_type`: the socket of `HTTP`, or the stream over it of `HTTPS`. -/
inductive SocketType where
  | http
  | https
  deriving DecidableEq, Repr

/-- The members that are set once, and the type argument. -/
structure Client where
  config : ClientConfig
  host : Bytes
  port : UInt16
  defaultPort : UInt16
  socketType : SocketType := .http

/-- The constructor of `http_client_base_impl`. -/
def Client.create (config : ClientConfig) : Except Failure Client := do
  let (host, port) ← parseHostPort config.host config.port
  pure { config, host, port, defaultPort := config.port }

/-! ### Writing the request -/

def createRequestHeader (c : Client) (method path : Bytes) (header : Header) : Bytes :=
  let correctedPath := if path = [] then ascii "/" else path
  let correctedPath :=
    if c.config.proxyServer ≠ [] ∧ c.socketType = .http then
      ascii "http://" ++ c.host ++ ascii ":" ++ decimal c.port.toNat ++ correctedPath
    else correctedPath
  method ++ ascii " " ++ correctedPath ++ ascii " HTTP/1.1" ++ crlf ++
    ascii "Host: " ++ c.host ++
    (if c.port ≠ c.defaultPort then ascii ":" ++ decimal c.port.toNat else []) ++ crlf ++
    header.flatMap fieldLine

/-- What `request` leaves in the `request_streambuf` of the session. -/
def requestStreambuf [HeaderFind] (c : Client) (method path content : Bytes) (header : Header) :
    Bytes :=
  createRequestHeader c method path header ++
    (if content ≠ [] ∧ HeaderFind.find header (ascii "Content-Length") = none ∧
        HeaderFind.find header (ascii "Transfer-Encoding") ≠ some (ascii "chunked") then
      ascii "Content-Length: " ++ decimal content.length ++ crlf
    else []) ++
    crlf ++ content

/-! ### Reading the response -/

/-- `http_client_base_impl::__http_response` -/
structure Response where
  message : ResponseMessage := {}
  streambuf : StreamBuf

namespace Response

def loadContent (r : Response) : Bytes := r.streambuf.loadContent

def new (c : ClientConfig) : Response where
  streambuf := { maxSize := c.maxResponseStreambufSize }

end Response

/-- The read operation that a session waits for, or what it has come to. -/
inductive ClientStep where
  | readHeader (response : Response)
  | readContent (missing : Nat) (response : Response)
  | readChunked (message : ResponseMessage) (step : ChunkStep)
  | readToEnd (response : Response)
  /-- The session's callback, with what `on_response_impl` passes on. -/
  | callback (result : Except ErrorCode Response)
  /-- The header could not be read. -/
  | lost (response : Response) (ec : ErrorCode)
  | broken (failure : Failure)

/-- How the session goes on with the outcome of the chunked reader. -/
def ClientStep.ofChunkStep (message : ResponseMessage) : ChunkStep → ClientStep
  | .finished buf => .callback (.ok ⟨message, buf⟩)
  | .tooLarge => .callback (.error .messageSize)
  | .malformed => .callback (.error .protocolError)
  | .failed ec => .callback (.error ec)
  | .broken failure => .broken failure
  | step => .readChunked message step

/-- Behind a header: how the end of the content is found. -/
def ClientStep.ofHeader [HeaderFind] (c : ClientConfig) (numAdditionalBytes : Nat)
    (response : Response) : ClientStep :=
  let header := response.message.header
  match HeaderFind.find header (ascii "Content-Length") with
  | some value =>
    -- not in a `try` block
    match stoul 10 value with
    | .error failure => .broken failure
    | .ok contentLength =>
      if numAdditionalBytes < contentLength then
        .readContent (contentLength - numAdditionalBytes) response
      else .callback (.ok response)
  | none =>
    if HeaderFind.find header (ascii "Transfer-Encoding") = some (ascii "chunked") then
      .readChunked response.message
        (readChunkedTransferEncoded c.maxResponseStreambufSize response.streambuf)
    else if response.message.httpVersion < ascii "1.1" ∨
        HeaderFind.find header (ascii "Session") = some (ascii "close") then
      .readToEnd response
    else .callback (.ok response)

/-- The handler of `async_read_until` in `read`. -/
def afterHeader [HeaderFind] (c : ClientConfig) (message : ResponseMessage) (r : ReadResult) :
    Turn ClientStep :=
  .after [.buffered r.buf] <|
  -- `not_found` is what a buffer without room for the delimiter ends with
  if (r.ec = none ∨ r.ec = some .notFound) ∧ r.buf.full then
    ⟨[], .callback (.error .messageSize)⟩
  else
    match r.ec with
    | some ec => ⟨[], .lost ⟨message, r.buf⟩ ec⟩
    | none =>
      let numAdditionalBytes := sizeSub r.buf.size r.bytesTransferred
      match parseResponse r.buf message with
      | .error failure => ⟨[], .broken failure⟩
      | .ok (false, _) => ⟨[], .callback (.error .protocolError)⟩
      | .ok (true, message, buf) => ⟨[], .ofHeader c numAdditionalBytes ⟨message, buf⟩⟩

/-- The handler of `async_read` for the content of an announced length. -/
def afterContent (message : ResponseMessage) (r : ReadResult) : Turn ClientStep :=
  .after [.buffered r.buf] <|
  match r.ec with
  | some ec => ⟨[], .callback (.error ec)⟩
  | none =>
    if r.buf.full then ⟨[], .callback (.error .messageSize)⟩
    else ⟨[], .callback (.ok ⟨message, r.buf⟩)⟩

/-- The handler of `async_read` for all that the server sends before it closes. -/
def afterEnd (message : ResponseMessage) (r : ReadResult) : Turn ClientStep :=
  .after [.buffered r.buf] <|
  match r.ec with
  | some ec =>
    -- the end of the stream is the end of the content
    if ec = .eof then ⟨[], .callback (.ok ⟨message, r.buf⟩)⟩ else ⟨[], .callback (.error ec)⟩
  | none =>
    if r.buf.full then ⟨[], .callback (.error .messageSize)⟩
    else ⟨[], .callback (.ok ⟨message, r.buf⟩)⟩

/-- The completion of the operation that a session waits for; `none` if there is none. -/
def clientTurn [HeaderFind] (c : ClientConfig) :
    ClientStep → Socket → Option (Turn ClientStep × Socket)
  | .readHeader response, s =>
    (asyncReadUntil headerEnd response.streambuf s).map fun r =>
      (afterHeader c response.message r, r.socket)
  | .readContent missing response, s =>
    (asyncReadExactly missing response.streambuf s).map fun r =>
      (afterContent response.message r, r.socket)
  | .readChunked message step, s =>
    (chunkTurn step s).map fun (t, s) => (t.map (.ofChunkStep message), s)
  | .readToEnd response, s =>
    (asyncReadAll response.streambuf s).map fun r => (afterEnd response.message r, r.socket)
  | _, _ => none

/-- The read completes with a header: the handler sets `attempt_reconnect`. -/
def ClientStep.headerRead : ClientStep → Socket → Bool
  | .readHeader response, s =>
    match asyncReadUntil headerEnd response.streambuf s with
    | some r => r.ec.isNone && !r.buf.full
    | none => false
  | _, _ => false

end ServerLib.Web
