import ServerLib.Web.Chunked
import ServerLib.Web.HttpMessage

/-!
# `server_base_impl`: what a session reads and a response writes

A session reads one request. Its read handlers go from one read operation to the next until a
handler is looked up for the request; the errors on the way go to `on_error`, most of them with
a response before. When the response of a handler has been written the connection is either
given up or gets a new session, with a request and a stream buffer of its own.
-/
namespace ServerLib.Web

open Network (Bytes)

inductive HttpStatusCode where
  | unknown
  | informationContinue
  | informationSwitchingProtocols
  | informationProcessing
  | successOk
  | successCreated
  | successAccepted
  | successNonAuthoritativeInformation
  | successNoContent
  | successResetContent
  | successPartialContent
  | successMultiStatus
  | successAlreadyReported
  | successImUsed
  | redirectionMultipleChoices
  | redirectionMovedPermanently
  | redirectionFound
  | redirectionSeeOther
  | redirectionNotModified
  | redirectionUseProxy
  | redirectionSwitchProxy
  | redirectionTemporaryRedirect
  | redirectionPermanentRedirect
  | clientErrorBadRequest
  | clientErrorUnauthorized
  | clientErrorPaymentRequired
  | clientErrorForbidden
  | clientErrorNotFound
  | clientErrorMethodNotAllowed
  | clientErrorNotAcceptable
  | clientErrorProxyAuthenticationRequired
  | clientErrorRequestTimeout
  | clientErrorConflict
  | clientErrorGone
  | clientErrorLengthRequired
  | clientErrorPreconditionFailed
  | clientErrorPayloadTooLarge
  | clientErrorUriTooLong
  | clientErrorUnsupportedMediaType
  | clientErrorRangeNotSatisfiable
  | clientErrorExpectationFailed
  | clientErrorImATeapot
  | clientErrorMisdirectionRequired
  | clientErrorUnprocessableEntity
  | clientErrorLocked
  | clientErrorFailedDependency
  | clientErrorUpgradeRequired
  | clientErrorPreconditionRequired
  | clientErrorTooManyRequests
  | clientErrorRequestHeaderFieldsTooLarge
  | clientErrorUnavailableForLegalReasons
  | serverErrorInternalServerError
  | serverErrorNotImplemented
  | serverErrorBadGateway
  | serverErrorServiceUnavailable
  | serverErrorGatewayTimeout
  | serverErrorHttpVersionNotSupported
  | serverErrorVariantAlsoNegotiates
  | serverErrorInsufficientStorage
  | serverErrorLoopDetected
  | serverErrorNotExtended
  | serverErrorNetworkAuthenticationRequired
  deriving DecidableEq, Repr

/-- `status_code`, from the table in `status_code_strings`. -/
def statusCode : HttpStatusCode → Bytes
  | .unknown => ascii ""
  | .informationContinue => ascii "100 Continue"
  | .informationSwitchingProtocols => ascii "101 Switching Protocols"
  | .informationProcessing => ascii "102 Processing"
  | .successOk => ascii "200 OK"
  | .successCreated => ascii "201 Created"
  | .successAccepted => ascii "202 Accepted"
  | .successNonAuthoritativeInformation => ascii "203 Non-Authoritative Information"
  | .successNoContent => ascii "204 No Content"
  | .successResetContent => ascii "205 Reset Content"
  | .successPartialContent => ascii "206 Partial Content"
  | .successMultiStatus => ascii "207 Multi-Status"
  | .successAlreadyReported => ascii "208 Already Reported"
  | .successImUsed => ascii "226 IM Used"
  | .redirectionMultipleChoices => ascii "300 Multiple Choices"
  | .redirectionMovedPermanently => ascii "301 Moved Permanently"
  | .redirectionFound => ascii "302 Found"
  | .redirectionSeeOther => ascii "303 See Other"
  | .redirectionNotModified => ascii "304 Not Modified"
  | .redirectionUseProxy => ascii "305 Use Proxy"
  | .redirectionSwitchProxy => ascii "306 Switch Proxy"
  | .redirectionTemporaryRedirect => ascii "307 Temporary Redirect"
  | .redirectionPermanentRedirect => ascii "308 Permanent Redirect"
  | .clientErrorBadRequest => ascii "400 Bad Request"
  | .clientErrorUnauthorized => ascii "401 Unauthorized"
  | .clientErrorPaymentRequired => ascii "402 Payment Required"
  | .clientErrorForbidden => ascii "403 Forbidden"
  | .clientErrorNotFound => ascii "404 Not Found"
  | .clientErrorMethodNotAllowed => ascii "405 Method Not Allowed"
  | .clientErrorNotAcceptable => ascii "406 Not Acceptable"
  | .clientErrorProxyAuthenticationRequired => ascii "407 Proxy Authentication Required"
  | .clientErrorRequestTimeout => ascii "408 Request Timeout"
  | .clientErrorConflict => ascii "409 Conflict"
  | .clientErrorGone => ascii "410 Gone"
  | .clientErrorLengthRequired => ascii "411 Length Required"
  | .clientErrorPreconditionFailed => ascii "412 Precondition Failed"
  | .clientErrorPayloadTooLarge => ascii "413 Payload Too Large"
  | .clientErrorUriTooLong => ascii "414 URI Too Long"
  | .clientErrorUnsupportedMediaType => ascii "415 Unsupported Media Type"
  | .clientErrorRangeNotSatisfiable => ascii "416 Range Not Satisfiable"
  | .clientErrorExpectationFailed => ascii "417 Expectation Failed"
  | .clientErrorImATeapot => ascii "418 I'm a teapot"
  | .clientErrorMisdirectionRequired => ascii "421 Misdirected Request"
  | .clientErrorUnprocessableEntity => ascii "422 Unprocessable Entity"
  | .clientErrorLocked => ascii "423 Locked"
  | .clientErrorFailedDependency => ascii "424 Failed Dependency"
  | .clientErrorUpgradeRequired => ascii "426 Upgrade Required"
  | .clientErrorPreconditionRequired => ascii "428 Precondition Required"
  | .clientErrorTooManyRequests => ascii "429 Too Many Requests"
  | .clientErrorRequestHeaderFieldsTooLarge => ascii "431 Request Header Fields Too Large"
  | .clientErrorUnavailableForLegalReasons => ascii "451 Unavailable For Legal Reasons"
  | .serverErrorInternalServerError => ascii "500 Internal Server Error"
  | .serverErrorNotImplemented => ascii "501 Not Implemented"
  | .serverErrorBadGateway => ascii "502 Bad Gateway"
  | .serverErrorServiceUnavailable => ascii "503 Service Unavailable"
  | .serverErrorGatewayTimeout => ascii "504 Gateway Timeout"
  | .serverErrorHttpVersionNotSupported => ascii "505 HTTP Version Not Supported"
  | .serverErrorVariantAlsoNegotiates => ascii "506 Variant Also Negotiates"
  | .serverErrorInsufficientStorage => ascii "507 Insufficient Storage"
  | .serverErrorLoopDetected => ascii "508 Loop Detected"
  | .serverErrorNotExtended => ascii "510 Not Extended"
  | .serverErrorNetworkAuthenticationRequired => ascii "511 Network Authentication Required"

/-! ### Writing a response -/

/-- `write_header` -/
def writeHeader (closeConnectionAfterResponse : Bool) (header : Header) (size : Nat) : Bytes :=
  let contentLengthWritten :=
    header.any fun field => caseInsensitiveEqual field.1 (ascii "content-length")
  let chunkedTransferEncoding :=
    header.any fun field => caseInsensitiveEqual field.1 (ascii "transfer-encoding") &&
      caseInsensitiveEqual field.2 (ascii "chunked")
  header.flatMap fieldLine ++
    if !contentLengthWritten && !chunkedTransferEncoding && !closeConnectionAfterResponse then
      ascii "Content-Length: " ++ decimal size ++ crlf ++ crlf
    else crlf

/-- What `__http_response::post` writes to the stream buffer of the response. -/
def post (closeConnectionAfterResponse : Bool) (code : HttpStatusCode) (content : Bytes)
    (header : Header) : Bytes :=
  ascii "HTTP/1.1 " ++ statusCode code ++ crlf ++
    writeHeader closeConnectionAfterResponse header content.length ++ content

/-! ### Reading a request -/

/-- What the server uses of its configuration. -/
structure ServerConfig where
  maxRequestStreambufSize : Nat := sizeMax - 1

/-- `server_base_impl::__http_request` -/
structure Request where
  message : RequestMessage := {}
  streambuf : StreamBuf

namespace Request

def loadContent (r : Request) : Bytes := r.streambuf.loadContent

/-- The request of a new session. -/
def new (c : ServerConfig) : Request where
  streambuf := { maxSize := c.maxRequestStreambufSize }

end Request

/-- The read operation that a session waits for, or what it has come to. -/
inductive ServerStep where
  | readHeader (request : Request)
  | readContent (missing : Nat) (request : Request)
  | readChunked (message : RequestMessage) (step : ChunkStep)
  | findResource (request : Request)
  /-- A response `client_error_payload_too_large` is sent before the error is reported. -/
  | tooLarge
  | onError (ec : ErrorCode)
  | broken (failure : Failure)

/-- How the session goes on with the outcome of the chunked reader. -/
def ServerStep.ofChunkStep (message : RequestMessage) : ChunkStep → ServerStep
  | .finished buf => .findResource ⟨message, buf⟩
  | .tooLarge => .tooLarge
  | .malformed => .onError .protocolError
  | .failed ec => .onError ec
  | .broken failure => .broken failure
  | step => .readChunked message step

/-- Behind a header: how the end of the content is found. -/
def ServerStep.ofHeader [HeaderFind] (c : ServerConfig) (numAdditionalBytes : Nat)
    (request : Request) : ServerStep :=
  let header := request.message.header
  match HeaderFind.find header (ascii "Content-Length") with
  | some value =>
    -- the `catch (...)` around it
    match stoul 10 value with
    | .error _ => .onError .protocolError
    | .ok contentLength =>
      if numAdditionalBytes < contentLength then
        .readContent (contentLength - numAdditionalBytes) request
      else .findResource request
  | none =>
    if HeaderFind.find header (ascii "Transfer-Encoding") = some (ascii "chunked") then
      .readChunked request.message
        (readChunkedTransferEncoded c.maxRequestStreambufSize request.streambuf)
    else .findResource request

/-- The handler of `async_read_until` in `read`. -/
def afterRequestHeader [HeaderFind] (c : ServerConfig) (message : RequestMessage)
    (r : ReadResult) : Turn ServerStep :=
  .after [.buffered r.buf] <|
  if (r.ec = none ∨ r.ec = some .notFound) ∧ r.buf.full then ⟨[], .tooLarge⟩
  else
    match r.ec with
    | some ec => ⟨[], .onError ec⟩
    | none =>
      let numAdditionalBytes := sizeSub r.buf.size r.bytesTransferred
      match parseRequest r.buf message with
      | .error failure => ⟨[], .broken failure⟩
      | .ok (false, _) => ⟨[], .onError .protocolError⟩
      | .ok (true, message, buf) => ⟨[], .ofHeader c numAdditionalBytes ⟨message, buf⟩⟩

/-- The handler of `async_read` for the content of an announced length. -/
def afterRequestContent (message : RequestMessage) (r : ReadResult) : Turn ServerStep :=
  .after [.buffered r.buf] <|
  match r.ec with
  | some ec => ⟨[], .onError ec⟩
  | none => if r.buf.full then ⟨[], .tooLarge⟩ else ⟨[], .findResource ⟨message, r.buf⟩⟩

/-- The completion of the operation that a session waits for; `none` if there is none. -/
def serverTurn [HeaderFind] (c : ServerConfig) :
    ServerStep → Socket → Option (Turn ServerStep × Socket)
  | .readHeader request, s =>
    (asyncReadUntil headerEnd request.streambuf s).map fun r =>
      (afterRequestHeader c request.message r, r.socket)
  | .readContent missing request, s =>
    (asyncReadExactly missing request.streambuf s).map fun r =>
      (afterRequestContent request.message r, r.socket)
  | .readChunked message step, s =>
    (chunkTurn step s).map fun (t, s) => (t.map (.ofChunkStep message), s)
  | _, _ => none

/-- A session on a socket, for so many completions. -/
def serverReads [HeaderFind] (c : ServerConfig) (s : Socket) (turns : Nat) : Run ServerStep :=
  runTurns (serverTurn c) turns (.readHeader (.new c)) s

/-! ### Handlers and the sessions of a connection -/

/-- Whether a path matches the regular expression with this text. -/
class RegexMatch where
  regexMatch : Bytes → Bytes → Bool

/-- The handlers, in the order in which the maps are walked through. -/
structure Resources (η : Type) where
  resource : List (Bytes × List (Bytes × η))
  defaultResource : List (Bytes × η) := []

/-- `find_resource`, on a server without an upgrade handler. -/
def findResource {η : Type} [RegexMatch] (resources : Resources η) (request : RequestMessage) :
    Option η :=
  let found := resources.resource.findSome? fun (regex, methods) =>
    (methods.lookup request.method).filter fun _ => RegexMatch.regexMatch regex request.path
  found <|> resources.defaultResource.lookup request.method

/-- How a handler has left its response, and how the write of it has ended. -/
structure Answer where
  closeConnectionAfterResponse : Bool := false
  ec : Option ErrorCode := none

/-- The loop over the `Connection` fields; `none` if none of them decides. -/
def keepsConnection : List Bytes → Option Bool
  | [] => none
  | value :: values =>
    if caseInsensitiveEqual value (ascii "close") then some false
    else if caseInsensitiveEqual value (ascii "keep-alive") then some true
    else keepsConnection values

/-- The callback of `send` in `write`: whether the connection gets a new session. -/
def readsOn [HeaderFind] (message : RequestMessage) (answer : Answer) : Bool :=
  if answer.ec = none then
    if answer.closeConnectionAfterResponse then false
    else
      -- without a field that decides it is the version that does
      match keepsConnection (HeaderFind.equalRange message.header (ascii "Connection")) with
      | some keeps => keeps
      | none => !decide (message.httpVersion < ascii "1.1")
  else false

/-- The handlers that are invoked on a connection, with their requests, in so many turns. The
handlers answer each request as `answers` says. -/
def serve {η : Type} [HeaderFind] [RegexMatch] (c : ServerConfig) (resources : Resources η)
    (answers : η → Request → Answer) : Nat → ServerStep → Socket → List (η × Request)
  | 0, _, _ => []
  | turns + 1, .findResource request, s =>
    match findResource resources request.message with
    | none => []
    | some handler =>
      (handler, request) ::
        if readsOn request.message (answers handler request) then
          serve c resources answers turns (.readHeader (.new c)) s
        else []
  | turns + 1, step, s =>
    match serverTurn c step s with
    | none => []
    | some (t, s) => serve c resources answers turns t.step s

end ServerLib.Web
