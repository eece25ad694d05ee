import ServerLib.Web.WebClient

/-!
# `http_client_impl<HTTPS>`

The client of the other protocol shares its base with the plain one and has its own `connect`:
behind the connect of the socket comes the handshake, and if there is a proxy, before that a
tunnel through it. The tunnel is asked for in plain text, and granted by an answer whose status
begins with 200. Whatever fails on the way calls the callback of the session, and the connection
leaves the pool.

While a session is on that way the model of the base has it wait for the write that comes behind
it.
-/
namespace ServerLib.Web

open Network (Bytes)

/-- The operation between the connect and the write that a session waits for. -/
inductive OpeningStep where
  | writeConnect
  | readConnect
  | handshake
  deriving DecidableEq

/-- What has been brought to an end on a socket. -/
inductive Sent where
  /-- a write on the `next_layer` -/
  | plain (text : Bytes)
  /-- the answer of the proxy -/
  | tunnelled (statusCode : Bytes)
  | handshake
  | request (text : Bytes)
  deriving DecidableEq

/-- `make_error_code(errc::permission_denied)` -/
def permissionDenied : ErrorCode := .other 13

def connectRequest (c : Client) : Bytes :=
  let hostPort := c.host ++ ascii ":" ++ decimal c.port.toNat
  ascii "CONNECT " ++ hostPort ++ ascii " HTTP/1.1" ++ crlf ++
    ascii "Host: " ++ hostPort ++ crlf ++ crlf

structure SecureClient where
  web : WebClient
  /-- of a session -/
  opening : Nat → Option OpeningStep := fun _ => none
  /-- by connection -/
  sent : Nat → List Sent := fun _ => []

namespace SecureClient

/-- The base is that of the socket type `HTTPS`. -/
def start (client : Client) : SecureClient :=
  { web := .start { client with socketType := .https } }

def await (id : Nat) (opening : Option OpeningStep) (s : SecureClient) : SecureClient :=
  { s with opening := Function.update s.opening id opening }

def send (c : Nat) (sent : Sent) (s : SecureClient) : SecureClient :=
  { s with sent := Function.update s.sent c (s.sent c ++ [sent]) }

@[simp] theorem await_opening (s : SecureClient) (id : Nat) (opening : Option OpeningStep) :
    (s.await id opening).opening id = opening := Function.update_self ..

@[simp] theorem send_sent (s : SecureClient) (c : Nat) (sent : Sent) :
    (s.send c sent).sent c = s.sent c ++ [sent] := Function.update_self ..

/-- A handler calls the callback of its session with an error. -/
def fail (order : List Nat) (id : Nat) (session : Session) (ec : ErrorCode) (s : SecureClient) :
    SecureClient :=
  { s.await id none with web := (s.web.count id).callback order id session (.error ec) }

/-- The handler of `asio::async_connect`. -/
def afterConnect (id : Nat) (s : SecureClient) : SecureClient :=
  if s.web.client.config.proxyServer ≠ [] then s.await id (some .writeConnect)
  else s.await id (some .handshake)

/-- The handler of the read of the proxy's answer. -/
def afterAnswer (order : List Nat) (id : Nat) (session : Session) (r : ReadResult)
    (s : SecureClient) : SecureClient :=
  if (r.ec = none ∨ r.ec = some .notFound) ∧ r.buf.full then
    s.fail order id session .messageSize
  else
    match r.ec with
    | some ec => s.fail order id session ec
    | none =>
      match parseResponse r.buf {} with
      | .error failure => { s with web := { s.web with escaped := some failure } }
      | .ok (false, _) => s.fail order id session .protocolError
      | .ok (true, message, _) =>
        -- `compare(0, 3, "200") != 0`
        if message.statusCode = [] ∨ message.statusCode.take 3 ≠ ascii "200" then
          s.fail order id session permissionDenied
        else
          (s.send session.connection (.tunnelled message.statusCode)).await id (some .handshake)

/-- An operation between the connect and the write completes; `none` if the read does not. -/
def completeOpening (id : Nat) (session : Session) (opening : OpeningStep) (ec : Option ErrorCode)
    (proxy : Socket) (order : List Nat) (s : SecureClient) : Option SecureClient :=
  match opening, ec with
  -- how a read completes is up to what the proxy sends
  | .readConnect, _ =>
    (asyncReadUntil headerEnd (Response.new s.web.client.config).streambuf proxy).map fun r =>
      s.afterAnswer order id session r
  | _, some ec => some (s.fail order id session ec)
  | .writeConnect, none =>
    some ((s.send session.connection (.plain (connectRequest s.web.client))).await id
      (some .readConnect))
  -- `write(session)`
  | .handshake, none => some ((s.send session.connection .handshake).await id none)

/-- The operation of a session completes. -/
def complete [HeaderFind] (id : Nat) (ec : Option ErrorCode) (socket : Socket) (order : List Nat)
    (s : SecureClient) : Option SecureClient :=
  match s.web.sessions id with
  | none => none
  | some session =>
    match s.opening id with
    | some opening => s.completeOpening id session opening ec socket order
    | none =>
      (s.web.complete id ec socket order).map fun web =>
        match session.pending, ec with
        | .connect _, none => afterConnect id { s with web }
        | .write _, none =>
          send session.connection (.request session.requestStreambuf) { s with web }
        | _, _ => { s with web }

def step [HeaderFind] (s : SecureClient) : PoolAction → Option SecureClient
  | .act (.complete id ec socket order) =>
    if s.web.escaped.isSome then none
    else if order.Perm s.web.connections ∧ s.web.isRunning then s.complete id ec socket order
    else none
  | a => (s.web.poolStep a).map fun web => { s with web }

end SecureClient

end ServerLib.Web
