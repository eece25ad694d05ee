import ServerLib.Web.RequestHeader
import ServerLib.Web.RequestMessage

/-!
# Requests behind one another on a connection

A session reads with a stream buffer of its own, and the next session starts with an empty one.
What a read has brought beyond the end of a request is neither given back nor handed on: it is
exposed with the content of this request and missing in front of the next one. Requests that are
sent back to back are so seen as they were sent exactly if for each of them a read ends between
the end of its header and its own end.
-/
namespace ServerLib.Web

open Network (Bytes)
open Segmented (EndsAt dropItems)

/-- How the end of the body is told: by its announced length, or there is none. -/
inductive Sized (header : Header) (body : Bytes) : Prop where
  | announced (front back : Header) (name value : Bytes)
      (split : header = front ++ (name, value) :: back)
      (before : front.Lacks (ascii "Content-Length")) (behind : back.Lacks (ascii "Content-Length"))
      (named : caseInsensitiveEqual name (ascii "Content-Length") = true)
      (digits : IsNumeral 10 value) (announces : numeral 10 value = body.length)
  | absent (unsized : header.Lacks (ascii "Content-Length"))
      (unchunked : header.Lacks (ascii "Transfer-Encoding")) (empty : body = [])

/-- A well-formed HTTP/1.1 request that does not ask to close the connection. -/
structure PersistentRequest where
  method : Bytes
  target : Bytes
  fields : List SpacedField
  body : Bytes
  method_plain : 32 ∉ method ∧ Plain method
  target_plain : 32 ∉ target ∧ Plain target
  plain : ∀ f ∈ fields, PlainField f.field
  sized : Sized (fields.map SpacedField.field) body
  fits : body.length < sizeMax
  persistent : ∀ f ∈ fields, caseInsensitiveEqual f.field.1 (ascii "Connection") = true →
    caseInsensitiveEqual f.field.2 (ascii "close") = false

namespace PersistentRequest

def header (r : PersistentRequest) : Header := r.fields.map SpacedField.field

def block (r : PersistentRequest) : Bytes :=
  headerBlock (targetLine r.method r.target :: r.fields.map SpacedField.line)

def bytes (r : PersistentRequest) : Bytes := r.block ++ r.body

/-- What the handler is to see: the message as the parser reads it, which cuts the target at its
last `?`. -/
def message (r : PersistentRequest) : RequestMessage where
  method := r.method
  path := (scannedTarget r.target []).1
  queryString := (scannedTarget r.target []).2
  httpVersion := ascii "1.1"
  header := r.header

theorem lines_clean (r : PersistentRequest) :
    ∀ l ∈ targetLine r.method r.target :: r.fields.map SpacedField.line,
      l ≠ [] ∧ Plain l := by
  intro l member
  rcases List.mem_cons.mp member with rfl | later
  · exact targetLine_plain r.method_plain.2 r.target_plain.2
  · obtain ⟨f, among, rfl⟩ := List.mem_map.mp later
    exact SpacedField.line_plain (r.plain f among)

/-- The header is parsed to the message that the handler is to see. -/
theorem requestHeader (r : PersistentRequest) : RequestHeader r.block r.message := by
  obtain ⟨n, total, occurs⟩ := leftmostAt_headerBlock r.lines_clean []
  rw [List.append_nil] at occurs
  refine ⟨⟨n, total, occurs⟩, ?_⟩
  have good : ({ maxSize := r.block.length, data := r.block } : StreamBuf).good := rfl
  have parsed := parseRequest_targetLine r.method_plain r.target_plain r.fields good
    (List.append_nil _).symm {}
  have nothing : ({ maxSize := r.block.length, data := r.block } : StreamBuf).consume
      r.block.length = { maxSize := r.block.length } := by
    simp [StreamBuf.consume]
  dsimp only at parsed
  rw [← block, nothing] at parsed
  exact parsed

theorem block_pos (r : PersistentRequest) : 0 < r.block.length := r.requestHeader.length_pos

end PersistentRequest

/-- For each request a read ends between the end of its header and its own end. -/
def CutBetween (pieces : List Bytes) : Nat → List PersistentRequest → Prop
  | _, [] => True
  | start, r :: rs =>
    (∃ n, EndsAt pieces n ∧ start + r.block.length ≤ n ∧ n ≤ start + r.bytes.length) ∧
      CutBetween pieces (start + r.bytes.length) rs

theorem cutBetween_dropItems_iff (pieces : List Bytes) (n start : Nat)
    (rs : List PersistentRequest) :
    CutBetween (dropItems n pieces) start rs ↔ CutBetween pieces (n + start) rs := by
  induction rs generalizing start with
  | nil => exact Iff.rfl
  | cons r rs ih =>
    rw [CutBetween, CutBetween, ih, ← Nat.add_assoc]
    refine and_congr ?_ Iff.rfl
    have positive := r.block_pos
    constructor
    · rintro ⟨m, ends, behind, within⟩
      exact ⟨n + m, (Segmented.endsAt_dropItems_iff (by omega)).mp ends, by omega, by omega⟩
    · rintro ⟨m, ends, behind, within⟩
      have inside : n + (m - n) = m := by omega
      refine ⟨m - n, (Segmented.endsAt_dropItems_iff (by omega)).mpr (by rwa [inside]), by omega,
        by omega⟩

variable [HeaderFind]

/-- The connection stays open behind the answer. -/
theorem PersistentRequest.readsOn (r : PersistentRequest) : readsOn r.message {} = true := by
  -- `close` decides wherever it stands, and none of the fields says so
  have none_closes : ∀ values : List Bytes,
      (∀ value ∈ values, caseInsensitiveEqual value (ascii "close") = false) →
      keepsConnection values ≠ some false := by
    intro values open_
    induction values with
    | nil => simp [keepsConnection]
    | cons value values ih =>
      rw [keepsConnection, if_neg (by simp [open_ value List.mem_cons_self])]
      split
      · simp
      · exact ih fun v member => open_ v (List.mem_cons_of_mem value member)
  have decided := none_closes (HeaderFind.equalRange r.header (ascii "Connection")) (by
    intro value member
    have among := (HeaderFind.range r.header (ascii "Connection")).mem_iff.mp member
    obtain ⟨field, matching, rfl⟩ := List.mem_map.mp among
    obtain ⟨inside, named⟩ := List.mem_filter.mp matching
    obtain ⟨f, written, rfl⟩ := List.mem_map.mp inside
    exact r.persistent f written named)
  have recent : decide (ascii "1.1" < ascii "1.1") = false := decide_eq_false (List.lt_irrefl _)
  have message : r.message.header = r.header ∧ r.message.httpVersion = ascii "1.1" := ⟨rfl, rfl⟩
  simp only [ServerLib.Web.readsOn, if_true, Bool.false_eq_true, if_false, message, recent,
    Bool.not_false]
  split
  next keeps found =>
    cases keeps with
    | false => exact absurd found decided
    | true => rfl
  · rfl

theorem PersistentRequest.announces (r : PersistentRequest) :
    r.header.AnnouncesPlain r.body.length := by
  cases r.sized with
  | announced front back name value split before behind named digits announces =>
    refine .inl ⟨value, ?_, ?_⟩
    · rw [header, split]
      exact find_unique before behind named
    · rw [← announces]
      exact stoul_numeral (by decide) digits (announces ▸ r.fits)
  | absent unsized unchunked empty =>
    refine .inr ⟨find_eq_none unsized, ?_, by rw [empty]; rfl⟩
    rw [header, find_eq_none unchunked]
    exact (Option.some_ne_none _).symm

/-- Behind the header the rest of the body is read, if there is any. -/
theorem PersistentRequest.ofHeader (r : PersistentRequest) (c : ServerConfig) (k : Nat)
    (buf : StreamBuf) :
    ServerStep.ofHeader c k ⟨r.message, buf⟩ =
      if k < r.body.length then .readContent (r.body.length - k) ⟨r.message, buf⟩
      else .findResource ⟨r.message, buf⟩ :=
  ofHeader_plain c (show r.message.header.AnnouncesPlain r.body.length from r.announces) k buf

variable {η : Type} [RegexMatch] (c : ServerConfig) (resources : Resources η)
  (answers : η → Request → Answer)

theorem serve_of_turn {step : ServerStep} {s s' : Socket} {t : Turn ServerStep}
    (turned : serverTurn c step s = some (t, s')) (turns : Nat) :
    serve c resources answers (turns + 1) step s = serve c resources answers turns t.step s' := by
  cases step with
  | findResource => cases turned
  | _ => simp only [serve, turned]

theorem serve_of_none {step : ServerStep} {s : Socket} (stopped : serverTurn c step s = none)
    (waits : ∀ request, step ≠ .findResource request) (turns : Nat) :
    serve c resources answers turns step s = [] := by
  cases turns with
  | zero => rfl
  | succ turns =>
    cases step with
    | findResource request => exact absurd rfl (waits request)
    | _ => simp only [serve, stopped]

omit [RegexMatch] in
/-- The first read of a session, and what its handler makes of it. -/
theorem session_header (r : PersistentRequest) {rest : Bytes} {s : Socket}
    (stream : s.pieces.flatten = r.bytes ++ rest)
    (room : r.bytes.length < c.maxRequestStreambufSize) :
    ∃ m q, HeaderRead q s r.block (r.body ++ rest) m ∧ q.Carries (Request.new c).streambuf s ∧
      serverTurn c (.readHeader (.new c)) s = some (afterRequestHeader c {} q, q.socket) ∧
      (q.buf.full = true → (afterRequestHeader c {} q).step = .tooLarge) ∧
      (q.buf.full = false → (afterRequestHeader c {} q).step =
        .ofHeader c (m - r.block.length) ⟨r.message, q.buf.consume r.block.length⟩) := by
  have whole : s.pieces.flatten = r.block ++ (r.body ++ rest) := by
    rw [stream, PersistentRequest.bytes, List.append_assoc]
  have shorter : r.block.length ≤ r.bytes.length := by
    rw [PersistentRequest.bytes, List.length_append]
    exact Nat.le_add_right _ _
  obtain ⟨q, completed, carries, cases⟩ := r.requestHeader.first_read c whole
  have turned := turn_of_header c completed
  rcases cases with ⟨full, refused, found⟩ | ⟨open_, read, goesOn⟩
  · have read := found (Nat.le_of_lt (Nat.lt_of_le_of_lt shorter room))
    refine ⟨q.buf.size, q, read, carries, turned, fun _ => refused, fun open_ => ?_⟩
    rw [full] at open_
    cases open_
  · refine ⟨q.buf.size, q, read, carries, turned, fun full => ?_, fun _ => goesOn⟩
    rw [open_] at full
    cases full

omit [RegexMatch] in
/-- The second read of a session brings the rest of the body, and no more than that. -/
theorem body_is_read (message : RequestMessage) {buf : StreamBuf} {s : Socket} {missing : Nat}
    (brought : missing ≤ s.pieces.flatten.length) (room : buf.size + missing < buf.maxSize) :
    ∃ t buf', serverTurn c (.readContent missing ⟨message, buf⟩) s =
        some (t, { s with pieces := dropItems missing s.pieces }) ∧
      t.step = .findResource ⟨message, buf'⟩ ∧
      buf'.data = buf.data ++ s.pieces.flatten.take missing := by
  obtain ⟨q, completed⟩ : ∃ q, asyncReadExactly missing buf s = some q :=
    asyncReadExactly_of_le brought
  obtain ⟨carries, cases⟩ := asyncReadExactly_some completed
  cases cases with
  | ended _ _ _ short _ => exact absurd brought (Nat.not_le.mpr short)
  | overflow _ _ tight => omega
  | taken clean _ data left =>
    have socket : q.socket = { s with pieces := dropItems missing s.pieces } :=
      Socket.ext left carries.ending
    have open_ : q.buf.full = false := by
      rw [Bool.eq_false_iff]
      intro full
      have filled := (StreamBuf.full_iff _).mp full
      rw [StreamBuf.size, data, List.length_append, List.length_take, Nat.min_eq_left brought,
        ← StreamBuf.size, carries.maxSize] at filled
      omega
    refine ⟨afterRequestContent message q, q.buf, ?_, ?_, data⟩
    · simp only [serverTurn, completed, Option.map_some, socket]
    · simp only [afterRequestContent, clean, open_]
      rfl

/-- A session whose reads have brought no more than its request hands it over, and leaves the
socket behind it. -/
theorem session_exact (r : PersistentRequest) {rest : Bytes} {s : Socket}
    (stream : s.pieces.flatten = r.bytes ++ rest)
    (room : r.bytes.length < c.maxRequestStreambufSize)
    (cut : ∃ n, EndsAt s.pieces n ∧ r.block.length ≤ n ∧ n ≤ r.bytes.length) :
    ∃ turns request, request.message = r.message ∧ request.loadContent = r.body ∧ ∀ more,
      serve c resources answers (more + turns) (.readHeader (.new c)) s =
        serve c resources answers more (.findResource request)
          { s with pieces := dropItems r.bytes.length s.pieces } := by
  obtain ⟨m, q, read, carries, turned, -, opened⟩ := session_header c r stream room
  obtain ⟨n, ends, behind, within⟩ := cut
  have inside : m ≤ r.bytes.length := Nat.le_trans (read.first n ends behind) within
  have total : r.bytes.length = r.block.length + r.body.length := List.length_append
  have after := read.behind
  have open_ : q.buf.full = false := by
    rw [Bool.eq_false_iff]
    intro full
    have filled := (StreamBuf.full_iff _).mp full
    rw [read.size, carries.maxSize] at filled
    have limit : m = c.maxRequestStreambufSize := filled
    omega
  have content : (q.buf.consume r.block.length).data = r.body.take (m - r.block.length) := by
    rw [StreamBuf.consume_data, read.data, List.drop_left,
      List.take_append_of_le_length (by omega)]
  have socket : q.socket = { s with pieces := dropItems m s.pieces } :=
    Socket.ext read.left carries.ending
  have behind_read : q.socket.pieces.flatten = (r.body ++ rest).drop (m - r.block.length) := by
    rw [read.left, Segmented.flatten_dropItems, stream, PersistentRequest.bytes,
      List.append_assoc, List.drop_append, List.drop_eq_nil_of_le after, List.nil_append]
  have handled := opened open_
  rw [r.ofHeader] at handled
  split at handled
  next missing =>
    -- the rest of the body is read, and no more than that
    have brought : r.body.length - (m - r.block.length) ≤ q.socket.pieces.flatten.length := by
      rw [behind_read, List.length_drop, List.length_append]
      omega
    have held : (q.buf.consume r.block.length).size = m - r.block.length := by
      rw [StreamBuf.size, content, List.length_take]
      omega
    have limit : (q.buf.consume r.block.length).maxSize = c.maxRequestStreambufSize :=
      carries.maxSize
    obtain ⟨t, buf, turned', handled', data⟩ := body_is_read c r.message brought
      (show (q.buf.consume r.block.length).size + _ < _ by rw [held, limit]; omega)
    have missed : ((r.body ++ rest).drop (m - r.block.length)).take
        (r.body.length - (m - r.block.length)) = r.body.drop (m - r.block.length) := by
      rw [List.drop_append_of_le_length (by omega), ← List.length_drop, List.take_left]
    have whole : buf.data = r.body := by
      rw [data, content, behind_read, missed, List.take_append_drop]
    have left : dropItems (r.body.length - (m - r.block.length)) q.socket.pieces =
        dropItems r.bytes.length s.pieces := by
      rw [read.left, Segmented.dropItems_dropItems]
      exact congrArg (dropItems · s.pieces) (by omega)
    refine ⟨2, ⟨r.message, buf⟩, rfl, whole, fun more => ?_⟩
    rw [serve_of_turn c resources answers turned, handled,
      serve_of_turn c resources answers turned', handled', left, carries.ending]
  next there =>
    have at_end : m = r.bytes.length := by omega
    refine ⟨1, ⟨r.message, q.buf.consume r.block.length⟩, rfl, ?_, fun more => ?_⟩
    · show (q.buf.consume r.block.length).data = r.body
      rw [content, List.take_of_length_le (Nat.not_lt.mp there)]
    · rw [serve_of_turn c resources answers turned, handled, ← at_end, socket]

/-- A session whose reads have brought more than its request hands over something else, or
nothing. -/
theorem session_surplus (r : PersistentRequest) {rest : Bytes} {s : Socket}
    (stream : s.pieces.flatten = r.bytes ++ rest)
    (room : r.bytes.length < c.maxRequestStreambufSize)
    (uncut : ¬ ∃ n, EndsAt s.pieces n ∧ r.block.length ≤ n ∧ n ≤ r.bytes.length) :
    (∀ turns, serve c resources answers turns (.readHeader (.new c)) s = []) ∨
    ∃ request s', request.loadContent ≠ r.body ∧ ∀ more,
      serve c resources answers (more + 1) (.readHeader (.new c)) s =
        serve c resources answers more (.findResource request) s' := by
  obtain ⟨m, q, read, carries, turned, filled, opened⟩ := session_header c r stream room
  have total : r.bytes.length = r.block.length + r.body.length := List.length_append
  cases full : q.buf.full with
  | true =>
    left
    intro turns
    cases turns with
    | zero => rfl
    | succ turns =>
      rw [serve_of_turn c resources answers turned, filled full]
      exact serve_of_none c resources answers rfl (by simp) turns
  | false =>
    right
    -- the first read ends behind the request, and its handler goes on without another one
    have beyond : r.bytes.length < m := by
      by_contra inside
      exact uncut ⟨m, read.ends full, read.behind, Nat.not_lt.mp inside⟩
    have handled := opened full
    rw [r.ofHeader, if_neg (by omega)] at handled
    refine ⟨⟨r.message, q.buf.consume r.block.length⟩, q.socket, ?_, fun more => ?_⟩
    · intro same
      have content : (q.buf.consume r.block.length).data =
          (r.body ++ rest).take (m - r.block.length) := by
        rw [StreamBuf.consume_data, read.data, List.drop_left]
      have length := congrArg List.length (content.symm.trans same)
      have bound := read.within
      rw [stream, List.length_append] at bound
      rw [List.length_take, List.length_append] at length
      omega
    · rw [serve_of_turn c resources answers turned, handled]

/-! ### All sessions of a connection -/

/-- The handlers see the requests once each, in order and with their own bodies. -/
def SeenOnce (s : Socket) (requests : List PersistentRequest) : Prop :=
  ∃ turns, ∀ more,
    (serve c resources answers (more + turns) (.readHeader (.new c)) s).map
      (fun (_, request) => (request.message, request.loadContent)) =
    requests.map fun r => (r.message, r.body)

omit [RegexMatch] in
/-- A read that fails ends the session. -/
theorem afterRequestHeader_failed {q : ReadResult} {code : ErrorCode} (failed : q.ec = some code)
    (message : RequestMessage) :
    (afterRequestHeader c message q).step = .tooLarge ∨
      (afterRequestHeader c message q).step = .onError code := by
  simp only [afterRequestHeader, failed]
  split
  · exact .inl rfl
  · exact .inr rfl

/-- A connection on which nothing comes any more. -/
theorem serve_nothing {s : Socket} (stream : s.pieces.flatten = []) (turns : Nat) :
    serve c resources answers turns (.readHeader (.new c)) s = [] := by
  cases turned : serverTurn c (.readHeader (.new c)) s with
  | none => exact serve_of_none c resources answers turned (by simp) turns
  | some result =>
    obtain ⟨q, completed, same⟩ := Option.map_eq_some_iff.mp turned
    subst same
    obtain ⟨carries, cases⟩ := asyncReadUntil_some completed
    -- there is nothing that a header could be found in
    have failed : ∃ code, q.ec = some code := by
      cases cases with
      | found n leftmost _ _ _ =>
        have inside := leftmost.bound
        have empty : pending q.buf q.socket = [] := carries.stream.trans stream
        rw [(List.append_eq_nil_iff.mp empty).1] at inside
        exact absurd inside (by simp [headerEnd])
      | overflow _ failed _ => exact ⟨_, failed⟩
      | ended code _ failed _ _ => exact ⟨code, failed⟩
    obtain ⟨code, failed⟩ := failed
    cases turns with
    | zero => rfl
    | succ turns =>
      rw [serve_of_turn c resources answers turned]
      rcases afterRequestHeader_failed c failed (Request.new c).message with step | step <;>
        rw [step]
      · exact serve_of_none c resources answers rfl (by simp) turns
      · exact serve_of_none c resources answers rfl (by simp) turns

/-- What has come with the first request is seen with it, or nothing is. -/
theorem not_seenOnce_of_uncut (r : PersistentRequest) (rs : List PersistentRequest) {rest : Bytes}
    {s : Socket} (stream : s.pieces.flatten = r.bytes ++ rest)
    (room : r.bytes.length < c.maxRequestStreambufSize)
    (uncut : ¬ ∃ n, EndsAt s.pieces n ∧ r.block.length ≤ n ∧ n ≤ r.bytes.length) :
    ¬ SeenOnce c resources answers s (r :: rs) := by
  rintro ⟨turns, seen⟩
  have first := seen 2
  rcases session_surplus c resources answers r stream room uncut with
    nothing | ⟨request, s', other, served⟩
  · rw [nothing] at first
    cases first
  · rw [show 2 + turns = turns + 1 + 1 by omega, served] at first
    simp only [serve] at first
    split at first
    · cases first
    · rw [List.map_cons, List.map_cons] at first
      exact other (congrArg Prod.snd (List.cons.inj first).1)

/-- Requests that are sent back to back are each seen once exactly if for each of them a read
ends between the end of its header and its own end. -/
theorem seenOnce_iff (requests : List PersistentRequest)
    (room : ∀ r ∈ requests, r.bytes.length < c.maxRequestStreambufSize)
    (registered : ∀ r ∈ requests, (findResource resources r.message).isSome)
    (answered : ∀ handler request, answers handler request = {})
    {s : Socket} (stream : s.pieces.flatten = requests.flatMap PersistentRequest.bytes) :
    SeenOnce c resources answers s requests ↔ CutBetween s.pieces 0 requests := by
  induction requests generalizing s with
  | nil =>
    refine iff_of_true ⟨0, fun more => ?_⟩ trivial
    rw [serve_nothing c resources answers stream]
    rfl
  | cons r rs ih =>
    rw [List.flatMap_cons] at stream
    have here := room r List.mem_cons_self
    rw [CutBetween, Nat.zero_add, Nat.zero_add]
    by_cases cut : ∃ n, EndsAt s.pieces n ∧ r.block.length ≤ n ∧ n ≤ r.bytes.length
    · obtain ⟨turns, ⟨message, buf⟩, same, content, served⟩ :=
        session_exact c resources answers r stream here cut
      dsimp only at same
      subst same
      obtain ⟨handler, found⟩ := Option.isSome_iff_exists.mp (registered r List.mem_cons_self)
      -- the session hands its request over, and the next one begins behind it
      have handed : ∀ more, (serve c resources answers (more + 1 + turns) (.readHeader (.new c))
          s).map (fun (_, request) => (request.message, request.loadContent)) =
            (r.message, r.body) :: (serve c resources answers more (.readHeader (.new c))
              { s with pieces := dropItems r.bytes.length s.pieces }).map
                fun (_, request) => (request.message, request.loadContent) := by
        intro more
        rw [served]
        simp only [serve, found, answered, r.readsOn, if_true, List.map_cons, content]
      have left : (dropItems r.bytes.length s.pieces).flatten =
          rs.flatMap PersistentRequest.bytes := by
        rw [Segmented.flatten_dropItems, stream, List.drop_left]
      have rest := ih (fun r' member => room r' (List.mem_cons_of_mem r member))
        (fun r' member => registered r' (List.mem_cons_of_mem r member))
        (s := { s with pieces := dropItems r.bytes.length s.pieces }) left
      rw [cutBetween_dropItems_iff, Nat.add_zero] at rest
      rw [and_iff_right cut, ← rest]
      constructor
      · -- the turns of the first session are added in front, or taken off
        rintro ⟨n, seen⟩
        refine ⟨n, fun more => ?_⟩
        have all := seen (more + 1 + turns)
        rw [show more + 1 + turns + n = more + n + 1 + turns by omega, handed] at all
        exact (List.cons.inj all).2
      · rintro ⟨n, seen⟩
        refine ⟨n + 1 + turns, fun more => ?_⟩
        rw [show more + (n + 1 + turns) = more + n + 1 + turns by omega, handed, seen,
          List.map_cons]
    · exact iff_of_false (not_seenOnce_of_uncut c resources answers r rs stream here cut)
        fun both => cut both.1

/-- A request without fields and body. -/
def PersistentRequest.get (target : Bytes) (plain : 32 ∉ target ∧ Plain target) :
    PersistentRequest where
  method := ascii "GET"
  target := target
  fields := []
  body := []
  method_plain := by decide
  target_plain := plain
  plain := fun _ member => by cases member
  sized := .absent (fun _ member => by cases member) (fun _ member => by cases member) rfl
  fits := by decide
  persistent := fun _ member => by cases member

/-- The handler for all paths, and requests for two of them. -/
def allPaths : Resources Unit := ⟨[(ascii ".*", [(ascii "GET", ())])], []⟩

def twoRequests : List PersistentRequest :=
  [.get (ascii "/a") (by decide), .get (ascii "/b") (by decide)]

omit [HeaderFind] [RegexMatch] in
/-- Two requests that come with one read. -/
theorem requests_of_one_read_are_not_seen_once :
    ¬ @SeenOnce findFirst Unit ⟨fun regex _ => regex == ascii ".*"⟩ {} allPaths (fun _ _ => {})
      ⟨[twoRequests.flatMap PersistentRequest.bytes], none⟩ twoRequests := by
  apply @not_seenOnce_of_uncut findFirst Unit ⟨fun regex _ => regex == ascii ".*"⟩
  · exact List.append_nil _
  · decide
  · rintro ⟨n, ends, behind, within⟩
    rcases Segmented.endsAt_cons_iff.mp ends with rfl | ⟨k, rest, rfl⟩
    · revert behind
      decide
    · revert within
      rw [Nat.le_zero.mp rest.le]
      decide

omit [HeaderFind] [RegexMatch] in
theorem seenOnce_iff_two :
    let s : Socket := ⟨twoRequests.map PersistentRequest.bytes, none⟩
    @SeenOnce findFirst Unit ⟨fun regex _ => regex == ascii ".*"⟩ {} allPaths (fun _ _ => {}) s
      twoRequests ↔ CutBetween s.pieces 0 twoRequests :=
  @seenOnce_iff findFirst Unit ⟨fun regex _ => regex == ascii ".*"⟩ {} allPaths (fun _ _ => {})
    twoRequests (by decide) (by decide) (fun _ _ => rfl) _ rfl

end ServerLib.Web
