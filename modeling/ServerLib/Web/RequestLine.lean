import ServerLib.Foundation.Cut
import ServerLib.Web.HeaderEnd

/-!
# Request lines

The parser of requests takes the positions of its parts from one scan of the line. What it accepts
is a method, a target and `HTTP/` with a space between them. But the scan goes on behind a `?` and
notes the next one in its place, so that the target is cut at its last `?`, and what is in front
of that is the path.
-/
namespace ServerLib.Web

open Network (Bytes)

/-- A method, a target and a version, the latter up to the end of the line. -/
def IsRequestLine (line method target rest : Bytes) : Prop :=
  line = method ++ 32 :: (target ++ 32 :: (ascii "HTTP/" ++ rest)) ∧ 32 ∉ method ∧ 32 ∉ target

/-- A target as it should be cut, with the query string if it has none. -/
def pathAndQuery (target queryString : Bytes) : Bytes × Bytes :=
  (Cut.first 63 target).getD (target, queryString)

/-- The parser accepts request lines and nothing else, and reports their parts. It does not
throw. -/
structure ParsesRequestLine (stream : StreamBuf) (message : RequestMessage) : Prop where
  unthrown : ∀ exception, parseRequest stream message ≠ .error (.throws exception)
  accepts : (∃ message' stream', parseRequest stream message = .ok (true, message', stream')) ↔
    ∃ method target rest, IsRequestLine (stream.getline []).1 method target rest
  parts : ∀ message' stream' method target rest,
    parseRequest stream message = .ok (true, message', stream') →
    IsRequestLine (stream.getline []).1 method target rest →
    message'.method = method ∧ message'.httpVersion = rest.dropLast ∧
    (message'.path, message'.queryString) = pathAndQuery target message.queryString ∧
    63 ∉ message'.path

/-- A request line has one `?` in its target at most, and the parser comes back from the header
behind it. -/
def RequestLineTaken (stream : StreamBuf) : Prop :=
  ∀ method target rest, IsRequestLine (stream.getline []).1 method target rest →
    target.count 63 ≤ 1 ∧ (stream.getline []).2.HeaderEnds

/-! ### The scan -/

/-- The scan notes the last `?`, and ends at the space. -/
theorem scanTarget_append {target : Bytes} (clean : 32 ∉ target) (behind : Bytes) (i : Nat)
    (queryStart : Option Nat) :
    scanTarget (target ++ 32 :: behind) i queryStart =
      (((Cut.lastAt 63 i target).map (· + 1)).or queryStart, some (i + target.length)) := by
  induction target generalizing i queryStart with
  | nil => rfl
  | cons c target ih =>
    rw [List.mem_cons, not_or] at clean
    rw [List.cons_append, scanTarget, Cut.lastAt_cons, Option.map_or, Option.or_assoc,
      List.length_cons]
    split
    -- this `?` counts unless another one follows
    next mark =>
      rw [ih clean.2, if_pos mark.1, Option.map_some, Option.some_or, Nat.add_right_comm,
        Nat.add_assoc]
    next other =>
      have unmarked : c ≠ 63 := fun mark => other ⟨mark, by simp⟩
      rw [if_neg (Ne.symm clean.1), ih clean.2, if_neg unmarked, Option.map_none, Option.none_or,
        Nat.add_right_comm, Nat.add_assoc]

/-- Without a space there is no end to be found. -/
theorem scanTarget_of_notMem {s : Bytes} (clean : 32 ∉ s) (i : Nat) (queryStart : Option Nat) :
    ∃ queryStart', scanTarget s i queryStart = (queryStart', none) := by
  induction s generalizing i queryStart with
  | nil => exact ⟨queryStart, rfl⟩
  | cons c s ih =>
    rw [List.mem_cons, not_or] at clean
    rw [scanTarget, if_neg (Ne.symm clean.1)]
    split
    · exact ih clean.2 _ _
    · exact ih clean.2 _ _

/-! ### The parts -/

/-- The target as it is cut. -/
def scannedTarget (target queryString : Bytes) : Bytes × Bytes :=
  (Cut.last 63 target).getD (target, queryString)

theorem readTarget_scanned (method target behind : Bytes) (message : RequestMessage) :
    readTarget (method ++ 32 :: (target ++ 32 :: behind)) method.length
      (method.length + 1 + target.length)
      ((Cut.lastAt 63 (method.length + 1) target).map (· + 1)) message =
      .ok { message with
        path := (scannedTarget target message.queryString).1
        queryString := (scannedTarget target message.queryString).2 } := by
  have front : (method ++ [32]).length = method.length + 1 := List.length_append
  have line : ∀ rest : Bytes, method ++ 32 :: rest = (method ++ [32]) ++ rest := by simp
  cases cut : Cut.last 63 target with
  | none =>
    have size : sizeSub (sizeSub (method.length + 1 + target.length) method.length) 1 =
        target.length := sizeSub_between (by omega)
    -- without a `?` the whole target is the path
    have path := substr_middle (method ++ [32]) target (32 :: behind)
    rw [front, ← line] at path
    simp only [Cut.lastAt, cut, Option.map_none, readTarget, size, path, scannedTarget,
      Option.getD_none]
    rfl
  | some parts =>
    obtain ⟨path, query⟩ := parts
    obtain ⟨rfl, -⟩ := Cut.last_eq_some_iff.mp cut
    have total : (path ++ 63 :: query).length = path.length + 1 + query.length := by
      rw [List.length_append, List.length_cons]
      omega
    -- the path stands in front of the last `?`, the query behind it
    have size : sizeSub (sizeSub (method.length + 1 + path.length + 1) method.length) 2 =
        path.length := sizeSub_between (by omega)
    have size' : sizeSub (method.length + 1 + (path ++ 63 :: query).length)
        (method.length + 1 + path.length + 1) = query.length := by
      rw [sizeSub_of_le (by omega)]
      omega
    have pathRead := substr_middle (method ++ [32]) path (63 :: (query ++ 32 :: behind))
    have queryRead := substr_middle (method ++ 32 :: (path ++ [63])) query (32 :: behind)
    have start : (method ++ 32 :: (path ++ [63])).length = method.length + 1 + path.length + 1 := by
      simp only [List.length_append, List.length_cons, List.length_nil]
      omega
    rw [front, ← line] at pathRead
    rw [start] at queryRead
    simp only [List.append_assoc, List.cons_append, List.nil_append] at queryRead ⊢
    simp only [Cut.lastAt, cut, Option.map_some, readTarget, size, size', pathRead, queryRead,
      scannedTarget, Option.getD_some]
    rfl

/-- The length of a version, from the position of the `/` in front of it: without a character
there is none to leave out, and the length wraps. -/
theorem take_version (pos : Nat) (rest : Bytes) :
    rest.take (sizeSub (sizeSub (pos + 1 + rest.length) pos) 2) = rest.dropLast := by
  have behind : pos + 1 + rest.length - pos = rest.length + 1 := by omega
  rw [sizeSub_of_le (show pos ≤ pos + 1 + rest.length by omega), behind]
  cases rest with
  | nil => rfl
  | cons c rest =>
    rw [sizeSub_of_le (show 2 ≤ (c :: rest).length + 1 by simp), List.dropLast_eq_take]
    rfl

/-- The name of the protocol and the version, behind a target that ends in front of a space. -/
theorem protocol_of_line (front : Bytes) {behind proto rest : Bytes}
    (cut : Cut.first 47 behind = some (proto, rest)) :
    let line := front ++ 32 :: behind
    let protocolEnd := front.length + 1 + proto.length
    findChar 47 (front.length + 1) line = some protocolEnd ∧
      substr line (front.length + 1) (sizeSub (sizeSub protocolEnd front.length) 1) = .ok proto ∧
      substr line (protocolEnd + 1) (sizeSub (sizeSub line.length protocolEnd) 2) =
        .ok rest.dropLast := by
  intro line protocolEnd
  obtain ⟨rfl, clean⟩ := Cut.first_eq_some_iff.mp cut
  have start : (front ++ [32]).length = front.length + 1 := List.length_append
  have whole : line = (front ++ [32]) ++ (proto ++ 47 :: rest) := by simp [line]
  have whole' : line = (front ++ 32 :: (proto ++ [47])) ++ rest := by simp [line]
  have ended : (front ++ 32 :: (proto ++ [47])).length = protocolEnd + 1 := by
    simp only [List.length_append, List.length_cons, List.length_nil, protocolEnd]
    omega
  have total : line.length = protocolEnd + 1 + rest.length := by
    rw [whole', List.length_append, ended]
  have size : sizeSub (sizeSub protocolEnd front.length) 1 = proto.length :=
    sizeSub_between (by omega)
  refine ⟨?_, ?_, ?_⟩
  · rw [findChar, whole, ← start, List.drop_left, idxOf?_append_cons clean,
      Option.map_some, start]
  · rw [size, whole, ← start]
    exact substr_middle _ proto _
  · rw [substr_of_le (by omega), total, whole', ← ended, List.drop_left, ended, take_version]

/-- Behind the target there is no `/`. -/
theorem findChar_behind {front behind : Bytes} (absent : 47 ∉ behind) :
    findChar 47 (front.length + 1) (front ++ 32 :: behind) = none := by
  rw [findChar, List.drop_length_add_append]
  simp [idxOf?_of_notMem absent]

variable {stream stream' : StreamBuf} {message : RequestMessage} {line method target rest : Bytes}

/-- What the parser has read in front of the protocol. -/
def scannedMessage (method target : Bytes) (message : RequestMessage) : RequestMessage :=
  { message with
    method
    path := (scannedTarget target message.queryString).1
    queryString := (scannedTarget target message.queryString).2
    header := [] }

/-- Behind a method and a target the parser looks at the protocol, and then at the header. -/
theorem parseRequest_eq {behind : Bytes}
    (read : stream.getline [] = (method ++ 32 :: (target ++ 32 :: behind), stream'))
    (methodClean : 32 ∉ method) (targetClean : 32 ∉ target) (message : RequestMessage) :
    parseRequest stream message = match Cut.first 47 behind with
      | none => .ok (false, scannedMessage method target message, stream')
      | some (proto, rest) =>
        if proto ≠ ascii "HTTP" then .ok (false, scannedMessage method target message, stream')
        else (parseHeader stream').map fun (header, stream'') =>
          (true, { scannedMessage method target message with
            httpVersion := rest.dropLast, header }, stream'') := by
  have methodRead : substr (method ++ 32 :: (target ++ 32 :: behind)) 0 method.length =
      .ok method := substr_middle [] method _
  have behindMethod : (method ++ 32 :: (target ++ 32 :: behind)).drop (method.length + 1) =
      target ++ 32 :: behind := List.drop_length_add_append 1
  have targetRead := readTarget_scanned method target behind { message with method, header := [] }
  have front : method ++ 32 :: (target ++ 32 :: behind) =
      (method ++ 32 :: target) ++ 32 :: behind := by simp
  have targetEnd : (method ++ 32 :: target).length = method.length + 1 + target.length := by
    rw [List.length_append, List.length_cons]
    omega
  simp only [parseRequest, read, idxOf?_append_cons methodClean, methodRead, behindMethod,
    scanTarget_append targetClean, Option.or_none, bind, Except.bind, targetRead]
  rw [front, ← targetEnd]
  -- only the part behind the target is searched for a `/`
  cases cut : Cut.first 47 behind with
  | none =>
    simp only [findChar_behind (Cut.first_eq_none_iff.mp cut)]
    rfl
  | some parts =>
    obtain ⟨proto, rest⟩ := parts
    obtain ⟨slash, protocol, version⟩ := protocol_of_line (method ++ 32 :: target) cut
    simp only [slash, protocol, version]
    split
    · rfl
    · cases parseHeader stream' <;> rfl

theorem first_slash (rest : Bytes) :
    Cut.first 47 (ascii "HTTP/" ++ rest) = some (ascii "HTTP", rest) := by
  have clean : (47 : UInt8) ∉ ascii "HTTP" := by decide
  exact Cut.first_append_cons clean rest

/-- A request line is accepted, if the parser comes back from the header. -/
theorem parseRequest_accepted (read : stream.getline [] = (line, stream'))
    (shape : IsRequestLine line method target rest) (message : RequestMessage) :
    parseRequest stream message = (parseHeader stream').map fun (header, stream'') =>
      (true, { scannedMessage method target message with
        httpVersion := rest.dropLast, header }, stream'') := by
  obtain ⟨rfl, methodClean, targetClean⟩ := shape
  simp only [parseRequest_eq read methodClean targetClean, first_slash, ne_eq, not_true_eq_false,
    if_false]

/-- Other lines are refused. -/
theorem parseRequest_refused
    (other : ∀ method target rest, ¬ IsRequestLine line method target rest)
    (message : RequestMessage) :
    ∃ message', ∀ stream stream' : StreamBuf, stream.getline [] = (line, stream') →
      parseRequest stream message = .ok (false, message', stream') := by
  by_cases space : 32 ∈ line
  · obtain ⟨method, tail, rfl, methodClean⟩ := List.eq_append_cons_of_mem space
    by_cases space' : 32 ∈ tail
    · obtain ⟨target, behind, rfl, targetClean⟩ := List.eq_append_cons_of_mem space'
      refine ⟨scannedMessage method target message, fun stream stream' read => ?_⟩
      rw [parseRequest_eq read methodClean targetClean]
      cases cut : Cut.first 47 behind with
      | none => rfl
      | some parts =>
        obtain ⟨proto, rest⟩ := parts
        dsimp only
        split
        · rfl
        next http =>
          -- a line with all parts would be a request line
          obtain ⟨rfl, -⟩ := Cut.first_eq_some_iff.mp cut
          rw [Classical.not_not.mp http] at other
          exact absurd ⟨rfl, methodClean, targetClean⟩ (other method target rest)
    · -- there is no space behind the target
      obtain ⟨queryStart, scanned⟩ := scanTarget_of_notMem space' (method.length + 1) none
      have methodRead := substr_of_le (Nat.zero_le (method ++ 32 :: tail).length) method.length
      have behindMethod : (method ++ 32 :: tail).drop (method.length + 1) = tail :=
        List.drop_length_add_append 1
      refine ⟨{ message with
        header := [], method := ((method ++ 32 :: tail).drop 0).take method.length }, ?_⟩
      intro stream stream' read
      simp only [parseRequest, read, idxOf?_append_cons methodClean, methodRead, behindMethod,
        scanned]
      rfl
  · refine ⟨{ message with header := [] }, fun stream stream' read => ?_⟩
    simp only [parseRequest, read, idxOf?_of_notMem space]
    rfl

/-- The request line alone decides whether a request is refused, or its fields are parsed. -/
theorem requestLine_decides (line : Bytes) (message : RequestMessage) :
    (∃ message', ∀ stream stream' : StreamBuf, stream.getline [] = (line, stream') →
      parseRequest stream message = .ok (false, message', stream')) ∨
    ∃ message' : RequestMessage, ∀ stream stream' : StreamBuf,
      stream.getline [] = (line, stream') → ∀ header stream'',
      parseHeader stream' = .ok (header, stream'') →
      parseRequest stream message = .ok (true, { message' with header }, stream'') := by
  by_cases shaped : ∃ method target rest, IsRequestLine line method target rest
  · obtain ⟨method, target, rest, shape⟩ := shaped
    refine .inr ⟨{ scannedMessage method target message with httpVersion := rest.dropLast }, ?_⟩
    intro stream stream' read header stream'' parsed
    rw [parseRequest_accepted read shape, parsed]
    rfl
  · have other : ∀ method target rest, ¬ IsRequestLine line method target rest :=
      fun method target rest shape => shaped ⟨method, target, rest, shape⟩
    exact .inl (parseRequest_refused other message)

/-- What the parser makes of a request, and how far it takes it, whatever is behind its header. -/
theorem exists_parsed_request {data : Bytes} (ended : headerEnd <:+: data)
    (message : RequestMessage) :
    ∃ accepted message', ∃ k ≤ data.length, ∀ (stream : StreamBuf) (rest : Bytes),
      stream.good → stream.data = data ++ rest →
      parseRequest stream message = .ok (accepted, message', stream.consume k) := by
  obtain ⟨line, data', rfl, clean, behind⟩ := exists_first_line ended
  have whole : (line ++ 10 :: data').length = line.length + 1 + data'.length := by
    rw [List.length_append, List.length_cons]
    omega
  rcases requestLine_decides line message with ⟨message', refused⟩ | ⟨message', accepted⟩
  · refine ⟨false, message', line.length + 1, by omega, fun stream rest good begins => ?_⟩
    exact refused stream _ (getline_append clean good begins []).1
  · obtain ⟨header, k, within, parses⟩ := exists_parsed_header behind
    refine ⟨true, { message' with header }, line.length + 1 + k, by omega,
      fun stream rest good begins => ?_⟩
    obtain ⟨read, begins'⟩ := getline_append clean good begins []
    have fields := parses (stream.consume (line.length + 1)) rest good begins'
    rw [StreamBuf.consume_consume] at fields
    exact accepted stream _ read _ _ fields

/-- A line is a request line in one way. -/
theorem IsRequestLine.unique {method' target' rest' : Bytes}
    (shape : IsRequestLine line method target rest)
    (shape' : IsRequestLine line method' target' rest') :
    method' = method ∧ target' = target ∧ rest' = rest := by
  obtain ⟨rfl, methodClean, targetClean⟩ := shape
  obtain ⟨same, methodClean', targetClean'⟩ := shape'
  -- the method ends at the first space, the target at the next one
  have cut := Cut.first_append_cons methodClean (target ++ 32 :: (ascii "HTTP/" ++ rest))
  rw [same, Cut.first_append_cons methodClean', Option.some.injEq, Prod.mk.injEq] at cut
  obtain ⟨rfl, behind⟩ := cut
  have cut' := Cut.first_append_cons targetClean (ascii "HTTP/" ++ rest)
  rw [← behind, Cut.first_append_cons targetClean', Option.some.injEq, Prod.mk.injEq] at cut'
  obtain ⟨rfl, behind'⟩ := cut'
  exact ⟨rfl, rfl, List.append_cancel_left behind'⟩

/-- At one `?` at most there is one way to cut. -/
theorem scannedTarget_eq (once : target.count 63 ≤ 1) (queryString : Bytes) :
    scannedTarget target queryString = pathAndQuery target queryString ∧
      63 ∉ (pathAndQuery target queryString).1 := by
  constructor
  · rw [scannedTarget, pathAndQuery, Cut.first_eq_last_of_count once]
  · rw [pathAndQuery]
    cases cut : Cut.first 63 target with
    | none => exact Cut.first_eq_none_iff.mp cut
    | some parts => exact (Cut.first_eq_some_iff.mp cut).2

theorem mem_scannedTarget (more : 1 < target.count 63) (queryString : Bytes) :
    63 ∈ (scannedTarget target queryString).1 := by
  obtain ⟨path, query, cut, mark⟩ := Cut.mem_of_last more
  rw [scannedTarget, cut]
  exact mark

theorem parsesRequestLine_of_taken (taken : RequestLineTaken stream) (message : RequestMessage) :
    ParsesRequestLine stream message := by
  obtain ⟨line, stream', read⟩ : ∃ line stream', stream.getline [] = (line, stream') := ⟨_, _, rfl⟩
  rw [RequestLineTaken, read] at taken
  by_cases shaped : ∃ method target rest, IsRequestLine line method target rest
  · obtain ⟨method, target, rest, shape⟩ := shaped
    obtain ⟨once, ends⟩ := taken method target rest shape
    obtain ⟨cut, markless⟩ := scannedTarget_eq once message.queryString
    obtain ⟨header, stream'', fields⟩ := parseHeader_of_ends ends
    have parsed := parseRequest_accepted read shape message
    rw [fields] at parsed
    refine ⟨?_, ?_, ?_⟩
    · intro exception thrown
      rw [parsed] at thrown
      cases thrown
    · rw [read]
      exact ⟨fun _ => ⟨method, target, rest, shape⟩, fun _ => ⟨_, _, parsed⟩⟩
    · intro message' rest' method' target' version accepted shape'
      rw [read] at shape'
      -- the parts are those that have been read
      obtain ⟨rfl, rfl, rfl⟩ := shape.unique shape'
      rw [parsed] at accepted
      cases accepted
      refine ⟨rfl, rfl, ?_, ?_⟩
      · exact cut
      · simp only [scannedMessage, cut]
        exact markless
  · have other : ∀ method target rest, ¬ IsRequestLine line method target rest :=
      fun method target rest shape => shaped ⟨method, target, rest, shape⟩
    obtain ⟨message', refused⟩ := parseRequest_refused other message
    have parsed := refused stream stream' read
    refine ⟨?_, ?_, ?_⟩
    · intro exception thrown
      rw [parsed] at thrown
      cases thrown
    · rw [read]
      constructor
      · rintro ⟨_, _, accepted⟩
        rw [parsed] at accepted
        cases accepted
      · exact fun shape => absurd shape shaped
    · intro _ _ _ _ _ accepted
      rw [parsed] at accepted
      cases accepted

theorem taken_of_parsesRequestLine (sound : ParsesRequestLine stream message) :
    RequestLineTaken stream := by
  obtain ⟨line, stream', read⟩ : ∃ line stream', stream.getline [] = (line, stream') := ⟨_, _, rfl⟩
  intro method target rest shape
  obtain ⟨message', stream'', accepted⟩ := sound.accepts.mpr ⟨method, target, rest, shape⟩
  have parts := sound.parts message' stream'' method target rest accepted shape
  rw [read] at shape ⊢
  rw [parseRequest_accepted read shape message] at accepted
  by_cases ends : stream'.HeaderEnds
  · refine ⟨?_, ends⟩
    by_contra more
    -- the path would have a `?` in it
    obtain ⟨header, behind, fields⟩ := parseHeader_of_ends ends
    rw [fields] at accepted
    cases accepted
    exact parts.2.2.2 (mem_scannedTarget (Nat.not_le.mp more) _)
  · rw [parseHeader_of_endless ends] at accepted
    cases accepted

/-- The parser does what it should exactly if a request line has one `?` in its target at most
and the header behind it ends. -/
theorem parsesRequestLine_iff (stream : StreamBuf) (message : RequestMessage) :
    ParsesRequestLine stream message ↔ RequestLineTaken stream :=
  ⟨taken_of_parsesRequestLine, fun taken => parsesRequestLine_of_taken taken message⟩

private def twoMarks : StreamBuf :=
  { maxSize := 24, data := ascii "GET /a?b?c HTTP/1.1\x0d\n\x0d\n", fits := by decide }

/-- Of two question marks the last one is taken. -/
theorem two_marks_cut_at_last :
    (∃ stream', parseRequest twoMarks {} =
      .ok (true, ⟨ascii "GET", ascii "/a?b", ascii "c", ascii "1.1", []⟩, stream')) ∧
    ¬ ParsesRequestLine twoMarks {} := by
  refine ⟨⟨_, rfl⟩, fun sound => ?_⟩
  have shape : IsRequestLine (twoMarks.getline []).1 (ascii "GET") (ascii "/a?b?c")
      (ascii "1.1\x0d") := ⟨rfl, by decide, by decide⟩
  have mark := (sound.parts _ _ _ _ _ rfl shape).2.2.2
  exact absurd mark (by decide)

end ServerLib.Web
