import ServerLib.Web.HttpClient
import ServerLib.Web.RequestMessage

/-!
# The client's requests in the server's parser

What `http_client_base_impl::request` writes is a header block with its content behind it, so
the parser of the server gets the parts of it back. The host is the one part that nobody
checks: a value that has been parsed has no line feed in it and does not begin with a space,
and so a host that does is not read as it was configured.
-/
namespace ServerLib.Web

open Network (Bytes)

/-! ### What can be the value of a parsed field -/

theorem StreamBuf.getline_clean (b : StreamBuf) {old : Bytes} (clean : 10 ∉ old) :
    10 ∉ (b.getline old).1 := by
  unfold getline
  split
  · split
    next n found =>
      intro member
      -- then the first line feed would stand in front of itself
      obtain ⟨front, back, whole, absent⟩ :=
        List.eq_append_cons_of_mem (List.mem_of_mem_take member)
      rw [whole, idxOf?_append_cons absent, Option.some.injEq] at found
      rw [whole, ← found, List.take_left] at member
      exact absent member
    next none_ =>
      intro member
      exact absurd none_ (by simpa [List.idxOf?_eq_none_iff] using member)
  · exact clean

theorem drop_skippedSpaces {s rest : Bytes} (space : s.drop (skippedSpaces s) = 32 :: rest) :
    rest = [] := by
  induction s using skippedSpaces.induct with
  | case1 c tail ih =>
    rw [skippedSpaces] at space
    exact ih space
  | case2 s other =>
    rw [skippedSpaces] at space
    · cases rest with
      | nil => rfl
      | cons c rest => exact absurd space (other c rest)
    · exact other

/-- What is behind the skipped spaces, without the last character, is readable. -/
theorem readable_value {line : Bytes} (clean : 10 ∉ line) {paramEnd : Nat}
    (inside : paramEnd + 1 + skippedSpaces (line.drop (paramEnd + 1)) < line.length) :
    let valueStart := paramEnd + 1 + skippedSpaces (line.drop (paramEnd + 1))
    Readable ((line.drop valueStart).take (sizeSub (sizeSub line.length valueStart) 1)) := by
  intro valueStart
  refine ⟨fun member => clean (List.mem_of_mem_drop (List.mem_of_mem_take member)), ?_⟩
  intro space
  have size : sizeSub (sizeSub line.length valueStart) 1 = line.length - valueStart - 1 :=
    sizeSub_between (by omega)
  rw [size, List.head?_take] at space
  split at space
  · cases space
  next positive =>
    obtain ⟨rest, shape⟩ : ∃ rest, line.drop valueStart = 32 :: rest :=
      List.head?_eq_some_iff.mp space
    -- there is another character behind this space, so it would have been skipped
    have more := congrArg List.length shape
    have last : rest = [] := by
      apply drop_skippedSpaces
      rw [List.drop_drop]
      exact shape
    rw [last, List.length_drop] at more
    exact positive (by rw [more]; rfl)

theorem parseFields_readable {turns : Nat} {line : Bytes} {stream stream' : StreamBuf}
    {result header : Header} (clean : 10 ∉ line) (before : ∀ f ∈ result, Readable f.2)
    (parsed : parseFields turns line stream result = .ok (header, stream')) :
    ∀ f ∈ header, Readable f.2 := by
  induction turns generalizing line stream result with
  | zero => cases parsed
  | succ turns ih =>
    simp only [parseFields] at parsed
    split at parsed
    · cases parsed
      exact before
    next paramEnd found =>
      have next_clean := stream.getline_clean clean
      split at parsed
      next inside =>
        rw [substr_of_le (Nat.zero_le _), substr_of_le (Nat.le_of_lt inside)] at parsed
        apply ih next_clean _ parsed
        intro f member
        rcases List.mem_append.mp member with early | last
        · exact before f early
        · rw [List.mem_singleton.mp last]
          exact readable_value clean inside
      · exact ih next_clean before parsed

theorem parseRequest_readable {stream stream' : StreamBuf} {message message' : RequestMessage}
    (parsed : parseRequest stream message = .ok (true, message', stream')) :
    ∀ f ∈ message'.header, Readable f.2 := by
  simp only [parseRequest, bind, Except.bind, pure, Except.pure] at parsed
  repeat' split at parsed
  all_goals cases parsed
  next read =>
    unfold parseHeader at read
    exact parseFields_readable (StreamBuf.getline_clean _ (by simp)) (by simp) read

/-! ### The round trip -/

/-- The `Host` field that the client writes. -/
def hostField (c : Client) : Bytes × Bytes :=
  (ascii "Host", c.host ++ if c.port ≠ c.defaultPort then ascii ":" ++ decimal c.port.toNat else [])

/-- The parser of the server gets back what the client has been given. -/
def RoundTrips [HeaderFind] (c : Client) (method path query content : Bytes) (header : Header) :
    Prop :=
  ∀ stream : StreamBuf, stream.good →
    stream.data = requestStreambuf c method (target path query) content header →
    ∃ message stream', parseRequest stream {} = .ok (true, message, stream') ∧
      message.method = method ∧ message.path = path ∧ message.queryString = query ∧
      message.httpVersion = ascii "1.1" ∧
      message.header.Perm
        (header ++ hostField c :: if content = [] then [] else [lengthField content]) ∧
      stream'.loadContent = content

/-- The fields that the client writes. -/
def writtenFields (c : Client) (content : Bytes) (header : Header) : Header :=
  hostField c :: (header ++ if content = [] then [] else [lengthField content])

variable [HeaderFind]

/-- What the client writes is a header block with the content behind it. -/
theorem requestStreambuf_eq {c : Client} (direct : c.config.proxyServer = [])
    {method path query content : Bytes} {header : Header} (rooted : path.head? = some 47)
    (lacks : header.Lacks (ascii "Content-Length"))
    (lacks' : header.Lacks (ascii "Transfer-Encoding")) :
    requestStreambuf c method (target path query) content header =
      requestLine method path query ++ crlf ++
        (writtenFields c content header).flatMap fieldLine ++ crlf ++ content := by
  have occupied : target path query ≠ [] := by
    unfold target
    split
    · rintro rfl
      cases rooted
    · simp
  have host : fieldLine (hostField c) = ascii "Host: " ++ c.host ++
      (if c.port ≠ c.defaultPort then ascii ":" ++ decimal c.port.toNat else []) ++ crlf := by
    simp [fieldLine, hostField, show ascii "Host: " = ascii "Host" ++ ascii ": " from rfl]
  have length : fieldLine (lengthField content) =
      ascii "Content-Length: " ++ decimal content.length ++ crlf := by
    simp [fieldLine, lengthField,
      show ascii "Content-Length: " = ascii "Content-Length" ++ ascii ": " from rfl]
  have start : requestLine method path query =
      method ++ ascii " " ++ target path query ++ ascii " HTTP/1.1" := by
    simp [requestLine, targetLine, show ascii " " = [32] from rfl,
      show ascii " HTTP/1.1" = 32 :: ascii "HTTP/1.1" from rfl]
  rw [requestStreambuf, createRequestHeader, if_neg occupied, if_neg (by simp [direct]),
    find_eq_none lacks, find_eq_none lacks', writtenFields, List.flatMap_cons, List.flatMap_append,
    host, start]
  by_cases empty : content = []
  · simp [empty]
  · simp [empty, length]

/-- The round trip of a request, but for its host. -/
theorem roundTrips_of_readable {c : Client} (direct : c.config.proxyServer = [])
    {method path query : Bytes} (content : Bytes) {header : Header}
    (line : PlainRequestLine method path query) (rooted : path.head? = some 47)
    (plain : PlainHeader header) (host : ReadableField (hostField c)) :
    RoundTrips c method path query content header := by
  intro stream good written
  have readable : ∀ field ∈ writtenFields c content header, ReadableField field := by
    intro field member
    rcases List.mem_cons.mp member with rfl | member
    · exact host
    · rcases List.mem_append.mp member with given | added
      · exact (plain.fields field given).readable
      · split at added
        · cases added
        · rw [List.mem_singleton.mp added]
          exact (plainField_length content).readable
  obtain ⟨spaced, fields, lines⟩ := exists_written readable
  have begins : stream.data =
      headerBlock (requestLine method path query :: spaced.map SpacedField.line) ++ content := by
    rw [written, requestStreambuf_eq direct rooted plain.unsized plain.unchunked, headerBlock,
      headerBlock_eq, lines]
    simp only [List.append_assoc]
  refine ⟨_, _, parseRequest_written line spaced good begins {}, rfl, rfl, ?_, rfl, ?_, ?_⟩
  · dsimp only
    split
    next absent => exact absent.symm
    · rfl
  · dsimp only
    rw [fields, writtenFields]
    exact List.perm_middle.symm
  · rw [StreamBuf.loadContent, StreamBuf.consume_data, begins, List.drop_left]

omit [HeaderFind] in
theorem readable_hostField_iff (c : Client) :
    Readable (hostField c).2 ↔ 10 ∉ c.host ∧ c.host.head? ≠ some 32 := by
  have port : ∀ b ∈ (if c.port ≠ c.defaultPort then ascii ":" ++ decimal c.port.toNat else []),
      b ≠ 10 ∧ b ≠ 32 := by
    intro b member
    split at member
    · rcases List.mem_append.mp member with colon | digit
      · rw [List.mem_singleton.mp (show b ∈ [58] from colon)]
        decide
      · have digits := (isNumeral_decimal c.port.toNat).2 b digit
        refine ⟨(digit_plain (by decide) digits).2.2.2.2.2.2, ?_⟩
        rintro rfl
        revert digits
        decide
    · cases member
  unfold Readable hostField
  constructor
  · rintro ⟨clean, begins⟩
    refine ⟨fun member => clean (List.mem_append_left _ member), fun space => begins ?_⟩
    rw [List.head?_append, space, Option.some_or]
  · rintro ⟨clean, begins⟩
    refine ⟨fun member => ?_, fun space => ?_⟩
    · rcases List.mem_append.mp member with early | late
      · exact clean early
      · exact (port _ late).1 rfl
    · rw [List.head?_append] at space
      cases first : c.host.head? with
      | some b => exact begins (by rwa [first] at space ⊢)
      | none =>
        rw [first, Option.none_or] at space
        exact (port _ (List.mem_of_mem_head? space)).2 rfl

/-- A host that has come back was readable. -/
theorem readable_of_roundTrips {c : Client} {method path query content : Bytes} {header : Header}
    (trips : RoundTrips c method path query content header) : Readable (hostField c).2 := by
  let bytes := requestStreambuf c method (target path query) content header
  let stream : StreamBuf := { maxSize := bytes.length, data := bytes, fits := Nat.le_refl _ }
  -- whatever the parser has made of it, the `Host` field is a field that it has parsed
  obtain ⟨message, stream', parsed, -, -, -, -, same, -⟩ := trips stream rfl rfl
  exact parseRequest_readable parsed _ (same.mem_iff.mpr (by simp))

/-- The request comes back exactly if the host is readable as the value of a field. -/
theorem roundTrips_iff {c : Client} (direct : c.config.proxyServer = [])
    {method path query : Bytes} (content : Bytes) {header : Header}
    (line : PlainRequestLine method path query) (rooted : path.head? = some 47)
    (plain : PlainHeader header) :
    RoundTrips c method path query content header ↔ 10 ∉ c.host ∧ c.host.head? ≠ some 32 := by
  rw [← readable_hostField_iff]
  constructor
  · exact readable_of_roundTrips
  · intro readable
    have name : 58 ∉ (hostField c).1 ∧ 10 ∉ (hostField c).1 :=
      show 58 ∉ ascii "Host" ∧ 10 ∉ ascii "Host" by decide
    exact roundTrips_of_readable direct content line rooted plain ⟨name.1, name.2, readable⟩

omit [HeaderFind] in
/-- The host ` x` comes back as `x`. -/
theorem spaced_host_does_not_come_back :
    let config : ClientConfig := { host := ascii " x", port := 80 }
    let c : Client := ⟨config, ascii " x", 80, 80, .http⟩
    Client.create config = .ok c ∧
      ¬ @RoundTrips findFirst c (ascii "GET") (ascii "/") [] [] [] := by
  refine ⟨rfl, fun trips => ?_⟩
  exact (@readable_of_roundTrips findFirst _ _ _ _ _ _ trips).2 rfl

omit [HeaderFind] in
theorem roundTrips_iff_post :
    let c : Client :=
      ⟨{ host := ascii "localhost:8080", port := 80 }, ascii "localhost", 8080, 80, .http⟩
    @RoundTrips findFirst c (ascii "POST") (ascii "/sum") (ascii "a=1&b=2") (ascii "body")
        [(ascii "Accept", ascii "text/*")] ↔
      10 ∉ ascii "localhost" ∧ (ascii "localhost").head? ≠ some 32 := by
  have plain : PlainHeader [(ascii "Accept", ascii "text/*")] :=
    ⟨by decide, by decide, by decide⟩
  exact @roundTrips_iff findFirst _ rfl _ _ _ _ _ (by decide) rfl plain

end ServerLib.Web
