import ServerLib.Web.StreamBuf

/-!
# Header fields, request lines and status lines

`http_header::parse` reads lines for as long as they have a colon; the message parsers read the
first line before that. Both sides of a connection keep the fields in an unordered multimap
whose keys are compared without case. The library leaves open in which order such a map is
walked through and which of several equal keys `find` meets, so a header is any list of its
fields, and `HeaderFind` any choice among equal keys.
-/
namespace ServerLib.Web

open Network (Bytes)

/-- `tolower` -/
def toLower (b : UInt8) : UInt8 := if 65 ≤ b ∧ b ≤ 90 then b + 32 else b

/-- `case_insensitive_equal` -/
def caseInsensitiveEqual (s t : Bytes) : Bool := s.map toLower == t.map toLower

/-- A `case_insensitive_multimap`: name and value of the fields. -/
abbrev Header := List (Bytes × Bytes)

/-- `find`, with the value of the field that it meets, and the values in an `equal_range`. -/
class HeaderFind where
  find : Header → Bytes → Option Bytes
  equalRange : Header → Bytes → List Bytes
  found : ∀ header name value, find header name = some value →
    ∃ field ∈ header, caseInsensitiveEqual field.1 name = true ∧ field.2 = value
  missing : ∀ header name, find header name = none →
    ∀ field ∈ header, caseInsensitiveEqual field.1 name = false
  range : ∀ header name, (equalRange header name).Perm
    ((header.filter fun field => caseInsensitiveEqual field.1 name).map Prod.snd)

/-- A map that meets the field that was inserted first. -/
@[reducible] def findFirst : HeaderFind where
  find header name := (header.find? fun field => caseInsensitiveEqual field.1 name).map Prod.snd
  equalRange header name :=
    (header.filter fun field => caseInsensitiveEqual field.1 name).map Prod.snd
  found header name value met := by
    obtain ⟨field, first, rfl⟩ := Option.map_eq_some_iff.mp met
    exact ⟨field, List.mem_of_find?_eq_some first, by simpa using List.find?_some first, rfl⟩
  missing header name none_ field member := by
    rw [Option.map_eq_none_iff, List.find?_eq_none] at none_
    simpa using none_ field member
  range _ _ := List.Perm.refl _

/-- No field has the name. -/
def Header.Lacks (header : Header) (name : Bytes) : Prop :=
  ∀ field ∈ header, caseInsensitiveEqual field.1 name = false

instance Header.Lacks.decidable (header : Header) (name : Bytes) :
    Decidable (header.Lacks name) := by
  unfold Header.Lacks
  infer_instance

theorem find_eq_none [HeaderFind] {header : Header} {name : Bytes} (lacks : header.Lacks name) :
    HeaderFind.find header name = none := by
  cases met : HeaderFind.find header name with
  | none => rfl
  | some value =>
    obtain ⟨field, member, same, -⟩ := HeaderFind.found header name value met
    rw [lacks field member] at same
    cases same

/-- A field that is the only one of its name is found. -/
theorem find_unique [HeaderFind] {front back : Header} {name key value : Bytes}
    (before : Header.Lacks front name) (behind : Header.Lacks back name)
    (same : caseInsensitiveEqual key name = true) :
    HeaderFind.find (front ++ (key, value) :: back) name = some value := by
  cases met : HeaderFind.find (front ++ (key, value) :: back) name with
  | none =>
    have other := HeaderFind.missing _ _ met (key, value) (by simp)
    rw [same] at other
    cases other
  | some met' =>
    obtain ⟨field, member, equal, rfl⟩ := HeaderFind.found _ _ _ met
    rcases List.mem_append.mp member with early | here
    · rw [before field early] at equal
      cases equal
    · rcases List.mem_cons.mp here with rfl | late
      · rfl
      · rw [behind field late] at equal
        cases equal

/-! ### `http_header::parse` -/

/-- A header field as both sides write it. -/
def fieldLine (field : Bytes × Bytes) : Bytes := field.1 ++ ascii ": " ++ field.2 ++ crlf

/-- `while (value_start + 1 < line.size() && line[value_start] == ' ')`, on the characters from
`value_start` on: how many are skipped. -/
def skippedSpaces : Bytes → Nat
  | 32 :: c :: rest => skippedSpaces (c :: rest) + 1
  | _ => 0

/-- The loop over the lines, with the line read last. Each turn takes a line out of the stream;
once the stream has come to its end `getline` leaves `line` alone. -/
def parseFields : Nat → Bytes → StreamBuf → Header → Except Failure (Header × StreamBuf)
  | 0, _, _, _ => .error .endless
  | turns + 1, line, stream, result =>
    match line.idxOf? 58 with
    | none => .ok (result, stream)
    | some paramEnd => do
      let valueStart := paramEnd + 1 + skippedSpaces (line.drop (paramEnd + 1))
      -- the value without the `\r` at the end of the line
      let result ←
        if valueStart < line.length then do
          let name ← substr line 0 paramEnd
          let value ← substr line valueStart (sizeSub (sizeSub line.length valueStart) 1)
          pure (result ++ [(name, value)])
        else pure result
      let (line, stream) := stream.getline line
      parseFields turns line stream result

/-- `http_header::parse`. The turns are more than the lines that a stream can hold. -/
def parseHeader (stream : StreamBuf) : Except Failure (Header × StreamBuf) :=
  let (line, stream) := stream.getline []
  parseFields (stream.size + 3) line stream []

/-! ### `__http_request_message::parse` -/

/-- What the parser of requests writes to. -/
structure RequestMessage where
  method : Bytes := []
  path : Bytes := []
  queryString : Bytes := []
  httpVersion : Bytes := []
  header : Header := []
  deriving DecidableEq, Repr

/-- The loop over the request target from position `i` on: the values of `query_start` and
`path_and_query_string_end`. -/
def scanTarget : Bytes → Nat → Option Nat → Option Nat × Option Nat
  | [], _, queryStart => (queryStart, none)
  | c :: rest, i, queryStart =>
    if c = 63 ∧ rest ≠ [] then scanTarget rest (i + 1) (some (i + 1))
    else if c = 32 then (queryStart, some i)
    else scanTarget rest (i + 1) queryStart

/-- The path and the query string of a request line. -/
def readTarget (line : Bytes) (methodEnd targetEnd : Nat) (queryStart : Option Nat)
    (message : RequestMessage) : Except Failure RequestMessage :=
  match queryStart with
  | some queryStart => do
    let path ← substr line (methodEnd + 1) (sizeSub (sizeSub queryStart methodEnd) 2)
    let queryString ← substr line queryStart (sizeSub targetEnd queryStart)
    pure { message with path, queryString }
  | none => do
    let path ← substr line (methodEnd + 1) (sizeSub (sizeSub targetEnd methodEnd) 1)
    pure { message with path }

def parseRequest (stream : StreamBuf) (message : RequestMessage) :
    Except Failure (Bool × RequestMessage × StreamBuf) := do
  let message := { message with header := [] }
  let (line, stream) := stream.getline []
  match line.idxOf? 32 with
  | none => pure (false, message, stream)
  | some methodEnd =>
    let message := { message with method := ← substr line 0 methodEnd }
    match scanTarget (line.drop (methodEnd + 1)) (methodEnd + 1) none with
    | (_, none) => pure (false, message, stream)
    | (queryStart, some targetEnd) =>
      let message ← readTarget line methodEnd targetEnd queryStart message
      match findChar 47 (targetEnd + 1) line with
      | none => pure (false, message, stream)
      | some protocolEnd =>
        let protocol ← substr line (targetEnd + 1) (sizeSub (sizeSub protocolEnd targetEnd) 1)
        if protocol ≠ ascii "HTTP" then pure (false, message, stream)
        else
          -- up to the `\r`
          let httpVersion ← substr line (protocolEnd + 1)
            (sizeSub (sizeSub line.length protocolEnd) 2)
          let (header, stream) ← parseHeader stream
          pure (true, { message with httpVersion, header }, stream)

/-! ### `__http_response_message::parse` -/

structure ResponseMessage where
  httpVersion : Bytes := []
  statusCode : Bytes := []
  header : Header := []
  deriving DecidableEq, Repr

def parseResponse (stream : StreamBuf) (message : ResponseMessage) :
    Except Failure (Bool × ResponseMessage × StreamBuf) := do
  let message := { message with header := [] }
  let (line, stream) := stream.getline []
  match line.idxOf? 32 with
  | none => pure (false, message, stream)
  | some versionEnd =>
    if 5 < line.length then
      let message := { message with httpVersion := ← substr line 5 (sizeSub versionEnd 5) }
      if versionEnd + 1 < line.length then
        let message := { message with
          statusCode := ← substr line (versionEnd + 1)
            (sizeSub (sizeSub line.length (versionEnd + 1)) 1) }
        let (header, stream) ← parseHeader stream
        pure (true, { message with header }, stream)
      else pure (false, message, stream)
    else pure (false, message, stream)

end ServerLib.Web
