import ServerLib.Web.HeaderEnd

/-!
# Status lines

The parser of responses takes the version from the sixth character of the line up to its first
space, and the status from there up to the last character. It looks neither at the first five
characters nor at the last one, and a space among the first five makes the length of the version
wrap: the version is then the rest of the line.
-/
namespace ServerLib.Web

open Network (Bytes)

/-- `__http_response_message::parse`, with a subtraction of its own for the lengths of the
version and the status. -/
def parseResponseBy (sub : Nat → Nat → Except Failure Nat) (stream : StreamBuf)
    (message : ResponseMessage) : Except Failure (Bool × ResponseMessage × StreamBuf) := do
  let message := { message with header := [] }
  let (line, stream) := stream.getline []
  match line.idxOf? 32 with
  | none => pure (false, message, stream)
  | some versionEnd =>
    if 5 < line.length then
      let message := { message with httpVersion := ← substr line 5 (← sub versionEnd 5) }
      if versionEnd + 1 < line.length then
        let message := { message with
          statusCode := ← substr line (versionEnd + 1)
            (← sub (← sub line.length (versionEnd + 1)) 1) }
        let (header, stream) ← parseHeader stream
        pure (true, { message with header }, stream)
      else pure (false, message, stream)
    else pure (false, message, stream)

/-- The subtraction of the code, which wraps. -/
theorem parseResponse_eq (stream : StreamBuf) (message : ResponseMessage) :
    parseResponse stream message = parseResponseBy (fun a b => .ok (sizeSub a b)) stream message :=
  rfl

/-- A subtraction that is undefined where the other one wraps. -/
def checkedSub (a b : Nat) : Except Failure Nat := if b ≤ a then .ok (a - b) else .error .undefined

/-- What the parser accepts is a status line, and it reports its parts. It does not throw, and no
length wraps; those in the header do not, as a value begins inside its line. -/
structure ParsesStatusLine (stream : StreamBuf) (message : ResponseMessage) : Prop where
  line : ∀ message' stream', parseResponse stream message = .ok (true, message', stream') →
    (stream.getline []).1 =
      ascii "HTTP/" ++ message'.httpVersion ++ 32 :: (message'.statusCode ++ [13]) ∧
    32 ∉ message'.httpVersion
  unthrown : ∀ exception, parseResponse stream message ≠ .error (.throws exception)
  unwrapped : parseResponseBy checkedSub stream message = parseResponse stream message

/-- The line is refused, or it begins and ends as the parser takes for granted, or the parser does
not come back from the header behind it. -/
def StatusLineTaken (stream : StreamBuf) : Prop :=
  ∀ versionEnd, (stream.getline []).1.idxOf? 32 = some versionEnd →
    (stream.getline []).1.length ≤ 5 ∨ (stream.getline []).1.length = versionEnd + 1 ∨
    (ascii "HTTP/" <+: (stream.getline []).1 ∧ [13] <:+ (stream.getline []).1) ∨
    (5 ≤ versionEnd ∧ ¬ (stream.getline []).2.HeaderEnds)

/-- The two subtractions are the same where they do not wrap. -/
def Subtracts (sub : Nat → Nat → Except Failure Nat) : Prop :=
  ∀ a b, b ≤ a → sub a b = .ok (a - b)

theorem subtracts_sizeSub : Subtracts fun a b => .ok (sizeSub a b) :=
  fun _ _ below => congrArg Except.ok (sizeSub_of_le below)

theorem subtracts_checkedSub : Subtracts checkedSub := fun _ _ below => if_pos below

/-- The version and the status in a line that has at least five characters in front of its first
space, and something behind it. -/
theorem substr_version {front : Bytes} (long : 5 ≤ front.length) (back : Bytes) :
    substr (front ++ back) 5 (front.length - 5) = .ok (front.drop 5) := by
  have five : (front.take 5).length = 5 := List.length_take_of_le long
  have cut := substr_middle (front.take 5) (front.drop 5) back
  rwa [← List.append_assoc, List.take_append_drop, five, List.length_drop] at cut

theorem substr_status (front : Bytes) {back : Bytes} (more : back ≠ []) :
    substr (front ++ 32 :: back) (front.length + 1)
      ((front ++ 32 :: back).length - (front.length + 1) - 1) = .ok back.dropLast := by
  have cut := substr_middle (front ++ [32]) back.dropLast [back.getLast more]
  rw [List.dropLast_append_getLast] at cut
  have length : (front ++ 32 :: back).length - (front.length + 1) - 1 = back.dropLast.length := by
    rw [List.length_append, List.length_cons, List.length_dropLast]
    omega
  rw [length]
  simpa using cut

variable {sub : Nat → Nat → Except Failure Nat} {stream stream' : StreamBuf}

/-- A line with these parts is accepted. -/
theorem parseResponseBy_accepted (subtracts : Subtracts sub) {front back : Bytes}
    (read : stream.getline [] = (front ++ 32 :: back, stream')) (clean : 32 ∉ front)
    (long : 5 ≤ front.length) (more : back ≠ []) (message : ResponseMessage) :
    parseResponseBy sub stream message = (parseHeader stream').map fun (header, stream'') =>
      (true, { httpVersion := front.drop 5, statusCode := back.dropLast, header }, stream'') := by
  have occupied := List.length_pos_of_ne_nil more
  have total : (front ++ 32 :: back).length = front.length + 1 + back.length := by
    rw [List.length_append, List.length_cons]
    omega
  -- no length wraps
  have status := subtracts (front ++ 32 :: back).length (front.length + 1) (by omega)
  have last := subtracts ((front ++ 32 :: back).length - (front.length + 1)) 1 (by omega)
  simp only [parseResponseBy, read, idxOf?_append_cons clean, subtracts _ _ long, status, last,
    bind, Except.bind, if_pos (show 5 < (front ++ 32 :: back).length by omega),
    if_pos (show front.length + 1 < (front ++ 32 :: back).length by omega),
    substr_version long, substr_status front more]
  cases parseHeader stream' <;> rfl

/-- Other lines are refused, unless there is a space among the first five characters. -/
theorem parseResponseBy_refused {line : Bytes} (read : stream.getline [] = (line, stream'))
    (refused : ∀ versionEnd, line.idxOf? 32 = some versionEnd →
      line.length ≤ 5 ∨ line.length = versionEnd + 1) (message : ResponseMessage) :
    ∃ message', ∀ sub, Subtracts sub →
      parseResponseBy sub stream message = .ok (false, message', stream') := by
  simp only [parseResponseBy, read]
  cases space : line.idxOf? 32 with
  | none => exact ⟨_, fun _ _ => rfl⟩
  | some versionEnd =>
    by_cases long : 5 < line.length
    · -- nothing stands behind the space
      have ended := (refused versionEnd space).resolve_left (Nat.not_le.mpr long)
      have fits : 5 ≤ versionEnd := by omega
      refine ⟨{ message with
        httpVersion := (line.drop 5).take (versionEnd - 5), header := [] }, ?_⟩
      intro sub subtracts
      simp only [if_pos long, subtracts _ _ fits, bind, Except.bind,
        substr_of_le (Nat.le_of_lt long), if_neg (show ¬ versionEnd + 1 < line.length by omega)]
      rfl
    · refine ⟨{ message with header := [] }, fun _ _ => ?_⟩
      simp only [if_neg long]
      rfl

/-- With a space among the first five characters of a longer line a length wraps. -/
theorem parseResponseBy_wraps {line : Bytes} (read : stream.getline [] = (line, stream'))
    {versionEnd : Nat} (space : line.idxOf? 32 = some versionEnd) (early : versionEnd < 5)
    (long : 5 < line.length) (message : ResponseMessage) :
    parseResponseBy checkedSub stream message = .error .undefined := by
  simp only [parseResponseBy, read, space, if_pos long, checkedSub, if_neg (Nat.not_le.mpr early)]
  rfl

/-- The parser does not throw, and is defined; at most it does not come back. -/
theorem endless_of_parseResponse {message : ResponseMessage} {failure : Failure}
    (failed : parseResponse stream message = .error failure) : failure = .endless := by
  obtain ⟨line, stream', read⟩ : ∃ line stream', stream.getline [] = (line, stream') := ⟨_, _, rfl⟩
  simp only [parseResponse, read] at failed
  split at failed
  · cases failed
  next versionEnd space =>
    -- both substrings begin inside of the line
    have inside := (List.idxOf?_eq_some_iff.mp space).1
    split at failed
    next long =>
      rw [substr_of_le (Nat.le_of_lt long)] at failed
      simp only [bind, Except.bind] at failed
      split at failed
      next more =>
        rw [substr_of_le (Nat.le_of_lt more)] at failed
        simp only at failed
        by_cases ends : stream'.HeaderEnds
        · obtain ⟨header, stream'', parsed⟩ := parseHeader_of_ends ends
          rw [parsed] at failed
          cases failed
        · rw [parseHeader_of_endless ends] at failed
          cases failed
          rfl
      · cases failed
    · cases failed

theorem exists_first_space {line : Bytes} {versionEnd : Nat}
    (space : line.idxOf? 32 = some versionEnd) :
    ∃ front back, line = front ++ 32 :: back ∧ 32 ∉ front ∧ front.length = versionEnd := by
  have member : 32 ∈ line := by
    by_contra absent
    rw [idxOf?_of_notMem absent] at space
    cases space
  obtain ⟨front, back, rfl, clean⟩ := List.eq_append_cons_of_mem member
  rw [idxOf?_append_cons clean, Option.some.injEq] at space
  exact ⟨front, back, rfl, clean, space⟩

/-- A line that begins with `HTTP/` has it in front of its first space. -/
theorem exists_version {front back : Bytes} (begins : ascii "HTTP/" <+: front ++ 32 :: back) :
    ∃ version, front = ascii "HTTP/" ++ version := by
  obtain ⟨rest, whole⟩ := begins
  rcases List.append_eq_append_iff.mp whole with ⟨version, split, -⟩ | ⟨more, split, behind⟩
  · exact ⟨version, split⟩
  · cases more with
    | nil => exact ⟨[], by rw [List.append_nil, split, List.append_nil]⟩
    | cons c more =>
      -- then the space would be one of its characters
      obtain ⟨rfl, -⟩ := List.cons.inj behind
      have space : (32 : UInt8) ∈ ascii "HTTP/" := by
        rw [split]
        exact List.mem_append_right front List.mem_cons_self
      exact absurd space (by decide)

/-- A line that ends with a `\r` has it at the end of what is behind its first space. -/
theorem status_of_ends {front back : Bytes} (more : back ≠ [])
    (ends : [13] <:+ front ++ 32 :: back) : back.dropLast ++ [13] = back := by
  obtain ⟨rest, whole⟩ := ends
  rw [← List.dropLast_append_getLast more, ← List.cons_append, ← List.append_assoc] at whole
  have last := List.append_inj_right' whole rfl
  rw [last, List.dropLast_append_getLast]

theorem parsesStatusLine_of_taken {message : ResponseMessage} (taken : StatusLineTaken stream) :
    ParsesStatusLine stream message := by
  have unthrown : ∀ exception, parseResponse stream message ≠ .error (.throws exception) :=
    fun exception failed => nomatch endless_of_parseResponse failed
  obtain ⟨line, stream', read⟩ : ∃ line stream', stream.getline [] = (line, stream') := ⟨_, _, rfl⟩
  rw [StatusLineTaken, read] at taken
  -- refused for want of a version or of a status
  by_cases refused : ∀ versionEnd, line.idxOf? 32 = some versionEnd →
      line.length ≤ 5 ∨ line.length = versionEnd + 1
  · obtain ⟨message', parsed⟩ := parseResponseBy_refused read refused message
    refine ⟨?_, unthrown, ?_⟩
    · intro other rest accepted
      rw [parseResponse_eq, parsed _ subtracts_sizeSub] at accepted
      cases accepted
    · rw [parseResponse_eq, parsed _ subtracts_sizeSub, parsed _ subtracts_checkedSub]
  · simp only [not_forall, not_or] at refused
    obtain ⟨versionEnd, space, long, unended⟩ := refused
    obtain ⟨front, back, rfl, clean, rfl⟩ := exists_first_space space
    have shape := ((taken _ space).resolve_left long).resolve_left unended
    have more : back ≠ [] := by
      rintro rfl
      exact unended (by simp)
    -- the version is long enough for the length not to wrap
    have fits : 5 ≤ front.length := by
      rcases shape with ⟨begins, -⟩ | ⟨fits, -⟩
      · obtain ⟨version, rfl⟩ := exists_version begins
        rw [List.length_append]
        exact Nat.le_add_right _ _
      · exact fits
    have parsed := fun {sub} (subtracts : Subtracts sub) =>
      parseResponseBy_accepted subtracts read clean fits more message
    refine ⟨?_, unthrown, ?_⟩
    · intro other rest accepted
      rw [parseResponse_eq, parsed subtracts_sizeSub] at accepted
      rcases shape with ⟨begins, ends⟩ | ⟨-, endless⟩
      · obtain ⟨version, rfl⟩ := exists_version begins
        rw [List.mem_append, not_or] at clean
        cases fields : parseHeader stream' with
        | error failure =>
          rw [fields] at accepted
          cases accepted
        | ok parsed =>
          rw [fields] at accepted
          cases accepted
          rw [read]
          refine ⟨?_, clean.2⟩
          rw [status_of_ends more ends]
          rfl
      · rw [parseHeader_of_endless endless] at accepted
        cases accepted
    · rw [parseResponse_eq, parsed subtracts_sizeSub, parsed subtracts_checkedSub]

theorem taken_of_parsesStatusLine {message : ResponseMessage}
    (sound : ParsesStatusLine stream message) : StatusLineTaken stream := by
  obtain ⟨line, stream', read⟩ : ∃ line stream', stream.getline [] = (line, stream') := ⟨_, _, rfl⟩
  intro versionEnd space
  rw [read] at space ⊢
  by_contra bad
  simp only [not_or] at bad
  obtain ⟨long, unended, unshaped, comes⟩ := bad
  by_cases early : versionEnd < 5
  · -- with a wrapped length the parser is not what checked subtraction gives
    have wraps := parseResponseBy_wraps read space early (Nat.not_le.mp long) message
    rw [sound.unwrapped] at wraps
    cases endless_of_parseResponse wraps
  · have fits : 5 ≤ versionEnd := Nat.not_lt.mp early
    have ends : stream'.HeaderEnds := by_contra fun endless => comes ⟨fits, endless⟩
    obtain ⟨front, back, rfl, clean, rfl⟩ := exists_first_space space
    have more : back ≠ [] := by
      rintro rfl
      exact unended (by simp)
    obtain ⟨header, stream'', parsed⟩ := parseHeader_of_ends ends
    -- the line is accepted as it is, so that it has the parts it is said to have
    have accepted := parseResponseBy_accepted subtracts_sizeSub read clean fits more message
    rw [← parseResponse_eq, parsed] at accepted
    obtain ⟨shape, -⟩ := sound.line _ _ accepted
    rw [read] at shape
    dsimp only at shape
    apply unshaped
    constructor
    · exact ⟨_, (shape.trans (List.append_assoc _ _ _)).symm⟩
    · rw [shape, ← List.cons_append, ← List.append_assoc]
      exact List.suffix_append _ _

/-- The parser does what it should exactly if the line is refused, or begins and ends as it takes
for granted, or if it does not come back from the header. -/
theorem parsesStatusLine_iff (stream : StreamBuf) (message : ResponseMessage) :
    ParsesStatusLine stream message ↔ StatusLineTaken stream :=
  ⟨taken_of_parsesStatusLine, parsesStatusLine_of_taken⟩

private def earlySpace : StreamBuf :=
  { maxSize := 15, data := ascii "HTTP 200 OK\x0d\n\x0d\n", fits := by decide }

/-- The fifth character is a space: the line is accepted with the version `200 OK\r`. -/
theorem early_space_accepted :
    (∃ stream', parseResponse earlySpace {} =
      .ok (true, ⟨ascii "200 OK\x0d", ascii "200 OK", []⟩, stream')) ∧
    ¬ ParsesStatusLine earlySpace {} := by
  refine ⟨⟨_, rfl⟩, fun sound => ?_⟩
  have wraps : parseResponseBy checkedSub earlySpace {} = .error .undefined := rfl
  rw [sound.unwrapped] at wraps
  cases endless_of_parseResponse wraps

end ServerLib.Web
