import ServerLib.Web.HeaderBlock

/-!
# Parsing a header that has been found

Behind the delimiter that `async_read_until` has found the parser of the fields neither throws nor
loops, and what it makes of a header does not depend on what is buffered behind it. The lines of a
header need not be fields for that: a line without a colon ends the fields, and the blank line is
one.
-/
namespace ServerLib.Web

open Network (Bytes)

/-- A header block can be read up to its blank line, which may come first. -/
def Terminated (data : Bytes) : Prop := crlf <+: data ∨ headerEnd <:+: data

theorem exists_first_line {data : Bytes} (ended : headerEnd <:+: data) :
    ∃ line rest, data = line ++ 10 :: rest ∧ 10 ∉ line ∧ Terminated rest := by
  obtain ⟨front, back, rfl⟩ := ended
  by_cases early : (10 : UInt8) ∈ front
  · obtain ⟨line, tail, rfl, clean⟩ := List.eq_append_cons_of_mem early
    exact ⟨line, tail ++ headerEnd ++ back, by simp, clean, .inr ⟨tail, back, rfl⟩⟩
  · -- the line ends with the first half of the delimiter, and the second half is the blank line
    refine ⟨front ++ [13], crlf ++ back, by simp [headerEnd, crlf], by simp [early], .inl ?_⟩
    exact List.prefix_append _ _

/-- The blank line ends the fields, as it has no colon. -/
theorem exists_next_line {data : Bytes} (terminated : Terminated data) :
    ∃ line rest, data = line ++ 10 :: rest ∧ 10 ∉ line ∧ (58 ∉ line ∨ Terminated rest) := by
  rcases terminated with ⟨rest, rfl⟩ | ended
  · exact ⟨[13], rest, rfl, by decide, .inl (by decide)⟩
  · obtain ⟨line, rest, split, clean, behind⟩ := exists_first_line ended
    exact ⟨line, rest, split, clean, .inr behind⟩

/-- The stream behind its first line. -/
theorem getline_append {line data rest : Bytes} (clean : 10 ∉ line) {stream : StreamBuf}
    (good : stream.good) (begins : stream.data = (line ++ 10 :: data) ++ rest) (old : Bytes) :
    stream.getline old = (line, stream.consume (line.length + 1)) ∧
      (stream.consume (line.length + 1)).data = data ++ rest := by
  rw [List.append_assoc, List.cons_append] at begins
  refine ⟨StreamBuf.getline_of_mem good clean begins old, ?_⟩
  rw [StreamBuf.consume_data, begins, List.drop_length_add_append]
  rfl

theorem exists_colon {line : Bytes} (colon : 58 ∈ line) :
    ∃ paramEnd, line.idxOf? 58 = some paramEnd := by
  obtain ⟨front, back, rfl, absent⟩ := List.eq_append_cons_of_mem colon
  exact ⟨_, idxOf?_append_cons absent back⟩

/-- A line without a colon ends the loop. -/
theorem parseFields_plain {line : Bytes} (plain : 58 ∉ line) (turns : Nat) (stream : StreamBuf)
    (result : Header) : parseFields (turns + 1) line stream result = .ok (result, stream) := by
  rw [parseFields, idxOf?_of_notMem plain]

/-- A line with a colon does not, and another one is read. -/
theorem parseFields_colon {line : Bytes} (colon : 58 ∈ line) (result : Header) :
    ∃ result', ∀ (turns : Nat) (stream : StreamBuf),
      parseFields (turns + 1) line stream result =
        parseFields turns (stream.getline line).1 (stream.getline line).2 result' := by
  obtain ⟨paramEnd, found⟩ := exists_colon colon
  let valueStart := paramEnd + 1 + skippedSpaces (line.drop (paramEnd + 1))
  let field := ((line.drop 0).take paramEnd,
    (line.drop valueStart).take (sizeSub (sizeSub line.length valueStart) 1))
  refine ⟨if valueStart < line.length then result ++ [field] else result, ?_⟩
  intro turns stream
  rw [parseFields, found]
  dsimp only
  split
  next inside =>
    rw [substr_of_le (Nat.zero_le _), substr_of_le (Nat.le_of_lt inside)]
    rfl
  · rfl

/-- The fields of a header, and how far the parser takes it, whatever is behind the header. -/
theorem exists_parsed_fields (line : Bytes) {data : Bytes} (result : Header)
    (terminated : 58 ∉ line ∨ Terminated data) :
    ∃ header, ∃ k ≤ data.length, ∀ (stream : StreamBuf) (rest : Bytes) (turns : Nat),
      stream.good → stream.data = data ++ rest → data.length < turns →
      parseFields turns line stream result = .ok (header, stream.consume k) := by
  induction size : data.length using Nat.strong_induction_on generalizing line data result with
  | _ size' ih =>
    subst size
    by_cases colon : 58 ∈ line
    · -- a line with a colon is not the blank one, so there is another one behind it
      have later : Terminated data := terminated.resolve_left (not_not_intro colon)
      obtain ⟨line', data', rfl, clean, behind⟩ := exists_next_line later
      have shorter : data'.length < (line' ++ 10 :: data').length := by
        rw [List.length_append, List.length_cons]
        omega
      -- its field is kept, unless the value is empty, and the loop goes on
      obtain ⟨result', turn⟩ := parseFields_colon colon result
      obtain ⟨header, k, within, parses⟩ := ih _ shorter line' result' behind rfl
      refine ⟨header, line'.length + 1 + k, ?_, fun stream rest turns good begins enough => ?_⟩
      · rw [List.length_append, List.length_cons]
        omega
      · obtain ⟨turns, rfl⟩ := Nat.exists_eq_succ_of_ne_zero (Nat.ne_zero_of_lt enough)
        obtain ⟨read, begins'⟩ := getline_append clean good begins line
        have next := parses (stream.consume (line'.length + 1)) rest turns good begins' (by omega)
        rw [StreamBuf.consume_consume] at next
        rw [turn, read]
        exact next
    · -- the fields end here
      refine ⟨result, 0, Nat.zero_le _, fun stream rest turns good begins enough => ?_⟩
      obtain ⟨turns, rfl⟩ := Nat.exists_eq_succ_of_ne_zero (Nat.ne_zero_of_lt enough)
      exact parseFields_plain colon turns stream result

theorem exists_parsed_header {data : Bytes} (terminated : Terminated data) :
    ∃ header, ∃ k ≤ data.length, ∀ (stream : StreamBuf) (rest : Bytes),
      stream.good → stream.data = data ++ rest →
      parseHeader stream = .ok (header, stream.consume k) := by
  obtain ⟨line, data', rfl, clean, behind⟩ := exists_next_line terminated
  obtain ⟨header, k, within, parses⟩ := exists_parsed_fields line [] behind
  refine ⟨header, line.length + 1 + k, ?_, fun stream rest good begins => ?_⟩
  · rw [List.length_append, List.length_cons]
    omega
  · obtain ⟨read, begins'⟩ := getline_append clean good begins []
    have enough : data'.length < (stream.consume (line.length + 1)).size + 3 := by
      rw [StreamBuf.size, begins', List.length_append]
      omega
    have parsed := parses (stream.consume (line.length + 1)) rest _ good begins' enough
    rw [StreamBuf.consume_consume] at parsed
    simp only [parseHeader, read]
    exact parsed

end ServerLib.Web
