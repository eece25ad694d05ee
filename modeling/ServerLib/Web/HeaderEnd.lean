import ServerLib.Web.HeaderParsing

/-!
# Where the fields of a header end

The loop of `http_header::parse` looks at the line that was read last, and never at the stream.
A line without a colon ends it. At the end of the stream there is such a line only if the last
line has no colon, and the line behind a final line feed is empty; otherwise `getline` fails and
leaves the last line as it is, and it is parsed again and again.
-/
namespace ServerLib.Web

open Network (Bytes)

/-- What is in the stream behind its first line without a colon. -/
inductive BehindFields : Bytes → Bytes → Prop where
  | ended {line rest : Bytes} (plain : 58 ∉ line) (clean : 10 ∉ line) :
      BehindFields (line ++ 10 :: rest) rest
  | last {line : Bytes} (plain : 58 ∉ line) (clean : 10 ∉ line) : BehindFields line []
  | field {line data rest : Bytes} (colon : 58 ∈ line) (clean : 10 ∉ line)
      (behind : BehindFields data rest) : BehindFields (line ++ 10 :: data) rest

/-- A line without a colon is read, be it that nothing is read at all. -/
def StreamBuf.HeaderEnds (stream : StreamBuf) : Prop :=
  stream.good → ∃ line ∈ stream.data.splitOn 10, 58 ∉ line

instance (stream : StreamBuf) : Decidable stream.HeaderEnds := by
  unfold StreamBuf.HeaderEnds
  infer_instance

/-- The loop of `http_header::parse` ends. It takes the lines up to the first one without a colon
from the stream, and no more; nothing if the stream is not good. -/
def ParsesHeader (stream : StreamBuf) : Prop :=
  ∃ turns header stream',
    parseFields turns (stream.getline []).1 (stream.getline []).2 [] = .ok (header, stream') ∧
    if stream.good then BehindFields stream.data stream'.data else stream'.data = stream.data

/-! ### The lines of a stream -/

theorem split_at_lineFeed (data : Bytes) :
    10 ∉ data ∨ ∃ line rest, data = line ++ 10 :: rest ∧ 10 ∉ line := by
  by_cases member : 10 ∈ data
  · obtain ⟨line, rest, whole, clean⟩ := List.eq_append_cons_of_mem member
    exact .inr ⟨line, rest, whole, clean⟩
  · exact .inl member

namespace StreamBuf

/-- The rest of a stream is read as a line that has no line feed behind it. -/
theorem getline_of_notMem {b : StreamBuf} (good : b.good) (clean : 10 ∉ b.data) (old : Bytes) :
    b.getline old = (b.data, { b.consume b.size with eof := true, fail := b.data.isEmpty }) := by
  simp only [getline, good, if_true, idxOf?_of_notMem clean]

theorem getline_of_not_good {b : StreamBuf} (bad : b.good = false) (old : Bytes) :
    b.getline old = (old, { b with fail := true }) := by
  simp only [getline, bad, Bool.false_eq_true, if_false]

/-- The first line, and the stream behind it. -/
theorem getline_split {b : StreamBuf} (good : b.good) {line rest : Bytes} (clean : 10 ∉ line)
    (split : b.data = line ++ 10 :: rest) (old : Bytes) :
    b.getline old = (line, b.consume (line.length + 1)) ∧
      (b.consume (line.length + 1)).data = rest := by
  have read := getline_append clean good (by rw [List.append_nil, split]) old
  rwa [List.append_nil] at read

end StreamBuf

/-! ### The loop -/

/-- The loop ends: its line has no colon, or a line is still to be read that has none. -/
def FieldsEnd (line : Bytes) (stream : StreamBuf) : Prop :=
  58 ∈ line → stream.good ∧ ∃ l ∈ stream.data.splitOn 10, 58 ∉ l

theorem fieldsEnd_getline {stream : StreamBuf} (old : Bytes) :
    FieldsEnd (stream.getline old).1 (stream.getline old).2 ↔
      if stream.good then ∃ l ∈ stream.data.splitOn 10, 58 ∉ l else 58 ∉ old := by
  cases good : stream.good with
  | false =>
    rw [StreamBuf.getline_of_not_good good, FieldsEnd]
    simp [StreamBuf.good]
  | true =>
    rcases split_at_lineFeed stream.data with clean | ⟨line, rest, split, clean⟩
    · -- behind the last line the stream is not good any more
      rw [StreamBuf.getline_of_notMem good clean, FieldsEnd, List.splitOn_eq_singleton clean]
      simp [StreamBuf.good]
    · obtain ⟨read, behind⟩ := StreamBuf.getline_split good clean split old
      rw [read, FieldsEnd, behind, split, List.splitOn_append_cons_self_of_not_mem clean,
        StreamBuf.consume_good, good]
      simp only [List.mem_cons, exists_eq_or_imp, if_true, true_and]
      exact Decidable.imp_iff_not_or

/-- A turn takes a line, or it takes the last one and the stream is not good any more. -/
def turnsLeft (stream : StreamBuf) : Nat := stream.size + stream.good.toNat

theorem turnsLeft_getline {stream : StreamBuf} (good : stream.good) (old : Bytes) :
    turnsLeft (stream.getline old).2 < turnsLeft stream := by
  rcases split_at_lineFeed stream.data with clean | ⟨line, rest, split, clean⟩
  · -- the last line
    rw [StreamBuf.getline_of_notMem good clean, turnsLeft, turnsLeft, good]
    simp [StreamBuf.size, StreamBuf.good]
  · obtain ⟨read, behind⟩ := StreamBuf.getline_split good clean split old
    rw [read, turnsLeft, turnsLeft, StreamBuf.consume_good, StreamBuf.size, StreamBuf.size, behind,
      split, List.length_append, List.length_cons]
    omega

/-- What the loop leaves of the stream. -/
def Leaves (line : Bytes) (stream stream' : StreamBuf) : Prop :=
  if 58 ∈ line then BehindFields stream.data stream'.data else stream' = stream

/-- A line that is read in front of what the loop leaves. -/
theorem behindFields_getline {stream stream' : StreamBuf} (good : stream.good) (old : Bytes)
    (ends : FieldsEnd (stream.getline old).1 (stream.getline old).2)
    (leaves : Leaves (stream.getline old).1 (stream.getline old).2 stream') :
    BehindFields stream.data stream'.data := by
  rcases split_at_lineFeed stream.data with clean | ⟨line, rest, split, clean⟩
  · rw [StreamBuf.getline_of_notMem good clean] at ends leaves
    -- behind the last line no other is read, so that it has no colon itself
    have plain : 58 ∉ stream.data := fun colon => by
      simpa [StreamBuf.good] using (ends colon).1
    rw [Leaves, if_neg plain] at leaves
    rw [leaves, StreamBuf.consume_data, StreamBuf.size, List.drop_length]
    exact .last plain clean
  · obtain ⟨read, behind⟩ := StreamBuf.getline_split good clean split old
    rw [read, Leaves, behind] at leaves
    rw [split]
    split at leaves
    next colon => exact .field colon clean leaves
    next plain =>
      rw [leaves, behind]
      exact .ended plain clean

/-- Where the loop ends it does so within the turns that are left, and one more. -/
theorem parseFields_ends {line : Bytes} {stream : StreamBuf} (ends : FieldsEnd line stream)
    (result : Header) :
    ∃ header stream', Leaves line stream stream' ∧
      ∀ turns, turnsLeft stream < turns →
        parseFields turns line stream result = .ok (header, stream') := by
  induction left : turnsLeft stream using Nat.strong_induction_on
    generalizing line stream result with
  | _ _ ih =>
    subst left
    by_cases colon : 58 ∈ line
    · obtain ⟨good, plain⟩ := ends colon
      obtain ⟨result', turned⟩ := parseFields_colon colon result
      -- the line without a colon is among those that are left
      have next : FieldsEnd (stream.getline line).1 (stream.getline line).2 := by
        rw [fieldsEnd_getline, good]
        exact plain
      have fewer := turnsLeft_getline good line
      obtain ⟨header, stream', leaves, parses⟩ := ih _ fewer next result' rfl
      refine ⟨header, stream', ?_, fun turns enough => ?_⟩
      · rw [Leaves, if_pos colon]
        exact behindFields_getline good line next leaves
      · obtain ⟨turns, rfl⟩ := Nat.exists_eq_succ_of_ne_zero (Nat.ne_zero_of_lt enough)
        rw [turned]
        exact parses turns (by omega)
    · refine ⟨result, stream, by rw [Leaves, if_neg colon], fun turns enough => ?_⟩
      obtain ⟨turns, rfl⟩ := Nat.exists_eq_succ_of_ne_zero (Nat.ne_zero_of_lt enough)
      exact parseFields_plain colon turns stream result

/-- Where it does not, no number of turns is enough. -/
theorem parseFields_endless (turns : Nat) {line : Bytes} {stream : StreamBuf}
    (endless : ¬ FieldsEnd line stream) (result : Header) :
    parseFields turns line stream result = .error .endless := by
  induction turns generalizing line stream result with
  | zero => rw [parseFields]
  | succ turns ih =>
    obtain ⟨colon, stays⟩ := Classical.not_imp.mp endless
    obtain ⟨result', turned⟩ := parseFields_colon colon result
    rw [turned]
    apply ih
    rw [fieldsEnd_getline]
    split
    next good => exact fun plain => stays ⟨good, plain⟩
    · exact not_not_intro colon

/-! ### `http_header::parse` -/

theorem fieldsEnd_first_iff (stream : StreamBuf) :
    FieldsEnd (stream.getline []).1 (stream.getline []).2 ↔ stream.HeaderEnds := by
  rw [fieldsEnd_getline, StreamBuf.HeaderEnds]
  split
  next good => simp [good]
  next bad => simp [bad]

theorem parseHeader_of_ends {stream : StreamBuf} (ends : stream.HeaderEnds) :
    ∃ header stream', parseHeader stream = .ok (header, stream') := by
  obtain ⟨header, stream', -, parses⟩ := parseFields_ends ((fieldsEnd_first_iff stream).mpr ends) []
  refine ⟨header, stream', parses _ ?_⟩
  have flag := Bool.toNat_le (stream.getline []).2.good
  show (stream.getline []).2.size + _ < (stream.getline []).2.size + 3
  omega

theorem parseHeader_of_endless {stream : StreamBuf} (endless : ¬ stream.HeaderEnds) :
    parseHeader stream = .error .endless :=
  parseFields_endless _ (mt (fieldsEnd_first_iff stream).mp endless) []

/-- The parsing of a header ends exactly if there is a line without a colon to be read. -/
theorem parsesHeader_iff (stream : StreamBuf) : ParsesHeader stream ↔ stream.HeaderEnds := by
  rw [← fieldsEnd_first_iff]
  constructor
  · rintro ⟨turns, header, stream', parsed, -⟩
    by_contra endless
    rw [parseFields_endless turns endless] at parsed
    cases parsed
  · intro ends
    obtain ⟨header, stream', leaves, parses⟩ := parseFields_ends ends []
    refine ⟨_, header, stream', parses _ (Nat.lt_succ_self _), ?_⟩
    split
    next good => exact behindFields_getline good [] ends leaves
    next bad =>
      rw [StreamBuf.getline_of_not_good (Bool.eq_false_iff.mpr bad), Leaves,
        if_neg List.not_mem_nil] at leaves
      rw [leaves]

/-- A field without a line feed behind it is parsed for ever. -/
theorem unended_field_not_parsed :
    ¬ ParsesHeader { maxSize := 4, data := [65, 58, 32, 66] } := by
  rintro ⟨turns, header, stream', parsed, -⟩
  rw [parseFields_endless turns (mt (fieldsEnd_first_iff _).mp (by decide))] at parsed
  cases parsed

end ServerLib.Web
