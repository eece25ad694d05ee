import ServerLib.Web.HttpMessage

/-!
# Header blocks

The lines of a message up to its blank line. Where no line is empty and none has a `\r` or a
`\n` in it, the first `\r\n\r\n` is the end of the block; a field whose value does not begin with
a space is parsed as it was written, however many spaces stand in front of the value.
-/
namespace ServerLib.Web

open Network (Bytes)
open Occurrence (LeftmostAt)

/-- Neither `\r` nor `\n`. -/
def Plain (s : Bytes) : Prop := 13 ∉ s ∧ 10 ∉ s

instance Plain.decidable (s : Bytes) : Decidable (Plain s) := inferInstanceAs (Decidable (_ ∧ _))

theorem Plain.append {s t : Bytes} (plain : Plain s) (plain' : Plain t) : Plain (s ++ t) := by
  constructor <;> rw [List.mem_append, not_or]
  · exact ⟨plain.1, plain'.1⟩
  · exact ⟨plain.2, plain'.2⟩

/-- What a digit is written with is plain. -/
theorem plain_of_isNumeral {base : Nat} (small : base ≤ 16) {s : Bytes}
    (digits : IsNumeral base s) : Plain s := by
  constructor <;> intro member
  · exact (digit_plain small (digits.2 _ member)).2.2.2.2.2.1 rfl
  · exact (digit_plain small (digits.2 _ member)).2.2.2.2.2.2 rfl

/-- A value that a parsed field can have. -/
def Readable (value : Bytes) : Prop := 10 ∉ value ∧ value.head? ≠ some 32

/-- A field that is read as it was written. -/
structure ReadableField (field : Bytes × Bytes) : Prop where
  colonless : 58 ∉ field.1
  name : 10 ∉ field.1
  value : Readable field.2

/-- A readable field that does not disturb the end of its block either. -/
structure PlainField (field : Bytes × Bytes) : Prop where
  named : field.1 ≠ []
  colonless : 58 ∉ field.1
  name : Plain field.1
  value : Plain field.2
  begins : field.2.head? ≠ some 32

instance PlainField.decidable (field : Bytes × Bytes) : Decidable (PlainField field) :=
  decidable_of_iff
    (field.1 ≠ [] ∧ 58 ∉ field.1 ∧ Plain field.1 ∧ Plain field.2 ∧ field.2.head? ≠ some 32)
    ⟨fun ⟨a, b, c, d, e⟩ => ⟨a, b, c, d, e⟩, fun ⟨a, b, c, d, e⟩ => ⟨a, b, c, d, e⟩⟩

theorem PlainField.readable {field : Bytes × Bytes} (plain : PlainField field) :
    ReadableField field :=
  ⟨plain.colonless, plain.name.2, plain.value.2, plain.begins⟩

/-- A field with so many spaces in front of its value. -/
structure SpacedField where
  spaces : Nat
  field : Bytes × Bytes
  readable : ReadableField field

def SpacedField.line (f : SpacedField) : Bytes :=
  f.field.1 ++ 58 :: (List.replicate f.spaces 32 ++ f.field.2)

/-- Lines, each with its `\r\n`, and the blank line behind them. -/
def headerBlock : List Bytes → Bytes
  | [] => crlf
  | line :: lines => line ++ crlf ++ headerBlock lines

theorem headerBlock_eq (lines : List Bytes) :
    headerBlock lines = lines.flatMap (· ++ crlf) ++ crlf := by
  induction lines with
  | nil => rfl
  | cons line lines ih =>
    rw [headerBlock, ih, List.flatMap_cons, List.append_assoc, List.append_assoc, List.append_assoc]

/-- A block as `getline` sees it. -/
theorem headerBlock_cons (line : Bytes) (lines : List Bytes) (rest : Bytes) :
    headerBlock (line :: lines) ++ rest = (line ++ [13]) ++ 10 :: (headerBlock lines ++ rest) := by
  simp [headerBlock, crlf]

theorem SpacedField.line_clean (f : SpacedField) : 10 ∉ f.line := by
  simp [line, f.readable.name, f.readable.value.1]

theorem SpacedField.line_plain {f : SpacedField} (plain : PlainField f.field) :
    f.line ≠ [] ∧ Plain f.line := by
  refine ⟨by simp [line], plain.name.append ?_⟩
  constructor <;> simp [plain.value.1, plain.value.2]

/-! ### The end of the block -/

private theorem find_headerEnd_append {front : Bytes} (clean : 13 ∉ front) (rest : Bytes) :
    Occurrence.find headerEnd (front ++ rest) =
      (Occurrence.find headerEnd rest).map (front.length + ·) := by
  induction front with
  | nil => simp
  | cons b front ih =>
    rw [List.mem_cons, not_or] at clean
    have here : ¬ headerEnd <+: b :: (front ++ rest) := fun occurs =>
      clean.1 (List.cons_prefix_cons.mp occurs).1
    rw [List.cons_append, Occurrence.find, if_neg here, ih clean.2, Option.map_map]
    congr 1
    funext n
    simp only [Function.comp, List.length_cons]
    omega

private theorem find_headerEnd_crlf {rest : Bytes} (other : ¬ crlf <+: rest) :
    Occurrence.find headerEnd (crlf ++ rest) =
      (Occurrence.find headerEnd rest).map (2 + ·) := by
  have first : ¬ headerEnd <+: 13 :: 10 :: rest := by
    rw [headerEnd, List.cons_prefix_cons, List.cons_prefix_cons]
    exact fun occurs => other occurs.2.2
  have second : ¬ headerEnd <+: 10 :: rest := by
    rw [headerEnd, List.cons_prefix_cons]
    exact fun occurs => absurd occurs.1 (by decide)
  rw [show crlf ++ rest = 13 :: 10 :: rest from rfl, Occurrence.find, if_neg first,
    Occurrence.find, if_neg second, Option.map_map]
  congr 1
  funext n
  simp only [Function.comp]
  omega

/-- The first `\r\n\r\n` is the one at the end of the block. -/
theorem leftmostAt_headerBlock {line : Bytes} {lines : List Bytes}
    (clean : ∀ l ∈ line :: lines, l ≠ [] ∧ Plain l) (rest : Bytes) :
    ∃ n, n + 4 = (headerBlock (line :: lines)).length ∧
      LeftmostAt headerEnd (headerBlock (line :: lines) ++ rest) n := by
  simp only [← Occurrence.find_eq_some_iff]
  induction lines generalizing line with
  | nil =>
    refine ⟨line.length, by simp [headerBlock, crlf], ?_⟩
    have ends : Occurrence.find headerEnd (crlf ++ (crlf ++ rest)) = some 0 := by
      rw [Occurrence.find_eq_some_iff]
      exact ⟨⟨rest, rfl⟩, fun m below => absurd below (Nat.not_lt_zero m)⟩
    rw [headerBlock, headerBlock, List.append_assoc, List.append_assoc,
      find_headerEnd_append (clean line List.mem_cons_self).2.1, ends]
    rfl
  | cons next lines ih =>
    obtain ⟨n, total, found⟩ := ih fun l member => clean l (List.mem_cons_of_mem line member)
    refine ⟨line.length + (2 + n), ?_, ?_⟩
    · rw [headerBlock, List.length_append, List.length_append, ← total]
      simp only [crlf, List.length_cons, List.length_nil]
      omega
    · -- the next line is not the blank one
      have other : ¬ crlf <+: headerBlock (next :: lines) ++ rest := by
        obtain ⟨occupied, plain⟩ := clean next (by simp)
        obtain ⟨b, next, rfl⟩ := List.exists_cons_of_ne_nil occupied
        rw [headerBlock, List.append_assoc, List.append_assoc, List.cons_append, crlf,
          List.cons_prefix_cons]
        rintro ⟨rfl, -⟩
        exact plain.1 List.mem_cons_self
      rw [headerBlock, List.append_assoc, List.append_assoc,
        find_headerEnd_append (clean line List.mem_cons_self).2.1, find_headerEnd_crlf other, found]
      rfl

/-- A read into an empty buffer has got behind the header block, and not behind the first end of a
piece there. -/
structure HeaderRead (r : ReadResult) (s : Socket) (block rest : Bytes) (m : Nat) : Prop where
  clean : r.ec = none
  offset : r.bytesTransferred = block.length
  behind : block.length ≤ m
  within : m ≤ s.pieces.flatten.length
  ends : r.buf.full = false → Segmented.EndsAt s.pieces m
  first : ∀ n, Segmented.EndsAt s.pieces n → block.length ≤ n → m ≤ n
  size : r.buf.size = m
  data : r.buf.data = block ++ rest.take (m - block.length)
  left : r.socket.pieces = Segmented.dropItems m s.pieces

/-- Wherever the block is whole, its end is found. -/
private theorem leftmostAt_of_whole {block rest front back : Bytes} {n : Nat}
    (total : n + 4 = block.length) (occurs : LeftmostAt headerEnd (block ++ rest) n)
    (parts : block ++ rest = front ++ back) (whole : block.length ≤ front.length) :
    LeftmostAt headerEnd front n := by
  rw [parts] at occurs
  have bound : n + headerEnd.length ≤ front.length := Nat.le_trans (Nat.le_of_eq total) whole
  exact (Occurrence.leftmostAt_append_iff bound back).mp occurs

/-- A read that has found the end of a block has found that of the first one. -/
private theorem headerRead_of_stops {b : StreamBuf} (fresh : b.data = []) {s : Socket}
    {r : ReadResult} {block rest : Bytes} {n k m : Nat} (total : n + 4 = block.length)
    (whole : s.pieces.flatten = block ++ rest) (occurs : LeftmostAt headerEnd (block ++ rest) n)
    (carries : r.Carries b s) (leftmost : LeftmostAt headerEnd r.buf.data k)
    (clean : r.ec = none) (offset : r.bytesTransferred = k + headerEnd.length)
    (stopped : r.Stops (untilRoom headerEnd b.maxSize) b s m) : HeaderRead r s block rest m := by
  obtain ⟨bound, data, left, before, stops⟩ := stopped
  rw [fresh, List.nil_append] at data
  simp only [fresh, List.nil_append] at before stops
  have inside : k + headerEnd.length ≤ r.buf.data.length := leftmost.bound
  -- the delimiter that has been found is the first one of the stream
  have same : k = n := by
    have there := (Occurrence.leftmostAt_append_iff inside r.socket.pieces.flatten).mpr leftmost
    rw [← pending, carries.stream, pending, fresh, List.nil_append, whole] at there
    exact there.unique occurs
  have reached : r.buf.data.length = m := by
    rw [data, List.length_take, Nat.min_eq_left bound]
  have behind : block.length ≤ m := by
    rw [← total, ← reached, ← same]
    exact inside
  refine ⟨clean, by rw [offset, ← total, same]; rfl, behind, bound, ?_, ?_, reached, ?_, left⟩
  · intro open_
    rcases stops with ends | ⟨j, below, ends, exhausted⟩
    · exact ends
    · -- the buffer would be full
      unfold untilRoom at exhausted
      split at exhausted
      · omega
      · rw [List.length_take, Nat.min_eq_left (Nat.le_trans (Nat.le_of_lt below) bound)]
          at exhausted
        have full : r.buf.full = true := by
          rw [StreamBuf.full_iff, StreamBuf.size, reached, carries.maxSize]
          omega
        rw [full] at open_
        cases open_
  · intro j ends whole_block
    -- a shorter part of the stream would have had the delimiter in it
    by_contra early
    apply before j (Nat.lt_of_not_le early) ends
    have parts : block ++ rest = s.pieces.flatten.take j ++ s.pieces.flatten.drop j := by
      rw [List.take_append_drop, whole]
    have there := leftmostAt_of_whole total occurs parts
      (by rwa [List.length_take, Nat.min_eq_left ends.le])
    rw [untilRoom, (Occurrence.find_eq_some_iff _ _ _).mpr there]
  · rw [data, whole, List.take_append, List.take_of_length_le behind]

/-- A block that ends with the first `\r\n\r\n` of the stream is read, unless there is no room for
it. -/
theorem exists_delimited_read {block rest : Bytes} {n : Nat} (total : n + 4 = block.length)
    (occurs : LeftmostAt headerEnd (block ++ rest) n) {b : StreamBuf} (fresh : b.data = [])
    {s : Socket} (whole : s.pieces.flatten = block ++ rest) :
    ∃ r, asyncReadUntil headerEnd b s = some r ∧ r.Carries b s ∧
      ((∃ m, HeaderRead r s block rest m) ∨
        (r.ec = some .notFound ∧ r.buf.full = true ∧ b.maxSize < block.length)) := by
  have stream : pending b s = block ++ rest := by
    rw [pending, fresh, List.nil_append, whole]
  have there : LeftmostAt headerEnd (pending b s) n := stream ▸ occurs
  obtain ⟨r, completed⟩ := asyncReadUntil_of_leftmost there
  obtain ⟨carries, cases⟩ := asyncReadUntil_some completed
  refine ⟨r, completed, carries, ?_⟩
  cases cases with
  | overflow absent failed full =>
    refine .inr ⟨failed, full, ?_⟩
    by_contra room
    have parts := stream.symm.trans carries.stream.symm
    have found := leftmostAt_of_whole total occurs parts (by
      rw [← StreamBuf.size, (StreamBuf.full_iff _).mp full, carries.maxSize]
      exact Nat.not_lt.mp room)
    exact absent (found.1.isInfix.trans (List.drop_suffix _ _).isInfix)
  | ended _ absent _ _ _ =>
    exact absurd (there.1.isInfix.trans (List.drop_suffix _ _).isInfix) absent
  | found k leftmost none_ offset stops =>
    obtain ⟨m, stopped⟩ := stops
    exact .inl ⟨m,
      headerRead_of_stops fresh total whole occurs carries leftmost none_ offset stopped⟩

/-- The first header block of a stream is read, unless there is no room for it. -/
theorem exists_header_read {line : Bytes} {lines : List Bytes}
    (clean : ∀ l ∈ line :: lines, l ≠ [] ∧ Plain l) {b : StreamBuf} (fresh : b.data = [])
    {s : Socket} {rest : Bytes} (whole : s.pieces.flatten = headerBlock (line :: lines) ++ rest) :
    ∃ r, asyncReadUntil headerEnd b s = some r ∧ r.Carries b s ∧
      ((∃ m, HeaderRead r s (headerBlock (line :: lines)) rest m) ∨
        (r.ec = some .notFound ∧ r.buf.full = true ∧
          b.maxSize < (headerBlock (line :: lines)).length)) := by
  obtain ⟨n, total, occurs⟩ := leftmostAt_headerBlock clean rest
  exact exists_delimited_read total occurs fresh whole

/-! ### The fields -/

theorem skippedSpaces_replicate (spaces : Nat) {c : UInt8} (other : c ≠ 32) (rest : Bytes) :
    skippedSpaces (List.replicate spaces 32 ++ c :: rest) = spaces := by
  induction spaces with
  | zero =>
    unfold skippedSpaces
    split
    next same => exact absurd (List.cons.inj same).1 other
    · rfl
  | succ spaces ih =>
    cases spaces with
    | zero =>
      rw [List.replicate_succ, List.replicate_zero, List.cons_append, List.nil_append,
        skippedSpaces]
      exact congrArg (· + 1) ih
    | succ spaces =>
      rw [List.replicate_succ, List.cons_append, List.replicate_succ, List.cons_append,
        skippedSpaces, ← List.cons_append, ← List.replicate_succ, ih]

/-- A field's line, as `getline` leaves it, is taken apart. -/
theorem parseFields_line (f : SpacedField) (turns : Nat) (stream : StreamBuf) (result : Header) :
    parseFields (turns + 1) (f.line ++ [13]) stream result =
      parseFields turns ((stream.getline (f.line ++ [13])).1)
        ((stream.getline (f.line ++ [13])).2) (result ++ [f.field]) := by
  obtain ⟨spaces, ⟨name, value⟩, readable⟩ := f
  -- the `\r` is still there, and is what the last character of the line is dropped for
  have shape : SpacedField.line ⟨spaces, (name, value), readable⟩ ++ [13] =
      name ++ 58 :: (List.replicate spaces 32 ++ (value ++ [13])) := by
    simp [SpacedField.line]
  have skipped : skippedSpaces (List.replicate spaces 32 ++ (value ++ [13])) = spaces := by
    cases value with
    -- an empty value, so the skipping stops at the `\r`
    | nil => exact skippedSpaces_replicate spaces (by decide) []
    | cons c value =>
      apply skippedSpaces_replicate
      rintro rfl
      exact readable.value.2 rfl
  have behind : (name ++ 58 :: (List.replicate spaces 32 ++ (value ++ [13]))).drop
      (name.length + 1) = List.replicate spaces 32 ++ (value ++ [13]) := by
    rw [List.drop_length_add_append]
    rfl
  have total : (name ++ 58 :: (List.replicate spaces 32 ++ (value ++ [13]))).length =
      name.length + 1 + spaces + (value.length + 1) := by
    simp only [List.length_append, List.length_cons, List.length_replicate, List.length_nil]
    omega
  have last : (name ++ 58 :: (List.replicate spaces 32 ++ (value ++ [13]))).drop
      (name.length + 1 + spaces) = value ++ [13] := by
    rw [← List.drop_drop, behind, List.drop_left' (List.length_replicate)]
  have size : sizeSub (sizeSub (name.length + 1 + spaces + (value.length + 1))
      (name.length + 1 + spaces)) 1 = value.length := sizeSub_between (by omega)
  rw [shape]
  simp only [parseFields, idxOf?_append_cons readable.colonless, behind, skipped, total, size]
  rw [if_pos (by omega), substr_of_le (Nat.zero_le _), substr_of_le (by rw [total]; omega), last]
  simp only [List.drop_zero, List.take_left]
  rfl

/-- The lines of fields are parsed into the fields, and the stream is left behind the blank
line. -/
theorem parseFields_headerBlock (fields : List SpacedField) {first : StreamBuf}
    (good : first.good) {rest : Bytes}
    (begins : first.data = headerBlock (fields.map SpacedField.line) ++ rest) (old : Bytes)
    {turns : Nat} (enough : fields.length < turns) (result : Header) :
    parseFields turns (first.getline old).1 (first.getline old).2 result =
      .ok (result ++ fields.map SpacedField.field,
        first.consume (headerBlock (fields.map SpacedField.line)).length) := by
  obtain ⟨turns, rfl⟩ := Nat.exists_eq_add_of_lt enough
  induction fields generalizing first old result turns with
  | nil =>
    have line : first.getline old = ([13], first.consume 2) :=
      StreamBuf.getline_of_mem good (by decide) (show first.data = [13] ++ 10 :: rest from begins)
        old
    rw [line, List.map_nil, List.map_nil, List.append_nil]
    rfl
  | cons f fields ih =>
    have clean : 10 ∉ f.line ++ [13] := by
      simp [f.line_clean]
    have front := begins.trans (headerBlock_cons f.line (fields.map SpacedField.line) rest)
    have line := StreamBuf.getline_of_mem good clean front old
    have good' : (first.consume ((f.line ++ [13]).length + 1)).good := good
    have begins' : (first.consume ((f.line ++ [13]).length + 1)).data =
        headerBlock (fields.map SpacedField.line) ++ rest := by
      rw [StreamBuf.consume_data, front, List.drop_length_add_append]
      rfl
    rw [line, List.length_cons, show fields.length + 1 + turns + 1 =
      (fields.length + turns + 1) + 1 by omega, parseFields_line,
      ih good' begins' _ _ _ (Nat.lt_succ_of_le (Nat.le_add_right _ _)),
      StreamBuf.consume_consume, List.append_assoc, List.map_cons, List.map_cons, headerBlock]
    congr 3
    simp only [crlf, List.length_append, List.length_cons, List.length_nil]

theorem length_le_headerBlock (lines : List Bytes) :
    lines.length ≤ (headerBlock lines).length := by
  induction lines with
  | nil => exact Nat.zero_le _
  | cons line lines ih =>
    rw [headerBlock, List.length_append, List.length_append, List.length_cons]
    simp only [crlf, List.length_cons]
    omega

theorem parseHeader_headerBlock (fields : List SpacedField) {stream : StreamBuf}
    (good : stream.good) {rest : Bytes}
    (begins : stream.data = headerBlock (fields.map SpacedField.line) ++ rest) :
    parseHeader stream = .ok (fields.map SpacedField.field,
      stream.consume (headerBlock (fields.map SpacedField.line)).length) := by
  -- the lines behind the first one are still in the stream
  have enough : fields.length < (stream.getline []).2.size + 3 := by
    cases fields with
    | nil => exact Nat.succ_pos _
    | cons f fields =>
      have clean : 10 ∉ f.line ++ [13] := by simp [f.line_clean]
      have front := begins.trans (headerBlock_cons f.line (fields.map SpacedField.line) rest)
      have lines := length_le_headerBlock (fields.map SpacedField.line)
      rw [List.length_map] at lines
      rw [StreamBuf.getline_of_mem good clean front, StreamBuf.size_consume, StreamBuf.size, front]
      simp only [List.length_append, List.length_cons, List.length_nil]
      omega
  exact parseFields_headerBlock fields good begins [] enough []

/-- The first line of a message is taken off its block, and the fields behind it are parsed. -/
theorem parseHeader_behind_line {line : Bytes} (clean : 10 ∉ line) (fields : List SpacedField)
    {stream : StreamBuf} (good : stream.good) {rest : Bytes}
    (begins : stream.data = headerBlock (line :: fields.map SpacedField.line) ++ rest) :
    ∃ behind, stream.getline [] = (line ++ [13], behind) ∧
      parseHeader behind = .ok (fields.map SpacedField.field,
        stream.consume (headerBlock (line :: fields.map SpacedField.line)).length) := by
  have clean' : 10 ∉ line ++ [13] := by simp [clean]
  have front := begins.trans (headerBlock_cons line (fields.map SpacedField.line) rest)
  have good' : (stream.consume ((line ++ [13]).length + 1)).good := good
  have begins' : (stream.consume ((line ++ [13]).length + 1)).data =
      headerBlock (fields.map SpacedField.line) ++ rest := by
    rw [StreamBuf.consume_data, front, List.drop_length_add_append]
    rfl
  have whole : (line ++ [13]).length + 1 + (headerBlock (fields.map SpacedField.line)).length =
      (headerBlock (line :: fields.map SpacedField.line)).length := by
    simp only [headerBlock, crlf, List.length_append, List.length_cons, List.length_nil]
  refine ⟨_, StreamBuf.getline_of_mem good clean' front [], ?_⟩
  rw [parseHeader_headerBlock fields good' begins', StreamBuf.consume_consume, whole]

/-! ### Fields as they are written -/

/-- A field as both sides write it. -/
def SpacedField.written (field : Bytes × Bytes) (readable : ReadableField field) : SpacedField :=
  ⟨1, field, readable⟩

theorem SpacedField.written_line {field : Bytes × Bytes} (readable : ReadableField field) :
    (written field readable).line ++ crlf = fieldLine field := by
  simp [written, line, fieldLine, show ascii ": " = [58, 32] from rfl]

theorem exists_written {fields : Header} (readable : ∀ field ∈ fields, ReadableField field) :
    ∃ spaced : List SpacedField, spaced.map SpacedField.field = fields ∧
      (spaced.map SpacedField.line).flatMap (· ++ crlf) = fields.flatMap fieldLine := by
  induction fields with
  | nil => exact ⟨[], rfl, rfl⟩
  | cons field fields ih =>
    obtain ⟨spaced, same, lines⟩ :=
      ih fun f member => readable f (List.mem_cons_of_mem field member)
    have here := readable field List.mem_cons_self
    refine ⟨.written field here :: spaced, ?_, ?_⟩
    · rw [List.map_cons, same]
      rfl
    · rw [List.map_cons, List.flatMap_cons, List.flatMap_cons, SpacedField.written_line, lines]

/-- The `Content-Length` field that both sides write. -/
def lengthField (content : Bytes) : Bytes × Bytes :=
  (ascii "Content-Length", decimal content.length)

theorem plainField_length (content : Bytes) : PlainField (lengthField content) := by
  have digits := isNumeral_decimal content.length
  refine ⟨?_, ?_, ?_, plain_of_isNumeral (by decide) digits, ?_⟩
  · exact show ascii "Content-Length" ≠ [] by decide
  · exact show 58 ∉ ascii "Content-Length" by decide
  · exact show Plain (ascii "Content-Length") by decide
  · intro space
    have digit := digits.2 32 (List.mem_of_mem_head? space)
    revert digit
    decide

/-- A given header: plain fields that say nothing about the content. -/
structure PlainHeader (header : Header) : Prop where
  fields : ∀ field ∈ header, PlainField field
  unsized : header.Lacks (ascii "Content-Length")
  unchunked : header.Lacks (ascii "Transfer-Encoding")

end ServerLib.Web
