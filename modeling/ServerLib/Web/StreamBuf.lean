import ServerLib.Common.Strings
import ServerLib.Foundation.Occurrence
import ServerLib.Foundation.Segmented
import ServerLib.Network.Unit

/-!
# Stream buffers and what arrives in them

An `asio::streambuf` holds the bytes of one message, and never more than its maximal size. The
web classes fill it with `async_read_until` and `async_read`, and take bytes out of it through
the `std::istream` that they keep on it.

A socket is what it will bring: the results of its reads one after the other, and the error
that comes behind them, if one does. A read asks for no more than the operation has use for;
what it does not ask for is left for the next one.
-/
namespace ServerLib.Web

open Network (Bytes)

/-- The `error_code`s the code compares with or reports itself; no error is `none`. -/
inductive ErrorCode where
  | eof
  | notFound
  | operationAborted
  | operationCanceled
  | messageSize
  | protocolError
  | other (value : Nat)
  deriving DecidableEq, Repr

def crlf : Bytes := [13, 10]

def headerEnd : Bytes := [13, 10, 13, 10]

/-- An `asio::streambuf`, with the flags of the `std::istream` that reads from it. -/
structure StreamBuf where
  maxSize : Nat
  data : Bytes := []
  eof : Bool := false
  fail : Bool := false
  fits : data.length ≤ maxSize := by simp

namespace StreamBuf

def size (b : StreamBuf) : Nat := b.data.length

theorem size_le (b : StreamBuf) : b.size ≤ b.maxSize := b.fits

/-- `size() == max_size()` -/
def full (b : StreamBuf) : Bool := b.size == b.maxSize

def consume (b : StreamBuf) (n : Nat) : StreamBuf :=
  { b with
    data := b.data.drop n
    fits := by
      rw [List.length_drop]
      exact Nat.le_trans (Nat.sub_le _ _) b.fits }

/-- The buffer as a read leaves it. -/
def commit (b : StreamBuf) (data : Bytes) : StreamBuf :=
  { b with
    data := data.take b.maxSize
    fits := List.length_take_le _ _ }

/-- What an `std::ostream` on the buffer inserts, up to the maximal size: the exception behind it
is caught by the stream. -/
def insert (b : StreamBuf) (s : Bytes) : StreamBuf := b.commit (b.data ++ s)

def good (b : StreamBuf) : Bool := !b.eof && !b.fail

/-- `getline(stream, line)`; a stream that is not good leaves `line` as it is. -/
def getline (b : StreamBuf) (line : Bytes) : Bytes × StreamBuf :=
  if b.good then
    match b.data.idxOf? 10 with
    | some n => (b.data.take n, b.consume (n + 1))
    -- the rest of the stream, which fails only if there is none
    | none => (b.data, { b.consume b.size with eof := true, fail := b.data.isEmpty })
  else (line, { b with fail := true })

/-- `stream.get()`, its result dropped. -/
def get (b : StreamBuf) : StreamBuf :=
  if b.good then
    if b.data.isEmpty then { b with eof := true, fail := true } else b.consume 1
  else { b with fail := true }

/-- `stream.read(buffer, n)` -/
def read (b : StreamBuf) (n : Nat) : Bytes × StreamBuf :=
  if b.good then
    (b.data.take n,
      if b.size < n then { b.consume n with eof := true, fail := true } else b.consume n)
  else ([], { b with fail := true })

/-- `ss << rdbuf()` looks at the buffer only, whatever the flags of the stream on it. -/
def loadContent (b : StreamBuf) : Bytes := b.data

@[simp] theorem consume_data (b : StreamBuf) (n : Nat) : (b.consume n).data = b.data.drop n := rfl

@[simp] theorem consume_maxSize (b : StreamBuf) (n : Nat) : (b.consume n).maxSize = b.maxSize := rfl

@[simp] theorem consume_good (b : StreamBuf) (n : Nat) : (b.consume n).good = b.good := rfl

@[simp] theorem commit_maxSize (b : StreamBuf) (data : Bytes) :
    (b.commit data).maxSize = b.maxSize := rfl

@[simp] theorem commit_good (b : StreamBuf) (data : Bytes) : (b.commit data).good = b.good := rfl

theorem commit_data {b : StreamBuf} {data : Bytes} (fits : data.length ≤ b.maxSize) :
    (b.commit data).data = data := List.take_of_length_le fits

theorem consume_consume (b : StreamBuf) (m n : Nat) :
    (b.consume m).consume n = b.consume (m + n) := by
  simp only [consume, List.drop_drop]

theorem size_consume (b : StreamBuf) (n : Nat) : (b.consume n).size = b.size - n := by
  rw [size, consume_data, List.length_drop, size]

theorem full_iff (b : StreamBuf) : b.full = true ↔ b.size = b.maxSize := beq_iff_eq

/-- A buffer that is not full has taken all that was inserted. -/
theorem insert_data {b : StreamBuf} {s : Bytes} (open_ : (b.insert s).full = false) :
    (b.insert s).data = b.data ++ s := by
  refine commit_data (Nat.le_of_lt ?_)
  have short : (b.insert s).size ≠ b.maxSize := beq_eq_false_iff_ne.mp open_
  rw [size, insert, commit, List.length_take] at short
  omega

/-- What there is room for is inserted. -/
theorem insert_of_room {b : StreamBuf} {s : Bytes} (room : b.size + s.length < b.maxSize) :
    (b.insert s).data = b.data ++ s ∧ (b.insert s).full = false := by
  have whole : (b.insert s).data = b.data ++ s := by
    apply commit_data
    rw [List.length_append, ← size]
    exact Nat.le_of_lt room
  refine ⟨whole, beq_eq_false_iff_ne.mpr ?_⟩
  rw [size, whole, List.length_append, ← size, insert, commit_maxSize]
  exact Nat.ne_of_lt room

theorem getline_of_mem {b : StreamBuf} (good : b.good) {line rest : Bytes} (clean : 10 ∉ line)
    (begins : b.data = line ++ 10 :: rest) (old : Bytes) :
    b.getline old = (line, b.consume (line.length + 1)) := by
  simp only [getline, good, if_true, begins, idxOf?_append_cons clean, List.take_left]

theorem get_consume {b : StreamBuf} (good : b.good) {n : Nat} (occupied : n < b.size) :
    (b.consume n).get = b.consume (n + 1) := by
  have some_byte : (b.consume n).data.isEmpty = false := by
    rw [List.isEmpty_eq_false_iff, consume_data]
    intro nothing
    exact absurd (List.drop_eq_nil_iff.mp nothing) (Nat.not_le.mpr occupied)
  have still_good : (b.consume n).good = true := good
  simp only [get, still_good, some_byte, if_true, Bool.false_eq_true, if_false, consume_consume]

theorem get_of_pos {b : StreamBuf} (good : b.good) (occupied : 0 < b.size) :
    b.get = b.consume 1 := get_consume good occupied

theorem read_of_le {b : StreamBuf} (good : b.good) {n : Nat} (enough : n ≤ b.size) :
    b.read n = (b.data.take n, b.consume n) := by
  simp only [read, good, if_true, if_neg (Nat.not_lt.mpr enough)]

end StreamBuf

/-! ### Reading from a socket -/

@[ext]
structure Socket where
  pieces : List Bytes
  ending : Option ErrorCode := none

/-- A stream that comes in two pieces. -/
def Socket.cut (stream : Bytes) (n : Nat) (ending : Option ErrorCode) : Socket :=
  ⟨[stream.take n, stream.drop n], ending⟩

@[simp] theorem Socket.flatten_cut (stream : Bytes) (n : Nat) (ending : Option ErrorCode) :
    (cut stream n ending).pieces.flatten = stream := by
  simp [cut]

/-- What the completion handler of a read is given. -/
structure ReadResult where
  ec : Option ErrorCode
  bytesTransferred : Nat
  buf : StreamBuf
  socket : Socket

/-- There is room until the delimiter is there or the buffer is full. -/
def untilRoom (delim : Bytes) (maxSize : Nat) (data : Bytes) : Nat :=
  match Occurrence.find delim data with
  | some _ => 0
  | none => maxSize - data.length

/-- `asio::async_read_until`; `none` if it never completes. -/
def asyncReadUntil (delim : Bytes) (b : StreamBuf) (s : Socket) : Option ReadResult :=
  match Segmented.read (untilRoom delim b.maxSize) b.data s.pieces with
  | .done data rest =>
    match Occurrence.find delim data with
    | some n => some ⟨none, n + delim.length, b.commit data, { s with pieces := rest }⟩
    | none => some ⟨some .notFound, 0, b.commit data, { s with pieces := rest }⟩
  | .dry data => s.ending.map fun ec => ⟨some ec, 0, b.commit data, { s with pieces := [] }⟩

/-- There is room for `n` bytes behind those that were there before, or until the buffer is
full. -/
def exactlyRoom (n start maxSize : Nat) (data : Bytes) : Nat :=
  min (start + n - data.length) (maxSize - data.length)

/-- `asio::async_read` with `asio::transfer_exactly(n)`. A full buffer ends it without an error. -/
def asyncReadExactly (n : Nat) (b : StreamBuf) (s : Socket) : Option ReadResult :=
  match Segmented.read (exactlyRoom n b.size b.maxSize) b.data s.pieces with
  | .done data rest =>
    some ⟨none, data.length - b.size, b.commit data, { s with pieces := rest }⟩
  | .dry data =>
    s.ending.map fun ec => ⟨some ec, data.length - b.size, b.commit data, { s with pieces := [] }⟩

/-- `asio::async_read` without a condition: until the buffer is full or the socket fails. -/
def asyncReadAll (b : StreamBuf) (s : Socket) : Option ReadResult :=
  asyncReadExactly (b.maxSize - b.size) b s

/-- The bytes in the buffer and those still to come. -/
def pending (b : StreamBuf) (s : Socket) : Bytes := b.data ++ s.pieces.flatten

variable {delim : Bytes} {b : StreamBuf} {s : Socket}

private theorem untilRoom_le (delim : Bytes) (maxSize : Nat) (data : Bytes) :
    untilRoom delim maxSize data ≤ maxSize - data.length := by
  unfold untilRoom
  split <;> omega

private theorem untilRoom_fills (x y : Bytes) (fill : y.length = untilRoom delim b.maxSize x) :
    untilRoom delim b.maxSize (x ++ y) = 0 := by
  unfold untilRoom at fill ⊢
  split
  · rfl
  · -- nothing is found in the longer text, so nothing was found in the shorter one
    cases found : Occurrence.find delim x with
    | some n =>
      simp only [found, List.length_eq_zero_iff] at fill
      simp_all
    | none =>
      simp only [found] at fill
      rw [List.length_append]
      omega

private theorem exactlyRoom_fills (n : Nat) (x y : Bytes)
    (fill : y.length = exactlyRoom n b.size b.maxSize x) :
    exactlyRoom n b.size b.maxSize (x ++ y) = 0 := by
  unfold exactlyRoom at fill ⊢
  rw [List.length_append]
  omega

/-- A read changes nothing but the bytes of the buffer, and loses none of the stream. -/
structure ReadResult.Carries (r : ReadResult) (b : StreamBuf) (s : Socket) : Prop where
  maxSize : r.buf.maxSize = b.maxSize
  good : r.buf.good = b.good
  stream : pending r.buf r.socket = pending b s
  ending : r.socket.ending = s.ending
  grows : b.data <+: r.buf.data

/-- The buffer never holds more than the stream. -/
theorem ReadResult.Carries.size_le {r : ReadResult} (carries : r.Carries b s) :
    r.buf.size ≤ (pending b s).length := by
  rw [← carries.stream, pending, List.length_append]
  exact Nat.le_add_right _ _

/-- What is left in the socket was there before. -/
theorem ReadResult.Carries.suffix {r : ReadResult} (carries : r.Carries b s) :
    r.socket.pieces.flatten <:+ s.pieces.flatten := by
  obtain ⟨more, grown⟩ := carries.grows
  have stream := carries.stream
  rw [pending, pending, ← grown, List.append_assoc] at stream
  exact ⟨more, List.append_cancel_left stream⟩

/-- A read that has filled the buffer has met a stream of the buffer's size at least. -/
theorem ReadResult.Carries.maxSize_le {r : ReadResult} (carries : r.Carries b s)
    (full : r.buf.full = true) : b.maxSize ≤ (pending b s).length := by
  rw [← carries.maxSize, ← (r.buf.full_iff).mp full]
  exact carries.size_le

/-- How far into the stream a read has got, and why no further. -/
structure ReadResult.Stops (r : ReadResult) (room : Bytes → Nat) (b : StreamBuf) (s : Socket)
    (n : Nat) : Prop where
  bound : n ≤ s.pieces.flatten.length
  data : r.buf.data = b.data ++ s.pieces.flatten.take n
  rest : r.socket.pieces = Segmented.dropItems n s.pieces
  before : ∀ m < n, Segmented.EndsAt s.pieces m → room (b.data ++ s.pieces.flatten.take m) ≠ 0
  stops : Segmented.EndsAt s.pieces n ∨
    ∃ m < n, Segmented.EndsAt s.pieces m ∧ room (b.data ++ s.pieces.flatten.take m) = n - m

private theorem carries_of_done {room : Bytes → Nat} {data : Bytes} {rest : List Bytes}
    (bounded : ∀ x, room x ≤ b.maxSize - x.length)
    (returned : Segmented.read room b.data s.pieces = .done data rest) (ec : Option ErrorCode)
    (n : Nat) :
    (ReadResult.mk ec n (b.commit data) { s with pieces := rest }).Carries b s ∧
      (b.commit data).data = data ∧
      ∃ m, (ReadResult.mk ec n (b.commit data) { s with pieces := rest }).Stops room b s m := by
  have fits := Segmented.length_buffer_le bounded b.fits s.pieces
  rw [returned] at fits
  have same : (b.commit data).data = data := StreamBuf.commit_data fits
  obtain ⟨m, bound, whole, rfl, before, stops⟩ := Segmented.read_done returned
  refine ⟨⟨rfl, rfl, ?_, rfl, ?_⟩, same, m, bound, same.trans whole, rfl, before, ?_⟩
  · rw [pending, same, whole, Segmented.flatten_dropItems, List.append_assoc,
      List.take_append_drop, pending]
  · rw [same, whole]
    exact List.prefix_append _ _
  · rcases stops with ⟨ends, -⟩ | exhausted
    · exact .inl ends
    · exact .inr exhausted

private theorem carries_of_dry {room : Bytes → Nat} {data : Bytes}
    (bounded : ∀ x, room x ≤ b.maxSize - x.length)
    (returned : Segmented.read room b.data s.pieces = .dry data) (ec : Option ErrorCode) (n : Nat) :
    (ReadResult.mk ec n (b.commit data) { s with pieces := [] }).Carries b s ∧
      (b.commit data).data = pending b s := by
  have fits := Segmented.length_buffer_le bounded b.fits s.pieces
  rw [returned] at fits
  have same : (b.commit data).data = data := StreamBuf.commit_data fits
  obtain ⟨rfl, -⟩ := Segmented.read_dry returned
  refine ⟨⟨rfl, rfl, ?_, rfl, ?_⟩, same⟩
  · rw [pending, same, List.flatten_nil, List.append_nil, pending]
  · rw [same]
    exact List.prefix_append _ _

/-- The three ways in which `async_read_until` completes. -/
inductive UntilCases (delim : Bytes) (b : StreamBuf) (s : Socket) (r : ReadResult) : Prop where
  | found (n : Nat) (leftmost : Occurrence.LeftmostAt delim r.buf.data n) (clean : r.ec = none)
      (offset : r.bytesTransferred = n + delim.length)
      (stops : ∃ m, r.Stops (untilRoom delim b.maxSize) b s m)
  | overflow (absent : ¬ delim <:+: r.buf.data) (failed : r.ec = some .notFound)
      (full : r.buf.full = true)
  | ended (code : ErrorCode) (absent : ¬ delim <:+: pending b s) (failed : r.ec = some code)
      (ending : s.ending = some code) (data : r.buf.data = pending b s)

theorem asyncReadUntil_some {r : ReadResult} (completed : asyncReadUntil delim b s = some r) :
    r.Carries b s ∧ UntilCases delim b s r := by
  have bounded := untilRoom_le delim b.maxSize
  unfold asyncReadUntil at completed
  cases returned : Segmented.read (untilRoom delim b.maxSize) b.data s.pieces with
  | done data rest =>
    simp only [returned] at completed
    have filled := Segmented.room_of_done untilRoom_fills returned
    cases found : Occurrence.find delim data with
    | some n =>
      simp only [found, Option.some.injEq] at completed
      subst completed
      obtain ⟨carries, same, stops⟩ :=
        carries_of_done bounded returned none (n + delim.length)
      exact ⟨carries, .found n (by rw [same]; exact (Occurrence.find_eq_some_iff _ _ _).mp found)
        rfl rfl stops⟩
    | none =>
      simp only [found, Option.some.injEq] at completed
      subst completed
      obtain ⟨carries, same, -⟩ := carries_of_done bounded returned (some .notFound) 0
      -- without the delimiter only a full buffer has no room
      refine ⟨carries, .overflow ?_ rfl ?_⟩
      · rw [same]
        exact (Occurrence.find_eq_none_iff _ _).mp found
      · simp only [untilRoom, found] at filled
        have fits := (b.commit data).fits
        rw [same, StreamBuf.commit_maxSize] at fits
        rw [StreamBuf.full_iff, StreamBuf.size, same, StreamBuf.commit_maxSize]
        omega
  | dry data =>
    simp only [returned, Option.map_eq_some_iff] at completed
    obtain ⟨code, ending, rfl⟩ := completed
    obtain ⟨carries, same⟩ := carries_of_dry bounded returned (some code) 0
    obtain ⟨whole, before⟩ := Segmented.read_dry returned
    refine ⟨carries, .ended code ?_ rfl ending same⟩
    -- there was still room at the end of the stream
    have open_ := before _ (Segmented.EndsAt.length s.pieces)
    rw [List.take_length] at open_
    intro occurs
    cases found : Occurrence.find delim (pending b s) with
    | some n => exact open_ (by rw [untilRoom, ← pending, found])
    | none => exact (Occurrence.find_eq_none_iff _ _).mp found occurs

/-- Without an error the delimiter has been found. -/
theorem UntilCases.found_of_clean {r : ReadResult} (cases : UntilCases delim b s r)
    (clean : r.ec = none) : delim <:+: r.buf.data := by
  cases cases with
  | found n leftmost =>
    exact leftmost.1.isInfix.trans (List.drop_suffix _ _).isInfix
  | overflow _ failed => cases clean.symm.trans failed
  | ended _ _ failed => cases clean.symm.trans failed

/-- A delimiter that the stream contains is found, unless the buffer is full before. -/
theorem asyncReadUntil_of_leftmost {n : Nat}
    (leftmost : Occurrence.LeftmostAt delim (pending b s) n) :
    ∃ r, asyncReadUntil delim b s = some r := by
  unfold asyncReadUntil
  cases returned : Segmented.read (untilRoom delim b.maxSize) b.data s.pieces with
  | done data rest =>
    cases found : Occurrence.find delim data <;> simp [found]
  | dry data =>
    obtain ⟨-, before⟩ := Segmented.read_dry returned
    have open_ := before _ (Segmented.EndsAt.length s.pieces)
    rw [List.take_length, ← pending] at open_
    exact absurd (by rw [untilRoom, (Occurrence.find_eq_some_iff _ _ _).mpr leftmost]) open_

/-- A read from a socket that ends is completed. -/
theorem asyncReadUntil_of_ending {code : ErrorCode}
    (ending : s.ending = some code) : ∃ r, asyncReadUntil delim b s = some r := by
  unfold asyncReadUntil
  cases Segmented.read (untilRoom delim b.maxSize) b.data s.pieces with
  | done data rest =>
    simp only
    cases Occurrence.find delim data <;> exact ⟨_, rfl⟩
  | dry data => exact ⟨_, by rw [ending]; rfl⟩

/-- Of a stream that comes byte by byte no more is read than up to the delimiter. -/
theorem asyncReadUntil_bytewise {n : Nat} (fresh : b.data = [])
    (everywhere : Segmented.EndsEverywhere s.pieces)
    (leftmost : Occurrence.LeftmostAt delim s.pieces.flatten n)
    (room : n + delim.length < b.maxSize) :
    ∃ r, asyncReadUntil delim b s = some r ∧ r.Carries b s ∧ r.ec = none ∧
      r.bytesTransferred = n + delim.length ∧
      r.buf.data = s.pieces.flatten.take (n + delim.length) ∧
      r.socket.pieces = Segmented.dropItems (n + delim.length) s.pieces := by
  have stream : pending b s = s.pieces.flatten := by rw [pending, fresh, List.nil_append]
  have there : Occurrence.LeftmostAt delim (pending b s) n := stream ▸ leftmost
  have occurs : delim <:+: pending b s :=
    there.1.isInfix.trans (List.drop_suffix _ _).isInfix
  obtain ⟨r, completed⟩ := asyncReadUntil_of_leftmost there
  obtain ⟨carries, cases⟩ := asyncReadUntil_some completed
  refine ⟨r, completed, carries, ?_⟩
  cases cases with
  | ended _ absent _ _ _ => exact absurd occurs absent
  | overflow absent _ full =>
    -- a full buffer holds the delimiter
    have fits : n + delim.length ≤ r.buf.data.length := by
      rw [← StreamBuf.size, (StreamBuf.full_iff _).mp full, carries.maxSize]
      exact Nat.le_of_lt room
    rw [← carries.stream, pending] at there
    have found := (Occurrence.leftmostAt_append_iff fits _).mp there
    exact absurd (found.1.isInfix.trans (List.drop_suffix _ _).isInfix) absent
  | found k first clean offset stops =>
    have same : k = n := by
      have whole := (Occurrence.leftmostAt_append_iff first.bound r.socket.pieces.flatten).mpr first
      rw [← pending, carries.stream] at whole
      exact whole.unique there
    subst same
    obtain ⟨m, stopped⟩ := stops
    have data := stopped.data
    rw [fresh, List.nil_append] at data
    have before := stopped.before
    simp only [fresh, List.nil_append] at before
    have bound := stopped.bound
    have least : k + delim.length ≤ m := by
      have inside := first.bound
      rwa [data, List.length_take_of_le bound] at inside
    have exact_ : m = k + delim.length := by
      by_contra other
      have end_ : k + delim.length ≤ s.pieces.flatten.length := leftmost.bound
      apply before (k + delim.length) (by omega) (everywhere _ end_)
      have taken : Occurrence.LeftmostAt delim (s.pieces.flatten.take (k + delim.length)) k := by
        rw [← List.take_append_drop (k + delim.length) s.pieces.flatten] at leftmost
        refine (Occurrence.leftmostAt_append_iff ?_ _).mp leftmost
        rw [List.length_take_of_le end_]
      rw [untilRoom, (Occurrence.find_eq_some_iff _ _ _).mpr taken]
    rw [← exact_]
    exact ⟨clean, offset.trans exact_.symm, data, stopped.rest⟩

/-- The three ways in which `async_read` of `n` bytes completes. -/
inductive ExactlyCases (n : Nat) (b : StreamBuf) (s : Socket) (r : ReadResult) : Prop where
  | taken (clean : r.ec = none) (bound : n ≤ s.pieces.flatten.length)
      (data : r.buf.data = b.data ++ s.pieces.flatten.take n)
      (rest : r.socket.pieces = Segmented.dropItems n s.pieces)
  | overflow (clean : r.ec = none) (full : r.buf.full = true) (tight : b.maxSize < b.size + n)
  | ended (code : ErrorCode) (failed : r.ec = some code) (ending : s.ending = some code)
      (short : s.pieces.flatten.length < n) (data : r.buf.data = pending b s)

private theorem dry_exactly {n : Nat} {data : Bytes}
    (returned : Segmented.read (exactlyRoom n b.size b.maxSize) b.data s.pieces = .dry data) :
    s.pieces.flatten.length < n := by
  obtain ⟨-, before⟩ := Segmented.read_dry returned
  have open_ := before _ (Segmented.EndsAt.length s.pieces)
  simp only [List.take_length, exactlyRoom, List.length_append, StreamBuf.size] at open_
  omega

theorem asyncReadExactly_some {n : Nat} {r : ReadResult}
    (completed : asyncReadExactly n b s = some r) : r.Carries b s ∧ ExactlyCases n b s r := by
  have bounded : ∀ x, exactlyRoom n b.size b.maxSize x ≤ b.maxSize - x.length :=
    fun x => Nat.min_le_right _ _
  unfold asyncReadExactly at completed
  cases returned : Segmented.read (exactlyRoom n b.size b.maxSize) b.data s.pieces with
  | done data rest =>
    simp only [returned, Option.some.injEq] at completed
    subst completed
    have filled := Segmented.room_of_done (exactlyRoom_fills n) returned
    obtain ⟨carries, same, m, stops⟩ :=
      carries_of_done bounded returned none (data.length - b.size)
    refine ⟨carries, ?_⟩
    -- no more than asked for, and no more than there is room for
    have within : data.length ≤ b.size + n := by
      have taken : ∀ x, exactlyRoom n b.size b.maxSize x ≤ b.size + n - x.length :=
        fun x => Nat.min_le_left _ _
      have bound := Segmented.length_buffer_le taken (Nat.le_add_right b.size n) s.pieces
      rwa [returned] at bound
    have fits := (b.commit data).fits
    rw [same, StreamBuf.commit_maxSize] at fits
    rw [exactlyRoom] at filled
    by_cases enough : data.length = b.size + n
    · -- all of the `n` bytes have come, so they are the next ones of the stream
      have whole := stops.data
      have bound := stops.bound
      rw [same] at whole
      have counted : m = n := by
        rw [whole, List.length_append, List.length_take, StreamBuf.size] at enough
        omega
      rw [counted] at whole bound
      refine .taken rfl bound (same.trans whole) ?_
      rw [← counted]
      exact stops.rest
    · refine .overflow rfl ?_ (by omega)
      rw [StreamBuf.full_iff, StreamBuf.size, same, StreamBuf.commit_maxSize]
      omega
  | dry data =>
    simp only [returned, Option.map_eq_some_iff] at completed
    obtain ⟨code, ending, rfl⟩ := completed
    obtain ⟨carries, same⟩ := carries_of_dry bounded returned (some code) (data.length - b.size)
    exact ⟨carries, .ended code rfl ending (dry_exactly returned) same⟩

/-- Bytes that the socket brings are read. -/
theorem asyncReadExactly_of_le {n : Nat} (brought : n ≤ s.pieces.flatten.length) :
    ∃ r, asyncReadExactly n b s = some r := by
  unfold asyncReadExactly
  cases returned : Segmented.read (exactlyRoom n b.size b.maxSize) b.data s.pieces with
  | done data rest => exact ⟨_, rfl⟩
  | dry data => exact absurd (dry_exactly returned) (Nat.not_lt.mpr brought)

theorem asyncReadExactly_of_ending {n : Nat} {code : ErrorCode} (ending : s.ending = some code) :
    ∃ r, asyncReadExactly n b s = some r := by
  unfold asyncReadExactly
  cases Segmented.read (exactlyRoom n b.size b.maxSize) b.data s.pieces with
  | done data rest => exact ⟨_, rfl⟩
  | dry data => exact ⟨_, by rw [ending]; rfl⟩

end ServerLib.Web
