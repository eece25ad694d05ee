import ServerLib.Web.StreamBuf

/-!
# The chunked reader

The server and the client each have their own copy of `read_chunked_transfer_encoded` and
`read_chunked_transfer_encoded_chunk`. The copies do the same to their stream buffers, and
differ in what they do with the outcome; so there is one reader here, and both sides use it.

The reader goes from one read operation to the next: each completion handler ends with another
operation or with an outcome. A turn also lists what the handler did that has a condition on its
operands.
-/
namespace ServerLib.Web

open Network (Bytes)

/-- What a handler did, with the operands it did it on. -/
inductive Event where
  /-- A read or a write has left the buffer so. -/
  | buffered (b : StreamBuf)
  | popBack (line : Bytes)
  | subtract (a b : Nat)
  | add (a b : Nat)
  /-- `read_chunked_transfer_encoded_chunk` was entered. -/
  | chunk (length size : Nat)

/-- The operands are such that the operation is defined and does not wrap. -/
def Event.Safe : Event → Prop
  | .buffered _ => True
  | .popBack line => line ≠ []
  | .subtract a b => b ≤ a
  | .add a b => a + b < sizeMax
  | .chunk length size => length + 2 ≤ size

/-- No stream buffer has been filled. -/
def BelowMax (events : List Event) : Prop := ∀ b, Event.buffered b ∈ events → b.full = false

def Event.fills : Event → Bool
  | .buffered b => b.full
  | _ => false

instance BelowMax.decidable (events : List Event) : Decidable (BelowMax events) :=
  decidable_of_iff (∀ e ∈ events, e.fills = false) <| by
    constructor
    · exact fun open_ b member => open_ _ member
    · rintro below (b | _ | _ | _ | _) member
      · exact below b member
      all_goals rfl

theorem BelowMax.of_append {before behind : List Event} (below : BelowMax (before ++ behind)) :
    BelowMax before ∧ BelowMax behind :=
  ⟨fun b member => below b (List.mem_append_left _ member),
    fun b member => below b (List.mem_append_right _ member)⟩

/-- The read operation that the reader waits for, or its outcome. -/
inductive ChunkStep where
  | readLine (buf chunks : StreamBuf)
  | readData (missing : Nat) (buf chunks : StreamBuf) (length : Nat)
  | finished (buf : StreamBuf)
  | tooLarge
  | malformed
  | failed (ec : ErrorCode)
  | broken (failure : Failure)

/-- What a handler has done and where it has left off. -/
structure Turn (σ : Type) where
  events : List Event
  step : σ

def Turn.after {σ : Type} (events : List Event) (t : Turn σ) : Turn σ :=
  ⟨events ++ t.events, t.step⟩

def Turn.map {σ τ : Type} (f : σ → τ) (t : Turn σ) : Turn τ := ⟨t.events, f t.step⟩

/-- No object is larger. -/
def ptrdiffMax : Nat := 2 ^ 63 - 1

/-- `read_chunked_transfer_encoded_chunk` -/
def readChunk (buf chunks : StreamBuf) (length : Nat) : Turn ChunkStep :=
  .after [.chunk length buf.size] <|
  if 0 < length then
    -- `new char[length]`
    if ptrdiffMax < length then ⟨[], .broken (.throws .badArrayNewLength)⟩
    else
      let chunks := chunks.insert (buf.read length).1
      .after [.buffered chunks] <|
      if chunks.full then ⟨[], .tooLarge⟩
      else ⟨[], .readLine (buf.read length).2.get.get chunks⟩
  else
    -- the last chunk: what the chunks carried goes back into the first buffer
    let buf := buf.get.get
    ⟨[], .finished (if 0 < chunks.size then buf.insert chunks.data else buf)⟩

/-- What the handler does behind the size line, of whose bytes `bytes_transferred` has been
reduced. -/
def afterSize (buf chunks : StreamBuf) (bytesTransferred length : Nat) : Turn ChunkStep :=
  let numAdditionalBytes := sizeSub buf.size bytesTransferred
  .after [.subtract buf.size bytesTransferred, .add 2 length] <|
  if numAdditionalBytes < sizeAdd 2 length then
    ⟨[.subtract (sizeAdd 2 length) numAdditionalBytes],
      .readData (sizeSub (sizeAdd 2 length) numAdditionalBytes) buf chunks length⟩
  else readChunk buf chunks length

/-- The handler of `async_read_until` in `read_chunked_transfer_encoded`. -/
def afterLine (chunks : StreamBuf) (r : ReadResult) : Turn ChunkStep :=
  .after [.buffered r.buf] <|
  if (r.ec = none ∨ r.ec = some .notFound) ∧ r.buf.full then ⟨[], .tooLarge⟩
  else
    match r.ec with
    | some ec => ⟨[], .failed ec⟩
    | none =>
      let (line, buf) := r.buf.getline []
      let bytesTransferred := sizeSub r.bytesTransferred (line.length + 1)
      .after [.subtract r.bytesTransferred (line.length + 1), .popBack line] <|
      -- `pop_back` on an empty string
      if line = [] then ⟨[], .broken .undefined⟩
      else
        -- the `catch (...)` around `stoul`
        match stoul 16 line.dropLast with
        | .error _ => ⟨[], .malformed⟩
        | .ok length => afterSize buf chunks bytesTransferred length

/-- The handler of `async_read` in `read_chunked_transfer_encoded`. -/
def afterData (chunks : StreamBuf) (length : Nat) (r : ReadResult) : Turn ChunkStep :=
  .after [.buffered r.buf] <|
  match r.ec with
  | some ec => ⟨[], .failed ec⟩
  | none => if r.buf.full then ⟨[], .tooLarge⟩ else readChunk r.buf chunks length

/-- `read_chunked_transfer_encoded`, with the second buffer that its callers make. -/
def readChunkedTransferEncoded (maxSize : Nat) (buf : StreamBuf) : ChunkStep :=
  .readLine buf { maxSize }

/-- The completion of the operation that the reader waits for; `none` if there is none. -/
def chunkTurn : ChunkStep → Socket → Option (Turn ChunkStep × Socket)
  | .readLine buf chunks, s =>
    (asyncReadUntil crlf buf s).map fun r => (afterLine chunks r, r.socket)
  | .readData missing buf chunks length, s =>
    (asyncReadExactly missing buf s).map fun r => (afterData chunks length r, r.socket)
  | _, _ => none

/-- A reader and its socket, for so many completions. -/
structure Run (σ : Type) where
  events : List Event
  step : σ
  socket : Socket

def runTurns {σ : Type} (turn : σ → Socket → Option (Turn σ × Socket)) :
    Nat → σ → Socket → Run σ
  | 0, step, socket => ⟨[], step, socket⟩
  | turns + 1, step, socket =>
    match turn step socket with
    | none => ⟨[], step, socket⟩
    | some (t, socket) =>
      let r := runTurns turn turns t.step socket
      { r with events := t.events ++ r.events }

theorem runTurns_of_turn {σ : Type} {turn : σ → Socket → Option (Turn σ × Socket)} {step : σ}
    {s s' : Socket} {t : Turn σ} (turned : turn step s = some (t, s')) (turns : Nat) :
    runTurns turn (turns + 1) step s =
      { runTurns turn turns t.step s' with
        events := t.events ++ (runTurns turn turns t.step s').events } := by
  simp only [runTurns, turned]

theorem runTurns_of_none {σ : Type} {turn : σ → Socket → Option (Turn σ × Socket)} {step : σ}
    {s : Socket} (stopped : turn step s = none) (turns : Nat) :
    runTurns turn turns step s = ⟨[], step, s⟩ := by
  cases turns with
  | zero => rfl
  | succ turns => simp only [runTurns, stopped]

theorem runTurns_add {σ : Type} (turn : σ → Socket → Option (Turn σ × Socket)) (m n : Nat)
    (step : σ) (s : Socket) :
    (runTurns turn (m + n) step s).step =
      (runTurns turn n (runTurns turn m step s).step (runTurns turn m step s).socket).step := by
  induction m generalizing step s with
  | zero => rw [Nat.zero_add, runTurns]
  | succ m ih =>
    cases turned : turn step s with
    | none => rw [runTurns_of_none turned, runTurns_of_none turned, runTurns_of_none turned]
    | some result =>
      rw [Nat.succ_add_eq_add_succ, Nat.add_succ, runTurns_of_turn turned,
        runTurns_of_turn turned, ih]

/-- Where a machine stops at all, it always stops at the same. -/
theorem step_unique {σ : Type} {turn : σ → Socket → Option (Turn σ × Socket)} {step : σ}
    {s : Socket} {m n : Nat} (stopped : ∀ s', turn (runTurns turn m step s).step s' = none)
    (stopped' : ∀ s', turn (runTurns turn n step s).step s' = none) :
    (runTurns turn m step s).step = (runTurns turn n step s).step := by
  rcases Nat.le_total m n with below | below
  · obtain ⟨k, rfl⟩ := Nat.exists_eq_add_of_le below
    rw [runTurns_add, runTurns_of_none (stopped _)]
  · obtain ⟨k, rfl⟩ := Nat.exists_eq_add_of_le below
    rw [runTurns_add, runTurns_of_none (stopped' _)]

/-- What a run meets is met at once, or behind its first turn. -/
theorem exists_run_iff {σ : Type} {turn : σ → Socket → Option (Turn σ × Socket)} {step : σ}
    {s s' : Socket} {t : Turn σ} (turned : turn step s = some (t, s'))
    (P : σ → Socket → Prop) :
    (∃ turns, P (runTurns turn turns step s).step (runTurns turn turns step s).socket) ↔
      P step s ∨
        ∃ turns, P (runTurns turn turns t.step s').step (runTurns turn turns t.step s').socket := by
  constructor
  · rintro ⟨turns, met⟩
    cases turns with
    | zero => exact .inl met
    | succ turns =>
      rw [runTurns_of_turn turned] at met
      exact .inr ⟨turns, met⟩
  · rintro (met | ⟨turns, met⟩)
    · exact ⟨0, met⟩
    · refine ⟨turns + 1, ?_⟩
      rw [runTurns_of_turn turned]
      exact met

theorem exists_run_iff_of_none {σ : Type} {turn : σ → Socket → Option (Turn σ × Socket)}
    {step : σ} {s : Socket} (stopped : turn step s = none) (P : σ → Socket → Prop) :
    (∃ turns, P (runTurns turn turns step s).step (runTurns turn turns step s).socket) ↔
      P step s := by
  simp only [runTurns_of_none stopped, exists_const]

/-- A machine that does what another one does, under other names, runs like it. -/
theorem runTurns_map {σ τ : Type} {turn : σ → Socket → Option (Turn σ × Socket)}
    {turn' : τ → Socket → Option (Turn τ × Socket)} {f : σ → τ}
    (commutes : ∀ step s, turn' (f step) s = (turn step s).map fun (t, s) => (t.map f, s))
    (turns : Nat) (step : σ) (s : Socket) :
    runTurns turn' turns (f step) s =
      ⟨(runTurns turn turns step s).events, f (runTurns turn turns step s).step,
        (runTurns turn turns step s).socket⟩ := by
  induction turns generalizing step s with
  | zero => rfl
  | succ turns ih =>
    cases turned : turn step s with
    | none => simp [runTurns, commutes, turned]
    | some result => simp [runTurns, commutes, turned, Turn.map, ih]

/-- What every turn keeps holds after any number of turns. -/
theorem runTurns_keeps {σ : Type} {turn : σ → Socket → Option (Turn σ × Socket)}
    {inv : σ → Socket → Prop}
    (keeps : ∀ step s t s', inv step s → turn step s = some (t, s') → inv t.step s')
    {step : σ} {s : Socket} (valid : inv step s) (turns : Nat) :
    inv (runTurns turn turns step s).step (runTurns turn turns step s).socket := by
  induction turns generalizing step s with
  | zero => exact valid
  | succ turns ih =>
    cases turned : turn step s with
    | none => rwa [runTurns_of_none turned]
    | some result =>
      rw [runTurns_of_turn turned]
      exact ih (keeps step s result.1 result.2 valid turned)

/-- What every turn does only where the turns before it have kept the invariant, a run does
only. -/
theorem runTurns_invariant {σ : Type} {turn : σ → Socket → Option (Turn σ × Socket)}
    {inv : σ → Socket → Prop} {P : Event → Prop}
    (keeps : ∀ step s t s', inv step s → turn step s = some (t, s') →
      (∀ e ∈ t.events, P e) ∧ inv t.step s')
    {step : σ} {s : Socket} (valid : inv step s) (turns : Nat) :
    ∀ e ∈ (runTurns turn turns step s).events, P e := by
  induction turns generalizing step s with
  | zero => simp [runTurns]
  | succ turns ih =>
    cases turned : turn step s with
    | none => simp [runTurns, turned]
    | some result =>
      obtain ⟨t, s'⟩ := result
      obtain ⟨here, valid'⟩ := keeps step s t s' valid turned
      rw [runTurns_of_turn turned]
      intro e member
      rcases List.mem_append.mp member with now | later
      · exact here e now
      · exact ih valid' e later

/-! ### What the handlers do -/

/-- The line in front of the first line feed, which the first `\r\n` ends at the latest. -/
theorem exists_line {data : Bytes} {n : Nat} (found : Occurrence.LeftmostAt crlf data n) :
    ∃ line tail, data = line ++ 10 :: tail ∧ 10 ∉ line ∧ line.length + 1 ≤ n + 2 ∧
      n + 2 ≤ data.length := by
  have inside : n + 2 ≤ data.length := found.bound
  have feed : (10 : UInt8) ∈ data.take (n + 2) := by
    rw [found.split, List.append_assoc, List.take_append, found.length_take]
    simp [crlf]
  obtain ⟨line, tail, front, clean⟩ := List.eq_append_cons_of_mem feed
  have short := congrArg List.length front
  rw [List.length_take, List.length_append, List.length_cons] at short
  refine ⟨line, tail ++ data.drop (n + 2), ?_, clean, by omega, inside⟩
  rw [← List.cons_append, ← List.append_assoc, ← front, List.take_append_drop]

/-- Each turn is a read. -/
theorem ChunkStep.carries_of_turn {step : ChunkStep} {s s' : Socket} {t : Turn ChunkStep}
    (turned : chunkTurn step s = some (t, s')) :
    ∃ (b : StreamBuf) (r : ReadResult), r.Carries b s ∧ s' = r.socket := by
  cases step with
  | readLine =>
    obtain ⟨r, completed, same⟩ := Option.map_eq_some_iff.mp turned
    cases same
    exact ⟨_, r, (asyncReadUntil_some completed).1, rfl⟩
  | readData =>
    obtain ⟨r, completed, same⟩ := Option.map_eq_some_iff.mp turned
    cases same
    exact ⟨_, r, (asyncReadExactly_some completed).1, rfl⟩
  | _ => cases turned

/-- The reader of chunks only takes from its socket. -/
theorem suffix_of_run (turns : Nat) (step : ChunkStep) (s : Socket) :
    (runTurns chunkTurn turns step s).socket.pieces.flatten <:+ s.pieces.flatten := by
  apply @runTurns_keeps _ chunkTurn fun _ s' => s'.pieces.flatten <:+ s.pieces.flatten
  · intro step' s' t s'' before turned
    obtain ⟨b, r, carries, rfl⟩ := ChunkStep.carries_of_turn turned
    exact carries.suffix.trans before
  · exact List.suffix_refl _

theorem readChunk_of_pos {buf : StreamBuf} (good : buf.good) {length : Nat}
    (enough : length + 2 ≤ buf.size) (positive : 0 < length) (small : length ≤ ptrdiffMax)
    (chunks : StreamBuf) :
    readChunk buf chunks length =
      .after [.chunk length buf.size, .buffered (chunks.insert (buf.data.take length))]
        (if (chunks.insert (buf.data.take length)).full then ⟨[], .tooLarge⟩
        else
          ⟨[], .readLine (buf.consume (length + 2)) (chunks.insert (buf.data.take length))⟩) := by
  have first := StreamBuf.get_consume good (show length < buf.size by omega)
  have second := StreamBuf.get_consume good (show length + 1 < buf.size by omega)
  simp only [readChunk, if_pos positive, if_neg (Nat.not_lt.mpr small),
    StreamBuf.read_of_le good (show length ≤ buf.size by omega), first, second]
  rfl

theorem readChunk_zero {buf : StreamBuf} (good : buf.good) (enough : 2 ≤ buf.size)
    (chunks : StreamBuf) :
    readChunk buf chunks 0 =
      ⟨[.chunk 0 buf.size], .finished
        (if 0 < chunks.size then (buf.consume 2).insert chunks.data else buf.consume 2)⟩ := by
  have first := StreamBuf.get_of_pos good (show 0 < buf.size by omega)
  have second := StreamBuf.get_consume good (show 1 < buf.size by omega)
  simp only [readChunk, Nat.lt_irrefl, if_false, first, second]
  rfl

/-- Behind a size line the handler enters the chunk if it is there with its `\r\n`, and reads
what is missing if not. -/
theorem afterSize_eq {buf : StreamBuf} {ahead : Nat} (inside : ahead ≤ buf.size)
    (chunks : StreamBuf) (length : Nat) :
    afterSize buf chunks ahead length =
      .after [.subtract buf.size ahead, .add 2 length]
        (if buf.size - ahead < sizeAdd 2 length then
          ⟨[.subtract (sizeAdd 2 length) (buf.size - ahead)],
            .readData (sizeAdd 2 length - (buf.size - ahead)) buf chunks length⟩
        else readChunk buf chunks length) := by
  simp only [afterSize, sizeSub_of_le inside]
  split
  next more => rw [sizeSub_of_le (Nat.le_of_lt more)]
  · rfl

/-- The handler of a size line that has been found. -/
theorem afterLine_found {r : ReadResult} {line tail : Bytes} {n : Nat} (good : r.buf.good)
    (clean : r.ec = none) (open_ : r.buf.full = false) (offset : r.bytesTransferred = n + 2)
    (begins : r.buf.data = line ++ 10 :: tail) (first : 10 ∉ line)
    (inside : line.length + 1 ≤ n + 2) (chunks : StreamBuf) :
    afterLine chunks r =
      .after [.buffered r.buf, .subtract (n + 2) (line.length + 1), .popBack line]
        (if line = [] then ⟨[], .broken .undefined⟩
        else match stoul 16 line.dropLast with
          | .error _ => ⟨[], .malformed⟩
          | .ok length =>
            afterSize (r.buf.consume (line.length + 1)) chunks (n + 1 - line.length) length) := by
  have left : sizeSub (n + 2) (line.length + 1) = n + 1 - line.length := by
    rw [sizeSub_of_le inside]
    omega
  simp only [afterLine, clean, open_, StreamBuf.getline_of_mem good first begins, offset, left,
    Bool.false_eq_true, and_false, if_false]
  rfl

end ServerLib.Web
