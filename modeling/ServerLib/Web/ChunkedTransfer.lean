import ServerLib.Web.ChunkedFrames
import ServerLib.Web.HttpClient
import ServerLib.Web.HttpServer

/-!
# Chunked content, on both sides

The server and the client run the chunked reader from the end of a header on, and differ only in
what they make of its outcome. What holds of the reader so holds of both: the content of framed
chunks is exposed exactly, and on any bytes the reader is safe exactly if they have no hazard.
-/
namespace ServerLib.Web

open Network (Bytes)

variable [HeaderFind]

theorem serverTurn_ofChunkStep (c : ServerConfig) (message : RequestMessage) (step : ChunkStep)
    (s : Socket) :
    serverTurn c (.ofChunkStep message step) s =
      (chunkTurn step s).map fun (t, s) => (t.map (.ofChunkStep message), s) := by
  cases step <;> rfl

theorem clientTurn_ofChunkStep (c : ClientConfig) (message : ResponseMessage) (step : ChunkStep)
    (s : Socket) :
    clientTurn c (.ofChunkStep message step) s =
      (chunkTurn step s).map fun (t, s) => (t.map (.ofChunkStep message), s) := by
  cases step <;> rfl

/-- The server's reader behind a header, for so many completions. -/
def serverChunks (c : ServerConfig) (message : RequestMessage) (buf : StreamBuf) (s : Socket)
    (turns : Nat) : Run ServerStep :=
  runTurns (serverTurn c) turns
    (.readChunked message (readChunkedTransferEncoded c.maxRequestStreambufSize buf)) s

/-- The client's reader behind a header, for so many completions. -/
def clientChunks (c : ClientConfig) (message : ResponseMessage) (buf : StreamBuf) (s : Socket)
    (turns : Nat) : Run ClientStep :=
  runTurns (clientTurn c) turns
    (.readChunked message (readChunkedTransferEncoded c.maxResponseStreambufSize buf)) s

theorem serverChunks_eq (c : ServerConfig) (message : RequestMessage) (buf : StreamBuf)
    (s : Socket) (turns : Nat) :
    let r := runTurns chunkTurn turns (readChunkedTransferEncoded c.maxRequestStreambufSize buf) s
    serverChunks c message buf s turns = ⟨r.events, .ofChunkStep message r.step, r.socket⟩ :=
  runTurns_map (serverTurn_ofChunkStep c message) turns
    (readChunkedTransferEncoded c.maxRequestStreambufSize buf) s

theorem clientChunks_eq (c : ClientConfig) (message : ResponseMessage) (buf : StreamBuf)
    (s : Socket) (turns : Nat) :
    let r := runTurns chunkTurn turns (readChunkedTransferEncoded c.maxResponseStreambufSize buf) s
    clientChunks c message buf s turns = ⟨r.events, .ofChunkStep message r.step, r.socket⟩ :=
  runTurns_map (clientTurn_ofChunkStep c message) turns
    (readChunkedTransferEncoded c.maxResponseStreambufSize buf) s

/-- Chunks are only taken when they are buffered with their `\r\n`. -/
def TakesWholeChunks (events : List Event) : Prop :=
  ∀ length size, Event.chunk length size ∈ events → length + 2 ≤ size

omit [HeaderFind] in
theorem takesWholeChunks_of_safe {events : List Event} (safe : ∀ e ∈ events, e.Safe) :
    TakesWholeChunks events := fun _ _ member => safe _ member

/-- Both sides expose what the chunks carry and nothing else, however the bytes are cut and
however many of them are buffered with the header, as long as no buffer is filled. -/
theorem framed_chunks_are_exposed (cs : List FramedChunk) {buf : StreamBuf} {s : Socket}
    (good : buf.good) (stream : pending buf s = framed cs) {turns : Nat}
    (enough : 2 * (cs.length + 1) ≤ turns) :
    (∀ (c : ServerConfig) (message : RequestMessage), buf.maxSize = c.maxRequestStreambufSize →
      BelowMax (serverChunks c message buf s turns).events →
      (∃ request : Request, (serverChunks c message buf s turns).step = .findResource request ∧
        request.message = message ∧ request.loadContent = carried cs) ∧
      TakesWholeChunks (serverChunks c message buf s turns).events) ∧
    (∀ (c : ClientConfig) (message : ResponseMessage), buf.maxSize = c.maxResponseStreambufSize →
      BelowMax (clientChunks c message buf s turns).events →
      (∃ response : Response, (clientChunks c message buf s turns).step = .callback (.ok response) ∧
        response.message = message ∧ response.loadContent = carried cs) ∧
      TakesWholeChunks (clientChunks c message buf s turns).events) := by
  have clean : ¬ Hazard (pending buf s) := by
    rw [stream]
    exact not_hazard_framed cs
  constructor
  · intro c message limit below
    rw [serverChunks_eq] at below ⊢
    obtain ⟨b, finished, data⟩ :=
      run_framed cs good stream (Nat.le_of_eq limit.symm) enough below
    refine ⟨⟨⟨message, b⟩, ?_, rfl, data⟩,
      takesWholeChunks_of_safe (safe_of_not_hazard good clean turns)⟩
    rw [readChunkedTransferEncoded, finished]
    rfl
  · intro c message limit below
    rw [clientChunks_eq] at below ⊢
    obtain ⟨b, finished, data⟩ :=
      run_framed cs good stream (Nat.le_of_eq limit.symm) enough below
    refine ⟨⟨⟨message, b⟩, ?_, rfl, data⟩,
      takesWholeChunks_of_safe (safe_of_not_hazard good clean turns)⟩
    rw [readChunkedTransferEncoded, finished]
    rfl

omit [HeaderFind] in
theorem framed_chunks_are_exposed_cut :
    let chunks : List FramedChunk :=
      [⟨ascii "0A", ascii "0123456789", by decide, rfl, by decide, by decide⟩,
        ⟨ascii "2", ascii "\r\n", by decide, rfl, by decide, by decide⟩]
    let buf : StreamBuf := { maxSize := 99, data := (framed chunks).take 3 }
    let s : Socket := .cut ((framed chunks).drop 3) 9 none
    (∃ request : Request,
      (@serverChunks findFirst ⟨99⟩ {} buf s 6).step = .findResource request ∧
      request.message = {} ∧ request.loadContent = ascii "0123456789\r\n") ∧
    (∃ response : Response,
      (@clientChunks findFirst ⟨ascii "localhost", 80, [], 99⟩ {} buf s 6).step =
        .callback (.ok response) ∧
      response.message = {} ∧ response.loadContent = ascii "0123456789\r\n") := by
  intro chunks buf s
  have stream : pending buf s = framed chunks := by decide
  have both := @framed_chunks_are_exposed findFirst chunks buf s rfl stream 6 (Nat.le_refl 6)
  exact ⟨(both.1 ⟨99⟩ {} rfl (by decide)).1,
    (both.2 ⟨ascii "localhost", 80, [], 99⟩ {} rfl (by decide)).1⟩

/-- Whatever is buffered, however the rest is cut, and whatever limit is configured, nothing the
readers of the two sides do on the stream is undefined or wraps. -/
def ChunkedSafe (stream : Bytes) : Prop :=
  ∀ (buf : StreamBuf) (s : Socket) (turns : Nat), buf.good → pending buf s = stream →
    (∀ (c : ServerConfig) (message : RequestMessage), buf.maxSize = c.maxRequestStreambufSize →
      ∀ e ∈ (serverChunks c message buf s turns).events, e.Safe) ∧
    (∀ (c : ClientConfig) (message : ResponseMessage), buf.maxSize = c.maxResponseStreambufSize →
      ∀ e ∈ (clientChunks c message buf s turns).events, e.Safe)

theorem not_chunkedSafe_of_hazard {stream : Bytes} (hazard : Hazard stream) :
    ¬ ChunkedSafe stream := by
  intro safe
  -- nothing is buffered yet, and there is room for all of it
  let buf : StreamBuf := { maxSize := stream.length + 1 }
  let s : Socket := { pieces := [stream] }
  have is : pending buf s = stream := by simp [pending, buf, s]
  have room : stream.length < buf.maxSize := Nat.lt_succ_self _
  have room' : buf.size + stream.length < buf.maxSize := by simp [StreamBuf.size, buf]
  obtain ⟨turns, e, member, unsafe_⟩ := unsafe_of_hazard hazard rfl is room room'
  have onServer := (safe buf s turns rfl is).1 ⟨stream.length + 1⟩ {} rfl
  rw [serverChunks_eq] at onServer
  exact unsafe_ (onServer e member)

theorem chunkedSafe_iff (stream : Bytes) : ChunkedSafe stream ↔ ¬ Hazard stream := by
  constructor
  · exact fun safe hazard => not_chunkedSafe_of_hazard hazard safe
  · intro clean buf s turns good is
    rw [← is] at clean
    constructor
    · intro c message _
      rw [serverChunks_eq]
      exact safe_of_not_hazard good clean turns
    · intro c message _
      rw [clientChunks_eq]
      exact safe_of_not_hazard good clean turns

omit [HeaderFind] in
/-- An empty size line, and a size that cannot be increased by 2. -/
theorem not_chunkedSafe : ¬ @ChunkedSafe findFirst (ascii "\n\r\n") ∧
    ¬ @ChunkedSafe findFirst (ascii "ffffffffffffffff\r\n") := by
  constructor
  · have hazard : Hazard (10 :: crlf) := .empty ⟨[10], [], rfl⟩
    exact @not_chunkedSafe_of_hazard findFirst _ hazard
  · have size : stoul 16 (ascii "ffffffffffffffff") = .ok (2 ^ 64 - 1) := rfl
    have hazard : Hazard (ascii "ffffffffffffffff\r" ++ 10 :: []) :=
      .wraps (by decide) ⟨ascii "ffffffffffffffff", [], rfl⟩ size (by decide)
    exact @not_chunkedSafe_of_hazard findFirst _ hazard

end ServerLib.Web
