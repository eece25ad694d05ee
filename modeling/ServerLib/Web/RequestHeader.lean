import ServerLib.Web.HttpServer
import ServerLib.Web.RequestLine

/-!
# The first read of a session

A session begins with the header of its request, and goes on as its header says. What the first
read has brought beyond the header stays in the buffer, but has no part in that.
-/
namespace ServerLib.Web

open Network (Bytes)
open Occurrence (LeftmostAt)

/-- A header block that the parser accepts and takes as a whole. -/
structure RequestHeader (block : Bytes) (message : RequestMessage) : Prop where
  ended : ∃ n, n + 4 = block.length ∧ LeftmostAt headerEnd block n
  accepted : parseRequest { maxSize := block.length, data := block } {} =
    .ok (true, message, { maxSize := block.length })

/-- A header says that so many bytes of content follow, or nothing of any content. -/
def Header.AnnouncesPlain [HeaderFind] (header : Header) (length : Nat) : Prop :=
  (∃ value, HeaderFind.find header (ascii "Content-Length") = some value ∧
    stoul 10 value = .ok length) ∨
  (HeaderFind.find header (ascii "Content-Length") = none ∧
    HeaderFind.find header (ascii "Transfer-Encoding") ≠ some (ascii "chunked") ∧ length = 0)

def Header.AnnouncesChunks [HeaderFind] (header : Header) : Prop :=
  HeaderFind.find header (ascii "Content-Length") = none ∧
    HeaderFind.find header (ascii "Transfer-Encoding") = some (ascii "chunked")

namespace RequestHeader

variable {block : Bytes} {message : RequestMessage}

theorem length_pos (h : RequestHeader block message) : 0 < block.length := by
  obtain ⟨n, total, -⟩ := h.ended
  omega

/-- Whatever is buffered with it, the header is parsed alike. -/
theorem parses (h : RequestHeader block message) {stream : StreamBuf} (good : stream.good)
    {rest : Bytes} (begins : stream.data = block ++ rest) :
    parseRequest stream {} = .ok (true, message, stream.consume block.length) := by
  obtain ⟨n, -, occurs⟩ := h.ended
  have ended : headerEnd <:+: block := occurs.1.isInfix.trans (List.drop_suffix _ _).isInfix
  obtain ⟨accepted, message', k, within, parsed⟩ := exists_parsed_request ended {}
  -- of the block alone the parser takes all, so it takes as much of any stream
  have alone := parsed { maxSize := block.length, data := block } [] rfl
    (List.append_nil _).symm
  rw [h.accepted, Except.ok.injEq, Prod.mk.injEq, Prod.mk.injEq] at alone
  obtain ⟨rfl, rfl, left⟩ := alone
  have nothing : block.drop k = [] := (congrArg StreamBuf.data left).symm
  have whole : k = block.length := Nat.le_antisymm within (List.drop_eq_nil_iff.mp nothing)
  rw [parsed stream rest good begins, whole]

variable [HeaderFind] (c : ServerConfig)

/-- The first read fills the buffer, or ends behind the header, and its handler goes on as the
header says. -/
theorem first_read (h : RequestHeader block message) {rest : Bytes} {s : Socket}
    (stream : s.pieces.flatten = block ++ rest) :
    ∃ q, asyncReadUntil headerEnd (Request.new c).streambuf s = some q ∧
      q.Carries (Request.new c).streambuf s ∧
      ((q.buf.full = true ∧ (afterRequestHeader c {} q).step = .tooLarge ∧
          (block.length ≤ c.maxRequestStreambufSize → HeaderRead q s block rest q.buf.size)) ∨
        (q.buf.full = false ∧ HeaderRead q s block rest q.buf.size ∧
          (afterRequestHeader c {} q).step =
            .ofHeader c (q.buf.size - block.length) ⟨message, q.buf.consume block.length⟩)) := by
  obtain ⟨n, total, ended⟩ := h.ended
  have occurs : LeftmostAt headerEnd (block ++ rest) n :=
    (Occurrence.leftmostAt_append_iff (Nat.le_of_eq total) _).mpr ended
  have fresh : (Request.new c).streambuf.data = [] := rfl
  obtain ⟨q, completed, carries, found⟩ := exists_delimited_read total occurs fresh stream
  refine ⟨q, completed, carries, ?_⟩
  rcases found with ⟨m, read⟩ | ⟨failed, full, tight⟩
  · cases read.size
    cases open_ : q.buf.full with
    | true =>
      refine .inl ⟨rfl, ?_, fun _ => read⟩
      simp only [afterRequestHeader, read.clean, open_]
      rfl
    | false =>
      refine .inr ⟨rfl, read, ?_⟩
      have additional : sizeSub q.buf.size q.bytesTransferred = q.buf.size - block.length := by
        rw [read.offset]
        exact sizeSub_of_le read.behind
      have parsed := h.parses (carries.good.trans rfl) read.data
      simp only [afterRequestHeader, read.clean, open_, Bool.false_eq_true, and_false, if_false,
        additional, parsed]
      rfl
  · refine .inl ⟨full, ?_, fun room => absurd room (Nat.not_le.mpr tight)⟩
    simp only [afterRequestHeader, failed, full]
    rfl

end RequestHeader

variable [HeaderFind] (c : ServerConfig)

/-- The first turn of a session. -/
theorem turn_of_header {s : Socket} {q : ReadResult}
    (completed : asyncReadUntil headerEnd (Request.new c).streambuf s = some q) :
    serverTurn c (.readHeader (.new c)) s = some (afterRequestHeader c {} q, q.socket) := by
  simp only [serverTurn, completed, Option.map_some]
  rfl

/-- Behind such a header what is missing of the content is read. -/
theorem ofHeader_plain {message : RequestMessage} {length : Nat}
    (announced : message.header.AnnouncesPlain length) (k : Nat) (buf : StreamBuf) :
    ServerStep.ofHeader c k ⟨message, buf⟩ =
      if k < length then .readContent (length - k) ⟨message, buf⟩
      else .findResource ⟨message, buf⟩ := by
  unfold ServerStep.ofHeader
  rcases announced with ⟨value, found, size⟩ | ⟨unsized, unchunked, rfl⟩
  · simp only [found, size]
  · simp only [unsized, unchunked, if_false]
    rfl

theorem ofHeader_chunked {message : RequestMessage} (announced : message.header.AnnouncesChunks)
    (k : Nat) (buf : StreamBuf) :
    ServerStep.ofHeader c k ⟨message, buf⟩ =
      .readChunked message (readChunkedTransferEncoded c.maxRequestStreambufSize buf) := by
  unfold ServerStep.ofHeader
  simp only [announced.1, announced.2, if_true]

end ServerLib.Web
