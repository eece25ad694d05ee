import ServerLib.Network.MsgDecoder

/-!
# Streams of messages

What a message builder makes of a stream, said without buffers and builders: a list of
frames, each a header and the body it announces, and a remainder that is an unfinished
header, an unfinished body, or a header that announces too much. Every stream has this
form (`exists_frames`), and `feedAll_stream` gives the manager's state for each of them,
whatever the chunks are.
-/
namespace ServerLib.Network

open Incremental MsgBuilder Varint

variable [WideShift]

/-- A complete message: `impl::unpack` takes all of the header, and the body has the size that
was decoded. -/
structure Frame (maxSize : Nat) where
  header : Bytes
  body : Bytes
  size : UInt32
  announced : unpack header = some (size, header.length)
  bounded : size.toNat ≤ maxSize
  complete : body.length = size.toNat

/-- What follows the last complete message of a stream. -/
inductive Remainder (maxSize : Nat) where
  | header (bytes : Bytes) (unfinished : ∀ b ∈ bytes, continues b = true)
  | body (header part : Bytes) (size : UInt32)
      (announced : unpack header = some (size, header.length))
      (bounded : size.toNat ≤ maxSize) (inside : part.length < size.toNat)
  | refused (header rest : Bytes) (size : UInt32)
      (announced : unpack header = some (size, header.length)) (above : maxSize < size.toNat)

variable {maxSize : Nat}

def Frame.bytes (f : Frame maxSize) : Bytes := f.header ++ f.body

def Frame.unit (f : Frame maxSize) : NetUnit := bodyUnit f.body

/-- The stream of some frames. -/
def wire (frames : List (Frame maxSize)) : Bytes := frames.flatMap Frame.bytes

namespace Remainder

def bytes : Remainder maxSize → Bytes
  | header bytes _ => bytes
  | body front part _ _ _ _ => front ++ part
  | refused front rest _ _ _ => front ++ rest

/-- The builder at the end of a stream; `size` is the size of its last complete body. -/
def builder (size : Nat) : Remainder maxSize → MsgBuilder
  | header _ _ => .idle maxSize size
  | body _ part sz _ _ _ => .collecting maxSize sz sz.toNat part
  | refused _ _ sz _ _ => .collecting maxSize sz size []

def buffer : Remainder maxSize → Bytes
  | header bytes _ => bytes
  | body _ _ _ _ _ _ => []
  | refused _ rest _ _ _ => rest

def error : Remainder maxSize → Option LogicError
  | refused _ _ _ _ _ => some ⟨"sz <= _msg_max_size", ""⟩
  | _ => none

end Remainder

private theorem unpack_header {header : Bytes} {size : UInt32}
    (announced : unpack header = some (size, header.length)) (rest : Bytes) :
    unpack (header ++ rest) = some (size, header.length) := unpack_append announced rest

/-- A header at the front of a stream, with what follows it. -/
private theorem exists_header (stream : Bytes) :
    unpack stream = none ∨ ∃ header rest size, stream = header ++ rest ∧ header ≠ [] ∧
      unpack header = some (size, header.length) := by
  rcases continues_or_isVarint stream with all | ⟨v, rest, rfl, numeral⟩
  · exact .inl ((unpack_eq_none_iff stream).mpr all)
  · have announced := unpack_numeral numeral []
    rw [List.append_nil] at announced
    exact .inr ⟨v, rest, _, rfl, isVarint_ne_nil numeral, announced⟩

theorem exists_frames (maxSize : Nat) (stream : Bytes) :
    ∃ (frames : List (Frame maxSize)) (rem : Remainder maxSize),
      stream = wire frames ++ rem.bytes := by
  -- on the length of the stream: every frame has a header of at least one byte
  induction size : stream.length using Nat.strongRecOn generalizing stream with
  | ind n ih =>
    subst size
    rcases exists_header stream with unfinished | ⟨header, rest, size, rfl, occupied, announced⟩
    · exact ⟨[], .header stream ((unpack_eq_none_iff stream).mp unfinished), rfl⟩
    · by_cases bounded : size.toNat ≤ maxSize
      · by_cases inside : rest.length < size.toNat
        · exact ⟨[], .body header rest size announced bounded inside, rfl⟩
        · -- a whole body: it is cut off with its header, and the rest has frames of its own
          have shorter : (rest.drop size.toNat).length < (header ++ rest).length := by
            have := List.length_pos_of_ne_nil occupied
            simp only [List.length_append, List.length_drop]
            omega
          obtain ⟨frames, rem, cut⟩ := ih _ shorter (rest.drop size.toNat) rfl
          have complete : (rest.take size.toNat).length = size.toNat := by
            rw [List.length_take]
            omega
          refine ⟨⟨header, rest.take size.toNat, size, announced, bounded, complete⟩ :: frames,
            rem, ?_⟩
          simp only [wire, List.flatMap_cons, Frame.bytes, List.append_assoc] at cut ⊢
          rw [← cut, List.take_append_drop]
      · exact ⟨[], .refused header rest size announced (by omega), rfl⟩

/-! ### The decoder on such a stream -/

private theorem turn_frame (f : Frame maxSize) (size : Nat) (tail : Bytes) :
    turn (idle maxSize size) (f.bytes ++ tail) =
      .emit f.unit (idle maxSize f.size.toNat) tail := by
  have unpacked := unpack_header f.announced (f.body ++ tail)
  rw [Frame.bytes, List.append_assoc, turn_idle_accepted _ unpacked f.bounded, List.drop_left]
  have long : ¬ ([] : Bytes).length + (f.body ++ tail).length < f.size.toNat := by
    rw [List.length_append, ← f.complete]
    omega
  rw [bodyTurn, if_neg long, List.length_nil, Nat.sub_zero, List.nil_append, ← f.complete,
    List.take_left, List.drop_left, Frame.unit]

theorem drains_wire (frames : List (Frame maxSize)) (size : Nat) :
    ∃ size', ∀ tail r, Drains turn (idle maxSize size') tail r →
      Drains turn (idle maxSize size) (wire frames ++ tail)
        (r.prepend (frames.map Frame.unit)) := by
  induction frames generalizing size with
  | nil => exact ⟨size, fun _ _ drained => drained⟩
  | cons f frames ih =>
    obtain ⟨size', rest⟩ := ih f.size.toNat
    refine ⟨size', fun tail r drained => ?_⟩
    have emitted := turn_frame f size (wire frames ++ tail)
    rw [← List.append_assoc] at emitted
    exact .emit emitted (rest tail r drained)

theorem drains_remainder (rem : Remainder maxSize) (size : Nat) :
    Drains turn (idle maxSize size) rem.bytes ⟨[], rem.error, rem.builder size, rem.buffer⟩ := by
  cases rem with
  | header bytes unfinished =>
    exact .wait (turn_idle_none _ _ ((unpack_eq_none_iff bytes).mpr unfinished))
  | body header part sz announced bounded inside =>
    have turned := turn_idle_accepted size (unpack_header announced part) bounded
    rw [List.drop_left] at turned
    refine .wait (turned.trans ?_)
    simp only [bodyTurn, List.length_nil, Nat.zero_add, if_pos inside]
    rfl
  | refused header rest sz announced above =>
    have turned := turn_idle_refused size (unpack_header announced rest) above
    rw [List.drop_left] at turned
    exact .fail turned

/-- The whole stream in one drain. -/
theorem drains_stream (frames : List (Frame maxSize)) (rem : Remainder maxSize) :
    ∃ size, Drains turn (idle maxSize 0) (wire frames ++ rem.bytes)
      ⟨frames.map Frame.unit, rem.error, rem.builder size, rem.buffer⟩ := by
  obtain ⟨size, rest⟩ := drains_wire frames 0
  refine ⟨size, ?_⟩
  have drained := rest _ _ (drains_remainder rem size)
  simpa only [Drained.prepend, List.append_nil] using drained

/-- The manager of a new connection with this protocol. -/
def freshMsg (maxSize : Nat) : UnitBuilderManager MsgBuilder :=
  { builder := { msgMaxSize := maxSize } }

/-- The manager after a chunked stream: the units of its frames are queued, and it waits or has
thrown as the remainder says. -/
theorem feedAll_stream (frames : List (Frame maxSize)) (rem : Remainder maxSize) :
    ∃ size, ∀ chunks : List Bytes, chunks.flatten = wire frames ++ rem.bytes →
      match rem.error with
      | none => (freshMsg maxSize).feedAll chunks =
          some (.returned ⟨rem.buffer, rem.builder size, frames.map Frame.unit⟩)
      | some error => ∃ buffer, (freshMsg maxSize).feedAll chunks =
          some (.thrown error ⟨buffer, rem.builder size, frames.map Frame.unit⟩) := by
  obtain ⟨size, whole⟩ := drains_stream frames rem
  refine ⟨size, fun chunks cut => ?_⟩
  obtain ⟨r, unread, drained, clean, fed⟩ :=
    feedAll_flatten (msg_stable maxSize) (idle maxSize 0) (.idle 0) chunks
  rw [cut] at drained
  -- two drains of the same stream from the same builder
  have same := drained.unique whole
  simp only [Drained.mk.injEq] at same
  obtain ⟨items, failed, state, rest⟩ := same
  change (freshMsg maxSize).feedAll chunks = _ at fed
  rw [fed]
  cases error : rem.error with
  | none =>
    rw [error] at failed
    rw [(clean failed).1, List.append_nil] at rest
    simp only [settle, failed, items, state, rest, List.nil_append]
  | some e =>
    rw [error] at failed
    simp only [settle, failed, items, state, List.nil_append]
    exact ⟨_, rfl⟩

end ServerLib.Network
