import ServerLib.Network.UnitBuilderManager
import ServerLib.Network.HeaderDecoding

/-!
# The message builder as a decoder

A message builder waits for a header, or for the rest of a body whose size it knows. A
refused header leaves it in a third state: the header is kept, but the size of the body is
still that of the message before.
-/
namespace ServerLib.Network

open Incremental

variable [WideShift]

namespace MsgBuilder

/-- Between two messages: `size` is left over from the last one. -/
def idle (maxSize size : Nat) : MsgBuilder :=
  { msgMaxSize := maxSize, msgBuilder := { size := size } }

/-- Inside a message: the header has announced `sz` bytes, of which `part` has arrived. The
body is collected up to `size`. -/
def collecting (maxSize : Nat) (sz : UInt32) (size : Nat) (part : Bytes) : MsgBuilder :=
  { msgMaxSize := maxSize
    sizeBuilder := ⟨.ofInteger sz⟩
    msgBuilder := { size := size, buffer := part } }

/-- The unit of a complete body. -/
def bodyUnit (body : Bytes) : NetUnit := if body = [] then .ofBool true else .ofString body

/-- The builder when the last byte of a body has arrived. -/
def complete (maxSize : Nat) (sz : UInt32) (body : Bytes) : MsgBuilder :=
  { msgMaxSize := maxSize
    ready := true
    sizeBuilder := ⟨.ofInteger sz⟩
    msgBuilder := { size := body.length, ready := true, unit := bodyUnit body } }

omit [WideShift] in
@[simp] theorem reset_complete (maxSize : Nat) (sz : UInt32) (body : Bytes) :
    (complete maxSize sz body).reset = idle maxSize body.length := by
  simp [complete, reset, idle, IntegerBuilder.reset, StringBuilder.reset, NetUnit.setBool,
    NetUnit.ofInteger, NetUnit.ofBool, bodyUnit, apply_ite NetUnit.nested, NetUnit.ofString]

/-! ### What each operation does in these states -/

omit [WideShift] in
private theorem string_consume_short {size : Nat} {part data : Bytes}
    (short : part.length + data.length < size) :
    StringBuilder.consume { size, buffer := part } data =
      .returned ({ size, buffer := part ++ data }, []) := by
  have room : part.length < size := by omega
  have all : min data.length (size - part.length) = data.length := by omega
  have bound : (part ++ data).length ≤ size := by rw [List.length_append]; omega
  have open_ : ¬ (part ++ data).length = size := by rw [List.length_append]; omega
  simp only [StringBuilder.consume, StringBuilder.fill, room, if_true, all, List.take_length,
    List.drop_length, Bool.false_eq_true, if_false, bound, StringBuilder.finish, open_]

omit [WideShift] in
private theorem string_consume_enough {size : Nat} {part data : Bytes} (fits : part.length ≤ size)
    (enough : size ≤ part.length + data.length) :
    StringBuilder.consume { size, buffer := part } data =
      .returned ({ size, ready := true,
                   unit := bodyUnit (part ++ data.take (size - part.length)) },
        data.drop (size - part.length)) := by
  have taken : min data.length (size - part.length) = size - part.length := by omega
  have body : (part ++ data.take (size - part.length)).length = size := by
    rw [List.length_append, List.length_take]
    omega
  have filled : StringBuilder.fill { size, buffer := part } data =
      ({ size, buffer := part ++ data.take (size - part.length) },
        data.drop (size - part.length)) := by
    simp only [StringBuilder.fill, taken]
    split
    · rfl
    next full =>
      -- `fill` has nothing to do; taking no byte is the same
      have none_left : size - part.length = 0 := by omega
      simp [none_left]
  simp only [StringBuilder.consume, filled, StringBuilder.finish, body, Bool.false_eq_true,
    if_false, Nat.le_refl, if_true]
  rfl

omit [WideShift] in
private theorem consumeBody_collecting (maxSize : Nat) (sz : UInt32) (size : Nat)
    (part data : Bytes) :
    (collecting maxSize sz size part).consumeBody data =
      (StringBuilder.consume { size, buffer := part } data).map fun (msgBuilder, rest) =>
        ({ msgMaxSize := maxSize, sizeBuilder := ⟨.ofInteger sz⟩, msgBuilder }, rest) := rfl

theorem consume_collecting_short (maxSize : Nat) (sz : UInt32) {size : Nat} {part data : Bytes}
    (short : part.length + data.length < size) :
    (collecting maxSize sz size part).consume data =
      .returned (collecting maxSize sz size (part ++ data), []) := by
  have header : (collecting maxSize sz size part).consumeSize data =
      .returned (collecting maxSize sz size part, data) := rfl
  simp only [consume, header, Outcome.bind_returned, consumeBody_collecting,
    string_consume_short short, Outcome.map_returned]
  rfl

theorem consume_collecting_enough (maxSize : Nat) (sz : UInt32) {size : Nat} {part data : Bytes}
    (fits : part.length ≤ size) (enough : size ≤ part.length + data.length) :
    (collecting maxSize sz size part).consume data =
      .returned (complete maxSize sz (part ++ data.take (size - part.length)),
        data.drop (size - part.length)) := by
  have header : (collecting maxSize sz size part).consumeSize data =
      .returned (collecting maxSize sz size part, data) := rfl
  have body : (part ++ data.take (size - part.length)).length = size := by
    rw [List.length_append, List.length_take]
    omega
  simp only [consume, header, Outcome.bind_returned, consumeBody_collecting,
    string_consume_enough fits enough, Outcome.map_returned, complete, body]
  rfl

theorem consume_idle_none (maxSize size : Nat) {data : Bytes} (incomplete : unpack data = none) :
    (idle maxSize size).consume data = .returned (idle maxSize size, data) := by
  have header : (idle maxSize size).consumeSize data = .returned (idle maxSize size, data) := by
    simp [consumeSize, IntegerBuilder.consume, incomplete, idle, IntegerBuilder.unitReady,
      NetUnit.ofBool, NetUnit.ok, NetUnit.isError]
  simp only [consume, header, Outcome.bind_returned]
  rfl

/-- A complete header within the maximum: the builder goes on with the body. -/
theorem consume_idle_accepted {maxSize : Nat} (size : Nat) {data : Bytes} {sz : UInt32} {got : Nat}
    (unpacked : unpack data = some (sz, got)) (bounded : sz.toNat ≤ maxSize) :
    (idle maxSize size).consume data =
      (collecting maxSize sz sz.toNat []).consume (data.drop got) := by
  have header : (idle maxSize size).consumeSize data =
      .returned (collecting maxSize sz sz.toNat [], data.drop got) := by
    simp [consumeSize, IntegerBuilder.consume, unpacked, idle, IntegerBuilder.unitReady,
      NetUnit.ofBool, NetUnit.ok, NetUnit.isError, NetUnit.setInteger, NetUnit.asInteger,
      bounded, collecting, StringBuilder.setSize, NetUnit.ofInteger]
  -- the builder that starts with the body passes the header by
  have again : (collecting maxSize sz sz.toNat []).consumeSize (data.drop got) =
      .returned (collecting maxSize sz sz.toNat [], data.drop got) := rfl
  rw [consume, header, consume, again]
  rfl

/-- A complete header above the maximum is taken from the buffer and kept. -/
theorem consume_idle_refused {maxSize : Nat} (size : Nat) {data : Bytes} {sz : UInt32} {got : Nat}
    (unpacked : unpack data = some (sz, got)) (above : maxSize < sz.toNat) :
    (idle maxSize size).consume data =
      .thrown ⟨"sz <= _msg_max_size", ""⟩ (collecting maxSize sz size [], data.drop got) := by
  have refused : ¬ sz.toNat ≤ maxSize := by omega
  have header : (idle maxSize size).consumeSize data =
      .thrown ⟨"sz <= _msg_max_size", ""⟩ (collecting maxSize sz size [], data.drop got) := by
    simp [consumeSize, IntegerBuilder.consume, unpacked, idle, IntegerBuilder.unitReady,
      NetUnit.ofBool, NetUnit.ok, NetUnit.isError, NetUnit.setInteger, NetUnit.asInteger,
      refused, collecting, NetUnit.ofInteger]
  rw [consume, header]
  rfl

end MsgBuilder

/-! ### One call of `build_unit` -/

open MsgBuilder

omit [WideShift] in
/-- What a call does once the header is complete: `part` of the body is there, `data` follows. -/
def bodyTurn (maxSize : Nat) (sz : UInt32) (size : Nat) (part data : Bytes) :
    Turn MsgBuilder LogicError NetUnit UInt8 :=
  if part.length + data.length < size then .wait (collecting maxSize sz size (part ++ data)) []
  else .emit (bodyUnit (part ++ data.take (size - part.length))) (idle maxSize size)
    (data.drop (size - part.length))

private theorem turn_of_consume {b : MsgBuilder} {buffer : Bytes} (occupied : buffer ≠ []) :
    turn b buffer = match b.consume buffer with
      | .thrown error (b, rest) => .fail error b rest
      | .returned (b, rest) =>
        if b.ready then .emit b.msgBuilder.unit b.reset rest else .wait b rest := by
  have virtual : UnitBuilderI.consume b buffer = b.consume buffer := rfl
  simp only [turn, if_neg occupied, virtual]
  cases b.consume buffer <;> rfl

private theorem bodyTurn_eq {maxSize : Nat} {sz : UInt32} {size : Nat} {part data : Bytes}
    (fits : part.length ≤ size) :
    (match (collecting maxSize sz size part).consume data with
      | .thrown error (b, rest) => .fail error b rest
      | .returned (b, rest) =>
        if b.ready then .emit b.msgBuilder.unit b.reset rest else .wait b rest) =
      bodyTurn maxSize sz size part data := by
  by_cases short : part.length + data.length < size
  · simp only [consume_collecting_short _ _ short, bodyTurn, if_pos short]
    rfl
  · have body : (part ++ data.take (size - part.length)).length = size := by
      rw [List.length_append, List.length_take]
      omega
    simp only [consume_collecting_enough _ _ fits (by omega : size ≤ part.length + data.length),
      bodyTurn, if_neg short, reset_complete, body]
    rfl

theorem turn_collecting {maxSize : Nat} {sz : UInt32} {size : Nat} {part buffer : Bytes}
    (fits : part.length ≤ size) (occupied : buffer ≠ []) :
    turn (collecting maxSize sz size part) buffer = bodyTurn maxSize sz size part buffer := by
  rw [turn_of_consume occupied, bodyTurn_eq fits]

/-- Inside a body an empty buffer needs no case of its own. -/
theorem turn_collecting_inside {maxSize : Nat} {sz : UInt32} {size : Nat} {part : Bytes}
    (inside : part.length < size) (buffer : Bytes) :
    turn (collecting maxSize sz size part) buffer = bodyTurn maxSize sz size part buffer := by
  by_cases empty : buffer = []
  · subst empty
    -- a call on the empty buffer returns false at once, and so does a body that misses bytes
    simp [turn, bodyTurn, inside]
  · exact turn_collecting (Nat.le_of_lt inside) empty

theorem turn_idle_none (maxSize size : Nat) {buffer : Bytes} (incomplete : unpack buffer = none) :
    turn (idle maxSize size) buffer = .wait (idle maxSize size) buffer := by
  by_cases empty : buffer = []
  · subst empty
    rfl
  · rw [turn_of_consume empty, consume_idle_none _ _ incomplete]
    rfl

private theorem ne_nil_of_unpack {buffer : Bytes} {sz : UInt32} {got : Nat}
    (unpacked : unpack buffer = some (sz, got)) : buffer ≠ [] := by
  rintro rfl
  cases unpacked

theorem turn_idle_accepted {maxSize : Nat} (size : Nat) {buffer : Bytes} {sz : UInt32} {got : Nat}
    (unpacked : unpack buffer = some (sz, got)) (bounded : sz.toNat ≤ maxSize) :
    turn (idle maxSize size) buffer = bodyTurn maxSize sz sz.toNat [] (buffer.drop got) := by
  rw [turn_of_consume (ne_nil_of_unpack unpacked), consume_idle_accepted _ unpacked bounded,
    bodyTurn_eq (Nat.zero_le _)]

theorem turn_idle_refused {maxSize : Nat} (size : Nat) {buffer : Bytes} {sz : UInt32} {got : Nat}
    (unpacked : unpack buffer = some (sz, got)) (above : maxSize < sz.toNat) :
    turn (idle maxSize size) buffer =
      .fail ⟨"sz <= _msg_max_size", ""⟩ (collecting maxSize sz size []) (buffer.drop got) := by
  rw [turn_of_consume (ne_nil_of_unpack unpacked), consume_idle_refused _ unpacked above]

/-! ### The decoder is stable -/

omit [WideShift] in
/-- The states of a builder that has not thrown. -/
inductive Sound (maxSize : Nat) : MsgBuilder → Prop where
  | idle (size : Nat) : Sound maxSize (.idle maxSize size)
  | collecting {sz : UInt32} {part : Bytes} (inside : part.length < sz.toNat)
      (bounded : sz.toNat ≤ maxSize) : Sound maxSize (.collecting maxSize sz sz.toNat part)

omit [WideShift] in
theorem bodyTurn_wait {maxSize : Nat} {sz : UInt32} {size : Nat} {part data rest : Bytes}
    {b : MsgBuilder} (turned : bodyTurn maxSize sz size part data = .wait b rest) :
    part.length + data.length < size ∧ b = collecting maxSize sz size (part ++ data) ∧
      rest = [] := by
  unfold bodyTurn at turned
  split at turned
  next short =>
    cases turned
    exact ⟨short, rfl, rfl⟩
  · cases turned

omit [WideShift] in
theorem bodyTurn_emit {maxSize : Nat} {sz : UInt32} {size : Nat} {part data rest : Bytes}
    {b : MsgBuilder} {unit : NetUnit}
    (turned : bodyTurn maxSize sz size part data = .emit unit b rest) :
    size ≤ part.length + data.length ∧ b = idle maxSize size ∧
      unit = bodyUnit (part ++ data.take (size - part.length)) ∧
      rest = data.drop (size - part.length) := by
  unfold bodyTurn at turned
  split at turned
  · cases turned
  next enough =>
    cases turned
    exact ⟨by omega, rfl, rfl, rfl⟩

omit [WideShift] in
theorem bodyTurn_ne_fail {maxSize : Nat} {sz : UInt32} {size : Nat} {part data rest : Bytes}
    {b : MsgBuilder} {error : LogicError} :
    bodyTurn maxSize sz size part data ≠ .fail error b rest := by
  unfold bodyTurn
  split <;> simp

omit [WideShift] in
private theorem bodyTurn_append_wait {maxSize : Nat} {sz : UInt32} {size : Nat}
    {part data : Bytes} (short : part.length + data.length < size) (more : Bytes) :
    bodyTurn maxSize sz size part (data ++ more) =
      bodyTurn maxSize sz size (part ++ data) more := by
  have left : size - (part.length + data.length) = size - part.length - data.length := by omega
  have beyond : data.length ≤ size - part.length := by omega
  simp only [bodyTurn, List.length_append, List.append_assoc, Nat.add_assoc, left,
    List.take_append, List.drop_append, List.take_of_length_le beyond,
    List.drop_of_length_le beyond, List.nil_append]

omit [WideShift] in
private theorem bodyTurn_append_emit {maxSize : Nat} {sz : UInt32} {size : Nat}
    {part data rest : Bytes} {b : MsgBuilder} {unit : NetUnit}
    (turned : bodyTurn maxSize sz size part data = .emit unit b rest) (more : Bytes) :
    bodyTurn maxSize sz size part (data ++ more) = .emit unit b (rest ++ more) := by
  obtain ⟨enough, rfl, rfl, rfl⟩ := bodyTurn_emit turned
  have long : ¬ part.length + (data ++ more).length < size := by
    rw [List.length_append]
    omega
  have within : size - part.length ≤ data.length := by omega
  simp only [bodyTurn, if_neg long, List.take_append_of_le_length within,
    List.drop_append_of_le_length within]

/-- What one call does to a sound builder. -/
inductive Call (maxSize : Nat) (buffer : Bytes) :
    MsgBuilder → Turn MsgBuilder LogicError NetUnit UInt8 → Prop where
  | header (size : Nat) (incomplete : unpack buffer = none) :
      Call maxSize buffer (.idle maxSize size) (.wait (.idle maxSize size) buffer)
  | accepted (size : Nat) {sz : UInt32} {got : Nat} (unpacked : unpack buffer = some (sz, got))
      (bounded : sz.toNat ≤ maxSize) {t : Turn MsgBuilder LogicError NetUnit UInt8}
      (body : bodyTurn maxSize sz sz.toNat [] (buffer.drop got) = t) :
      Call maxSize buffer (.idle maxSize size) t
  | refused (size : Nat) {sz : UInt32} {got : Nat} (unpacked : unpack buffer = some (sz, got))
      (above : maxSize < sz.toNat) :
      Call maxSize buffer (.idle maxSize size)
        (.fail ⟨"sz <= _msg_max_size", ""⟩ (.collecting maxSize sz size []) (buffer.drop got))
  | body {sz : UInt32} {part : Bytes} (inside : part.length < sz.toNat)
      (bounded : sz.toNat ≤ maxSize) {t : Turn MsgBuilder LogicError NetUnit UInt8}
      (body : bodyTurn maxSize sz sz.toNat part buffer = t) :
      Call maxSize buffer (.collecting maxSize sz sz.toNat part) t

theorem call_of_sound {maxSize : Nat} {b : MsgBuilder} (sound : Sound maxSize b) {buffer : Bytes}
    {t : Turn MsgBuilder LogicError NetUnit UInt8} (turned : turn b buffer = t) :
    Call maxSize buffer b t := by
  subst turned
  cases sound with
  | idle size =>
    cases unpacked : unpack buffer with
    | none =>
      rw [turn_idle_none _ _ unpacked]
      exact .header size unpacked
    | some result =>
      obtain ⟨sz, got⟩ := result
      by_cases bounded : sz.toNat ≤ maxSize
      · exact .accepted size unpacked bounded (turn_idle_accepted _ unpacked bounded).symm
      · have above : maxSize < sz.toNat := by omega
        rw [turn_idle_refused _ unpacked above]
        exact .refused size unpacked above
  | collecting inside bounded => exact .body inside bounded (turn_collecting_inside inside _).symm

/-- The message decoder does not depend on how its input is cut. -/
theorem msg_stable (maxSize : Nat) : Stable (turn (σ := MsgBuilder)) (Sound maxSize) where
  wait_keeps b buffer b' rest sound turned := by
    cases call_of_sound sound turned with
    | header size incomplete => exact sound
    | accepted size unpacked bounded body =>
      obtain ⟨short, rfl, -⟩ := bodyTurn_wait body
      exact .collecting (by simpa using short) bounded
    | body inside bounded body =>
      obtain ⟨short, rfl, -⟩ := bodyTurn_wait body
      exact .collecting (by simpa using short) bounded
  emit_keeps b buffer unit b' rest sound turned := by
    cases call_of_sound sound turned with
    | accepted size unpacked bounded body =>
      obtain ⟨-, rfl, -⟩ := bodyTurn_emit body
      exact .idle _
    | body inside bounded body =>
      obtain ⟨-, rfl, -⟩ := bodyTurn_emit body
      exact .idle _
  wait_append b buffer b' rest sound turned more := by
    cases call_of_sound sound turned with
    | header size incomplete => rfl
    | accepted size unpacked bounded body =>
      obtain ⟨short, rfl, rfl⟩ := bodyTurn_wait body
      -- the header is decoded again in front of the longer buffer, with the same result
      rw [turn_idle_accepted _ (unpack_append unpacked more) bounded,
        List.drop_append_of_le_length (unpack_bound unpacked).2, bodyTurn_append_wait short,
        List.nil_append, List.nil_append, turn_collecting_inside (by simpa using short)]
    | body inside bounded body =>
      obtain ⟨short, rfl, rfl⟩ := bodyTurn_wait body
      rw [turn_collecting_inside inside, bodyTurn_append_wait short, List.nil_append,
        turn_collecting_inside (by simpa using short)]
  emit_append b buffer unit b' rest sound turned more := by
    cases call_of_sound sound turned with
    | accepted size unpacked bounded body =>
      rw [turn_idle_accepted _ (unpack_append unpacked more) bounded,
        List.drop_append_of_le_length (unpack_bound unpacked).2]
      exact bodyTurn_append_emit body more
    | body inside bounded body =>
      rw [turn_collecting_inside inside]
      exact bodyTurn_append_emit body more
  emit_shrinks b buffer unit b' rest sound turned := by
    cases call_of_sound sound turned with
    | accepted size unpacked bounded body =>
      -- the body may be empty, but the header has at least one byte
      obtain ⟨-, -, -, rfl⟩ := bodyTurn_emit body
      have := unpack_bound unpacked
      simp only [List.length_drop]
      omega
    | body inside bounded body =>
      obtain ⟨enough, -, -, rfl⟩ := bodyTurn_emit body
      simp only [List.length_drop]
      omega
  fail_append b buffer error b' rest sound turned more := by
    cases call_of_sound sound turned with
    | accepted size unpacked bounded body => exact absurd body bodyTurn_ne_fail
    | refused size unpacked above =>
      rw [turn_idle_refused _ (unpack_append unpacked more) above,
        List.drop_append_of_le_length (unpack_bound unpacked).2]
    | body inside bounded body => exact absurd body bodyTurn_ne_fail

end ServerLib.Network
