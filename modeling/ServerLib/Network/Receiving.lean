import ServerLib.Network.MsgFrames

/-!
# The receive side of a connection

`connection::on_raw_receive` feeds what one read has brought to the protocol and hands the
finished units to the receive observers. If the protocol throws, it drops the connection and
returns, so units that were finished by the same read are never handed over. A read ends
wherever TCP has cut the stream; hence what is delivered ahead of a refused header depends
on the cuts, and ahead of anything else it does not.
-/
namespace ServerLib.Network

open Incremental

/-- What the receive callbacks do with a unit. -/
inductive Reaction where
  | returns
  | disconnects
  | throws (error : LogicError)

/-- A connection as far as receiving goes. `reading` says that an `async_read` is outstanding,
`delivered` lists the units handed to the observers. -/
structure Receiver (σ : Type) where
  protocol : UnitBuilderManager σ
  connected : Bool := true
  reading : Bool := true
  delivered : List NetUnit := []

namespace Receiver

variable {σ : Type} (receive : NetUnit → Reaction)

/-- `_receive_observer.notify` -/
def notify (c : Receiver σ) (unit : NetUnit) : Outcome (Receiver σ) :=
  let c := { c with delivered := c.delivered ++ [unit] }
  match receive unit with
  | .returns => .returned c
  | .disconnects => .returned { c with connected := false }
  | .throws error => .thrown error c

/-- `while (is_connected() && _protocol->receive_available())`; each turn takes a unit from the
queue. -/
def deliver : Nat → Receiver σ → Outcome (Receiver σ)
  | 0, c => .returned c
  | turns + 1, c =>
    if c.connected && c.protocol.receiveAvailable then
      match c.protocol.getFront, c.protocol.popFront with
      | .ok unit, .ok protocol =>
        (notify receive { c with protocol } unit).bind (deliver turns)
      | .error error, _ => .thrown error c
      | _, .error error => .thrown error c
    else .returned c

/-- `async_read` refuses a dropped connection; the exception is caught. -/
def asyncRead (c : Receiver σ) : Receiver σ := { c with reading := c.connected }

variable [UnitBuilderI σ]

/-- `on_raw_receive`, with the read that has brought `result` no longer outstanding. -/
def onRawReceive (c : Receiver σ) (result : Bytes) : Option (Outcome (Receiver σ)) :=
  match c.protocol.feed result with
  | none => none
  -- the catch branch returns before the queue is looked at
  | some (.thrown _ protocol) => some (.returned { c with protocol, connected := false })
  | some (.returned protocol) =>
    some ((deliver receive protocol.availableReplies.length { c with protocol }).bind fun c =>
      .returned c.asyncRead)

/-- Successive reads, for as long as the connection asks for them. -/
def receiveAll (c : Receiver σ) : List Bytes → Option (Outcome (Receiver σ))
  | [] => some (.returned c)
  | result :: reads =>
    if c.reading then
      match onRawReceive receive { c with reading := false } result with
      | some (.returned c) => receiveAll c reads
      | outcome => outcome
    else some (.returned c)

/-! ### Callbacks that return -/

omit [UnitBuilderI σ] in
/-- The whole queue is handed over. -/
theorem deliver_returns (buffer : Bytes) (builder : σ) (queue delivered : List NetUnit)
    (reading : Bool) :
    deliver (fun _ => .returns) queue.length ⟨⟨buffer, builder, queue⟩, true, reading, delivered⟩ =
      .returned ⟨⟨buffer, builder, []⟩, true, reading, delivered ++ queue⟩ := by
  induction queue generalizing delivered with
  | nil => simp [deliver]
  | cons unit units ih =>
    have rest := ih (delivered ++ [unit])
    rw [List.append_assoc] at rest
    exact rest

/-- A read that the protocol accepts hands over all that it has finished. -/
theorem receiveAll_of_wait {builder : σ} (buffer : Bytes) {result : Bytes}
    (delivered : List NetUnit) {r : Drained σ LogicError NetUnit UInt8}
    (drained : Drains turn builder (buffer ++ result) r)
    (bound : r.items.length ≤ (buffer ++ result).length) (waits : r.error = none)
    (reads : List Bytes) :
    receiveAll (fun _ => .returns) ⟨⟨buffer, builder, []⟩, true, true, delivered⟩
        (result :: reads) =
      receiveAll (fun _ => .returns) ⟨⟨r.rest, r.state, []⟩, true, true, delivered ++ r.items⟩
        reads := by
  have fed := feed_of_drains ⟨buffer, builder, []⟩ result drained (Nat.le_succ_of_le bound)
  simp only [receiveAll, if_true, onRawReceive, fed, settle, waits, List.nil_append,
    deliver_returns]
  rfl

/-- A read that the protocol refuses hands over nothing, and no other is asked for. -/
theorem receiveAll_of_fail {builder : σ} (buffer : Bytes) {result : Bytes}
    (delivered : List NetUnit) {r : Drained σ LogicError NetUnit UInt8}
    (drained : Drains turn builder (buffer ++ result) r)
    (bound : r.items.length ≤ (buffer ++ result).length) {error : LogicError}
    (failed : r.error = some error) (reads : List Bytes) :
    receiveAll (fun _ => .returns) ⟨⟨buffer, builder, []⟩, true, true, delivered⟩
        (result :: reads) =
      some (.returned ⟨⟨r.rest, r.state, r.items⟩, false, false, delivered⟩) := by
  have fed := feed_of_drains ⟨buffer, builder, []⟩ result drained (Nat.le_succ_of_le bound)
  simp only [receiveAll, if_true, onRawReceive, fed, settle, failed, List.nil_append]
  cases reads <;> rfl

/-- The reads of a connection feed its decoder. Units are delivered in the order they are
finished, and all of them unless a read is refused. -/
theorem receiveAll_of_stable {inv : σ → Prop} (stable : Stable (turn (σ := σ)) inv)
    (builder : σ) (valid : inv builder) (buffer : Bytes) (delivered : List NetUnit)
    (reads : List Bytes) :
    ∃ r c units, Feeds turn builder buffer reads r ∧
      receiveAll (fun _ => .returns) ⟨⟨buffer, builder, []⟩, true, true, delivered⟩ reads =
        some (.returned c) ∧
      c.delivered = delivered ++ units ∧ units <+: r.items ∧
      (r.error = none → units = r.items) := by
  induction reads generalizing builder buffer delivered with
  | nil => exact ⟨_, _, [], .done, rfl, by simp, List.nil_prefix, fun _ => rfl⟩
  | cons result reads ih =>
    obtain ⟨r, drained, bound⟩ := stable.drains_exists builder (buffer ++ result) valid
    cases error : r.error with
    | some error' =>
      refine ⟨r, ⟨⟨r.rest, r.state, r.items⟩, false, false, delivered⟩, [], .stop drained error,
        receiveAll_of_fail buffer delivered drained bound error reads, by simp, List.nil_prefix, ?_⟩
      intro waits
      rw [error] at waits
      cases waits
    | none =>
      -- the units of this read are delivered before the next read begins
      obtain ⟨q, c, units, tail, received, total, front, complete⟩ :=
        ih r.state (stable.drains_keeps drained valid error) r.rest (delivered ++ r.items)
      refine ⟨_, c, r.items ++ units, .next drained error tail, ?_, ?_, ?_, ?_⟩
      · rw [receiveAll_of_wait buffer delivered drained bound error]
        exact received
      · rw [total, List.append_assoc]
      · exact (List.prefix_append_right_inj r.items).mpr front
      · intro waits
        rw [Drained.prepend_items, complete waits]

end Receiver

/-! ### Messages -/

open Receiver

variable [WideShift] {maxSize : Nat}

/-- A new connection that talks messages. -/
def freshReceiver (maxSize : Nat) : Receiver MsgBuilder := { protocol := freshMsg maxSize }

/-- What is delivered of a stream never depends on what follows it, and it is everything
unless the stream ends in a refused header. -/
theorem delivered_of_stream (frames : List (Frame maxSize)) (rem : Remainder maxSize)
    (reads : List Bytes) (cut : reads.flatten = wire frames ++ rem.bytes) :
    ∃ c, receiveAll (fun _ => .returns) (freshReceiver maxSize) reads = some (.returned c) ∧
      c.delivered <+: frames.map Frame.unit ∧
      (rem.error = none → c.delivered = frames.map Frame.unit) := by
  obtain ⟨r, c, units, fed, received, total, front, complete⟩ :=
    receiveAll_of_stable (msg_stable maxSize) (.idle maxSize 0) (.idle 0) [] [] reads
  obtain ⟨unread, drained, -⟩ := (msg_stable maxSize).drains_of_feeds fed (.idle 0) (by simp [turn])
  obtain ⟨size, whole⟩ := drains_stream frames rem
  rw [List.nil_append, cut] at drained
  have same := drained.unique whole
  simp only [Drained.mk.injEq] at same
  obtain ⟨items, failed, -⟩ := same
  rw [List.nil_append] at total
  refine ⟨c, received, ?_, ?_⟩
  · rw [total, ← items]
    exact front
  · intro clean
    rw [total, ← items]
    exact complete (failed.trans clean)

/-- What the observers see of a stream does not depend on the reads, and messages ahead of a
refused header are among it. -/
structure DeliveryIndependent (maxSize : Nat) (stream : Bytes) : Prop where
  same : ∀ reads₁ reads₂ : List Bytes, reads₁.flatten = stream → reads₂.flatten = stream →
    ∃ c₁ c₂,
      receiveAll (fun _ => .returns) (freshReceiver maxSize) reads₁ = some (.returned c₁) ∧
      receiveAll (fun _ => .returns) (freshReceiver maxSize) reads₂ = some (.returned c₂) ∧
      c₁.delivered = c₂.delivered
  complete : ∀ (frames : List (Frame maxSize)) (header rest : Bytes) (size : UInt32),
    stream = wire frames ++ (header ++ rest) → unpack header = some (size, header.length) →
    maxSize < size.toNat → ∀ reads : List Bytes, reads.flatten = stream →
      ∃ c, receiveAll (fun _ => .returns) (freshReceiver maxSize) reads = some (.returned c) ∧
        c.delivered = frames.map Frame.unit

/-- Some complete messages, and behind them a header above the maximum. -/
def RefusedBehindMessage (maxSize : Nat) (stream : Bytes) : Prop :=
  ∃ (frames : List (Frame maxSize)) (header rest : Bytes) (size : UInt32), frames ≠ [] ∧
    stream = wire frames ++ (header ++ rest) ∧ unpack header = some (size, header.length) ∧
    maxSize < size.toNat

/-- One read of the whole stream delivers nothing, two reads deliver the messages. -/
private theorem refused_cuts (frames : List (Frame maxSize)) {header : Bytes} (rest : Bytes)
    {size : UInt32} (announced : unpack header = some (size, header.length))
    (above : maxSize < size.toNat) :
    (∃ c, receiveAll (fun _ => .returns) (freshReceiver maxSize)
        [wire frames ++ (header ++ rest)] = some (.returned c) ∧ c.delivered = []) ∧
    ∃ c, receiveAll (fun _ => .returns) (freshReceiver maxSize)
        [wire frames, header ++ rest] = some (.returned c) ∧
      c.delivered = frames.map Frame.unit := by
  have bounded := fun {b : MsgBuilder} {buffer : Bytes}
    {r : Drained MsgBuilder LogicError NetUnit UInt8} (valid : Sound maxSize b)
    (drained : Drains turn b buffer r) => (msg_stable maxSize).length_items drained valid
  constructor
  · obtain ⟨size', whole⟩ := drains_stream frames (.refused header rest size announced above)
    exact ⟨_, receiveAll_of_fail [] [] whole (bounded (.idle 0) whole) rfl [], rfl⟩
  · obtain ⟨size', front⟩ :=
      drains_stream frames (.header [] (by simp))
    rw [Remainder.bytes, List.append_nil] at front
    have behind := drains_remainder (.refused header rest size announced above) size'
    refine ⟨_, (receiveAll_of_wait [] [] front (bounded (.idle 0) front) rfl _).trans
      (receiveAll_of_fail [] _ behind (bounded (.idle size') behind) rfl []), rfl⟩

private theorem delivered_all {stream : Bytes} (fine : ¬ RefusedBehindMessage maxSize stream)
    (frames : List (Frame maxSize)) (rem : Remainder maxSize)
    (whole : stream = wire frames ++ rem.bytes) (reads : List Bytes)
    (cut : reads.flatten = stream) :
    ∃ c, receiveAll (fun _ => .returns) (freshReceiver maxSize) reads = some (.returned c) ∧
      c.delivered = frames.map Frame.unit := by
  obtain ⟨c, received, front, complete⟩ := delivered_of_stream frames rem reads (cut.trans whole)
  refine ⟨c, received, ?_⟩
  cases rem with
  | header => exact complete rfl
  | body => exact complete rfl
  | refused header rest size announced above =>
    have none_before : frames = [] := by_contra fun occupied =>
      fine ⟨frames, header, rest, size, occupied, whole, announced, above⟩
    subst none_before
    exact List.prefix_nil.mp front

/-- Delivery is independent of the reads exactly if no header is refused behind a message. -/
theorem deliveryIndependent_iff (maxSize : Nat) (stream : Bytes) :
    DeliveryIndependent maxSize stream ↔ ¬ RefusedBehindMessage maxSize stream := by
  constructor
  · rintro independent ⟨frames, header, rest, size, occupied, rfl, announced, above⟩
    obtain ⟨⟨c₁, received₁, nothing⟩, c₂, received₂, all⟩ :=
      refused_cuts frames rest announced above
    -- one read against a cut right behind the messages
    obtain ⟨d₁, d₂, same₁, same₂, equal⟩ := independent.same
      [wire frames ++ (header ++ rest)] [wire frames, header ++ rest] (by simp) (by simp)
    rw [received₁, Option.some.injEq, Outcome.returned.injEq] at same₁
    rw [received₂, Option.some.injEq, Outcome.returned.injEq] at same₂
    rw [← same₁, ← same₂, nothing, all] at equal
    exact occupied (List.map_eq_nil_iff.mp equal.symm)
  · intro fine
    obtain ⟨frames, rem, whole⟩ := exists_frames maxSize stream
    refine ⟨?_, ?_⟩
    · intro reads₁ reads₂ cut₁ cut₂
      obtain ⟨c₁, received₁, units₁⟩ := delivered_all fine frames rem whole reads₁ cut₁
      obtain ⟨c₂, received₂, units₂⟩ := delivered_all fine frames rem whole reads₂ cut₂
      exact ⟨c₁, c₂, received₁, received₂, units₁.trans units₂.symm⟩
    · intro frames header rest size whole announced above
      exact delivered_all fine frames (.refused header rest size announced above) whole

omit [WideShift] in
/-- A message of one byte and a header above the maximum of 1, in one read and in two. -/
theorem not_deliveryIndependent :
    ¬ ∃ shift : WideShift, @DeliveryIndependent shift 1 [1, 7, 2, 9] := by
  rintro ⟨shift, independent⟩
  have one : unpack [1] = some (1, 1) := unpack_pack 1 []
  have two : unpack [2] = some (2, 1) := unpack_pack 2 []
  let frame : Frame 1 := ⟨[1], [7], 1, one, by decide, rfl⟩
  obtain ⟨⟨c₁, received₁, nothing⟩, c₂, received₂, all⟩ :=
    refused_cuts [frame] [9] two (by decide)
  obtain ⟨d₁, d₂, same₁, same₂, equal⟩ :=
    independent.same [[1, 7, 2, 9]] [[1, 7], [2, 9]] rfl rfl
  have different : d₁.delivered ≠ d₂.delivered := by
    rw [← Outcome.returned.inj (Option.some.inj (received₁.symm.trans same₁)),
      ← Outcome.returned.inj (Option.some.inj (received₂.symm.trans same₂)), nothing, all]
    simp
  exact different equal

end ServerLib.Network
