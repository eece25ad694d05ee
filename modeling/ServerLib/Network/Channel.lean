import Mathlib.Data.List.Forall2
import ServerLib.Network.DelimiterStream
import ServerLib.Network.MsgStream
import ServerLib.Network.Receiving
import ServerLib.Network.Sending

/-!
# Two connections with a protocol between them

One end posts messages through its protocol and commits them, from any number of threads; the
other end reads the stream in whatever pieces it comes and hands the units to its observers.
The socket is a queue of bytes: a piece that is read is the next part of what has been
accepted.

A protocol is correct here if it is an incremental decoder for which every created unit is one
turn (`Carries`). Then what the receiving end has delivered is at every moment a first part of
what the sending end has posted.
-/
namespace ServerLib.Network

open Incremental Transition

/-- The sending end, the receiving end, how much of the stream has been read, and the messages
that `create` has accepted. -/
structure Channel (τ σ : Type) where
  sender : Sender τ := {}
  receiver : Receiver σ
  arrived : Nat := 0
  messages : List Bytes := []

/-- `post` of a message, the halves of `commit`, a completed write, and a read of some bytes. -/
inductive ChannelAction (τ : Type) where
  | post (thread : τ) (msg : Bytes)
  | take (thread : τ)
  | asyncWrite (thread : τ)
  | complete (transferred : Nat)
  | read (size : Nat)

namespace Channel

variable {τ σ : Type} [DecidableEq τ] [UnitBuilderI σ]

/-- The bytes that the socket has accepted and the other end has not read. -/
def inFlight (ch : Channel τ σ) : Bytes := ch.sender.stream.drop ch.arrived

/-- The sending end creates its units with `protocol`. The receive callbacks return. -/
def step (protocol : σ) (ch : Channel τ σ) : ChannelAction τ → Option (Channel τ σ)
  | .post thread msg =>
    match UnitBuilderI.create protocol msg with
    -- the exception reaches the caller of `post` before anything is appended
    | .error _ => some ch
    | .ok unit => (ch.sender.step (.post thread unit)).map fun sender =>
        { ch with sender, messages := ch.messages ++ [msg] }
  | .take thread => (ch.sender.step (.take thread)).map fun sender => { ch with sender }
  | .asyncWrite thread => (ch.sender.step (.asyncWrite thread)).map fun sender => { ch with sender }
  | .complete transferred =>
    (ch.sender.step (.complete transferred)).map fun sender => { ch with sender }
  | .read size =>
    if ch.receiver.reading ∧ 1 ≤ size ∧ size ≤ ch.inFlight.length then
      match Receiver.onRawReceive (fun _ => .returns) { ch.receiver with reading := false }
          (ch.inFlight.take size) with
      | some (.returned receiver) =>
        some { ch with receiver, arrived := ch.arrived + size }
      | _ => none
    else none

/-- The message posted is one that the protocol can carry, and the sending end writes whole
buffers in order. -/
def Orderly (clean : Bytes → Prop) (ch : Channel τ σ) : ChannelAction τ → Prop
  | .post _ msg => clean msg
  | .take thread => ch.sender.WholeInOrder (.take thread)
  | .asyncWrite thread => ch.sender.WholeInOrder (.asyncWrite thread)
  | .complete transferred => ch.sender.WholeInOrder (.complete transferred)
  | .read _ => True

instance (clean : Bytes → Prop) [DecidablePred clean] (ch : Channel τ σ) :
    (a : ChannelAction τ) → Decidable (ch.Orderly clean a)
  | .post _ msg => inferInstanceAs (Decidable (clean msg))
  | .take thread => inferInstanceAs (Decidable (ch.sender.WholeInOrder (.take thread)))
  | .asyncWrite thread => inferInstanceAs (Decidable (ch.sender.WholeInOrder (.asyncWrite thread)))
  | .complete transferred =>
    inferInstanceAs (Decidable (ch.sender.WholeInOrder (.complete transferred)))
  | .read _ => inferInstanceAs (Decidable True)

/-- Both ends before anything is posted. -/
def fresh (protocol : σ) : Channel τ σ := { receiver := { protocol := { builder := protocol } } }

end Channel

/-! ### Protocols that carry messages -/

section Carries

variable {σ : Type} [UnitBuilderI σ]

/-- The bytes of a created unit are one turn of the decoder, which is then as idle as before.
`clean` says which messages that is true of, and `decoded` what the other end sees of them. -/
structure Carries (protocol : σ) (clean : Bytes → Prop) (decoded : Bytes → NetUnit)
    (idle : σ → Prop) : Prop where
  starts : idle protocol
  frame : ∀ s msg unit, idle s → UnitBuilderI.create protocol msg = .ok unit → clean msg →
    ∃ s', idle s' ∧ ∀ tail, turn s (unit.toNetworkString ++ tail) = .emit (decoded msg) s' tail

variable {protocol : σ} {clean : Bytes → Prop} {decoded : Bytes → NetUnit} {idle : σ → Prop}

/-- A message and the unit it was posted as. -/
def PostedAs (protocol : σ) (clean : Bytes → Prop) (msg : Bytes) (unit : NetUnit) : Prop :=
  UnitBuilderI.create protocol msg = .ok unit ∧ clean msg

theorem turn_nil (s : σ) : turn s [] = .wait s [] := by
  rw [turn, if_pos rfl]

/-- The stream of some messages drains to what they are decoded as. -/
theorem Carries.drains (carries : Carries protocol clean decoded idle) {msgs : List Bytes}
    {units : List NetUnit} (posted : List.Forall₂ (PostedAs protocol clean) msgs units) {s : σ}
    (resting : idle s) :
    ∃ s', Drains turn s (units.flatMap NetUnit.toNetworkString)
      ⟨msgs.map decoded, none, s', []⟩ := by
  induction posted generalizing s with
  | nil => exact ⟨s, .wait (turn_nil s)⟩
  | @cons msg unit msgs units first _ ih =>
    obtain ⟨s₁, resting₁, turned⟩ := carries.frame s msg unit resting first.1 first.2
    obtain ⟨s', rest⟩ := ih resting₁
    exact ⟨s', .emit (turned _) rest⟩

end Carries

/-! ### What the receiving end has seen -/

namespace Receiver

variable {σ : Type} [UnitBuilderI σ]

/-- The receiving end has drained some bytes and delivered all that came of them. -/
structure HasRead (protocol : σ) (bytes : Bytes) (c : Receiver σ) : Prop where
  drained : ∃ r, Drains turn protocol bytes r ∧ r.error = none ∧
    c = ⟨⟨r.rest, r.state, []⟩, true, true, r.items⟩

variable {protocol : σ} {inv : σ → Prop}

theorem HasRead.nothing (protocol : σ) :
    HasRead protocol [] ({ protocol := { builder := protocol } } : Receiver σ) :=
  ⟨_, .wait (turn_nil protocol), rfl, rfl⟩

/-- One more read, of bytes that the protocol accepts. -/
theorem HasRead.read (stable : Stable (turn (σ := σ)) inv) (valid : inv protocol)
    {bytes piece : Bytes} {c : Receiver σ} (seen : HasRead protocol bytes c)
    {q : Drained σ LogicError NetUnit UInt8} (whole : Drains turn protocol (bytes ++ piece) q)
    (waits : q.error = none) :
    ∃ c', onRawReceive (fun _ => .returns) { c with reading := false } piece =
        some (.returned c') ∧ HasRead protocol (bytes ++ piece) c' := by
  obtain ⟨r, drained, clean, rfl⟩ := seen.drained
  have kept := stable.drains_keeps drained valid clean
  obtain ⟨tail, rest, bound⟩ := stable.drains_exists r.state (r.rest ++ piece) kept
  have joined := stable.drains_append_of_wait drained valid clean rest
  have same := joined.unique whole
  have settled : tail.error = none := by
    rw [← same] at waits
    exact waits
  have fed := feed_of_drains ⟨r.rest, r.state, []⟩ piece rest (Nat.le_succ_of_le bound)
  refine ⟨⟨⟨tail.rest, tail.state, []⟩, true, true, r.items ++ tail.items⟩, ?_, _, joined,
    settled, rfl⟩
  simp only [onRawReceive, fed, settle, settled, List.nil_append, deliver_returns]
  rfl

end Receiver

namespace Channel

variable {τ σ : Type} [DecidableEq τ] [UnitBuilderI σ] {protocol : σ} {clean : Bytes → Prop}
  {decoded : Bytes → NetUnit} {idle inv : σ → Prop}

/-- What holds in every state: nothing is lost on the way, and the receiving end has drained
what has arrived. -/
structure Flows (protocol : σ) (clean : Bytes → Prop) (ch : Channel τ σ) : Prop where
  placed : ch.sender.InPlace
  posted : List.Forall₂ (PostedAs protocol clean) ch.messages ch.sender.posted
  within : ch.arrived ≤ ch.sender.stream.length
  read : ch.receiver.HasRead protocol (ch.sender.stream.take ch.arrived)

omit [DecidableEq τ] in
theorem Flows.start (protocol : σ) (clean : Bytes → Prop) :
    Flows protocol clean (fresh protocol : Channel τ σ) where
  placed := rfl
  posted := .nil
  within := Nat.le_refl 0
  read := .nothing protocol

omit [DecidableEq τ] in
/-- All that has arrived, and anything that may arrive, drains without an exception. -/
theorem Flows.drains (carries : Carries protocol clean decoded idle)
    (stable : Stable (turn (σ := σ)) inv) (valid : inv protocol) {ch : Channel τ σ}
    (flows : ch.Flows protocol clean) (n : Nat) :
    ∃ r, Drains turn protocol (ch.sender.stream.take n) r ∧ r.error = none ∧
      r.items <+: ch.messages.map decoded := by
  obtain ⟨s', whole⟩ := carries.drains flows.posted carries.starts
  -- what was accepted is the front of what was posted
  rw [← flows.placed, ← List.take_append_drop n ch.sender.stream] at whole
  simp only [List.append_assoc] at whole
  exact stable.drains_of_front whole valid rfl

/-- An action of the sending end only adds to the stream. -/
theorem stream_of_step {s s' : Sender τ} {a : SendAction τ} (stepped : s.step a = some s') :
    s.stream <+: s'.stream := by
  cases a with
  | post thread unit =>
    simp only [Sender.step, Option.ite_none_right_eq_some, Option.some.injEq] at stepped
    rw [← stepped.2]
  | take thread =>
    simp only [Sender.step, Option.ite_none_right_eq_some, Option.some.injEq] at stepped
    rw [← stepped.2]
  | asyncWrite thread =>
    simp only [Sender.step] at stepped
    split at stepped
    · cases stepped
    · rw [← Option.some.inj stepped]
  | complete transferred =>
    simp only [Sender.step] at stepped
    split at stepped
    · cases stepped
    · simp only [Option.ite_none_right_eq_some, Option.some.injEq] at stepped
      rw [← stepped.2]
      exact List.prefix_append _ _

omit [DecidableEq τ] [UnitBuilderI σ] in
theorem take_of_stream {stream stream' : Bytes} {n : Nat} (longer : stream <+: stream')
    (within : n ≤ stream.length) : stream'.take n = stream.take n := by
  obtain ⟨more, rfl⟩ := longer
  exact List.take_append_of_le_length within

/-- Committing and writing leave the receiving end where it is. -/
theorem Flows.of_send {ch : Channel τ σ} {a : SendAction τ} {s' : Sender τ}
    (flows : ch.Flows protocol clean) (meets : ch.sender.WholeInOrder a)
    (stepped : ch.sender.step a = some s') (same : s'.posted = ch.sender.posted) :
    ({ ch with sender := s' } : Channel τ σ).Flows protocol clean := by
  have longer := stream_of_step stepped
  refine ⟨Sender.inPlace_step _ _ _ flows.placed meets stepped, ?_, ?_, ?_⟩
  · rw [same]
    exact flows.posted
  · exact Nat.le_trans flows.within longer.length_le
  · rw [take_of_stream longer flows.within]
    exact flows.read

theorem posted_of_step {s s' : Sender τ} {a : SendAction τ} (stepped : s.step a = some s')
    (other : ∀ thread unit, a ≠ .post thread unit) : s'.posted = s.posted := by
  cases a with
  | post thread unit => exact absurd rfl (other thread unit)
  | take thread =>
    simp only [Sender.step, Option.ite_none_right_eq_some, Option.some.injEq] at stepped
    rw [← stepped.2]
  | asyncWrite thread =>
    simp only [Sender.step] at stepped
    split at stepped
    · cases stepped
    · rw [← Option.some.inj stepped]
  | complete transferred =>
    simp only [Sender.step] at stepped
    split at stepped
    · cases stepped
    · simp only [Option.ite_none_right_eq_some, Option.some.injEq] at stepped
      rw [← stepped.2]

omit [DecidableEq τ] [UnitBuilderI σ] in
/-- The next bytes in flight are what comes behind those that have arrived. -/
theorem take_arrived (ch : Channel τ σ) (size : Nat) :
    ch.sender.stream.take ch.arrived ++ ch.inFlight.take size =
      ch.sender.stream.take (ch.arrived + size) := by
  rw [inFlight, ← List.take_add]

omit [DecidableEq τ] in
/-- A read is accepted, whatever its size. -/
theorem Flows.accepts (carries : Carries protocol clean decoded idle)
    (stable : Stable (turn (σ := σ)) inv) (valid : inv protocol) {ch : Channel τ σ}
    (flows : ch.Flows protocol clean) (size : Nat) :
    ∃ c, Receiver.onRawReceive (fun _ => .returns) { ch.receiver with reading := false }
        (ch.inFlight.take size) = some (.returned c) ∧
      c.HasRead protocol (ch.sender.stream.take (ch.arrived + size)) := by
  obtain ⟨r, drained, waits, -⟩ := flows.drains carries stable valid (ch.arrived + size)
  rw [← take_arrived] at drained ⊢
  exact flows.read.read stable valid drained waits

theorem flows_step (carries : Carries protocol clean decoded idle)
    (stable : Stable (turn (σ := σ)) inv) (valid : inv protocol) (ch : Channel τ σ)
    (a : ChannelAction τ) (ch' : Channel τ σ) (flows : ch.Flows protocol clean)
    (meets : ch.Orderly clean a) (stepped : ch.step protocol a = some ch') :
    ch'.Flows protocol clean := by
  cases a with
  | post thread msg =>
    simp only [step] at stepped
    cases created : UnitBuilderI.create protocol msg with
    | error _ =>
      simp only [created, Option.some.injEq] at stepped
      exact stepped ▸ flows
    | ok unit =>
      simp only [created] at stepped
      obtain ⟨s', sent, rfl⟩ := Option.map_eq_some_iff.mp stepped
      have longer := stream_of_step sent
      have free : ch.sender.WholeInOrder (.post thread unit) := trivial
      refine ⟨Sender.inPlace_step _ _ _ flows.placed free sent, ?_, ?_, ?_⟩
      · simp only [Sender.step, Option.ite_none_right_eq_some, Option.some.injEq] at sent
        rw [← sent.2]
        exact List.rel_append flows.posted (.cons ⟨created, meets⟩ .nil)
      · exact Nat.le_trans flows.within longer.length_le
      · rw [take_of_stream longer flows.within]
        exact flows.read
  | take thread =>
    obtain ⟨s', sent, rfl⟩ := Option.map_eq_some_iff.mp stepped
    have whole : ch.sender.WholeInOrder (.take thread) := meets
    exact flows.of_send whole sent (posted_of_step sent (by intro _ _ h; cases h))
  | asyncWrite thread =>
    obtain ⟨s', sent, rfl⟩ := Option.map_eq_some_iff.mp stepped
    have whole : ch.sender.WholeInOrder (.asyncWrite thread) := meets
    exact flows.of_send whole sent (posted_of_step sent (by intro _ _ h; cases h))
  | complete transferred =>
    obtain ⟨s', sent, rfl⟩ := Option.map_eq_some_iff.mp stepped
    have whole : ch.sender.WholeInOrder (.complete transferred) := meets
    exact flows.of_send whole sent (posted_of_step sent (by intro _ _ h; cases h))
  | read size =>
    obtain ⟨c, received, seen⟩ := flows.accepts carries stable valid size
    simp only [step, received, Option.ite_none_right_eq_some, Option.some.injEq] at stepped
    obtain ⟨⟨-, -, inside⟩, rfl⟩ := stepped
    refine ⟨flows.placed, flows.posted, ?_, seen⟩
    have room := flows.within
    simp only [inFlight, List.length_drop] at inside
    dsimp only
    omega

/-- What the users of the two ends can rely on in a state: the messages come out in the order
they went in, without gaps, the receiving end stays connected and can read on, and nothing is
missing once all is written and read. -/
structure Delivers (protocol : σ) (decoded : Bytes → NetUnit) (ch : Channel τ σ) : Prop where
  inOrder : ch.receiver.delivered <+: ch.messages.map decoded
  connected : ch.receiver.connected = true
  readable : ∀ size, 1 ≤ size → size ≤ ch.inFlight.length →
    (ch.step protocol (.read size)).isSome = true
  complete : ch.sender.Quiet → ch.inFlight = [] →
    ch.receiver.delivered = ch.messages.map decoded

theorem Flows.delivers (carries : Carries protocol clean decoded idle)
    (stable : Stable (turn (σ := σ)) inv) (valid : inv protocol) {ch : Channel τ σ}
    (flows : ch.Flows protocol clean) : ch.Delivers protocol decoded := by
  obtain ⟨r, drained, -, received⟩ := flows.read.drained
  refine ⟨?_, ?_, ?_, ?_⟩
  · obtain ⟨q, other, -, front⟩ := flows.drains carries stable valid ch.arrived
    rw [received, drained.unique other]
    exact front
  · rw [received]
  · intro size some_ inside
    obtain ⟨c, accepted, -⟩ := flows.accepts carries stable valid size
    have reading : ch.receiver.reading = true := by rw [received]
    simp only [step, accepted, if_pos (And.intro reading (And.intro some_ inside)),
      Option.isSome_some]
  · rintro ⟨buffered, taken, writes⟩ nothing
    -- the whole stream has arrived, and it is all that was posted
    have all : ch.sender.stream.take ch.arrived = ch.sender.stream :=
      List.take_of_length_le (List.drop_eq_nil_iff.mp nothing)
    have placed := flows.placed
    simp only [Sender.InPlace, buffered, taken, writes, List.flatten_nil, List.flatMap_nil,
      List.append_nil] at placed
    obtain ⟨s', whole⟩ := carries.drains flows.posted carries.starts
    rw [all, placed] at drained
    rw [received, drained.unique whole]

/-- Along every run in which the protocol can carry what is posted and the sending end writes
in order. -/
theorem delivers_of_run (carries : Carries protocol clean decoded idle)
    (stable : Stable (turn (σ := σ)) inv) (valid : inv protocol) {acts : List (ChannelAction τ)}
    (meets : Meets (step protocol) (Orderly clean) (fresh protocol) acts) {ch : Channel τ σ}
    (visited : Visits (step protocol) (fresh protocol) acts ch) :
    ch.Delivers protocol decoded :=
  (visits_invariant (flows_step carries stable valid) (Flows.start protocol clean) meets
    visited).delivers carries stable valid

end Channel

/-! ### Messages with a size in front -/

section Messages

variable [WideShift]

theorem msg_carries (maxSize : Nat) :
    Carries ({ msgMaxSize := maxSize } : MsgBuilder) (fun _ => True) MsgBuilder.bodyUnit
      (fun b => ∃ size, b = .idle maxSize size) where
  starts := ⟨0, rfl⟩
  frame b msg unit := by
    rintro ⟨size, rfl⟩ (created : MsgBuilder.create _ msg = .ok unit) -
    -- `create` accepts what the other end will accept
    by_cases bounded : msg.length ≤ maxSize
    · by_cases sized : msg.length < 2 ^ 32
      · rw [create_eq bounded sized, Except.ok.injEq] at created
        have announced : (UInt32.ofNat msg.length).toNat = msg.length :=
          UInt32.toNat_ofNat_of_lt' sized
        refine ⟨.idle maxSize msg.length, ⟨_, rfl⟩, fun tail => ?_⟩
        rw [← created, toNetworkString_pair, List.append_assoc,
          turn_idle_accepted size (unpack_pack _ _) (by rw [announced]; exact bounded), announced,
          List.drop_left, bodyTurn, if_neg (by simp)]
        simp
      · have large : ¬ msg.length ≤ 2 ^ 32 - 1 := by omega
        simp only [MsgBuilder.create, if_pos bounded, if_neg large] at created
        cases created
    · simp only [MsgBuilder.create, if_neg bounded] at created
      cases created

/-- Two connections that talk messages. -/
def msgChannel (τ : Type) (maxSize : Nat) : Channel τ MsgBuilder :=
  .fresh { msgMaxSize := maxSize }

/-- Whatever threads post and commit, and however the stream is cut: as long as every write is
accepted whole and in the order of the commits, the other end receives the messages in order. -/
theorem messages_arrive {τ : Type} [DecidableEq τ] (maxSize : Nat)
    {acts : List (ChannelAction τ)}
    (meets : Meets (Channel.step { msgMaxSize := maxSize }) (Channel.Orderly fun _ => True)
      (msgChannel τ maxSize) acts) :
    ∀ ch, Visits (Channel.step { msgMaxSize := maxSize }) (msgChannel τ maxSize) acts ch →
      ch.Delivers { msgMaxSize := maxSize } MsgBuilder.bodyUnit :=
  fun _ visited =>
    Channel.delivers_of_run (msg_carries maxSize) (msg_stable maxSize) (.idle 0) meets visited

private def twoThreads : List (ChannelAction Nat) :=
  [.post 1 [7, 7], .post 2 [9], .post 1 [1, 2, 3], .take 1, .asyncWrite 1, .complete 5, .read 1,
    .read 3, .post 2 [], .take 2, .asyncWrite 2, .read 1, .complete 1, .read 1]

omit [WideShift] in
/-- Two threads post a message each, one of them also one that is too long; the reads end inside
the header and the body of a message. -/
theorem messages_arrive_two :
    letI := moduloShift
    ∃ ch : Channel Nat MsgBuilder,
      run (Channel.step { msgMaxSize := 2 }) (msgChannel Nat 2) twoThreads = some ch ∧
      ch.receiver.delivered.map NetUnit.toNetworkString = [[7, 7], [9], []] ∧
      ch.Delivers { msgMaxSize := 2 } MsgBuilder.bodyUnit := by
  let _ := moduloShift
  have meets : Meets (Channel.step { msgMaxSize := 2 }) (Channel.Orderly fun _ => True)
      (msgChannel Nat 2) twoThreads := by decide +kernel
  have ran : (run (Channel.step { msgMaxSize := 2 }) (msgChannel Nat 2) twoThreads).map
      (fun ch => ch.receiver.delivered.map NetUnit.toNetworkString) =
      some [[7, 7], [9], []] := by decide +kernel
  obtain ⟨ch, is, seen⟩ := Option.map_eq_some_iff.mp ran
  exact ⟨ch, is, seen, messages_arrive 2 meets ch (visits_of_run is)⟩

end Messages

/-! ### Messages with a delimiter behind -/

theorem dstream_carries {d : Bytes} (delimited : d ≠ []) :
    Carries ({ delimeter := d } : DstreamBuilder)
      (fun msg => Occurrence.LeftmostAt d (msg ++ d) msg.length) (.ofString ·)
      (· = splitting d) where
  starts := rfl
  frame b msg unit := by
    rintro rfl (created : DstreamBuilder.create _ msg = .ok unit) leftmost
    rw [DstreamBuilder.create, Except.ok.injEq] at created
    refine ⟨splitting d, rfl, fun tail => ?_⟩
    have found := Occurrence.find_append ((Occurrence.find_eq_some_iff d _ _).mpr leftmost) tail
    rw [← created, toNetworkString_ofString, turn_splitting_some delimited, found]
    simp

/-- Two connections that talk with a delimiter. -/
def dstreamChannel (τ : Type) (d : Bytes) : Channel τ DstreamBuilder :=
  .fresh { delimeter := d }

/-- The same for the delimiter protocol, for messages in which the delimiter first occurs where
it has been put. -/
theorem delimited_messages_arrive {τ : Type} [DecidableEq τ] {d : Bytes} (delimited : d ≠ [])
    {acts : List (ChannelAction τ)}
    (meets : Meets (Channel.step { delimeter := d })
      (Channel.Orderly fun msg => Occurrence.LeftmostAt d (msg ++ d) msg.length)
      (dstreamChannel τ d) acts) :
    ∀ ch, Visits (Channel.step { delimeter := d }) (dstreamChannel τ d) acts ch →
      ch.Delivers { delimeter := d } (.ofString ·) :=
  fun _ visited =>
    Channel.delivers_of_run (dstream_carries delimited) (dstream_stable delimited) rfl meets visited

private def cutDelimiter : List (ChannelAction Nat) :=
  [.post 1 [65, 13], .post 1 [66], .take 1, .asyncWrite 1, .complete 7, .read 3, .read 1, .read 3]

/-- A line that ends in the first half of the delimiter; the reads cut both delimiters. -/
theorem delimited_messages_arrive_cut :
    ∃ ch : Channel Nat DstreamBuilder,
      run (Channel.step { delimeter := [13, 10] }) (dstreamChannel Nat [13, 10]) cutDelimiter =
        some ch ∧
      ch.receiver.delivered.map NetUnit.toNetworkString = [[65, 13], [66]] ∧
      ch.Delivers { delimeter := [13, 10] } (.ofString ·) := by
  have meets : Meets (Channel.step { delimeter := [13, 10] })
      (Channel.Orderly fun msg => Occurrence.LeftmostAt [13, 10] (msg ++ [13, 10]) msg.length)
      (dstreamChannel Nat [13, 10]) cutDelimiter := by decide +kernel
  have ran : (run (Channel.step { delimeter := [13, 10] }) (dstreamChannel Nat [13, 10])
      cutDelimiter).map (fun ch => ch.receiver.delivered.map NetUnit.toNetworkString) =
      some [[65, 13], [66]] := by decide +kernel
  obtain ⟨ch, is, seen⟩ := Option.map_eq_some_iff.mp ran
  exact ⟨ch, is, seen, delimited_messages_arrive (by decide) meets ch (visits_of_run is)⟩

end ServerLib.Network
