import ServerLib.Network.FeedProgress
import ServerLib.Network.MsgFrames

/-!
# After a refused header

A message builder that refuses a header keeps it as if it had been accepted, and the size of the
body before it. What is received next is taken for a body of that size: once there are that many
characters, and at least one, a unit is built from them.
-/
namespace ServerLib.Network

open Incremental

variable [WideShift] {maxSize : Nat}

/-- No further data adds a unit to the queue. -/
def StaysRejected (m : UnitBuilderManager MsgBuilder) : Prop :=
  ∀ chunks errors m', m.feedEach chunks = some (errors, m') →
    m'.availableReplies = m.availableReplies

/-- A drain that fails ends in front of a body of some size. -/
theorem collecting_of_drains {b : MsgBuilder} {buffer : Bytes}
    {r : Drained MsgBuilder LogicError NetUnit UInt8} (drained : Drains turn b buffer r)
    (kept : Kept maxSize b) (failed : r.error ≠ none) :
    ∃ sz size, r.state = .collecting maxSize sz size [] := by
  induction drained with
  | wait turned => exact absurd rfl failed
  | fail turned => exact kept.fail_collecting turned
  | emit turned _ ih =>
    obtain ⟨size, rfl⟩ := kept.emit_idle turned
    exact ih (.idle size) failed

/-- A body that has enough characters becomes a unit, whatever follows it. -/
theorem drains_of_enough (sz : UInt32) {size : Nat} {buffer : Bytes} (occupied : buffer ≠ [])
    (enough : size ≤ buffer.length) :
    ∃ r, Drains turn (MsgBuilder.collecting maxSize sz size []) buffer r ∧
      r.items ≠ [] ∧ r.items.length ≤ buffer.length + 1 := by
  have turned : turn (MsgBuilder.collecting maxSize sz size []) buffer =
      .emit (MsgBuilder.bodyUnit (buffer.take size)) (.idle maxSize size) (buffer.drop size) := by
    rw [turn_collecting (Nat.zero_le size) occupied, bodyTurn, List.length_nil, Nat.zero_add,
      if_neg (Nat.not_lt.mpr enough)]
    rfl
  obtain ⟨r, tail, bound⟩ := (msg_productive maxSize).drains_exists (.idle maxSize size)
    (buffer.drop size) ⟨.idle size, not_stale_idle size⟩
  refine ⟨_, .emit turned tail, List.cons_ne_nil _ _, ?_⟩
  rw [List.length_drop] at bound
  simp only [Drained.prepend_items, List.length_append, List.length_singleton]
  omega

/-- Whatever the maximum, the messages before and the refused header are. -/
theorem rejected_builds_again {m m' : UnitBuilderManager MsgBuilder} {data : Bytes}
    (reached : Reachable (MsgBuilder.mk maxSize false {} {}) m)
    (thrown : m.feed data = some (.thrown ⟨"sz <= _msg_max_size", ""⟩ m')) :
    ¬ StaysRejected m' := by
  obtain ⟨r, drained, settled⟩ := (buildLoop_iff (m.append data) _).mp ⟨_, thrown⟩
  have failed : r.error ≠ none := by
    intro waits
    simp [settle, waits] at settled
  have kept : Kept maxSize m.builder := kept_of_reachable reached
  obtain ⟨sz, size, state⟩ := collecting_of_drains drained kept failed
  have left : (settle (m.append data).availableReplies r).state = m' := by
    rw [settled]
    rfl
  have builder : m'.builder = .collecting maxSize sz size [] := by
    rw [← left, settle_state, ← state]
  -- as many characters as the body before had, and one more so that there is something to read
  let more : Bytes := List.replicate (size + 1) 0
  have occupied : m'.buffer ++ more ≠ [] := by simp [more]
  have enough : size ≤ (m'.buffer ++ more).length := by
    rw [List.length_append, List.length_replicate]
    omega
  obtain ⟨q, again, some_unit, bound⟩ := @drains_of_enough _ maxSize sz size _ occupied enough
  rw [← builder] at again
  have fed := feed_of_drains m' more again bound
  intro stays
  have same := stays [more] _ _ (by rw [UnitBuilderManager.feedEach, fed]; rfl)
  rw [settle_state] at same
  exact some_unit (List.append_right_eq_self.mp same)

omit [WideShift] in
private theorem feed_message :
    letI := moduloShift
    (freshMsg 3).feed [3, 65, 66, 67] =
      some (.returned ⟨[], .idle 3 3, [.ofString [65, 66, 67]]⟩) := rfl

omit [WideShift] in
private theorem feed_refused :
    letI := moduloShift
    UnitBuilderManager.feed ⟨[], MsgBuilder.idle 3 3, [.ofString [65, 66, 67]]⟩ [9] =
      some (.thrown ⟨"sz <= _msg_max_size", ""⟩
        ⟨[], .collecting 3 9 3 [], [.ofString [65, 66, 67]]⟩) := rfl

omit [WideShift] in
/-- A message of three characters is received, and a header that announces nine is refused. -/
theorem rejected_builds_again_behind_message :
    letI := moduloShift
    ∃ m m' : UnitBuilderManager MsgBuilder,
      (freshMsg 3).feed [3, 65, 66, 67] = some (.returned m) ∧
      m.feed [9] = some (.thrown ⟨"sz <= _msg_max_size", ""⟩ m') ∧ ¬ StaysRejected m' := by
  let _ := moduloShift
  have start : Reachable (MsgBuilder.mk 3 false {} {}) (freshMsg 3) := .fresh
  exact ⟨_, _, feed_message, feed_refused,
    rejected_builds_again (start.fed feed_message) feed_refused⟩

omit [WideShift] in
/-- What follows the refused header is received as a second message of one character. -/
theorem refused_message_received :
    letI := moduloShift
    ∃ m' : UnitBuilderManager MsgBuilder,
      (freshMsg 1).feed [1, 65, 2] = some (.thrown ⟨"sz <= _msg_max_size", ""⟩ m') ∧
      ¬ StaysRejected m' := by
  let _ := moduloShift
  refine ⟨_, rfl, fun stays => ?_⟩
  have same : [NetUnit.ofString [65], .ofString [66]] = [.ofString [65]] :=
    stays [[66]] [none] _ rfl
  cases same

end ServerLib.Network
