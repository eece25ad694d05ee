import ServerLib.Foundation.Transition
import ServerLib.Network.Unit

/-!
# The send side of a connection

`post` appends a unit to the send buffer and `commit` moves the buffer out, both under the
lock; `commit` then hands what it has taken to `async_write` without the lock. The socket
serves the writes in the order of the calls and accepts some of the bytes of each. Nobody
looks at how many: the write has no callback, and the rest of the buffer is dropped.

So the stream is what was posted as long as every write is accepted whole and the buffers
are written in the order they were taken.

The buffer of a write dies when `commit` returns. What is written here is what was taken, as it is
where the kernel takes the bytes within `async_write_some`; a write that has to wait reads freed
memory instead, and what becomes of it is not described.
-/
namespace ServerLib.Network

open Transition

/-- A connection as far as sending goes, used by threads `τ`. `taken` holds the buffers that a
`commit` has moved out and not handed on yet, the oldest first; `writes` the outstanding writes;
`stream` what the socket has accepted; `posted` the units in the order they were appended. -/
structure Sender (τ : Type) where
  sendBuffer : Bytes := []
  taken : List (τ × Bytes) := []
  writes : List Bytes := []
  stream : Bytes := []
  posted : List NetUnit := []

/-- The locked section of `post`, the two halves of `commit`, and a write that is completed
with `transferred` bytes. -/
inductive SendAction (τ : Type) where
  | post (thread : τ) (unit : NetUnit)
  | take (thread : τ)
  | asyncWrite (thread : τ)
  | complete (transferred : Nat)

namespace Sender

variable {τ : Type} [DecidableEq τ]

/-- A thread inside `commit` does nothing else before it is done. -/
def idle (s : Sender τ) (thread : τ) : Bool := s.taken.all (·.1 ≠ thread)

/-- The buffers taken before the one that `thread` is about to write. -/
def older (s : Sender τ) (thread : τ) : List (τ × Bytes) := s.taken.takeWhile (·.1 ≠ thread)

/-- The buffer that `thread` is about to write, and those taken after it. -/
def own (s : Sender τ) (thread : τ) : List (τ × Bytes) := s.taken.dropWhile (·.1 ≠ thread)

def step (s : Sender τ) : SendAction τ → Option (Sender τ)
  | .post thread unit =>
    if s.idle thread then
      some
        { s with
          sendBuffer := s.sendBuffer ++ unit.toNetworkString
          posted := s.posted ++ [unit] }
    else none
  | .take thread =>
    if s.idle thread then
      some { s with taken := s.taken ++ [(thread, s.sendBuffer)], sendBuffer := [] }
    else none
  | .asyncWrite thread =>
    match s.own thread with
    | [] => none
    | (_, buffer) :: newer =>
      -- an empty buffer fails the assertion in front of the write, and `commit` catches that
      some
        { s with
          taken := s.older thread ++ newer
          writes := if buffer = [] then s.writes else s.writes ++ [buffer] }
  | .complete transferred =>
    match s.writes with
    | [] => none
    | buffer :: writes =>
      -- the handler runs without a callback: what was not accepted is not written again
      if 1 ≤ transferred ∧ transferred ≤ buffer.length then
        some { s with writes, stream := s.stream ++ buffer.take transferred }
      else none

/-- Everything posted is committed, and every write is completed. -/
def Quiet (s : Sender τ) : Prop := s.sendBuffer = [] ∧ s.taken = [] ∧ s.writes = []

omit [DecidableEq τ] in
/-- Once all is quiet the stream is what was posted. -/
def SentAsPosted (s : Sender τ) : Prop :=
  s.Quiet → s.stream = s.posted.flatMap NetUnit.toNetworkString

/-- A write is accepted whole, and nothing that was taken earlier is still to be written. -/
def WholeInOrder (s : Sender τ) : SendAction τ → Prop
  | .post _ _ => True
  | .take _ => True
  | .asyncWrite thread =>
    (∀ entry ∈ s.older thread, entry.2 = []) ∨ ∀ entry ∈ (s.own thread).head?, entry.2 = []
  | .complete transferred => ∀ buffer ∈ s.writes.head?, transferred = buffer.length

instance (s : Sender τ) : (a : SendAction τ) → Decidable (s.WholeInOrder a)
  | .post _ _ => inferInstanceAs (Decidable True)
  | .take _ => inferInstanceAs (Decidable True)
  | .asyncWrite thread =>
    inferInstanceAs (Decidable ((∀ entry ∈ s.older thread, entry.2 = []) ∨
      ∀ entry ∈ (s.own thread).head?, entry.2 = []))
  | .complete transferred =>
    inferInstanceAs (Decidable (∀ buffer ∈ s.writes.head?, transferred = buffer.length))

/-- Every byte posted is in exactly one place, and the places are in order. -/
def InPlace (s : Sender τ) : Prop :=
  s.stream ++ s.writes.flatten ++ s.taken.flatMap Prod.snd ++ s.sendBuffer =
    s.posted.flatMap NetUnit.toNetworkString

theorem inPlace_step (s : Sender τ) (a : SendAction τ) (s' : Sender τ) (valid : s.InPlace)
    (meets : s.WholeInOrder a) (stepped : s.step a = some s') : s'.InPlace := by
  unfold InPlace at valid ⊢
  cases a with
  | post thread unit =>
    simp only [step, Option.ite_none_right_eq_some, Option.some.injEq] at stepped
    obtain ⟨-, rfl⟩ := stepped
    simp only [List.flatMap_append, List.flatMap_singleton, ← valid, List.append_assoc]
  | take thread =>
    simp only [step, Option.ite_none_right_eq_some, Option.some.injEq] at stepped
    obtain ⟨-, rfl⟩ := stepped
    simp only [List.flatMap_append, List.flatMap_singleton, List.append_nil]
    rw [← List.append_assoc]
    exact valid
  | asyncWrite thread =>
    -- the written buffer jumps over those taken before it, which are empty or it is
    have split : s.older thread ++ s.own thread = s.taken := List.takeWhile_append_dropWhile
    simp only [step] at stepped
    cases own : s.own thread with
    | nil => simp [own] at stepped
    | cons entry newer =>
      obtain ⟨writer, buffer⟩ := entry
      simp only [own, Option.some.injEq] at stepped
      subst stepped
      rw [own] at split
      rw [← split] at valid
      simp only [List.flatMap_append, List.flatMap_cons] at valid ⊢
      by_cases empty : buffer = []
      · rw [empty, List.nil_append] at valid
        rw [if_pos empty]
        exact valid
      · have first : (s.older thread).flatMap Prod.snd = [] := by
          rcases meets with before | nothing
          · exact List.flatMap_eq_nil_iff.mpr before
          · exact absurd (nothing (writer, buffer) (by simp [own])) empty
        rw [first, List.nil_append] at valid ⊢
        simp only [if_neg empty, List.flatten_append, List.flatten_singleton]
        simp only [List.append_assoc] at valid ⊢
        exact valid
  | complete transferred =>
    simp only [step] at stepped
    cases outstanding : s.writes with
    | nil => simp [outstanding] at stepped
    | cons buffer writes =>
      simp only [outstanding, Option.ite_none_right_eq_some, Option.some.injEq] at stepped
      obtain ⟨-, rfl⟩ := stepped
      have whole : transferred = buffer.length := meets buffer (by simp [outstanding])
      rw [outstanding, List.flatten_cons] at valid
      simp only [whole, List.take_length, List.append_assoc] at valid ⊢
      exact valid

/-- Whatever threads post and commit, and whenever their buffers are written: as long as every
write is accepted whole and in the order of the commits, no byte is lost, doubled or moved. -/
theorem sent_as_posted {acts : List (SendAction τ)}
    (meets : Meets step WholeInOrder ({} : Sender τ) acts) :
    ∀ s, Visits step {} acts s → s.SentAsPosted := by
  intro s visited quiet
  have placed : s.InPlace := visits_invariant inPlace_step (by simp [InPlace]) meets visited
  obtain ⟨buffered, taken, writes⟩ := quiet
  simpa [InPlace, buffered, taken, writes] using placed

private def twoCommits : List (SendAction Nat) :=
  [.post 1 (.ofString [97, 98]), .take 1, .post 2 (.ofString [99]), .take 2,
    .asyncWrite 1, .asyncWrite 2, .complete 2, .complete 1]

/-- Two threads post and commit one unit each; both have taken their buffers before the first
of them is written. -/
theorem sent_as_posted_two :
    ∃ s, run step {} twoCommits = some s ∧ s.Quiet ∧ s.SentAsPosted := by
  have meets : Meets step WholeInOrder {} twoCommits := by decide
  exact ⟨_, rfl, ⟨rfl, rfl, rfl⟩, sent_as_posted meets _ (visits_of_run rfl)⟩

/-- A write that is accepted in part loses the rest; two commits written the other way round
change places, even if both are accepted whole. -/
theorem not_sent_as_posted :
    (∃ s : Sender Nat,
      run step {} [.post 1 (.ofString [97, 98]), .take 1, .asyncWrite 1, .complete 1] = some s ∧
        ¬ s.SentAsPosted) ∧
    ∃ s : Sender Nat,
      run step {} [.post 1 (.ofString [97]), .take 1, .post 2 (.ofString [98]), .take 2,
        .asyncWrite 2, .asyncWrite 1, .complete 1, .complete 1] = some s ∧ ¬ s.SentAsPosted := by
  refine ⟨⟨_, rfl, fun sent => ?_⟩, ⟨_, rfl, fun sent => ?_⟩⟩
  · exact absurd (sent ⟨rfl, rfl, rfl⟩) (by decide)
  · exact absurd (sent ⟨rfl, rfl, rfl⟩) (by decide)

end Sender

end ServerLib.Network
