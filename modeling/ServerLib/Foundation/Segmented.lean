import Mathlib.Data.List.Basic

/-!
# Reading from a stream that arrives in pieces

A reader collects items in a buffer for as long as there is room for more; how much room there
is may depend on what the buffer holds. Each read brings the next piece, or as much of it as
there is room for, and what it leaves of the piece comes with the read after it.

The pieces are those of an arbitrary cut of the stream. `read_done` says how far into the stream
a reader gets: to the first end of a piece where there is no room any more, unless the room
has run out in the middle of a piece.
-/
namespace Segmented

variable {β : Type}

/-- The outcome of reading: the buffer, and the pieces still to come unless all were used up. -/
inductive Read (β : Type) where
  | done (buffer : List β) (rest : List (List β))
  | dry (buffer : List β)

def Read.buffer : Read β → List β
  | done buffer _ => buffer
  | dry buffer => buffer

def read (room : List β → Nat) (buffer : List β) : List (List β) → Read β
  | [] => if room buffer = 0 then .done buffer [] else .dry buffer
  | piece :: pieces =>
    if room buffer = 0 then .done buffer (piece :: pieces)
    else if piece.length ≤ room buffer then read room (buffer ++ piece) pieces
    else .done (buffer ++ piece.take (room buffer)) (piece.drop (room buffer) :: pieces)

/-- What is left of the pieces behind the first `n` items of the stream. -/
def dropItems : Nat → List (List β) → List (List β)
  | _, [] => []
  | 0, pieces => pieces
  | n + 1, piece :: pieces =>
    if piece.length ≤ n + 1 then dropItems (n + 1 - piece.length) pieces
    else piece.drop (n + 1) :: pieces

/-- A piece ends behind the first `n` items of the stream, or the stream begins there. -/
def EndsAt (pieces : List (List β)) (n : Nat) : Prop :=
  ∃ front back, pieces = front ++ back ∧ front.flatten.length = n

@[simp] theorem dropItems_zero (pieces : List (List β)) : dropItems 0 pieces = pieces := by
  cases pieces <;> rfl

theorem dropItems_cons {n : Nat} (positive : 0 < n) (piece : List β) (pieces : List (List β)) :
    dropItems n (piece :: pieces) =
      if piece.length ≤ n then dropItems (n - piece.length) pieces
      else piece.drop n :: pieces := by
  cases n with
  | zero => exact absurd positive (Nat.lt_irrefl 0)
  | succ n => rfl

theorem flatten_dropItems (n : Nat) (pieces : List (List β)) :
    (dropItems n pieces).flatten = pieces.flatten.drop n := by
  induction pieces generalizing n with
  | nil => simp [dropItems]
  | cons piece pieces ih =>
    rcases Nat.eq_zero_or_pos n with rfl | positive
    · simp
    · rw [dropItems_cons positive, List.flatten_cons, List.drop_append]
      split
      next whole => rw [ih, List.drop_eq_nil_of_le whole, List.nil_append]
      next part =>
        have inside : n - piece.length = 0 := by omega
        rw [List.flatten_cons, inside, List.drop_zero]

theorem dropItems_dropItems (m n : Nat) (pieces : List (List β)) :
    dropItems n (dropItems m pieces) = dropItems (m + n) pieces := by
  induction pieces generalizing m n with
  | nil => simp [dropItems]
  | cons piece pieces ih =>
    -- whether the first drop, and then whether both, get beyond the first piece
    rcases Nat.eq_zero_or_pos m with rfl | from_inside
    · rw [dropItems_zero, Nat.zero_add]
    · rw [dropItems_cons from_inside, dropItems_cons (Nat.add_pos_left from_inside n)]
      split
      next whole =>
        rw [ih, if_pos (Nat.le_trans whole (Nat.le_add_right m n)), Nat.sub_add_comm whole]
      next part =>
        rcases Nat.eq_zero_or_pos n with rfl | further
        · rw [dropItems_zero, Nat.add_zero, if_neg part]
        · rw [dropItems_cons further, List.length_drop, List.drop_drop]
          split
          next whole =>
            rw [if_pos (by omega), show n - (piece.length - m) = m + n - piece.length by omega]
          next more => rw [if_neg (by omega)]

/-! ### Ends of pieces -/

theorem EndsAt.zero (pieces : List (List β)) : EndsAt pieces 0 := ⟨[], pieces, rfl, rfl⟩

theorem EndsAt.length (pieces : List (List β)) : EndsAt pieces pieces.flatten.length :=
  ⟨pieces, [], (List.append_nil _).symm, rfl⟩

theorem EndsAt.le {pieces : List (List β)} {n : Nat} (ends : EndsAt pieces n) :
    n ≤ pieces.flatten.length := by
  obtain ⟨front, back, rfl, rfl⟩ := ends
  simp

theorem endsAt_cons_iff {piece : List β} {pieces : List (List β)} {n : Nat} :
    EndsAt (piece :: pieces) n ↔ n = 0 ∨ ∃ m, EndsAt pieces m ∧ n = piece.length + m := by
  constructor
  · rintro ⟨front, back, cut, rfl⟩
    cases front with
    | nil => exact .inl rfl
    | cons first front =>
      rw [List.cons_append, List.cons.injEq] at cut
      obtain ⟨rfl, rfl⟩ := cut
      exact .inr ⟨_, ⟨front, back, rfl, rfl⟩, by simp⟩
  · rintro (rfl | ⟨m, ⟨front, back, rfl, rfl⟩, rfl⟩)
    · exact .zero _
    · exact ⟨piece :: front, back, rfl, by simp⟩

/-- Behind the first `n` items the pieces end where they ended before. -/
theorem endsAt_dropItems_iff {n m : Nat} {pieces : List (List β)} (positive : 0 < m) :
    EndsAt (dropItems n pieces) m ↔ EndsAt pieces (n + m) := by
  induction pieces generalizing n with
  | nil =>
    have nothing : ∀ k, EndsAt ([] : List (List β)) k → k = 0 := fun k ends => by
      simpa using ends.le
    exact ⟨fun ends => absurd (nothing _ ends) (by omega),
      fun ends => absurd (nothing _ ends) (by omega)⟩
  | cons piece pieces ih =>
    rcases Nat.eq_zero_or_pos n with rfl | from_inside
    · simp
    · rw [dropItems_cons from_inside, endsAt_cons_iff]
      split
      next whole =>
        rw [ih]
        constructor
        · intro ends
          exact .inr ⟨_, ends, by omega⟩
        · rintro (none | ⟨k, ends, sum⟩)
          · omega
          · have same : n - piece.length + m = k := by omega
            rwa [same]
      next part =>
        rw [endsAt_cons_iff, List.length_drop]
        constructor
        · rintro (none | ⟨k, ends, sum⟩)
          · omega
          · exact .inr ⟨k, ends, by omega⟩
        · rintro (none | ⟨k, ends, sum⟩)
          · omega
          · exact .inr ⟨k, ends, by omega⟩

/-- Every item comes as a piece of its own. -/
def EndsEverywhere (pieces : List (List β)) : Prop :=
  ∀ n ≤ pieces.flatten.length, EndsAt pieces n

theorem flatten_singletons (stream : List β) :
    (stream.map fun item => [item]).flatten = stream := by
  induction stream with
  | nil => rfl
  | cons item stream ih => rw [List.map_cons, List.flatten_cons, ih, List.singleton_append]

theorem endsEverywhere_singletons (stream : List β) :
    EndsEverywhere (stream.map fun item => [item]) := by
  intro n inside
  rw [flatten_singletons] at inside
  refine ⟨(stream.take n).map fun item => [item], (stream.drop n).map fun item => [item], ?_, ?_⟩
  · rw [← List.map_append, List.take_append_drop]
  · rw [flatten_singletons, List.length_take_of_le inside]

theorem EndsEverywhere.dropItems {pieces : List (List β)} (everywhere : EndsEverywhere pieces)
    {n : Nat} (inside : n ≤ pieces.flatten.length) : EndsEverywhere (dropItems n pieces) := by
  intro m below
  rw [flatten_dropItems, List.length_drop] at below
  rcases Nat.eq_zero_or_pos m with rfl | positive
  · exact .zero _
  · exact (endsAt_dropItems_iff positive).mpr (everywhere (n + m) (by omega))

/-! ### How far a reader gets -/

variable {room : List β → Nat}

/-- The reader has taken `n` items from the front of the stream. At no end of a piece before that
there was no room; and it stops where a piece ends, or where it has used up the room of some
position before. -/
structure StopsBehind (room : List β → Nat) (buffer : List β) (pieces : List (List β))
    (result : List β) (rest : List (List β)) (n : Nat) : Prop where
  bound : n ≤ pieces.flatten.length
  taken : result = buffer ++ pieces.flatten.take n
  left : rest = dropItems n pieces
  before : ∀ m < n, EndsAt pieces m → room (buffer ++ pieces.flatten.take m) ≠ 0
  stops : (EndsAt pieces n ∧ room result = 0) ∨
    ∃ m < n, EndsAt pieces m ∧ room (buffer ++ pieces.flatten.take m) = n - m

theorem stopsBehind_zero {buffer : List β} (filled : room buffer = 0) (pieces : List (List β)) :
    StopsBehind room buffer pieces buffer pieces 0 where
  bound := Nat.zero_le _
  taken := by simp
  left := by cases pieces <;> simp
  before m below := absurd below (Nat.not_lt_zero m)
  stops := .inl ⟨.zero _, filled⟩

/-- The room of the start runs out within the first piece. -/
theorem stopsBehind_part {buffer piece : List β} (open_ : room buffer ≠ 0)
    (part : ¬ piece.length ≤ room buffer) (pieces : List (List β)) :
    StopsBehind room buffer (piece :: pieces) (buffer ++ piece.take (room buffer))
      (piece.drop (room buffer) :: pieces) (room buffer) := by
  have positive : 0 < room buffer := Nat.pos_of_ne_zero open_
  refine ⟨?_, ?_, ?_, ?_, .inr ⟨0, positive, .zero _, by simp⟩⟩
  · rw [List.flatten_cons, List.length_append]
    omega
  · rw [List.flatten_cons, List.take_append_of_le_length (by omega)]
  · rw [dropItems_cons positive, if_neg part]
  · intro m below ends
    rcases endsAt_cons_iff.mp ends with rfl | ⟨k, -, rfl⟩
    · simpa using open_
    · omega

/-- A position behind the first piece, seen from the start of it. -/
theorem StopsBehind.cons {buffer piece result : List β} {pieces rest : List (List β)} {n : Nat}
    (stopped : StopsBehind room (buffer ++ piece) pieces result rest n) (open_ : room buffer ≠ 0)
    (some_read : piece.length + n ≠ 0) :
    StopsBehind room buffer (piece :: pieces) result rest (piece.length + n) := by
  obtain ⟨bound, rfl, rfl, before, stops⟩ := stopped
  have shift : ∀ m, (piece :: pieces).flatten.take (piece.length + m) =
      piece ++ pieces.flatten.take m := fun m => by
    rw [List.flatten_cons, List.take_length_add_append]
  refine ⟨?_, ?_, ?_, ?_, ?_⟩
  · rw [List.flatten_cons, List.length_append]
    omega
  · rw [shift, List.append_assoc]
  · rw [dropItems_cons (by omega), if_pos (by omega), Nat.add_sub_cancel_left]
  · intro m below ends
    rcases endsAt_cons_iff.mp ends with rfl | ⟨k, later, rfl⟩
    · simpa using open_
    · rw [shift, ← List.append_assoc]
      exact before k (by omega) later
  · rcases stops with ⟨ends, filled⟩ | ⟨m, below, ends, exhausted⟩
    · exact .inl ⟨endsAt_cons_iff.mpr (.inr ⟨n, ends, rfl⟩), filled⟩
    · refine .inr ⟨piece.length + m, by omega, endsAt_cons_iff.mpr (.inr ⟨m, ends, rfl⟩), ?_⟩
      rw [shift, ← List.append_assoc, exhausted]
      omega

theorem read_done {buffer result : List β} {pieces rest : List (List β)}
    (returned : read room buffer pieces = .done result rest) :
    ∃ n, StopsBehind room buffer pieces result rest n := by
  induction pieces generalizing buffer with
  | nil =>
    simp only [read] at returned
    split at returned
    next filled =>
      cases returned
      exact ⟨0, stopsBehind_zero filled []⟩
    · cases returned
  | cons piece pieces ih =>
    simp only [read] at returned
    split at returned
    next filled =>
      cases returned
      exact ⟨0, stopsBehind_zero filled _⟩
    next open_ =>
      split at returned
      next whole =>
        obtain ⟨n, stopped⟩ := ih returned
        by_cases nothing : piece.length + n = 0
        · -- an empty piece, and nothing behind it: there was room, so the reader went on
          have none_read : piece = [] := List.eq_nil_of_length_eq_zero (by omega)
          have at_start : n = 0 := by omega
          subst none_read at_start
          rcases stopped.stops with ⟨-, filled⟩ | ⟨m, below, -⟩
          · rw [stopped.taken] at filled
            exact absurd filled (by simpa using open_)
          · exact absurd below (Nat.not_lt_zero m)
        · exact ⟨piece.length + n, stopped.cons open_ nothing⟩
      next part =>
        cases returned
        exact ⟨room buffer, stopsBehind_part open_ part pieces⟩

/-- A reader that runs dry has taken the whole stream, with room left at every end of a piece. -/
theorem read_dry {buffer result : List β} {pieces : List (List β)}
    (returned : read room buffer pieces = .dry result) :
    result = buffer ++ pieces.flatten ∧
      ∀ m, EndsAt pieces m → room (buffer ++ pieces.flatten.take m) ≠ 0 := by
  induction pieces generalizing buffer with
  | nil =>
    simp only [read] at returned
    split at returned
    · cases returned
    next open_ =>
      cases returned
      exact ⟨by simp, fun m _ => by simpa using open_⟩
  | cons piece pieces ih =>
    simp only [read] at returned
    split at returned
    · cases returned
    next open_ =>
      split at returned
      · obtain ⟨rfl, before⟩ := ih returned
        refine ⟨by simp, fun m ends => ?_⟩
        rcases endsAt_cons_iff.mp ends with rfl | ⟨k, later, rfl⟩
        · simpa using open_
        · rw [List.flatten_cons, List.take_length_add_append, ← List.append_assoc]
          exact before k later
      · cases returned

/-- Where filling the room leaves no more of it, a reader only stops without room. -/
theorem room_of_done (fills : ∀ x y, y.length = room x → room (x ++ y) = 0)
    {buffer result : List β} {pieces rest : List (List β)}
    (returned : read room buffer pieces = .done result rest) : room result = 0 := by
  obtain ⟨n, bound, rfl, -, -, ⟨-, filled⟩ | ⟨m, below, -, exhausted⟩⟩ := read_done returned
  · exact filled
  · -- the items since the last end of a piece have filled the room that was there
    have parts : pieces.flatten.take n =
        pieces.flatten.take m ++ (pieces.flatten.drop m).take (n - m) := by
      rw [← List.take_add, Nat.add_sub_cancel' (Nat.le_of_lt below)]
    rw [parts, ← List.append_assoc]
    apply fills
    rw [exhausted, List.length_take, List.length_drop]
    omega

/-- Where there is never more room than up to a limit, the buffer stays within it. -/
theorem length_buffer_le {limit : Nat} (bounded : ∀ x, room x ≤ limit - x.length)
    {buffer : List β} (fits : buffer.length ≤ limit) (pieces : List (List β)) :
    (read room buffer pieces).buffer.length ≤ limit := by
  induction pieces generalizing buffer with
  | nil =>
    simp only [read]
    split <;> exact fits
  | cons piece pieces ih =>
    have here := bounded buffer
    simp only [read]
    split
    · exact fits
    · split
      · exact ih (by rw [List.length_append]; omega)
      · simp only [Read.buffer, List.length_append, List.length_take]
        omega

end Segmented
