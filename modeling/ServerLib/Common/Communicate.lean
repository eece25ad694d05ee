import Mathlib.Algebra.Ring.Nat
import ServerLib.Foundation.Exhaustion

/-!
# `spawn::communicate`

The input is written into the pipe that the child reads from, that pipe is closed, and the child
is waited for. Nobody reads what the child writes in the meantime, so it stays in the pipes behind
`stdout` and `stderr`, and these do not take more than the system gives them.

The input goes into the pipe in pieces, each of them at once: a small one is not split, and into
which pieces the system splits a larger one is left open. A child moves its pipes on by one byte in
a step. It closes its ends when it exits, and `waitpid` is not interrupted. What the caller does
with `SIGPIPE` and what it has let other children inherit is a setting of the model: `spawn` itself
leaves the signal alone, and its pipes are not closed in the children that are made later.
-/
namespace ServerLib

open Transition

/-- The ends of a child's pipes. -/
inductive ChildPipe where
  | stdin | stdout | stderr
  deriving DecidableEq, Repr

/-- What a child does with so many bytes. A read ends before that at the end of the input. -/
structure ChildOperation where
  pipe : ChildPipe
  bytes : Nat
  deriving DecidableEq, Repr

/-- What is given to a call: the size of a pipe, whether the caller ignores `SIGPIPE`, and whether a
process that lives on has inherited the end of the pipe that the input is written to. -/
structure CommunicateSetting where
  capacity : Nat
  ignoresSigpipe : Bool
  inherited : Bool
  deriving DecidableEq, Repr

/-- A call of `communicate`: the pieces of the input that are not written, the bytes in the pipes,
and what the child has still to do. `killed` once `SIGPIPE` has ended the caller. -/
structure Communication where
  unsent : List Nat
  stdin : Nat := 0
  stdout : Nat := 0
  stderr : Nat := 0
  child : List ChildOperation
  closed : Bool := false
  returned : Bool := false
  killed : Bool := false
  deriving DecidableEq, Repr

inductive CommunicateAction where
  /-- a piece of the input is written -/
  | write
  /-- the write fails, since the child has exited -/
  | fail
  | sendEof
  /-- `waitpid` returns -/
  | wait
  | child
  deriving DecidableEq, Repr

namespace Communication

/-- The next byte of the child. -/
def childStep (setting : CommunicateSetting) (s : Communication) : Option Communication :=
  match s.child with
  | [] => none
  | ⟨_, 0⟩ :: rest => some { s with child := rest }
  | ⟨.stdin, bytes + 1⟩ :: rest =>
    if 0 < s.stdin then some { s with stdin := s.stdin - 1, child := ⟨.stdin, bytes⟩ :: rest }
    else if s.closed = true ∧ setting.inherited = false then some { s with child := rest }
    else none
  | ⟨.stdout, bytes + 1⟩ :: rest =>
    if s.stdout < setting.capacity then
      some { s with stdout := s.stdout + 1, child := ⟨.stdout, bytes⟩ :: rest }
    else none
  | ⟨.stderr, bytes + 1⟩ :: rest =>
    if s.stderr < setting.capacity then
      some { s with stderr := s.stderr + 1, child := ⟨.stderr, bytes⟩ :: rest }
    else none

def step (setting : CommunicateSetting) (s : Communication) :
    CommunicateAction → Option Communication
  | .write =>
    match s.unsent with
    | piece :: unsent =>
      if s.killed = false ∧ s.stdin + piece ≤ setting.capacity ∧ s.child ≠ [] then
        some { s with unsent, stdin := s.stdin + piece }
      else none
    | [] => none
  | .fail =>
    if s.killed = false ∧ s.unsent ≠ [] ∧ s.child = [] then
      -- `EPIPE` ends the writing; the signal would end the process
      some (if setting.ignoresSigpipe then { s with unsent := [] } else { s with killed := true })
    else none
  | .sendEof =>
    if s.killed = false ∧ s.unsent = [] ∧ s.closed = false then some { s with closed := true }
    else none
  | .wait =>
    if s.killed = false ∧ s.closed = true ∧ s.child = [] ∧ s.returned = false then
      some { s with returned := true }
    else none
  | .child => s.childStep setting

/-- What the next byte of a child can be. -/
inductive ChildSteps (setting : CommunicateSetting) (s : Communication) : Communication → Prop where
  | finish {pipe : ChildPipe} {rest : List ChildOperation} (here : s.child = ⟨pipe, 0⟩ :: rest) :
      ChildSteps setting s { s with child := rest }
  | take {bytes : Nat} {rest : List ChildOperation} (here : s.child = ⟨.stdin, bytes + 1⟩ :: rest)
      (some_ : 0 < s.stdin) :
      ChildSteps setting s { s with stdin := s.stdin - 1, child := ⟨.stdin, bytes⟩ :: rest }
  | atEnd {bytes : Nat} {rest : List ChildOperation}
      (here : s.child = ⟨.stdin, bytes + 1⟩ :: rest) (ends : s.closed = true)
      (own : setting.inherited = false) : ChildSteps setting s { s with child := rest }
  | out {bytes : Nat} {rest : List ChildOperation} (here : s.child = ⟨.stdout, bytes + 1⟩ :: rest)
      (room : s.stdout < setting.capacity) :
      ChildSteps setting s { s with stdout := s.stdout + 1, child := ⟨.stdout, bytes⟩ :: rest }
  | err {bytes : Nat} {rest : List ChildOperation} (here : s.child = ⟨.stderr, bytes + 1⟩ :: rest)
      (room : s.stderr < setting.capacity) :
      ChildSteps setting s { s with stderr := s.stderr + 1, child := ⟨.stderr, bytes⟩ :: rest }

variable {setting : CommunicateSetting} {s s' : Communication}

theorem childSteps_of_childStep (stepped : s.childStep setting = some s') :
    ChildSteps setting s s' := by
  unfold childStep at stepped
  split at stepped
  · cases stepped
  next here =>
    rw [← Option.some.inj stepped]
    exact .finish here
  next here =>
    split at stepped
    next some_ =>
      rw [← Option.some.inj stepped]
      exact .take here some_
    · rw [Option.ite_none_right_eq_some] at stepped
      rw [← Option.some.inj stepped.2]
      exact .atEnd here stepped.1.1 stepped.1.2
  next here =>
    rw [Option.ite_none_right_eq_some] at stepped
    rw [← Option.some.inj stepped.2]
    exact .out here stepped.1
  next here =>
    rw [Option.ite_none_right_eq_some] at stepped
    rw [← Option.some.inj stepped.2]
    exact .err here stepped.1

theorem write_eq_some (stepped : s.step setting .write = some s') :
    ∃ piece unsent, s.unsent = piece :: unsent ∧ s.stdin + piece ≤ setting.capacity ∧
      s' = { s with unsent, stdin := s.stdin + piece } := by
  simp only [step] at stepped
  split at stepped
  next piece unsent some_ =>
    simp only [Option.ite_none_right_eq_some, Option.some.injEq] at stepped
    obtain ⟨⟨-, room, -⟩, rfl⟩ := stepped
    exact ⟨piece, unsent, some_, room, rfl⟩
  · cases stepped

/-! ### What is used up, and what is not -/

/-- Bytes that are written and bytes that are read, and an end for each piece and each operation,
for each of the two last steps and for the caller. -/
def work (s : Communication) : Nat :=
  (s.unsent.map fun piece => 2 * piece + 1).sum + s.stdin + (!s.closed).toNat +
    (!s.returned).toNat + (!s.killed).toNat + (s.child.map fun operation => operation.bytes + 1).sum

theorem uses_work : Uses (step setting) work := by
  intro s a s' stepped
  cases a with
  | write =>
    obtain ⟨piece, unsent, some_, -, rfl⟩ := write_eq_some stepped
    simp only [work, some_, List.map_cons, List.sum_cons]
    omega
  | fail =>
    simp only [step, Option.ite_none_right_eq_some, Option.some.injEq] at stepped
    obtain ⟨⟨lives, some_, -⟩, rfl⟩ := stepped
    split
    -- the input is given up, or the caller is gone
    · obtain ⟨piece, unsent, is⟩ := List.exists_cons_of_ne_nil some_
      simp only [work, is, List.map_cons, List.sum_cons, List.map_nil, List.sum_nil]
      omega
    · simp [work, lives]
  | sendEof =>
    simp only [step, Option.ite_none_right_eq_some, Option.some.injEq] at stepped
    obtain ⟨⟨-, -, open_⟩, rfl⟩ := stepped
    simp only [work, open_, Bool.not_false, Bool.not_true, Bool.toNat_true, Bool.toNat_false]
    omega
  | wait =>
    simp only [step, Option.ite_none_right_eq_some, Option.some.injEq] at stepped
    obtain ⟨⟨-, -, -, waits⟩, rfl⟩ := stepped
    simp only [work, waits, Bool.not_false, Bool.not_true, Bool.toNat_true, Bool.toNat_false]
    omega
  | child =>
    cases childSteps_of_childStep stepped with
    | finish here | atEnd here | take here | out here | err here =>
      simp only [work, here, List.map_cons, List.sum_cons]
      omega

/-- What a child has still to write into a pipe, or to read from it. -/
def moved (pipe : ChildPipe) (child : List ChildOperation) : Nat :=
  (child.map fun operation => if operation.pipe = pipe then operation.bytes else 0).sum

/-- What the child writes, before and from now on, goes into the pipes. -/
def FitsPipes (capacity : Nat) (s : Communication) : Prop :=
  s.stdout + moved .stdout s.child ≤ capacity ∧ s.stderr + moved .stderr s.child ≤ capacity

/-- The child does not wait for an end of the input that another process keeps from it. -/
def EndsReading (setting : CommunicateSetting) (s : Communication) : Prop :=
  setting.inherited = false ∨ moved .stdin s.child ≤ s.unsent.sum + s.stdin

/-- The caller survives a child that exits early, or the child reads some of the last piece. -/
def Survives (setting : CommunicateSetting) (s : Communication) : Prop :=
  setting.ignoresSigpipe = true ∨ s.unsent = [] ∨
    s.unsent.dropLast.sum + s.stdin < moved .stdin s.child

instance FitsPipes.decidable (capacity : Nat) (s : Communication) :
    Decidable (s.FitsPipes capacity) :=
  inferInstanceAs (Decidable (_ ∧ _))

instance EndsReading.decidable (setting : CommunicateSetting) (s : Communication) :
    Decidable (s.EndsReading setting) :=
  inferInstanceAs (Decidable (_ ∨ _))

instance Survives.decidable (setting : CommunicateSetting) (s : Communication) :
    Decidable (s.Survives setting) :=
  inferInstanceAs (Decidable (_ ∨ _ ∨ _))

theorem fitsPipes_step (s : Communication) (a : CommunicateAction) (s' : Communication)
    (stepped : s.step setting a = some s') :
    s'.FitsPipes setting.capacity ↔ s.FitsPipes setting.capacity := by
  cases a with
  | child =>
    cases childSteps_of_childStep stepped with
    | finish here | atEnd here | take here | out here | err here =>
      simp [FitsPipes, moved, here]
      try omega
  | fail =>
    simp only [step, Option.ite_none_right_eq_some, Option.some.injEq] at stepped
    obtain ⟨-, rfl⟩ := stepped
    split
    · exact Iff.rfl
    · exact Iff.rfl
  | write =>
    obtain ⟨piece, unsent, -, -, rfl⟩ := write_eq_some stepped
    exact Iff.rfl
  | _ =>
    simp only [step, Option.ite_none_right_eq_some, Option.some.injEq] at stepped
    obtain ⟨-, rfl⟩ := stepped
    exact Iff.rfl

theorem endsReading_step (s : Communication) (a : CommunicateAction) (s' : Communication)
    (stepped : s.step setting a = some s') : s'.EndsReading setting ↔ s.EndsReading setting := by
  cases a with
  | child =>
    cases childSteps_of_childStep stepped with
    | atEnd here ends own => simp [EndsReading, own]
    | take here some_ =>
      apply or_congr Iff.rfl
      simp only [moved, here, List.map_cons, List.sum_cons, if_pos]
      omega
    | finish here | out here | err here => simp [EndsReading, moved, here]
  | fail =>
    simp only [step, Option.ite_none_right_eq_some, Option.some.injEq] at stepped
    obtain ⟨⟨-, -, exited⟩, rfl⟩ := stepped
    -- a child that has exited reads nothing
    split
    · simp [EndsReading, moved, exited]
    · simp [EndsReading, moved, exited]
  | write =>
    obtain ⟨piece, unsent, some_, -, rfl⟩ := write_eq_some stepped
    apply or_congr Iff.rfl
    rw [some_, List.sum_cons]
    dsimp only
    omega
  | _ =>
    simp only [step, Option.ite_none_right_eq_some, Option.some.injEq] at stepped
    obtain ⟨-, rfl⟩ := stepped
    exact Iff.rfl

/-- The pipes hold no more than they can, each piece of the input fits, the input is closed behind
its last one, and `communicate` has not returned before its child, nor after its caller. -/
structure Sound (setting : CommunicateSetting) (s : Communication) : Prop where
  stdout : s.stdout ≤ setting.capacity
  stderr : s.stderr ≤ setting.capacity
  pieces : ∀ piece ∈ s.unsent, 0 < piece ∧ piece ≤ setting.capacity
  closed : s.closed = true → s.unsent = []
  exited : s.returned = true → s.child = [] ∧ s.closed = true ∧ s.killed = false

theorem sound_step (s : Communication) (a : CommunicateAction) (s' : Communication)
    (sound : s.Sound setting) (stepped : s.step setting a = some s') : s'.Sound setting := by
  obtain ⟨stdout, stderr, pieces, closed, exited⟩ := sound
  cases a with
  | child =>
    -- the caller has not returned from a child that still goes on
    have running : s.child ≠ [] → s.returned = false := fun some_ =>
      Bool.eq_false_iff.mpr fun returned => some_ (exited returned).1
    cases childSteps_of_childStep stepped with
    | finish here | atEnd here | take here | out here | err here =>
      have waits := running (by rw [here]; exact List.cons_ne_nil _ _)
      refine ⟨?_, ?_, pieces, closed, fun returned => ?_⟩
      · assumption
      · assumption
      · rw [waits] at returned
        cases returned
  | write =>
    obtain ⟨piece, unsent, some_, -, rfl⟩ := write_eq_some stepped
    have open_ : s.closed ≠ true := fun ended => by
      rw [closed ended] at some_
      cases some_
    refine ⟨stdout, stderr, fun other member => ?_, fun ended => absurd ended open_, exited⟩
    exact pieces other (some_ ▸ List.mem_cons_of_mem piece member)
  | fail =>
    simp only [step, Option.ite_none_right_eq_some, Option.some.injEq] at stepped
    obtain ⟨⟨-, some_, -⟩, rfl⟩ := stepped
    -- with input left the pipe is open, so that `communicate` has not returned
    have open_ : s.closed ≠ true := fun ended => some_ (closed ended)
    have waits : s.returned ≠ true := fun returned => open_ (exited returned).2.1
    split
    · refine ⟨stdout, stderr, fun piece none_ => ?_, fun _ => rfl, fun returned => ?_⟩
      · cases none_
      · exact absurd returned waits
    · exact ⟨stdout, stderr, pieces, closed, fun returned => absurd returned waits⟩
  | sendEof =>
    simp only [step, Option.ite_none_right_eq_some, Option.some.injEq] at stepped
    obtain ⟨⟨-, all, -⟩, rfl⟩ := stepped
    exact ⟨stdout, stderr, pieces, fun _ => all, fun returned =>
      ⟨(exited returned).1, rfl, (exited returned).2.2⟩⟩
  | wait =>
    simp only [step, Option.ite_none_right_eq_some, Option.some.injEq] at stepped
    obtain ⟨⟨lives, ended, exited, -⟩, rfl⟩ := stepped
    exact ⟨stdout, stderr, pieces, closed, fun _ => ⟨exited, ended, lives⟩⟩

/-- The caller lives, and a child that exits will not end it. -/
structure Safe (setting : CommunicateSetting) (s : Communication) : Prop extends
    s.Sound setting where
  lives : s.killed = false
  survives : s.Survives setting

theorem safe_step (s : Communication) (a : CommunicateAction) (s' : Communication)
    (safe : s.Safe setting) (stepped : s.step setting a = some s') : s'.Safe setting := by
  have sound := sound_step s a s' safe.toSound stepped
  cases a with
  | child =>
    cases childSteps_of_childStep stepped with
    -- an end that the child sees is that of the whole input
    | atEnd here ends own => exact ⟨sound, safe.lives, .inr (.inl (safe.closed ends))⟩
    | finish here | out here | err here =>
      refine ⟨sound, safe.lives, ?_⟩
      simpa [Survives, moved, here] using safe.survives
    | take here some_ =>
      refine ⟨sound, safe.lives, ?_⟩
      refine Or.imp_right (Or.imp_right fun reads => ?_) safe.survives
      simp only [moved, here, List.map_cons, List.sum_cons, if_pos] at reads ⊢
      omega
  | write =>
    obtain ⟨piece, unsent, some_, -, rfl⟩ := write_eq_some stepped
    refine ⟨sound, safe.lives, ?_⟩
    rcases safe.survives with ignores | none_ | reads
    · exact .inl ignores
    · cases some_.symm.trans none_
    · -- it was the last piece, or the last one is still to come
      cases last : unsent with
      | nil => exact .inr (.inl rfl)
      | cons next more =>
        refine .inr (.inr ?_)
        rw [some_, last, List.dropLast_cons_cons, List.sum_cons] at reads
        dsimp only
        omega
  | fail =>
    simp only [step, Option.ite_none_right_eq_some, Option.some.injEq] at stepped
    obtain ⟨⟨-, some_, exited⟩, rfl⟩ := stepped
    rcases safe.survives with ignores | none_ | reads
    · rw [if_pos ignores] at sound ⊢
      exact ⟨sound, safe.lives, .inr (.inl rfl)⟩
    · exact absurd none_ some_
    · -- a child that has exited has nothing left to read
      rw [exited, moved, List.map_nil, List.sum_nil] at reads
      omega
  | sendEof | wait =>
    simp only [step, Option.ite_none_right_eq_some, Option.some.injEq] at stepped
    obtain ⟨-, rfl⟩ := stepped
    exact ⟨sound, safe.lives, safe.survives⟩

/-- Nothing stands in the way of the return. -/
structure Fine (setting : CommunicateSetting) (s : Communication) : Prop extends
    s.Safe setting where
  fits : s.FitsPipes setting.capacity
  endsReading : s.EndsReading setting

theorem fine_step (s : Communication) (a : CommunicateAction) (s' : Communication)
    (fine : s.Fine setting) (stepped : s.step setting a = some s') : s'.Fine setting :=
  ⟨safe_step s a s' fine.toSafe stepped, (fitsPipes_step s a s' stepped).mpr fine.fits,
    (endsReading_step s a s' stepped).mpr fine.endsReading⟩

theorem returned_of_stuck (fine : s.Fine setting) (stuck : Stuck (step setting) s) :
    s.returned = true := by
  have sendEof := stuck .sendEof
  have child := stuck .child
  simp only [step, fine.lives, true_and, ite_eq_right_iff, reduceCtorEq, imp_false, not_and,
    Bool.not_eq_false] at sendEof
  cases running : s.child with
  | nil =>
    have fail := stuck .fail
    have wait := stuck .wait
    simp only [step, fine.lives, running, and_true, true_and, ite_eq_right_iff, reduceCtorEq,
      imp_false, not_and, Bool.not_eq_false] at fail wait
    exact wait (sendEof (not_not.mp fail))
  | cons operation rest =>
    obtain ⟨pipe, bytes⟩ := operation
    cases bytes with
    | zero => simp [step, childStep, running] at child
    | succ bytes =>
      obtain ⟨out, err⟩ := fine.fits
      cases pipe with
      | stdin =>
        simp only [step, childStep, running] at child
        -- an empty pipe is filled, or it is closed and the child comes to its end
        have empty : s.stdin = 0 := by
          by_contra some_
          rw [if_pos (Nat.pos_of_ne_zero some_)] at child
          cases child
        have all : s.unsent = [] := by
          cases unsent : s.unsent with
          | nil => rfl
          | cons piece more =>
            have write := stuck .write
            have fits := (fine.pieces piece (by simp [unsent])).2
            simp [step, unsent, fine.lives, running, empty, fits] at write
        rw [empty] at child
        rcases fine.endsReading with own | enough
        · rw [if_neg (Nat.lt_irrefl 0), if_pos ⟨sendEof all, own⟩] at child
          cases child
        · simp only [moved, running, List.map_cons, List.sum_cons, if_pos, all, empty,
            List.sum_nil] at enough
          omega
      | stdout =>
        have room : s.stdout < setting.capacity := by
          simp only [moved, running, List.map_cons, List.sum_cons, if_pos] at out
          omega
        simp [step, childStep, running, room] at child
      | stderr =>
        have room : s.stderr < setting.capacity := by
          simp only [moved, running, List.map_cons, List.sum_cons, if_pos] at err
          omega
        simp [step, childStep, running, room] at child

/-! ### A child that exits too early -/

/-- The child can exit while there is a piece left, and that would end the caller. -/
structure Risky (setting : CommunicateSetting) (s : Communication) : Prop extends
    s.Sound setting where
  lives : s.killed = false
  fits : s.FitsPipes setting.capacity
  signals : setting.ignoresSigpipe = false
  left : s.unsent ≠ []
  overfull : moved .stdin s.child ≤ s.unsent.dropLast.sum + s.stdin

/-- The child goes on. Where it cannot it is given one piece more, which is not the last one. -/
theorem Risky.goes (risky : s.Risky setting) :
    ∃ a s', s.step setting a = some s' ∧ (s'.killed = true ∨ s'.Risky setting) := by
  have overfull := risky.overfull
  have left := risky.left
  have onwards (a : CommunicateAction) (s' : Communication) (stepped : s.step setting a = some s')
      (lives : s'.killed = false) (left : s'.unsent ≠ [])
      (overfull : moved .stdin s'.child ≤ s'.unsent.dropLast.sum + s'.stdin) :
      ∃ a s', s.step setting a = some s' ∧ (s'.killed = true ∨ s'.Risky setting) :=
    ⟨a, s', stepped, .inr ⟨sound_step s a s' risky.toSound stepped, lives,
      (fitsPipes_step s a s' stepped).mpr risky.fits, risky.signals, left, overfull⟩⟩
  cases running : s.child with
  | nil =>
    -- it has exited with input left: the next write ends the caller
    refine ⟨.fail, { s with killed := true }, ?_, .inl rfl⟩
    simp [step, running, risky.lives, risky.signals, left]
  | cons operation rest =>
    obtain ⟨pipe, bytes⟩ := operation
    rw [running] at overfull
    simp only [moved, List.map_cons, List.sum_cons] at overfull
    cases bytes with
    | zero =>
      apply onwards .child { s with child := rest } _ risky.lives left
      · simp only [moved]
        split at overfull
        · omega
        · omega
      · simp only [step, childStep, running]
    | succ bytes =>
      cases pipe with
      | stdin =>
        rw [if_pos rfl] at overfull
        by_cases some_ : 0 < s.stdin
        · apply onwards .child { s with stdin := s.stdin - 1, child := ⟨.stdin, bytes⟩ :: rest } _
            risky.lives left
          · simp only [moved, List.map_cons, List.sum_cons, if_pos]
            omega
          · simp only [step, childStep, running, if_pos some_]
        · -- it wants a byte of a piece that has another one behind it
          cases unsent : s.unsent with
          | nil => exact absurd unsent left
          | cons piece more =>
            cases last : more with
            | nil =>
              rw [unsent, last, List.dropLast_singleton, List.sum_nil] at overfull
              omega
            | cons next later =>
              have room := (risky.pieces piece (by simp [unsent])).2
              have empty : s.stdin = 0 := Nat.eq_zero_of_not_pos some_
              rw [unsent, last, List.dropLast_cons_cons, List.sum_cons] at overfull
              apply onwards .write { s with unsent := next :: later, stdin := s.stdin + piece } _
                risky.lives (List.cons_ne_nil next later)
              · simp only [moved, running, List.map_cons, List.sum_cons, if_pos]
                omega
              · simp [step, running, risky.lives, unsent, last, empty, room]
      | stdout =>
        have room : s.stdout < setting.capacity := by
          have fits := risky.fits.1
          simp only [moved, running, List.map_cons, List.sum_cons, if_pos] at fits
          -- what it writes fits: it never waits for the caller here
          omega
        apply onwards .child { s with stdout := s.stdout + 1, child := ⟨.stdout, bytes⟩ :: rest } _
          risky.lives left
        · simpa [moved] using overfull
        · simp only [step, childStep, running, if_pos room]
      | stderr =>
        have room : s.stderr < setting.capacity := by
          have fits := risky.fits.2
          simp only [moved, running, List.map_cons, List.sum_cons, if_pos] at fits
          omega
        apply onwards .child { s with stderr := s.stderr + 1, child := ⟨.stderr, bytes⟩ :: rest } _
          risky.lives left
        · simpa [moved] using overfull
        · simp only [step, childStep, running, if_pos room]

/-- Some schedule ends the caller. -/
theorem Risky.exists_killed (risky : s.Risky setting) :
    ∃ acts s', run (step setting) s acts = some s' ∧ s'.killed = true := by
  have goes (s : Communication) (here : s.killed = true ∨ s.Risky setting) :
      s.killed = true ∨
        ∃ a s', s.step setting a = some s' ∧ (s'.killed = true ∨ s'.Risky setting) :=
    here.imp_right Risky.goes
  exact uses_work.reaches goes (.inr risky)

theorem killed_step (s : Communication) (a : CommunicateAction) (s' : Communication)
    (killed : s.killed = true) (stepped : s.step setting a = some s') : s'.killed = true := by
  cases a with
  | child =>
    cases childSteps_of_childStep stepped with
    | _ => exact killed
  | write =>
    obtain ⟨piece, unsent, -, -, rfl⟩ := write_eq_some stepped
    exact killed
  | _ => simp [step, killed] at stepped

/-- What the pipes must take stays the same all the time. -/
theorem same_run {acts : List CommunicateAction} (ran : run (step setting) s acts = some s') :
    s'.FitsPipes setting.capacity ∧ s'.EndsReading setting ↔
      s.FitsPipes setting.capacity ∧ s.EndsReading setting := by
  induction acts generalizing s with
  | nil => rw [Option.some.inj ran]
  | cons a acts ih =>
    obtain ⟨next, stepped, rest⟩ := Option.bind_eq_some_iff.mp ran
    rw [ih rest, fitsPipes_step s a next stepped, endsReading_step s a next stepped]

/-- What is needed for coming back in any schedule at all. -/
theorem fits_of_returned (sound : s.Sound setting) (returned : s.returned = true) :
    s.FitsPipes setting.capacity ∧ s.EndsReading setting := by
  -- all has been read and written, and what was written is in the pipes
  have nothing : ∀ pipe, moved pipe s.child = 0 := by
    intro pipe
    rw [(sound.exited returned).1]
    rfl
  rw [FitsPipes, EndsReading, nothing, nothing, nothing]
  exact ⟨⟨sound.stdout, sound.stderr⟩, .inr (Nat.zero_le _)⟩

/-- `communicate` comes back from a child in every schedule exactly if what the child writes into
each of its two pipes fits into it, it reads no more than it is given where another process keeps
the pipe open, and some of the last piece where `SIGPIPE` would end the caller. Without the first
two no schedule brings it back. -/
theorem communicate_returns_iff (sound : s.Sound setting) (lives : s.killed = false) :
    (Ends (step setting) (fun s => s.returned = true) s ↔
      s.FitsPipes setting.capacity ∧ s.EndsReading setting ∧ s.Survives setting) ∧
    (¬ (s.FitsPipes setting.capacity ∧ s.EndsReading setting) →
      ∀ acts s', run (step setting) s acts = some s' → s'.returned = false) := by
  have needed : ∀ acts s', run (step setting) s acts = some s' → s'.returned = true →
      s.FitsPipes setting.capacity ∧ s.EndsReading setting := by
    intro acts s' ran returned
    have sound' : s'.Sound setting := (visits_of_run ran).invariant sound_step sound
    exact (same_run ran).mp (fits_of_returned sound' returned)
  refine ⟨⟨fun ends => ?_, fun ⟨fits, endsReading, survives⟩ => ?_⟩, fun unfit acts s' ran => ?_⟩
  · obtain ⟨acts, s', ran, returned⟩ := uses_work.exists_wanted ends
    obtain ⟨fits, endsReading⟩ := needed acts s' ran returned
    refine ⟨fits, endsReading, ?_⟩
    by_contra risk
    simp only [Survives, not_or, Nat.not_lt, Bool.not_eq_true] at risk
    obtain ⟨signals, left, overfull⟩ := risk
    have risky : s.Risky setting := ⟨sound, lives, fits, signals, left, overfull⟩
    obtain ⟨acts, dead, ran, killed⟩ := risky.exists_killed
    -- from there on it cannot come back
    obtain ⟨more, after, ran', returned⟩ := uses_work.exists_wanted (ends.of_run ran)
    have killed' : after.killed = true := (visits_of_run ran').invariant killed_step killed
    have sound' : after.Sound setting := (visits_of_run ran').invariant sound_step
      ((visits_of_run ran).invariant sound_step sound)
    rw [(sound'.exited returned).2.2] at killed'
    cases killed'
  · exact uses_work.ends fine_step (fun _ => returned_of_stuck)
      ⟨⟨sound, lives, survives⟩, fits, endsReading⟩
  · exact Bool.eq_false_iff.mpr fun returned => unfit (needed acts s' ran returned)

/-- A child that copies its input: five bytes do not go through a pipe of four, three do, unless
another child has inherited the pipe that they are written to. And one that reads two bytes only
may end its caller, but not one that has been given all of them at once. -/
theorem communicate_returns_iff_copy :
    ¬ Ends (step ⟨4, false, false⟩) (fun s => s.returned = true)
        { unsent := [4, 1], child := [⟨.stdin, 5⟩, ⟨.stdout, 5⟩] } ∧
      Ends (step ⟨4, false, false⟩) (fun s => s.returned = true)
        { unsent := [3], child := [⟨.stdin, 5⟩, ⟨.stdout, 3⟩] } ∧
      ¬ Ends (step ⟨4, false, true⟩) (fun s => s.returned = true)
        { unsent := [3], child := [⟨.stdin, 5⟩, ⟨.stdout, 3⟩] } ∧
      ¬ Ends (step ⟨4, false, false⟩) (fun s => s.returned = true)
        { unsent := [2, 1], child := [⟨.stdin, 2⟩] } ∧
      Ends (step ⟨4, false, false⟩) (fun s => s.returned = true)
        { unsent := [3], child := [⟨.stdin, 2⟩] } := by
  have sound (setting : CommunicateSetting) (unsent : List Nat) (child : List ChildOperation)
      (pieces : ∀ piece ∈ unsent, 0 < piece ∧ piece ≤ setting.capacity) :
      Sound setting { unsent, child } := by
    refine ⟨Nat.zero_le _, Nat.zero_le _, pieces, fun closed => ?_, fun returned => ?_⟩
    · cases closed
    · cases returned
  rw [(communicate_returns_iff (sound _ _ _ (by decide)) rfl).1,
    (communicate_returns_iff (sound _ _ _ (by decide)) rfl).1,
    (communicate_returns_iff (sound _ _ _ (by decide)) rfl).1,
    (communicate_returns_iff (sound _ _ _ (by decide)) rfl).1,
    (communicate_returns_iff (sound _ _ _ (by decide)) rfl).1]
  decide

end Communication

end ServerLib
