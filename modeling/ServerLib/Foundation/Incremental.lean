import Mathlib.Data.List.Basic

/-!
# Incremental decoders

A decoder reads a stream that arrives in pieces. It keeps a state and a buffer of
items not consumed yet, and a driver lets it turn until it waits for more input or
fails. `Drains` is the outcome of one such drain, `Feeds` the outcome of a sequence
of pieces, stopped by the first failure.

If waiting loses nothing and a turn that went through is not changed by bytes that
arrive later (`Stable`), the pieces do not matter: feeding them one after the other
ends where one drain of the whole stream ends.
-/
namespace Incremental

/-- What one turn of a decoder does with the items buffered so far. -/
inductive Turn (σ ε α β : Type) where
  | wait (state : σ) (rest : List β)
  | emit (item : α) (state : σ) (rest : List β)
  | fail (error : ε) (state : σ) (rest : List β)

/-- Where the decoder stops: what it emitted, why it failed (if it did), what is left. -/
structure Drained (σ ε α β : Type) where
  items : List α
  error : Option ε
  state : σ
  rest : List β

variable {σ ε α β : Type}

/-- Two turns with the same result that end in related states. -/
def Turn.Alike (R : σ → σ → Prop) : Turn σ ε α β → Turn σ ε α β → Prop
  | .wait s rest, .wait s' rest' => R s s' ∧ rest' = rest
  | .fail e s rest, .fail e' s' rest' => e' = e ∧ R s s' ∧ rest' = rest
  | .emit a s rest, .emit a' s' rest' => a' = a ∧ R s s' ∧ rest' = rest
  | _, _ => False

theorem Turn.Alike.refl {R : σ → σ → Prop} (reflexive : ∀ s, R s s) (t : Turn σ ε α β) :
    t.Alike R t := by
  cases t with
  | wait s rest => exact ⟨reflexive s, rfl⟩
  | fail e s rest => exact ⟨rfl, reflexive s, rfl⟩
  | emit a s rest => exact ⟨rfl, reflexive s, rfl⟩

def Drained.prepend (items : List α) (r : Drained σ ε α β) : Drained σ ε α β :=
  { r with items := items ++ r.items }

@[simp] theorem Drained.prepend_items (items : List α) (r : Drained σ ε α β) :
    (r.prepend items).items = items ++ r.items := rfl

@[simp] theorem Drained.prepend_error (items : List α) (r : Drained σ ε α β) :
    (r.prepend items).error = r.error := rfl

@[simp] theorem Drained.prepend_state (items : List α) (r : Drained σ ε α β) :
    (r.prepend items).state = r.state := rfl

@[simp] theorem Drained.prepend_rest (items : List α) (r : Drained σ ε α β) :
    (r.prepend items).rest = r.rest := rfl

theorem Drained.prepend_append (xs ys : List α) (r : Drained σ ε α β) :
    r.prepend (xs ++ ys) = (r.prepend ys).prepend xs := by
  simp only [prepend, List.append_assoc]

variable (turn : σ → List β → Turn σ ε α β)

/-- Turning until the decoder waits or fails. -/
inductive Drains : σ → List β → Drained σ ε α β → Prop where
  | wait {s s' : σ} {buffer rest : List β} (turned : turn s buffer = .wait s' rest) :
      Drains s buffer ⟨[], none, s', rest⟩
  | fail {s s' : σ} {buffer rest : List β} {e : ε} (turned : turn s buffer = .fail e s' rest) :
      Drains s buffer ⟨[], some e, s', rest⟩
  | emit {s s' : σ} {buffer rest : List β} {a : α} {r : Drained σ ε α β}
      (turned : turn s buffer = .emit a s' rest) (tail : Drains s' rest r) :
      Drains s buffer (r.prepend [a])

/-- Draining after each piece, until a piece makes the decoder fail. -/
inductive Feeds : σ → List β → List (List β) → Drained σ ε α β → Prop where
  | done {s : σ} {buffer : List β} : Feeds s buffer [] ⟨[], none, s, buffer⟩
  | stop {s : σ} {buffer piece : List β} {pieces : List (List β)} {r : Drained σ ε α β} {e : ε}
      (drained : Drains turn s (buffer ++ piece) r) (failed : r.error = some e) :
      Feeds s buffer (piece :: pieces) r
  | next {s : σ} {buffer piece : List β} {pieces : List (List β)} {r q : Drained σ ε α β}
      (drained : Drains turn s (buffer ++ piece) r) (waits : r.error = none)
      (tail : Feeds r.state r.rest pieces q) :
      Feeds s buffer (piece :: pieces) (q.prepend r.items)

variable {turn}

/-- A drain is determined by the state and the buffer it starts from. -/
theorem Drains.unique {s : σ} {buffer : List β} {r q : Drained σ ε α β}
    (left : Drains turn s buffer r) (right : Drains turn s buffer q) : r = q := by
  induction left generalizing q with
  | wait turned =>
    cases right with
    | wait other => rw [turned] at other; cases other; rfl
    | fail other => rw [turned] at other; cases other
    | emit other _ => rw [turned] at other; cases other
  | fail turned =>
    cases right with
    | wait other => rw [turned] at other; cases other
    | fail other => rw [turned] at other; cases other; rfl
    | emit other _ => rw [turned] at other; cases other
  | emit turned _ ih =>
    cases right with
    | wait other => rw [turned] at other; cases other
    | fail other => rw [turned] at other; cases other
    | emit other tail =>
      rw [turned] at other
      cases other
      rw [ih tail]

/-- What follows a drain from a state depends on its first turn only. -/
theorem Drains.of_turn_eq {s s' : σ} {buffer buffer' : List β} {r : Drained σ ε α β}
    (same : turn s buffer = turn s' buffer') (drained : Drains turn s' buffer' r) :
    Drains turn s buffer r := by
  cases drained with
  | wait turned => exact .wait (same.trans turned)
  | fail turned => exact .fail (same.trans turned)
  | emit turned tail => exact .emit (same.trans turned) tail

/-- What every turn of a drain keeps holds of the state it ends in. -/
theorem Drains.invariant (inv : σ → Prop)
    (wait_keeps : ∀ s buffer s' rest, inv s → turn s buffer = .wait s' rest → inv s')
    (emit_keeps : ∀ s buffer a s' rest, inv s → turn s buffer = .emit a s' rest → inv s')
    (fail_keeps : ∀ s buffer e s' rest, inv s → turn s buffer = .fail e s' rest → inv s')
    {s : σ} {buffer : List β} {r : Drained σ ε α β} (drained : Drains turn s buffer r)
    (valid : inv s) : inv r.state := by
  induction drained with
  | wait turned => exact wait_keeps _ _ _ _ valid turned
  | fail turned => exact fail_keeps _ _ _ _ _ valid turned
  | emit turned _ ih => exact ih (emit_keeps _ _ _ _ _ valid turned)

variable (turn) in
/-- Each emitted item has consumed some input. -/
structure Productive (inv : σ → Prop) : Prop where
  emit_keeps : ∀ s buffer a s' rest, inv s → turn s buffer = .emit a s' rest → inv s'
  emit_shrinks : ∀ s buffer a s' rest, inv s → turn s buffer = .emit a s' rest →
    rest.length < buffer.length

variable (turn) in
/-- Waiting keeps all that a later turn needs, and a turn that emits or fails does so whatever
arrives behind the items it looked at. -/
structure Stable (inv : σ → Prop) : Prop extends Productive turn inv where
  wait_keeps : ∀ s buffer s' rest, inv s → turn s buffer = .wait s' rest → inv s'
  wait_append : ∀ s buffer s' rest, inv s → turn s buffer = .wait s' rest →
    ∀ more, turn s (buffer ++ more) = turn s' (rest ++ more)
  emit_append : ∀ s buffer a s' rest, inv s → turn s buffer = .emit a s' rest →
    ∀ more, turn s (buffer ++ more) = .emit a s' (rest ++ more)
  fail_append : ∀ s buffer e s' rest, inv s → turn s buffer = .fail e s' rest →
    ∀ more, turn s (buffer ++ more) = .fail e s' (rest ++ more)

variable {inv : σ → Prop}

/-- Every drain ends, with no more items than the buffer was long. -/
theorem Productive.drains_exists (productive : Productive turn inv) (s : σ) (buffer : List β)
    (valid : inv s) : ∃ r, Drains turn s buffer r ∧ r.items.length ≤ buffer.length := by
  -- on the length of the buffer, which every emitted item shortens
  induction size : buffer.length using Nat.strongRecOn generalizing s buffer with
  | ind n ih =>
    subst size
    cases turned : turn s buffer with
    | wait s' rest => exact ⟨_, .wait turned, Nat.zero_le _⟩
    | fail e s' rest => exact ⟨_, .fail turned, Nat.zero_le _⟩
    | emit a s' rest =>
      have shorter := productive.emit_shrinks _ _ _ _ _ valid turned
      obtain ⟨r, tail, bound⟩ :=
        ih rest.length shorter s' rest (productive.emit_keeps _ _ _ _ _ valid turned) rfl
      refine ⟨_, .emit turned tail, ?_⟩
      simp only [Drained.prepend_items, List.length_append, List.length_singleton]
      omega

theorem Productive.length_items (productive : Productive turn inv) {s : σ} {buffer : List β}
    {r : Drained σ ε α β} (drained : Drains turn s buffer r) (valid : inv s) :
    r.items.length ≤ buffer.length := by
  obtain ⟨q, other, bound⟩ := productive.drains_exists s buffer valid
  rw [drained.unique other]
  exact bound

namespace Stable

theorem drains_keeps (stable : Stable turn inv) {s : σ} {buffer : List β} {r : Drained σ ε α β}
    (drained : Drains turn s buffer r) (valid : inv s) (waits : r.error = none) :
    inv r.state := by
  induction drained with
  | wait turned => exact stable.wait_keeps _ _ _ _ valid turned
  | fail turned => cases waits
  | emit turned _ ih => exact ih (stable.emit_keeps _ _ _ _ _ valid turned) waits

/-- A decoder that waits still waits when nothing has arrived. -/
theorem drains_settled (stable : Stable turn inv) {s : σ} {buffer : List β}
    {r : Drained σ ε α β} (drained : Drains turn s buffer r) (valid : inv s)
    (waits : r.error = none) : turn r.state r.rest = .wait r.state r.rest := by
  induction drained with
  | wait turned =>
    -- nothing arrived is the empty list behind the buffer
    have again := stable.wait_append _ _ _ _ valid turned []
    simp only [List.append_nil] at again
    rw [← again, turned]
  | fail turned => cases waits
  | emit turned _ ih => exact ih (stable.emit_keeps _ _ _ _ _ valid turned) waits

/-- A drain that waits goes on, when more arrives, as one drain of everything. -/
theorem drains_append_of_wait (stable : Stable turn inv) {s : σ} {buffer more : List β}
    {r q : Drained σ ε α β} (drained : Drains turn s buffer r) (valid : inv s)
    (waits : r.error = none) (tail : Drains turn r.state (r.rest ++ more) q) :
    Drains turn s (buffer ++ more) (q.prepend r.items) := by
  induction drained with
  | wait turned =>
    -- the first turn on the longer buffer is the one from where the first drain waits
    exact .of_turn_eq (stable.wait_append _ _ _ _ valid turned more) tail
  | fail turned => cases waits
  | emit turned _ ih =>
    have rest := ih (stable.emit_keeps _ _ _ _ _ valid turned) waits tail
    simp only [Drained.prepend_items, Drained.prepend_append]
    exact .emit (stable.emit_append _ _ _ _ _ valid turned more) rest

/-- A drain that fails does so whatever arrives later. -/
theorem drains_append_of_fail (stable : Stable turn inv) {s : σ} {buffer more : List β}
    {r : Drained σ ε α β} {e : ε} (drained : Drains turn s buffer r) (valid : inv s)
    (failed : r.error = some e) :
    Drains turn s (buffer ++ more) { r with rest := r.rest ++ more } := by
  induction drained with
  | wait turned => cases failed
  | fail turned => exact .fail (stable.fail_append _ _ _ _ _ valid turned more)
  | emit turned _ ih =>
    exact .emit (stable.emit_append _ _ _ _ _ valid turned more)
      (ih (stable.emit_keeps _ _ _ _ _ valid turned) failed)

/-- What has drained when only the front of the input is there: it waits, and its items are the
first ones of the whole. -/
theorem drains_of_front (stable : Stable turn inv) {s : σ} {buffer more : List β}
    {q : Drained σ ε α β} (whole : Drains turn s (buffer ++ more) q) (valid : inv s)
    (waits : q.error = none) :
    ∃ r, Drains turn s buffer r ∧ r.error = none ∧ r.items <+: q.items := by
  obtain ⟨r, drained, -⟩ := stable.drains_exists s buffer valid
  cases error : r.error with
  | some e =>
    -- a front that fails would make the whole fail
    have failed := (stable.drains_append_of_fail drained valid error).unique whole
    rw [← failed, error] at waits
    cases waits
  | none =>
    obtain ⟨tail, rest, -⟩ := stable.drains_exists r.state (r.rest ++ more)
      (stable.drains_keeps drained valid error)
    have joined := (stable.drains_append_of_wait drained valid error rest).unique whole
    refine ⟨r, drained, error, ?_⟩
    rw [← joined, Drained.prepend_items]
    exact List.prefix_append r.items tail.items

/-- Feeding a stream piece by piece ends where one drain of the whole stream ends; if it
fails, what came after the failing piece is still unread. -/
theorem drains_of_feeds (stable : Stable turn inv) {s : σ} {buffer : List β}
    {pieces : List (List β)} {r : Drained σ ε α β} (fed : Feeds turn s buffer pieces r)
    (valid : inv s) (settled : turn s buffer = .wait s buffer) :
    ∃ unread, Drains turn s (buffer ++ pieces.flatten) { r with rest := r.rest ++ unread } ∧
      (r.error = none → unread = [] ∧ inv r.state) := by
  induction fed with
  | @done s buffer =>
    refine ⟨[], ?_, fun _ => ⟨rfl, valid⟩⟩
    simp only [List.flatten_nil, List.append_nil]
    exact .wait settled
  | @stop s buffer piece pieces r e drained failed =>
    -- the failing piece ends the feed; later pieces stay unread
    refine ⟨pieces.flatten, ?_, fun waits => by rw [failed] at waits; cases waits⟩
    rw [List.flatten_cons, ← List.append_assoc]
    exact stable.drains_append_of_fail drained valid failed
  | @next s buffer piece pieces r q drained waits _ ih =>
    obtain ⟨unread, tail, clean⟩ := ih (stable.drains_keeps drained valid waits)
      (stable.drains_settled drained valid waits)
    refine ⟨unread, ?_, clean⟩
    rw [List.flatten_cons, ← List.append_assoc]
    exact stable.drains_append_of_wait drained valid waits tail

end Stable

end Incremental
