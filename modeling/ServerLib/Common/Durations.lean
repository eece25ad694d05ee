import Mathlib.Tactic.Linarith
import ServerLib.Common.Asserts

/-!
# Durations that are waited for

`event_loop::wait` and `wait_result` cast a duration to milliseconds, check that there is one at
least, and pass their number on as an `int32_t`, which takes the endless branch where it is not
positive. A web client keeps the milliseconds in a `long` of 64 bits and hands whole seconds over
to its connections, for which zero seconds are no timeout.

So the number is passed on as it is up to 2^31 - 1, and a request has a timer from one second on.
A number that does not fit its type is taken modulo the size of the type.
-/
namespace ServerLib

/-- `std::chrono::duration`: a number of periods of `num / den` seconds. -/
structure Duration where
  count : Int
  num : Nat
  den : Nat
  den_pos : 0 < den

namespace Duration

/-- `duration_cast<milliseconds>` -/
def milliseconds (d : Duration) : Int := (d.count * (1000 * d.num)).tdiv d.den

/-- The assertion on durations that are waited for. -/
def checkWaiting (d : Duration) : Option LogicError :=
  if 0 < d.milliseconds then none
  else some ⟨"ms.count() > 0", "1 millisecond is minimum waiting accuracy"⟩

/-- A number of nanoseconds differs from the duration by less than a second. -/
def WithinSecond (d : Duration) (nanoseconds : Int) : Prop :=
  |d.count * d.num * 10 ^ 9 - nanoseconds * d.den| < 10 ^ 9 * (d.den : Int)

end Duration

/-! ### `wait` and `wait_result` -/

inductive WaitBranch where
  /-- `wait_for` with a number of milliseconds -/
  | timed (timeoutMs : Int)
  /-- `get` -/
  | endless
  deriving DecidableEq, Repr

/-- The branch that `wait_async_result` and `wait_async` take. -/
def waitBranch (timeoutMs : Int32) : WaitBranch :=
  if 0 < timeoutMs then .timed timeoutMs.toInt else .endless

namespace EventLoopWait

/-- What `wait` and `wait_result` do with a duration. -/
def branch (d : Duration) : Except LogicError WaitBranch :=
  match d.checkWaiting with
  | some error => .error error
  | none => .ok (waitBranch (Int32.ofInt d.milliseconds))

def wait (d : Duration) : Except LogicError WaitBranch := branch d

def waitResult (d : Duration) : Except LogicError WaitBranch := branch d

end EventLoopWait

/-- Both wait for exactly as many milliseconds as they are given. -/
def BoundsWaits (d : Duration) : Prop :=
  EventLoopWait.wait d = .ok (.timed d.milliseconds) ∧
    EventLoopWait.waitResult d = .ok (.timed d.milliseconds)

/-! ### The timer of a web client's connection -/

/-- The timeouts of `base_web_client_config`. -/
structure ClientTimeouts where
  timeoutMs : Int64 := 0
  /-- `size_t` -/
  timeoutConnectMs : UInt64 := 0
  deriving DecidableEq, Repr

namespace ClientTimeouts

def setTimeout (c : ClientTimeouts) (d : Duration) : Except LogicError ClientTimeouts :=
  match d.checkWaiting with
  | some error => .error error
  | none => .ok { c with timeoutMs := Int64.ofInt d.milliseconds }

def setTimeoutConnect (c : ClientTimeouts) (d : Duration) : Except LogicError ClientTimeouts :=
  match d.checkWaiting with
  | some error => .error error
  | none => .ok { c with timeoutConnectMs := UInt64.ofInt d.milliseconds }

/-- In seconds. -/
def timeout (c : ClientTimeouts) : Int64 := c.timeoutMs / 1000

/-- In seconds. -/
def timeoutConnect (c : ClientTimeouts) : UInt64 := c.timeoutConnectMs / 1000

end ClientTimeouts

/-- For what a connection's `set_timeout` is called. -/
inductive SocketWait where
  /-- `set_timeout(_config.timeout_connect())` -/
  | connecting
  /-- `set_timeout()`, in front of each write and read of a request -/
  | exchanging
  deriving DecidableEq, Repr

/-- `__http_connection::set_timeout`: the nanoseconds to the timer's expiry, if there is a timer. -/
def connectionSetTimeout (timeout seconds : Int64) : Option Int64 :=
  let seconds := if seconds = 0 then timeout else seconds
  if seconds = 0 then none else some (seconds * 1000000000)

/-- The timer of a connection that `create_connection` has made. -/
def ClientTimeouts.arm (c : ClientTimeouts) : SocketWait → Option Int64
  | .connecting => connectionSetTimeout c.timeout c.timeoutConnect.toInt64
  | .exchanging => connectionSetTimeout c.timeout 0

/-- With `set_timeout` the client arms a timer for each write and read, and for connecting if there
is no other timeout for that. -/
def BoundsRequests (d : Duration) : Prop :=
  ∀ c c' : ClientTimeouts, c.setTimeout d = .ok c' →
    ∀ w : SocketWait, (w = .connecting → c.timeoutConnect = 0) →
      ∃ expiry ∈ c'.arm w, 0 < expiry ∧ d.WithinSecond expiry.toInt

/-! ### Which durations are kept -/

variable {d : Duration}

theorem waitBranch_eq_timed_iff {ms : Int} (positive : 0 < ms) :
    waitBranch (Int32.ofInt ms) = .timed ms ↔ ms < 2 ^ 31 := by
  unfold waitBranch
  constructor
  · intro timed
    split at timed
    next =>
      -- an `int32_t` is below 2^31
      have same := WaitBranch.timed.inj timed
      have below := Int32.toInt_lt (Int32.ofInt ms)
      omega
    · cases timed
  · intro below
    have same : (Int32.ofInt ms).toInt = ms := Int32.toInt_ofInt_of_le (by omega) below
    have long : 0 < Int32.ofInt ms := by
      rw [Int32.lt_iff_toInt_lt, same]
      exact positive
    rw [if_pos long, same]

theorem milliseconds_pos (accepted : d.checkWaiting = none) : 0 < d.milliseconds := by
  unfold Duration.checkWaiting at accepted
  split at accepted
  next positive => exact positive
  · cases accepted

theorem boundsWaits_iff (accepted : d.checkWaiting = none) :
    BoundsWaits d ↔ d.milliseconds < 2 ^ 31 := by
  have same : EventLoopWait.branch d = .ok (waitBranch (Int32.ofInt d.milliseconds)) := by
    rw [EventLoopWait.branch, accepted]
  rw [← waitBranch_eq_timed_iff (milliseconds_pos accepted)]
  unfold BoundsWaits EventLoopWait.wait EventLoopWait.waitResult
  rw [same, Except.ok.injEq, and_self_iff]

/-- The milliseconds of a duration are those that are over. -/
theorem milliseconds_bounds (positive : 0 < d.milliseconds) :
    d.milliseconds * d.den ≤ d.count * d.num * 1000 ∧
      d.count * d.num * 1000 < (d.milliseconds + 1) * d.den := by
  have den : (0 : Int) < d.den := Int.natCast_pos.mpr d.den_pos
  have whole : d.count * (1000 * d.num) = d.count * d.num * 1000 := by
    rw [Int.mul_comm 1000, Int.mul_assoc]
  unfold Duration.milliseconds at positive ⊢
  rw [whole] at positive ⊢
  have counted : 0 ≤ d.count * d.num * 1000 := by
    by_contra negative
    have opposite : 0 ≤ -(d.count * d.num * 1000) := by omega
    have quotient := Int.tdiv_nonneg opposite (Int.le_of_lt den)
    rw [Int.neg_tdiv] at quotient
    omega
  rw [Int.tdiv_eq_ediv_of_nonneg counted]
  exact ⟨Int.ediv_mul_le _ (Int.ne_of_gt den), Int.lt_ediv_add_one_mul_self _ den⟩

/-- Which nanoseconds are within a second of the milliseconds. -/
theorem withinSecond_of (positive : 0 < d.milliseconds) :
    d.WithinSecond (d.milliseconds / 1000 * 10 ^ 9) := by
  obtain ⟨below, above⟩ := milliseconds_bounds positive
  have den : (0 : Int) < d.den := Int.natCast_pos.mpr d.den_pos
  have low : 1000 * (d.milliseconds / 1000) * d.den ≤ d.milliseconds * d.den :=
    Int.mul_le_mul_of_nonneg_right (by omega) (Int.le_of_lt den)
  have high : (d.milliseconds + 1) * d.den ≤ (1000 * (d.milliseconds / 1000) + 1000) * d.den :=
    Int.mul_le_mul_of_nonneg_right (by omega) (Int.le_of_lt den)
  unfold Duration.WithinSecond
  rw [abs_lt]
  constructor <;> linarith

theorem lt_of_withinSecond (positive : 0 < d.milliseconds) {nanoseconds : Int}
    (within : d.WithinSecond nanoseconds) :
    d.milliseconds * 10 ^ 6 - nanoseconds < 10 ^ 9 := by
  obtain ⟨below, -⟩ := milliseconds_bounds positive
  have den : (0 : Int) < d.den := Int.natCast_pos.mpr d.den_pos
  have short := (abs_lt.mp within).2
  have scaled : (d.milliseconds * 10 ^ 6 - nanoseconds) * d.den < 10 ^ 9 * d.den := by linarith
  exact lt_of_mul_lt_mul_right scaled (Int.le_of_lt den)

theorem timeout_toInt {ms : Int} (positive : 0 < ms) (fits : ms < 2 ^ 63) :
    (Int64.ofInt ms / 1000).toInt = ms / 1000 := by
  have same : (Int64.ofInt ms).toInt = ms := Int64.toInt_ofInt_of_le (by omega) fits
  rw [Int64.toInt_div_of_ne_left, same]
  · exact Int.tdiv_eq_ediv_of_nonneg (Int.le_of_lt positive)
  · intro least
    rw [least] at same
    have negative : Int64.minValue.toInt < 0 := by decide
    omega

/-- The timer of a client that was configured with a duration, with no other timeout. -/
theorem arm_eq {c c' : ClientTimeouts} (set : c.setTimeout d = .ok c') {w : SocketWait}
    (alone : w = .connecting → c.timeoutConnect = 0) :
    c'.arm w = connectionSetTimeout (Int64.ofInt d.milliseconds / 1000) 0 := by
  unfold ClientTimeouts.setTimeout at set
  split at set
  · cases set
  · cases set
    cases w with
    | connecting =>
      have same : ClientTimeouts.timeoutConnect
          { c with timeoutMs := Int64.ofInt d.milliseconds } = 0 := alone rfl
      rw [ClientTimeouts.arm, same]
      rfl
    | exchanging => rfl

theorem setTimeout_eq (accepted : d.checkWaiting = none) (c : ClientTimeouts) :
    c.setTimeout d = .ok { c with timeoutMs := Int64.ofInt d.milliseconds } := by
  rw [ClientTimeouts.setTimeout, accepted]

/-- Whole seconds, of which zero are no timeout. -/
theorem connectionSetTimeout_eq {ms : Int} (positive : 0 < ms) (fits : ms < 2 ^ 63) :
    connectionSetTimeout (Int64.ofInt ms / 1000) 0 =
      if ms < 1000 then none else some (Int64.ofInt (ms / 1000 * 10 ^ 9)) := by
  have seconds := timeout_toInt positive fits
  unfold connectionSetTimeout
  simp only [if_true]
  split
  next zero =>
    rw [zero] at seconds
    have none_left : (0 : Int) = ms / 1000 := seconds
    rw [if_pos (by omega)]
  next counted =>
    have some_left : ms / 1000 ≠ 0 := by
      intro zero
      apply counted
      rw [← Int64.toInt_inj, seconds, zero]
      rfl
    rw [if_neg (by omega), Option.some.injEq, ← Int64.toInt_inj, Int64.toInt_mul, seconds,
      Int64.toInt_ofInt]
    rfl

/-- A connection has a timer from one second on, up to the nanoseconds that fit 64 bits. -/
theorem boundsRequests_iff (accepted : d.checkWaiting = none) :
    BoundsRequests d ↔ 1000 ≤ d.milliseconds ∧ d.milliseconds < 9223372037000 := by
  have positive := milliseconds_pos accepted
  constructor
  · intro bounds
    have set := setTimeout_eq accepted {}
    have alone : SocketWait.exchanging = .connecting →
        ClientTimeouts.timeoutConnect {} = 0 := fun _ => rfl
    obtain ⟨expiry, armed, ahead, within⟩ := bounds {} _ set .exchanging alone
    -- a timer so far ahead would expire behind the last of the 64 bits
    have near := lt_of_withinSecond positive within
    have last := Int64.toInt_lt expiry
    rw [arm_eq set alone, connectionSetTimeout_eq positive (by omega)] at armed
    split at armed
    · cases armed
    next long =>
      refine ⟨not_lt.mp long, ?_⟩
      have expires := congrArg Int64.toInt (Option.some.inj armed)
      rw [Int64.lt_iff_toInt_lt] at ahead
      rw [Int64.toInt_ofInt] at expires
      have zero : (0 : Int64).toInt = 0 := rfl
      have size : Int64.size = 18446744073709551616 := rfl
      rw [size, Int.bmod] at expires
      split at expires <;> omega
  · rintro ⟨long, fits⟩ c c' set w alone
    have same : (Int64.ofInt (d.milliseconds / 1000 * 10 ^ 9)).toInt =
        d.milliseconds / 1000 * 10 ^ 9 := Int64.toInt_ofInt_of_le (by omega) (by omega)
    refine ⟨Int64.ofInt (d.milliseconds / 1000 * 10 ^ 9), ?_, ?_, ?_⟩
    · rw [arm_eq set alone, connectionSetTimeout_eq positive (by omega), if_neg (by omega)]
      rfl
    · rw [Int64.lt_iff_toInt_lt, same]
      have zero : (0 : Int64).toInt = 0 := rfl
      omega
    · rw [same]
      exact withinSecond_of positive

/-- A duration that is accepted bounds the wait and the requests it was given for exactly from one
second on and up to 2^31 - 1 milliseconds. -/
theorem durations_bound_iff (d : Duration) (accepted : d.checkWaiting = none) :
    (BoundsWaits d ∧ BoundsRequests d) ↔ 1000 ≤ d.milliseconds ∧ d.milliseconds < 2 ^ 31 := by
  rw [boundsWaits_iff accepted, boundsRequests_iff accepted]
  omega

/-- Five seconds. -/
theorem durations_bound_iff_five :
    BoundsWaits ⟨5, 1, 1, by decide⟩ ∧ BoundsRequests ⟨5, 1, 1, by decide⟩ :=
  (durations_bound_iff ⟨5, 1, 1, by decide⟩ (by decide)).mpr (by decide)

/-- Half a second leaves the requests without a timer, and thirty days wait without end. -/
theorem durations_unbounded :
    (∃ d : Duration, d = ⟨500, 1, 1000, by decide⟩ ∧ d.checkWaiting = none ∧
      (∀ c ∈ (ClientTimeouts.setTimeout {} d).toOption, c.arm .exchanging = none) ∧
      ¬ BoundsRequests d) ∧
    ∃ d : Duration, d = ⟨30 * 24, 3600, 1, by decide⟩ ∧ d.checkWaiting = none ∧
      EventLoopWait.wait d = .ok .endless ∧ ¬ BoundsWaits d := by
  refine ⟨⟨_, rfl, by decide, ?_, ?_⟩, ⟨_, rfl, by decide, by decide, ?_⟩⟩
  · decide
  · rw [boundsRequests_iff (by decide)]
    decide
  · rw [boundsWaits_iff (by decide)]
    decide

end ServerLib
