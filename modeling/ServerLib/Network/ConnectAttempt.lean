import ServerLib.Foundation.Transition

/-!
# One attempt to connect

`tcp_client_impl::connect` and `unix_local_client_impl::connect` start a worker that resolves the
host (the TCP client only), connects, and reports to the connect or to the fail callback. A timer
may end the attempt from the side. The worker runs one handler at a time, but the order in which
operations complete and the timer expires is up to the kernel, and a handler that is in the queue
already is not taken back by `cancel`. What callbacks throw is an `std::exception`; the handlers
catch it, and one that leaves a handler ends the process.
-/
namespace ServerLib.Network

open Transition

inductive ClientKind where
  | tcp
  | unixLocal
  deriving DecidableEq, Repr

/-- An operation is outstanding (`none`), or its handler is in the queue with an error code. -/
abbrev Operation := Option (Option Nat)

inductive ConnectStage where
  | posted
  | resolving (operation : Operation)
  | connecting (operation : Operation)
  | over
  deriving DecidableEq, Repr

/-- The timer of `set_timeout`. A handler in the queue is `due`, without an error code, or
`cancelled`. -/
inductive TimeoutPlace where
  | unset
  | waiting
  | due
  | cancelled
  | done
  deriving DecidableEq, Repr

inductive ConnectReport where
  | connected
  | failed
  deriving DecidableEq, Repr

/-- `socket` is `is_connected()` of the connection and `gateClosed` says that its
`handler_runner` is stopped; `reports` lists the callbacks that were called. `threw` and `escaped`
record that a callback has thrown and that the exception has left the handler, `cut` that the
timer has closed the socket of an announced connection, and `dangling` that it has dereferenced
a socket that is not there. -/
structure ConnectAttempt where
  stage : ConnectStage := .posted
  timer : TimeoutPlace := .unset
  socket : Bool := true
  gateClosed : Bool := false
  workerStopped : Bool := false
  reports : List ConnectReport := []
  threw : Bool := false
  escaped : Bool := false
  cut : Bool := false
  dangling : Bool := false
  deriving DecidableEq, Repr

/-- The handlers of the worker, with what their callbacks do, and what the kernel and the users
of the connection do. -/
inductive AttemptAction where
  | connect (fault armed failThrows : Bool)
  | resolveStep (throws failThrows : Bool)
  | connectStep (throws failThrows : Bool)
  | timeout
  | complete (ec : Option Nat)
  | expire
  | disconnect
  | stopWorker
  deriving DecidableEq, Repr

namespace ConnectAttempt

/-- The `catch` of a handler: `fail_callback(e.what())`, which may throw out of the handler. -/
def caught (a : ConnectAttempt) (failThrows : Bool) : ConnectAttempt :=
  { a with
    reports := a.reports ++ [.failed]
    threw := a.threw || failThrows
    escaped := a.escaped || failThrows }

/-- `fail_callback(ec.message())` inside the `try` of a handler. -/
def failed (a : ConnectAttempt) (throws failThrows : Bool) : ConnectAttempt :=
  let a := { a with reports := a.reports ++ [.failed] }
  if throws then { a with threw := true }.caught failThrows else a

/-- `connect_callback(connection)` inside the `try` of a handler. -/
def announced (a : ConnectAttempt) (throws failThrows : Bool) : ConnectAttempt :=
  let a := { a with reports := a.reports ++ [.connected] }
  if throws then { a with threw := true }.caught failThrows else a

def cancelTimeout (a : ConnectAttempt) : ConnectAttempt :=
  match a.timer with
  | .waiting => { a with timer := .cancelled }
  | _ => a

/-- The first operation of an attempt. -/
def firstStage : ClientKind → ConnectStage
  | .tcp => .resolving none
  | .unixLocal => .connecting none

/-- `connect_`; with a `fault` something throws, before or behind the setting of the timer. -/
def connect (kind : ClientKind) (timeout : Bool) (a : ConnectAttempt)
    (fault armed failThrows : Bool) : ConnectAttempt :=
  if fault then
    { a with
      stage := .over
      timer := if timeout && armed then .waiting else .unset }.caught failThrows
  else
    { a with
      stage := firstStage kind
      timer := if timeout then .waiting else .unset }

def resolveStep (a : ConnectAttempt) (ec : Option Nat) (throws failThrows : Bool) :
    ConnectAttempt :=
  if a.gateClosed then { a with stage := .over }
  else match ec with
    | none =>
      -- `connection->socket()` asserts that there is one
      if a.socket then { a with stage := .connecting none }
      else { a with stage := .over }.caught failThrows
    | some _ => { a with stage := .over }.failed throws failThrows

def connectStep (a : ConnectAttempt) (ec : Option Nat) (throws failThrows : Bool) :
    ConnectAttempt :=
  let a := { a with stage := .over }.cancelTimeout
  if a.gateClosed then a
  else match ec with
    | none =>
      -- so does `configurate`
      if a.socket then a.announced throws failThrows else a.caught failThrows
    | some _ => a.failed throws failThrows

/-- The handler of the timer. The callback cancels the resolver of the TCP client; cancelling the
operations on the socket leaves it to the kernel what they end with. -/
def timeout (kind : ClientKind) (a : ConnectAttempt) : ConnectAttempt :=
  let a := { a with timer := .done }
  let a := if kind = .tcp ∧ a.stage = .resolving none then
      { a with stage := .resolving (some (some 125)) }
    else a
  if a.socket = false then { a with dangling := true }
  else if .connected ∈ a.reports then { a with cut := true }
  else a

def act (kind : ClientKind) (timeout_ : Bool) (a : ConnectAttempt) :
    AttemptAction → Option ConnectAttempt
  | .connect fault armed failThrows =>
    if a.workerStopped = false ∧ a.stage = .posted then
      some (a.connect kind timeout_ fault armed failThrows)
    else none
  | .resolveStep throws failThrows =>
    match a.workerStopped, a.stage with
    | false, .resolving (some ec) => some (a.resolveStep ec throws failThrows)
    | _, _ => none
  | .connectStep throws failThrows =>
    match a.workerStopped, a.stage with
    | false, .connecting (some ec) => some (a.connectStep ec throws failThrows)
    | _, _ => none
  | .timeout =>
    match a.workerStopped, a.timer with
    | false, .due => some (a.timeout kind)
    | false, .cancelled => some { a with timer := .done }
    | _, _ => none
  | .complete ec =>
    match a.stage with
    | .resolving none => some { a with stage := .resolving (some ec) }
    | .connecting none => some { a with stage := .connecting (some ec) }
    | _ => none
  | .expire => if a.timer = .waiting then some { a with timer := .due } else none
  | .disconnect =>
    -- the connection is known to its users once it has been announced
    if .connected ∈ a.reports then some { a with socket := false, gateClosed := true } else none
  | .stopWorker => some { a with workerStopped := true }

/-- Nothing happens in a process that has ended. -/
def step (kind : ClientKind) (timeout_ : Bool) (a : ConnectAttempt) (action : AttemptAction) :
    Option ConnectAttempt :=
  if a.escaped then none else a.act kind timeout_ action

/-! ### What is reported -/

/-- An attempt that is over has reported, once unless a callback has thrown; one that is not has
not, and the connection is nobody else's. -/
structure Reported (a : ConnectAttempt) : Prop where
  pending : a.stage ≠ .over → a.reports = [] ∧ a.threw = false
  calm : a.stage = .over → a.threw = false → a.reports = [.connected] ∨ a.reports = [.failed]
  thrown : a.stage = .over → a.threw = true → a.reports = [.connected, .failed] ∨
    a.reports = [.failed] ∨ a.reports = [.failed, .failed]
  owned : .connected ∉ a.reports → a.socket = true ∧ a.gateClosed = false

variable {a a' : ConnectAttempt} {kind : ClientKind} {timeout_ : Bool}

theorem act_of_step {action : AttemptAction} (stepped : a.step kind timeout_ action = some a') :
    a.escaped = false ∧ a.act kind timeout_ action = some a' := by
  obtain ⟨alive, acts⟩ := Option.ite_none_left_eq_some.mp stepped
  exact ⟨Bool.eq_false_iff.mpr alive, acts⟩

theorem Reported.unreported (reported : a.Reported) (pending : a.stage ≠ .over) :
    a.reports = [] ∧ a.threw = false ∧ a.socket = true ∧ a.gateClosed = false := by
  obtain ⟨none_, calm⟩ := reported.pending pending
  have own := reported.owned (by rw [none_]; exact List.not_mem_nil)
  exact ⟨none_, calm, own⟩

/-- Only the timer, or who may run, has changed. -/
theorem Reported.same (reported : a.Reported) (stage : a'.stage = .over ↔ a.stage = .over)
    (reports : a'.reports = a.reports) (threw : a'.threw = a.threw)
    (owned : .connected ∉ a.reports → a'.socket = true ∧ a'.gateClosed = false) :
    a'.Reported where
  pending open_ := by
    rw [reports, threw]
    exact reported.pending fun ended => open_ (stage.mpr ended)
  calm ended := by
    rw [reports, threw]
    exact reported.calm (stage.mp ended)
  thrown ended := by
    rw [reports, threw]
    exact reported.thrown (stage.mp ended)
  owned := by
    rw [reports]
    exact owned

theorem cancelTimeout_eq (a : ConnectAttempt) : ∃ timer, a.cancelTimeout = { a with timer } := by
  unfold cancelTimeout
  split
  · exact ⟨.cancelled, rfl⟩
  · exact ⟨a.timer, rfl⟩

/-- The handler of the timer ends no attempt by itself. -/
theorem timeout_eq (kind : ClientKind) (a : ConnectAttempt) :
    ∃ stage cut dangling, a.timeout kind = { a with stage, cut, dangling, timer := .done } ∧
      (stage = .over ↔ a.stage = .over) := by
  unfold timeout
  dsimp only
  split
  next resolving =>
    have going : (ConnectStage.resolving (some (some 125)) = .over ↔ a.stage = .over) := by
      rw [resolving.2]
      decide
    split
    · exact ⟨_, _, _, rfl, going⟩
    · split
      · exact ⟨_, _, _, rfl, going⟩
      · exact ⟨_, _, _, rfl, going⟩
  · split
    · exact ⟨_, _, _, rfl, Iff.rfl⟩
    · split
      · exact ⟨_, _, _, rfl, Iff.rfl⟩
      · exact ⟨_, _, _, rfl, Iff.rfl⟩

/-- An attempt that goes on with nothing reported before. -/
theorem reported_going (going : a.stage ≠ .over) (none_ : a.reports = []) (calm : a.threw = false)
    (owned : a.socket = true ∧ a.gateClosed = false) : a.Reported :=
  ⟨fun _ => ⟨none_, calm⟩, fun ended => absurd ended going, fun ended => absurd ended going,
    fun _ => owned⟩

/-- An attempt that ends with nothing reported before. -/
theorem reported_caught (ended : a.stage = .over) (none_ : a.reports = [])
    (owned : a.socket = true ∧ a.gateClosed = false) (failThrows : Bool) :
    (a.caught failThrows).Reported := by
  have reports : (a.caught failThrows).reports = [.failed] := by rw [caught, none_]; rfl
  refine ⟨fun open_ => absurd ended open_, ?_, ?_, fun _ => owned⟩
  · exact fun _ _ => .inr reports
  · exact fun _ _ => .inr (.inl reports)

theorem reported_failed (ended : a.stage = .over) (none_ : a.reports = []) (calm : a.threw = false)
    (owned : a.socket = true ∧ a.gateClosed = false) (throws failThrows : Bool) :
    (a.failed throws failThrows).Reported := by
  unfold failed
  cases throws with
  | false =>
    refine ⟨fun open_ => absurd ended open_, ?_, ?_, fun _ => owned⟩
    · exact fun _ _ => .inr (by simp [none_])
    · intro _ threw
      simp [calm] at threw
  | true =>
    refine ⟨fun open_ => absurd ended open_, ?_, ?_, fun _ => owned⟩
    · intro _ threw
      simp [caught] at threw
    · exact fun _ _ => .inr (.inr (by simp [caught, none_]))

theorem reported_announced (ended : a.stage = .over) (none_ : a.reports = [])
    (calm : a.threw = false) (throws failThrows : Bool) :
    (a.announced throws failThrows).Reported := by
  unfold announced
  cases throws with
  | false =>
    refine ⟨fun open_ => absurd ended open_, ?_, ?_, ?_⟩
    · exact fun _ _ => .inl (by simp [none_])
    · intro _ threw
      simp [calm] at threw
    · intro unknown
      simp at unknown
  | true =>
    refine ⟨fun open_ => absurd ended open_, ?_, ?_, ?_⟩
    · intro _ threw
      simp [caught] at threw
    · exact fun _ _ => .inl (by simp [caught, none_])
    · intro unknown
      simp [caught] at unknown

/-- The handlers of an attempt that is under way find their scope and their socket. -/
theorem resolveStep_none (reported : a.Reported) (going : a.stage ≠ .over)
    (throws failThrows : Bool) :
    a.resolveStep none throws failThrows = { a with stage := .connecting none } := by
  obtain ⟨-, -, socket, gate⟩ := reported.unreported going
  unfold resolveStep
  rw [if_neg (Bool.eq_false_iff.mp gate)]
  dsimp only
  rw [if_pos socket]

theorem resolveStep_some (reported : a.Reported) (going : a.stage ≠ .over) (code : Nat)
    (throws failThrows : Bool) :
    a.resolveStep (some code) throws failThrows =
      { a with stage := .over }.failed throws failThrows := by
  obtain ⟨-, -, -, gate⟩ := reported.unreported going
  unfold resolveStep
  rw [if_neg (Bool.eq_false_iff.mp gate)]

theorem connectStep_none (reported : a.Reported) (going : a.stage ≠ .over)
    (throws failThrows : Bool) :
    a.connectStep none throws failThrows =
      ({ a with stage := .over }.cancelTimeout).announced throws failThrows := by
  obtain ⟨-, -, socket, gate⟩ := reported.unreported going
  obtain ⟨timer, is⟩ := cancelTimeout_eq { a with stage := .over }
  unfold connectStep
  rw [is]
  dsimp only
  rw [if_neg (Bool.eq_false_iff.mp gate), if_pos socket]

theorem connectStep_some (reported : a.Reported) (going : a.stage ≠ .over) (code : Nat)
    (throws failThrows : Bool) :
    a.connectStep (some code) throws failThrows =
      ({ a with stage := .over }.cancelTimeout).failed throws failThrows := by
  obtain ⟨-, -, -, gate⟩ := reported.unreported going
  obtain ⟨timer, is⟩ := cancelTimeout_eq { a with stage := .over }
  unfold connectStep
  rw [is]
  dsimp only
  rw [if_neg (Bool.eq_false_iff.mp gate)]

theorem reported_step (a : ConnectAttempt) (act : AttemptAction) (a' : ConnectAttempt)
    (reported : a.Reported) (stepped : a.step kind timeout_ act = some a') : a'.Reported := by
  obtain ⟨-, stepped⟩ := act_of_step stepped
  cases act with
  | connect fault armed failThrows =>
    simp only [ConnectAttempt.act, Option.ite_none_right_eq_some, Option.some.injEq] at stepped
    obtain ⟨⟨-, posted⟩, rfl⟩ := stepped
    obtain ⟨none_, calm, own⟩ := reported.unreported (by rw [posted]; decide)
    unfold connect
    -- `connect` throws and reports at once, or begins an operation
    split
    · apply reported_caught
      · rfl
      · exact none_
      · exact own
    · apply reported_going
      · intro ended
        cases kind with
        | tcp => cases ended
        | unixLocal => cases ended
      · exact none_
      · exact calm
      · exact own
  | resolveStep throws failThrows =>
    simp only [ConnectAttempt.act] at stepped
    split at stepped
    next ec running stage =>
      obtain rfl := Option.some.inj stepped
      have going : a.stage ≠ .over := by rw [stage]; intro h; cases h
      obtain ⟨none_, calm, own⟩ := reported.unreported going
      cases ec with
      | none =>
        rw [resolveStep_none reported going]
        exact reported_going (fun ended => by cases ended) none_ calm own
      | some code =>
        rw [resolveStep_some reported going]
        exact reported_failed (a := { a with stage := .over }) rfl none_ calm own throws failThrows
    · cases stepped
  | connectStep throws failThrows =>
    simp only [ConnectAttempt.act] at stepped
    split at stepped
    next ec running stage =>
      obtain rfl := Option.some.inj stepped
      have going : a.stage ≠ .over := by rw [stage]; intro h; cases h
      obtain ⟨none_, calm, own⟩ := reported.unreported going
      -- the timer is cancelled in both cases, before the callback is called
      obtain ⟨timer, is⟩ := cancelTimeout_eq { a with stage := .over }
      cases ec with
      | none =>
        rw [connectStep_none reported going, is]
        exact reported_announced (a := { a with stage := .over, timer }) rfl none_ calm throws
          failThrows
      | some code =>
        rw [connectStep_some reported going, is]
        exact reported_failed (a := { a with stage := .over, timer }) rfl none_ calm own throws
          failThrows
    · cases stepped
  | timeout =>
    simp only [ConnectAttempt.act] at stepped
    split at stepped
    · obtain rfl := Option.some.inj stepped
      -- the timer makes an operation fail, and the handler of that operation reports it
      obtain ⟨stage, cut, dangling, is, same⟩ := timeout_eq kind a
      rw [is]
      exact reported.same same rfl rfl reported.owned
    · obtain rfl := Option.some.inj stepped
      exact reported.same Iff.rfl rfl rfl reported.owned
    · cases stepped
  | complete ec =>
    simp only [ConnectAttempt.act] at stepped
    split at stepped
    next stage =>
      obtain rfl := Option.some.inj stepped
      exact reported.same (by simp [stage]) rfl rfl reported.owned
    next stage =>
      obtain rfl := Option.some.inj stepped
      exact reported.same (by simp [stage]) rfl rfl reported.owned
    · cases stepped
  | expire =>
    simp only [ConnectAttempt.act, Option.ite_none_right_eq_some, Option.some.injEq] at stepped
    obtain ⟨-, rfl⟩ := stepped
    exact reported.same Iff.rfl rfl rfl reported.owned
  | disconnect =>
    simp only [ConnectAttempt.act, Option.ite_none_right_eq_some, Option.some.injEq] at stepped
    obtain ⟨known, rfl⟩ := stepped
    -- only who has been given the connection can disconnect it
    exact reported.same Iff.rfl rfl rfl fun unknown => absurd known unknown
  | stopWorker =>
    obtain rfl := Option.some.inj stepped
    exact reported.same Iff.rfl rfl rfl reported.owned

theorem reported_start : ({} : ConnectAttempt).Reported :=
  reported_going (by decide) rfl rfl ⟨rfl, rfl⟩

/-- Every attempt reports once, unless a callback throws: whatever the timer, the resolver and the
connection do, and in whatever order their handlers run. -/
theorem reports_once (kind : ClientKind) (timeout_ : Bool) {acts : List AttemptAction}
    (visited : Visits (step kind timeout_) {} acts a) : a.Reported :=
  visited.invariant reported_step reported_start

private def expiredResolving : List AttemptAction :=
  [.connect false false false, .expire, .timeout, .resolveStep true false]

/-- The timer cancels the resolver, the fail callback throws, and is called again by the `catch`
of the handler. -/
theorem reports_once_expired :
    ∃ a, run (step .tcp true) {} expiredResolving = some a ∧
      a.reports = [.failed, .failed] ∧ a.threw = true ∧ a.Reported := by
  have visited : Visits (step .tcp true) {} expiredResolving _ := visits_of_run rfl
  exact ⟨_, rfl, rfl, rfl, reports_once .tcp true visited⟩

/-! ### What the timer may hit -/

/-- The timer has done nothing to an announced connection, and would not if its handler ran. -/
structure Unharmed (kind : ClientKind) (a : ConnectAttempt) : Prop where
  uncut : a.cut = false
  attached : a.dangling = false
  spared : a.escaped = false → a.workerStopped = false → a.timer = .due →
    (a.timeout kind).cut = false ∧ (a.timeout kind).dangling = false

/-- The connection is not announced while the expired timer waits in the queue, unless that ends
the process. -/
def InTime (a : ConnectAttempt) : AttemptAction → Prop
  | .connectStep throws failThrows => ¬ (a.escaped = false ∧ a.workerStopped = false ∧
      a.stage = .connecting (some none) ∧ a.timer = .due ∧ (throws && failThrows) = false)
  | _ => True

/-- What is known of an announced connection; its timer can no longer expire. -/
structure Guarded (a : ConnectAttempt) : Prop where
  reported : a.Reported
  uncut : a.cut = false
  attached : a.dangling = false
  clear : a.escaped = false → a.timer = .due → .connected ∉ a.reports
  stopped : .connected ∈ a.reports → a.stage = .over ∧ a.timer ≠ .waiting

theorem not_announced (reported : a.Reported) (going : a.stage ≠ .over) :
    .connected ∉ a.reports := by
  rw [(reported.pending going).1]
  exact List.not_mem_nil

theorem Guarded.of_unannounced (reported : a.Reported) (uncut : a.cut = false)
    (attached : a.dangling = false) (unknown : .connected ∉ a.reports) : a.Guarded :=
  ⟨reported, uncut, attached, fun _ _ => unknown, fun known => absurd known unknown⟩

theorem failed_not_announced (none_ : a.reports = []) (throws failThrows : Bool) :
    .connected ∉ (a.failed throws failThrows).reports := by
  unfold failed
  cases throws with
  | false => simp [none_]
  | true => simp [caught, none_]

/-- What the callbacks do has nothing to do with the timer. -/
theorem failed_marks (a : ConnectAttempt) (throws failThrows : Bool) :
    (a.failed throws failThrows).cut = a.cut ∧
      (a.failed throws failThrows).dangling = a.dangling := by
  unfold failed
  cases throws with
  | false => exact ⟨rfl, rfl⟩
  | true => exact ⟨rfl, rfl⟩

theorem announced_marks (a : ConnectAttempt) (throws failThrows : Bool) :
    (a.announced throws failThrows).cut = a.cut ∧
      (a.announced throws failThrows).dangling = a.dangling ∧
      (a.announced throws failThrows).timer = a.timer ∧
      (a.announced throws failThrows).stage = a.stage ∧
      .connected ∈ (a.announced throws failThrows).reports := by
  unfold announced
  cases throws with
  | false => exact ⟨rfl, rfl, rfl, rfl, by simp⟩
  | true => exact ⟨rfl, rfl, rfl, rfl, by simp [caught]⟩

/-- Nor with who holds the socket and who may run, but they may end the process. -/
theorem announced_keeps (a : ConnectAttempt) (throws failThrows : Bool) :
    (a.announced throws failThrows).socket = a.socket ∧
      (a.announced throws failThrows).workerStopped = a.workerStopped ∧
      (a.announced throws failThrows).escaped = (a.escaped || throws && failThrows) := by
  unfold announced
  cases throws with
  | false => exact ⟨rfl, rfl, (Bool.or_false a.escaped).symm⟩
  | true => exact ⟨rfl, rfl, rfl⟩

theorem timer_cancelTimeout (a : ConnectAttempt) :
    a.cancelTimeout.timer = if a.timer = .waiting then .cancelled else a.timer := by
  unfold cancelTimeout
  split
  next waiting => rw [if_pos waiting]
  next other => rw [if_neg other]

/-- A timer that expires in time ends no more than the attempt. -/
theorem timeout_harmless (kind : ClientKind) (socket : a.socket = true)
    (unknown : .connected ∉ a.reports) :
    ∃ stage, a.timeout kind = { a with stage, timer := .done } := by
  have there : ¬ a.socket = false := by simp [socket]
  unfold timeout
  dsimp only
  by_cases resolving : kind = .tcp ∧ a.stage = .resolving none
  · simp only [if_pos resolving, if_neg there, if_neg unknown]
    exact ⟨_, rfl⟩
  · simp only [if_neg resolving, if_neg there, if_neg unknown]
    exact ⟨_, rfl⟩

theorem Guarded.unharmed (guarded : a.Guarded) (kind : ClientKind) : a.Unharmed kind where
  uncut := guarded.uncut
  attached := guarded.attached
  spared alive _ due := by
    have unknown := guarded.clear alive due
    obtain ⟨stage, is⟩ := timeout_harmless kind (guarded.reported.owned unknown).1 unknown
    rw [is]
    exact ⟨guarded.uncut, guarded.attached⟩

/-- A connection is announced whose timer has not expired, or that is the end of the process. -/
theorem Guarded.announce (guarded : a.Guarded) {throws failThrows : Bool}
    (early : (throws && failThrows) = false → a.timer ≠ .due)
    (reported : (({ a with stage := .over }.cancelTimeout).announced throws failThrows).Reported) :
    (({ a with stage := .over }.cancelTimeout).announced throws failThrows).Guarded := by
  obtain ⟨cut, dangling, timer, ended, known⟩ :=
    announced_marks ({ a with stage := .over }.cancelTimeout) throws failThrows
  obtain ⟨-, -, escaped⟩ :=
    announced_keeps ({ a with stage := .over }.cancelTimeout) throws failThrows
  have cancelled := timer_cancelTimeout { a with stage := .over }
  obtain ⟨timer', is⟩ := cancelTimeout_eq { a with stage := .over }
  have passed : ((throws && failThrows) = false → timer' ≠ .due) ∧ timer' ≠ .waiting := by
    rw [is] at cancelled
    change timer' = if a.timer = .waiting then .cancelled else a.timer at cancelled
    rw [cancelled]
    split
    · exact ⟨fun _ => by decide, by decide⟩
    next other => exact ⟨early, other⟩
  rw [is] at cut dangling timer ended escaped reported ⊢
  refine ⟨reported, cut.trans guarded.uncut, dangling.trans guarded.attached, fun alive due => ?_,
    fun _ => ⟨ended, fun waits => ?_⟩⟩
  · rw [escaped, Bool.or_eq_false_iff] at alive
    exact absurd (timer.symm.trans due) (passed.1 alive.2)
  · exact passed.2 (timer.symm.trans waits)

/-- An attempt that fails announces nothing. -/
theorem guarded_failed (none_ : a.reports = []) (uncut : a.cut = false)
    (attached : a.dangling = false) {throws failThrows : Bool}
    (reported : (a.failed throws failThrows).Reported) : (a.failed throws failThrows).Guarded := by
  have marks := failed_marks a throws failThrows
  exact .of_unannounced reported (marks.1.trans uncut) (marks.2.trans attached)
    (failed_not_announced none_ throws failThrows)

theorem guarded_step (a : ConnectAttempt) (act : AttemptAction) (a' : ConnectAttempt)
    (guarded : a.Guarded) (inTime : a.InTime act) (stepped : a.step kind timeout_ act = some a') :
    a'.Guarded := by
  have reported := reported_step a act a' guarded.reported stepped
  have ⟨_, uncut, attached, clear, _⟩ := guarded
  obtain ⟨alive, stepped⟩ := act_of_step stepped
  cases act with
  | connect fault armed failThrows =>
    simp only [ConnectAttempt.act, Option.ite_none_right_eq_some, Option.some.injEq] at stepped
    obtain ⟨⟨-, posted⟩, rfl⟩ := stepped
    have unknown := not_announced guarded.reported (by rw [posted]; decide)
    unfold connect at reported ⊢
    split at reported
    next faulty =>
      rw [if_pos faulty]
      exact .of_unannounced reported uncut attached (by simpa [caught] using unknown)
    next fine =>
      rw [if_neg fine]
      exact .of_unannounced reported uncut attached unknown
  | resolveStep throws failThrows =>
    simp only [ConnectAttempt.act] at stepped
    split at stepped
    next ec running stage =>
      obtain rfl := Option.some.inj stepped
      have going : a.stage ≠ .over := by rw [stage]; intro h; cases h
      have unknown := not_announced guarded.reported going
      cases ec with
      | none =>
        rw [resolveStep_none guarded.reported going] at reported ⊢
        exact .of_unannounced reported uncut attached unknown
      | some code =>
        rw [resolveStep_some guarded.reported going] at reported ⊢
        exact guarded_failed (a := { a with stage := .over }) (guarded.reported.pending going).1
          uncut attached reported
    · cases stepped
  | connectStep throws failThrows =>
    simp only [ConnectAttempt.act] at stepped
    split at stepped
    next ec running stage =>
      obtain rfl := Option.some.inj stepped
      have going : a.stage ≠ .over := by rw [stage]; intro h; cases h
      cases ec with
      | none =>
        -- a timer that has not expired yet has been cancelled
        have early (calm : (throws && failThrows) = false) : a.timer ≠ .due :=
          fun due => inTime ⟨alive, running, stage, due, calm⟩
        rw [connectStep_none guarded.reported going] at reported ⊢
        exact guarded.announce early reported
      | some code =>
        obtain ⟨timer, is⟩ := cancelTimeout_eq { a with stage := .over }
        rw [connectStep_some guarded.reported going, is] at reported ⊢
        exact guarded_failed (a := { a with stage := .over, timer })
          (guarded.reported.pending going).1 uncut attached reported
    · cases stepped
  | timeout =>
    simp only [ConnectAttempt.act] at stepped
    split at stepped
    next running due =>
      obtain rfl := Option.some.inj stepped
      have unknown := clear alive due
      obtain ⟨socket, -⟩ := guarded.reported.owned unknown
      obtain ⟨stage, is⟩ := timeout_harmless kind socket unknown
      rw [is] at reported ⊢
      exact .of_unannounced reported uncut attached unknown
    · obtain rfl := Option.some.inj stepped
      have stopped := fun known => (guarded.stopped known).1
      exact ⟨reported, uncut, attached, by simp, fun known => ⟨stopped known, by simp⟩⟩
    · cases stepped
  | complete ec =>
    simp only [ConnectAttempt.act] at stepped
    split at stepped
    next stage =>
      obtain rfl := Option.some.inj stepped
      have unknown := not_announced guarded.reported (by rw [stage]; intro h; cases h)
      exact .of_unannounced reported uncut attached unknown
    next stage =>
      obtain rfl := Option.some.inj stepped
      have unknown := not_announced guarded.reported (by rw [stage]; intro h; cases h)
      exact .of_unannounced reported uncut attached unknown
    · cases stepped
  | expire =>
    simp only [ConnectAttempt.act, Option.ite_none_right_eq_some, Option.some.injEq] at stepped
    obtain ⟨waiting, rfl⟩ := stepped
    have unknown : .connected ∉ a.reports := fun known => (guarded.stopped known).2 waiting
    exact .of_unannounced reported uncut attached unknown
  | disconnect =>
    simp only [ConnectAttempt.act, Option.ite_none_right_eq_some, Option.some.injEq] at stepped
    obtain ⟨known, rfl⟩ := stepped
    exact ⟨reported, uncut, attached, clear, guarded.stopped⟩
  | stopWorker =>
    obtain rfl := Option.some.inj stepped
    exact ⟨reported, uncut, attached, clear, guarded.stopped⟩

theorem guarded_start : ({} : ConnectAttempt).Guarded :=
  .of_unannounced reported_start rfl rfl List.not_mem_nil

/-- The handler of the timer cuts a connection that has been announced and not given up. -/
theorem cut_timeout (kind : ClientKind) (socket : a.socket = true)
    (known : .connected ∈ a.reports) : (a.timeout kind).cut = true := by
  have there : ¬ a.socket = false := by simp [socket]
  unfold timeout
  dsimp only
  by_cases resolving : kind = .tcp ∧ a.stage = .resolving none
  · simp only [if_pos resolving, if_neg there, if_pos known]
  · simp only [if_neg resolving, if_neg there, if_pos known]

/-- A handler of the timer that an announcement overtakes is left in the queue, and hits. -/
theorem harmed_of_late (reported : a.Reported) (act : AttemptAction) (late : ¬ a.InTime act) :
    ∃ a', a.step kind timeout_ act = some a' ∧ ¬ a'.Unharmed kind := by
  cases act with
  | connectStep throws failThrows =>
    obtain ⟨alive, running, stage, due, calm⟩ := Classical.not_not.mp late
    have going : a.stage ≠ .over := by rw [stage]; intro h; cases h
    obtain ⟨-, -, socket, -⟩ := reported.unreported going
    -- there is nothing left to cancel
    have behind : { a with stage := .over }.cancelTimeout = { a with stage := .over } := by
      unfold cancelTimeout
      rw [due]
    obtain ⟨-, -, timer, -, known⟩ := announced_marks { a with stage := .over } throws failThrows
    obtain ⟨owned, runs, escaped⟩ := announced_keeps { a with stage := .over } throws failThrows
    have lives : ({ a with stage := .over }.announced throws failThrows).escaped = false := by
      rw [escaped, calm, alive]
      rfl
    refine ⟨a.connectStep none throws failThrows, ?_, fun unharmed => ?_⟩
    · simp [step, ConnectAttempt.act, alive, running, stage]
    · rw [connectStep_none reported going, behind] at unharmed
      have spared := (unharmed.spared lives (runs.trans running) (timer.trans due)).1
      rw [cut_timeout kind (owned.trans socket) known] at spared
      cases spared
  | _ => exact absurd trivial late

/-- The timer of an attempt leaves an announced connection alone, and is never about to hit it,
throughout a run exactly if no connection is announced with the expired timer in the queue, unless
that ends the process. -/
theorem unharmed_iff_inTime (kind : ClientKind) (timeout_ : Bool) (acts : List AttemptAction) :
    (∀ a, Visits (step kind timeout_) {} acts a → a.Unharmed kind) ↔
      Meets (step kind timeout_) InTime {} acts :=
  always_iff guarded_step (fun _ guarded => guarded.unharmed kind)
    (fun _ act guarded late => harmed_of_late guarded.reported act late) acts guarded_start

end ConnectAttempt

end ServerLib.Network
