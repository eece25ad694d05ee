import Mathlib.Data.List.Perm.Basic
import Mathlib.Logic.Function.Basic
import ServerLib.Foundation.Transition
import ServerLib.Web.RequestReporting

/-!
# The sessions of the web server

`server_base_impl` goes from one asynchronous operation of a connection to the next. A response
belongs to whoever has a shared pointer to it, and its deleter sends what has been posted to it;
the completion of that write starts the next session. So a callback can answer later and from any
thread, and the operations of all connections complete in any order.

What a socket brings, and when the peer closes it or a timeout does, is up to the environment. The
handler of an operation is one step.
-/
namespace ServerLib.Web

open Network (Bytes)
open Transition

/-- A response that somebody holds, with the session that it belongs to. -/
structure HeldResponse where
  connection : Nat
  request : Nat
  message : RequestMessage
  streambuf : Bytes := []
  closeConnectionAfterResponse : Bool := false
  /-- `resource_function` has not returned -/
  inCallback : Bool := true

/-- An operation that has not completed, or a response that has not been released. -/
inductive ServerTask where
  | accept (connection : Nat)
  | read (connection request : Nat) (step : ServerStep)
  | respond (response : HeldResponse)
  | write (response : HeldResponse)
  /-- the write of a response to a request that is too large, which nothing follows -/
  | refuse (connection request : Nat)

/-- The server, with a record of what its callbacks have been given and what it has sent.
Connections and requests are numbered. -/
structure ServerSessions where
  tasks : List ServerTask := [.accept 0]
  nextConnection : Nat := 1
  nextRequestId : Nat := 1
  socket : Nat → Socket := fun _ => ⟨[], none⟩
  stopped : Bool := false
  /-- what the reading of the requests of a connection has come to -/
  ended : Nat → List (Nat × ServerStep) := fun _ => []
  /-- the requests of a connection that a callback has been called for -/
  called : Nat → List Nat := fun _ => []
  /-- what has been posted to the response of a request -/
  posted : Nat → Bytes := fun _ => []
  /-- what has been written to a connection, with the requests that it answers -/
  sent : Nat → List (Nat × Bytes) := fun _ => []
  reported : List (Nat × ErrorCode) := []

inductive SessionAction where
  | arrive (connection : Nat) (socket : Socket)
  | accepted (i : Nat) (ec : Option ErrorCode) (socket : Socket)
  | received (i : Nat)
  | post (i : Nat) (code : HttpStatusCode) (content : Bytes) (header : Header)
  | closeAfterResponse (i : Nat)
  | return_ (i : Nat) (throws : Bool)
  /-- The last holder of a response lets go of it. -/
  | release (i : Nat)
  | written (i : Nat) (ec : Option ErrorCode)
  | stop

namespace ServerTask

def connection : ServerTask → Nat
  | accept c | read c _ _ | refuse c _ => c
  | respond r | write r => r.connection

/-- The request that the task is there for. -/
def request : ServerTask → Option Nat
  | accept _ => none
  | read _ id _ | refuse _ id => some id
  | respond r | write r => some r.request

/-- The request that is read. -/
def reading : ServerTask → Option Nat
  | read _ id _ => some id
  | _ => none

/-- The request whose response is held. -/
def held : ServerTask → List Nat
  | respond r => [r.request]
  | _ => []

end ServerTask

/-- The response to a request that is too large. -/
def tooLargeText : Bytes := post false .clientErrorPayloadTooLarge [] []

namespace ServerSessions

def add (s : ServerSessions) (task : ServerTask) : ServerSessions :=
  { s with tasks := s.tasks ++ [task] }

def without (s : ServerSessions) (i : Nat) : ServerSessions :=
  { s with tasks := s.tasks.eraseIdx i }

def report (s : ServerSessions) (id : Nat) (ec : ErrorCode) : ServerSessions :=
  { s with reported := s.reported ++ [(id, ec)] }

def send (s : ServerSessions) (connection id : Nat) (text : Bytes) : ServerSessions :=
  { s with sent := Function.update s.sent connection (s.sent connection ++ [(id, text)]) }

/-- `accept`: another connection, and the operation that waits for its peer. -/
def accept (s : ServerSessions) : ServerSessions :=
  { s with nextConnection := s.nextConnection + 1 }.add (.accept s.nextConnection)

/-- A new session, and its `read`. -/
def read (config : ServerConfig) (s : ServerSessions) (connection : Nat) : ServerSessions :=
  { s with nextRequestId := s.nextRequestId + 1 }.add
    (.read connection s.nextRequestId (.readHeader (.new config)))

/-- The handler of `async_accept`. -/
def afterAccept (config : ServerConfig) (s : ServerSessions) (connection : Nat)
    (ec : Option ErrorCode) (socket : Socket) : ServerSessions :=
  if s.stopped then s
  else
    let s := if ec = some .operationAborted then s else s.accept
    match ec with
    | none => { s with socket := Function.update s.socket connection socket }.read config connection
    -- the session has been made before the error is looked at
    | some ec => { s with nextRequestId := s.nextRequestId + 1 }.report s.nextRequestId ec

variable {η : Type} [HeaderFind] [RegexMatch]

/-- What follows a read: another one, or what the session has come to. -/
def goOn (server : Server η) (s : ServerSessions) (connection id : Nat) (step : ServerStep) :
    ServerSessions :=
  if step.isRead then s.add (.read connection id step)
  else
    match server.callback step with
    | some (.handler _ request) =>
      { s with called := Function.update s.called connection (s.called connection ++ [id]) }.add
        (.respond { connection, request := id, message := request.message })
    | some (.onError ec) =>
      match step with
      | .tooLarge => ((s.send connection id tooLargeText).add (.refuse connection id)).report id ec
      | _ => s.report id ec
    -- the connection is the callback's, or nobody's any more
    | some (.onUpgrade _) | none => s

/-- The record of what a read has come to. -/
def note (s : ServerSessions) (connection id : Nat) (step : ServerStep) : ServerSessions :=
  if step.isRead then s
  else
    { s with
      ended := Function.update s.ended connection (s.ended connection ++ [(id, step)]) }

/-- The handler of a read. -/
def afterRead (server : Server η) (s : ServerSessions) (connection id : Nat)
    (t : Turn ServerStep) (socket : Socket) : ServerSessions :=
  let s := { s with socket := Function.update s.socket connection socket }
  if s.stopped then s else (s.note connection id t.step).goOn server connection id t.step

/-- The callback of `send` in `write`. -/
def afterWrite (config : ServerConfig) (s : ServerSessions) (response : HeldResponse)
    (ec : Option ErrorCode) : ServerSessions :=
  if s.stopped then s
  else
    match ec with
    | none =>
      if readsOn response.message ⟨response.closeConnectionAfterResponse, none⟩ then
        s.read config response.connection
      else s
    | some ec => s.report response.request ec

/-- A step of a callback, or of the environment; `none` where it is not possible. -/
def step (server : Server η) (s : ServerSessions) : SessionAction → Option ServerSessions
  | .arrive connection socket =>
    some { s with socket := Function.update s.socket connection socket }
  | .accepted i ec socket =>
    match s.tasks[i]? with
    | some (.accept connection) =>
      some ((s.without i).afterAccept server.config connection ec socket)
    | _ => none
  | .received i =>
    match s.tasks[i]? with
    | some (.read connection id step) =>
      (serverTurn server.config step (s.socket connection)).map fun (t, socket) =>
        (s.without i).afterRead server connection id t socket
    | _ => none
  | .post i code content header =>
    match s.tasks[i]? with
    | some (.respond r) =>
      let text := post r.closeConnectionAfterResponse code content header
      let posted := Function.update s.posted r.request (s.posted r.request ++ text)
      some ({ s.without i with posted }.add (.respond { r with streambuf := r.streambuf ++ text }))
    | _ => none
  | .closeAfterResponse i =>
    match s.tasks[i]? with
    | some (.respond r) =>
      some ((s.without i).add (.respond { r with closeConnectionAfterResponse := true }))
    | _ => none
  | .return_ i throws =>
    match s.tasks[i]? with
    | some (.respond r) =>
      if r.inCallback then
        let s := s.without i
        let s := if throws then s.report r.request .operationCanceled else s
        some (s.add (.respond { r with inCallback := false }))
      else none
    | _ => none
  | .release i =>
    match s.tasks[i]? with
    | some (.respond r) =>
      -- `write` holds the response until the callback has returned
      if r.inCallback then none
      else some (((s.without i).send r.connection r.request r.streambuf).add (.write r))
    | _ => none
  | .written i ec =>
    match s.tasks[i]? with
    | some (.write r) => some ((s.without i).afterWrite server.config r ec)
    | some (.refuse _ _) => some (s.without i)
    | _ => none
  | .stop => some { s with stopped := true }

/-- What a step can be. -/
inductive Stepped (server : Server η) (s : ServerSessions) :
    SessionAction → ServerSessions → Prop where
  | arrive (connection : Nat) (socket : Socket) :
      Stepped server s (.arrive connection socket)
        { s with socket := Function.update s.socket connection socket }
  | accepted {i connection : Nat} (ec : Option ErrorCode) (socket : Socket)
      (here : s.tasks[i]? = some (.accept connection)) :
      Stepped server s (.accepted i ec socket)
        ((s.without i).afterAccept server.config connection ec socket)
  | received {i connection id : Nat} {step : ServerStep} (t : Turn ServerStep) (socket : Socket)
      (here : s.tasks[i]? = some (.read connection id step))
      (turn : serverTurn server.config step (s.socket connection) = some (t, socket)) :
      Stepped server s (.received i) ((s.without i).afterRead server connection id t socket)
  | post {i : Nat} {r : HeldResponse} (code : HttpStatusCode) (content : Bytes) (header : Header)
      (here : s.tasks[i]? = some (.respond r)) {text : Bytes}
      (is : text = Web.post r.closeConnectionAfterResponse code content header) :
      Stepped server s (.post i code content header)
        ({ s.without i with
          posted := Function.update s.posted r.request (s.posted r.request ++ text) }.add
            (.respond { r with streambuf := r.streambuf ++ text }))
  | closeAfterResponse {i : Nat} {r : HeldResponse} (here : s.tasks[i]? = some (.respond r)) :
      Stepped server s (.closeAfterResponse i)
        ((s.without i).add (.respond { r with closeConnectionAfterResponse := true }))
  | returned {i : Nat} {r : HeldResponse} (here : s.tasks[i]? = some (.respond r))
      (inside : r.inCallback = true) :
      Stepped server s (.return_ i false)
        ((s.without i).add (.respond { r with inCallback := false }))
  | thrown {i : Nat} {r : HeldResponse} (here : s.tasks[i]? = some (.respond r))
      (inside : r.inCallback = true) :
      Stepped server s (.return_ i true)
        (((s.without i).report r.request .operationCanceled).add
          (.respond { r with inCallback := false }))
  | release {i : Nat} {r : HeldResponse} (here : s.tasks[i]? = some (.respond r))
      (outside : r.inCallback = false) :
      Stepped server s (.release i)
        (((s.without i).send r.connection r.request r.streambuf).add (.write r))
  | written {i : Nat} {r : HeldResponse} (ec : Option ErrorCode)
      (here : s.tasks[i]? = some (.write r)) :
      Stepped server s (.written i ec) ((s.without i).afterWrite server.config r ec)
  | refused {i connection id : Nat} (ec : Option ErrorCode)
      (here : s.tasks[i]? = some (.refuse connection id)) :
      Stepped server s (.written i ec) (s.without i)
  | stop : Stepped server s .stop { s with stopped := true }

theorem stepped_of_step {server : Server η} {s s' : ServerSessions} {a : SessionAction}
    (stepped : s.step server a = some s') : Stepped server s a s' := by
  cases a with
  | arrive connection socket => exact Option.some.inj stepped ▸ .arrive connection socket
  | accepted i ec socket =>
    simp only [step] at stepped
    split at stepped
    next connection here => exact Option.some.inj stepped ▸ .accepted ec socket here
    · cases stepped
  | received i =>
    simp only [step] at stepped
    split at stepped
    next connection id step here =>
      obtain ⟨⟨t, socket⟩, turn, rfl⟩ := Option.map_eq_some_iff.mp stepped
      exact .received t socket here turn
    · cases stepped
  | post i code content header =>
    simp only [step] at stepped
    split at stepped
    next r here => exact Option.some.inj stepped ▸ .post code content header here rfl
    · cases stepped
  | closeAfterResponse i =>
    simp only [step] at stepped
    split at stepped
    next r here => exact Option.some.inj stepped ▸ .closeAfterResponse here
    · cases stepped
  | return_ i throws =>
    simp only [step] at stepped
    split at stepped
    next r here =>
      simp only [Option.ite_none_right_eq_some, Option.some.injEq] at stepped
      obtain ⟨inside, rfl⟩ := stepped
      cases throws with
      | true => exact .thrown here inside
      | false => exact .returned here inside
    · cases stepped
  | release i =>
    simp only [step] at stepped
    split at stepped
    next r here =>
      simp only [Option.ite_none_left_eq_some, Bool.not_eq_true, Option.some.injEq] at stepped
      exact stepped.2 ▸ .release here stepped.1
    · cases stepped
  | written i ec =>
    simp only [step] at stepped
    split at stepped
    next r here => exact Option.some.inj stepped ▸ .written ec here
    next connection id here => exact Option.some.inj stepped ▸ .refused ec here
    · cases stepped
  | stop => exact Option.some.inj stepped ▸ .stop

/-! ### What holds in every run -/

/-- The answer to a request. -/
def answer (s : ServerSessions) (id : Nat) : Nat × Bytes := (id, s.posted id)

/-- What has been sent on a connection, given what it is busy with. -/
def InTurn (s : ServerSessions) (c : Nat) : Option ServerTask → Prop
  | some (.respond r) =>
    ∃ released, s.called c = released ++ [r.request] ∧ s.sent c = released.map s.answer ∧
      r.streambuf = s.posted r.request
  | none | some (.refuse _ _) =>
    -- a refusal is the last that is sent
    ∃ refusal, s.sent c = (s.called c).map s.answer ++ refusal ∧
      (refusal = [] ∨ ∃ id, refusal = [(id, tooLargeText)])
  | _ => s.sent c = (s.called c).map s.answer

/-- Each connection is busy with one task at most; `out` is one whose task has just been taken out
of the list. -/
structure Sound (s : ServerSessions) (out : Option Nat) : Prop where
  distinct : (s.tasks.map ServerTask.connection).Nodup
  known : ∀ task ∈ s.tasks, task.connection < s.nextConnection
  absent : ∀ c, out = some c → c < s.nextConnection ∧ ∀ task ∈ s.tasks, task.connection ≠ c
  numbered : ∀ task ∈ s.tasks, ∀ id, task.request = some id → id < s.nextRequestId
  unshared : ∀ task ∈ s.tasks, ∀ other ∈ s.tasks, ∀ id,
    task.reading = some id → other.reading = some id → task.connection = other.connection
  unread : ∀ task ∈ s.tasks, ∀ id, task.reading = some id → ∀ c, id ∉ s.called c
  issued : ∀ c, ∀ id ∈ s.called c, id < s.nextRequestId
  owner : ∀ c c' id, id ∈ s.called c → id ∈ s.called c' → c = c'
  once : ∀ c, (s.called c).Nodup
  unposted : ∀ id, (∀ c, id ∉ s.called c) → s.posted id = []
  unused : ∀ c, s.nextConnection ≤ c → s.called c = [] ∧ s.sent c = []
  turn : ∀ task ∈ s.tasks, s.InTurn task.connection (some task)
  idle : ∀ c, out ≠ some c → (∀ task ∈ s.tasks, task.connection ≠ c) → s.InTurn c none

variable {s s' : ServerSessions} {c : Nat}

omit [HeaderFind] [RegexMatch] in
theorem sound_start : ({} : ServerSessions).Sound none where
  distinct := List.nodup_singleton _
  known task member := by
    rw [List.mem_singleton.mp member]
    exact Nat.zero_lt_one
  absent _ none_ := by cases none_
  numbered task member id is := by
    rw [List.mem_singleton.mp member] at is
    cases is
  unshared task member _ _ id is := by
    rw [List.mem_singleton.mp member] at is
    cases is
  unread task member id is := by
    rw [List.mem_singleton.mp member] at is
    cases is
  issued _ _ member := by cases member
  owner _ _ _ member := by cases member
  once _ := List.nodup_nil
  unposted _ _ := rfl
  unused _ _ := ⟨rfl, rfl⟩
  turn task member := by
    rw [List.mem_singleton.mp member]
    exact rfl
  idle _ _ _ := ⟨[], rfl, .inl rfl⟩

omit [HeaderFind] [RegexMatch] in
/-- A task that is taken out leaves nothing behind on its connection. -/
theorem Sound.without (sound : s.Sound none) {i : Nat} {task : ServerTask}
    (here : s.tasks[i]? = some task) :
    (s.without i).Sound (some task.connection) ∧ s.InTurn task.connection (some task) := by
  have member := List.mem_of_getElem? here
  have sub : ∀ t ∈ s.tasks.eraseIdx i, t ∈ s.tasks := fun t => List.mem_of_mem_eraseIdx
  -- the task and those that are left, in another order
  have perm : s.tasks.Perm (task :: s.tasks.eraseIdx i) := by
    obtain ⟨inside, rfl⟩ := List.getElem?_eq_some_iff.mp here
    exact (List.getElem_cons_eraseIdx_perm inside).symm
  have distinct := (perm.map ServerTask.connection).nodup_iff.mp sound.distinct
  rw [List.map_cons, List.nodup_cons] at distinct
  have others : ∀ t ∈ s.tasks.eraseIdx i, t.connection ≠ task.connection := by
    intro t there same
    apply distinct.1
    rw [← same]
    exact List.mem_map_of_mem there
  refine ⟨?_, sound.turn task member⟩
  exact
    { sound with
      distinct := distinct.2
      known := fun t there => sound.known t (sub t there)
      absent := by
        rintro c ⟨⟩
        exact ⟨sound.known task member, others⟩
      numbered := fun t there => sound.numbered t (sub t there)
      unshared := fun t there t' there' => sound.unshared t (sub t there) t' (sub t' there')
      unread := fun t there => sound.unread t (sub t there)
      turn := fun t there => sound.turn t (sub t there)
      idle := by
        intro c other gone
        apply sound.idle c (fun none_ => by cases none_)
        intro t there same
        rcases List.mem_cons.mp (perm.mem_iff.mp there) with rfl | there
        · exact other (congrArg some same)
        · exact gone t there same }

omit [HeaderFind] [RegexMatch] in
/-- A connection that nothing is under way on gets a task. -/
theorem Sound.add {out out' : Option Nat} (sound : s.Sound out) {task : ServerTask}
    (known : task.connection < s.nextConnection)
    (gone : ∀ t ∈ s.tasks, t.connection ≠ task.connection)
    (left : ∀ c, out' = some c ↔ out = some c ∧ c ≠ task.connection)
    (turn : s.InTurn task.connection (some task))
    (numbered : ∀ id, task.request = some id → id < s.nextRequestId)
    (fresh : ∀ id, task.reading = some id →
      (∀ t ∈ s.tasks, t.reading ≠ some id) ∧ ∀ c, id ∉ s.called c) :
    (s.add task).Sound out' := by
  have cases : ∀ t ∈ (s.add task).tasks, t ∈ s.tasks ∨ t = task := by
    intro t there
    rw [← List.mem_singleton]
    exact List.mem_append.mp there
  exact
    { sound with
      distinct := by
        rw [ServerSessions.add, List.map_append, List.nodup_append]
        refine ⟨sound.distinct, List.nodup_singleton _, ?_⟩
        rintro _ there _ here rfl
        obtain ⟨t, member, same⟩ := List.mem_map.mp there
        rw [List.map_singleton, List.mem_singleton] at here
        exact gone t member (same.trans here)
      known := by
        intro t there
        rcases cases t there with old | rfl
        · exact sound.known t old
        · exact known
      absent := by
        intro c out_
        obtain ⟨was, other⟩ := (left c).mp out_
        refine ⟨(sound.absent c was).1, fun t there => ?_⟩
        rcases cases t there with old | rfl
        · exact (sound.absent c was).2 t old
        · exact fun same => other same.symm
      numbered := by
        intro t there
        rcases cases t there with old | rfl
        · exact sound.numbered t old
        · exact numbered
      unshared := by
        -- no task reads for the request that the new one reads for
        intro t there t' there' id reads reads'
        rcases cases t there with old | rfl
        · rcases cases t' there' with old' | rfl
          · exact sound.unshared t old t' old' id reads reads'
          · exact absurd reads ((fresh id reads').1 t old)
        · rcases cases t' there' with old' | rfl
          · exact absurd reads' ((fresh id reads).1 t' old')
          · rfl
      unread := by
        intro t there id reads
        rcases cases t there with old | rfl
        · exact sound.unread t old id reads
        · exact (fresh id reads).2
      turn := by
        intro t there
        rcases cases t there with old | rfl
        · exact sound.turn t old
        · exact turn
      idle := by
        intro c other none_
        have here : task.connection ≠ c := none_ task (by simp [ServerSessions.add])
        apply sound.idle c
        · exact fun was => other ((left c).mpr ⟨was, fun same => here same.symm⟩)
        · exact fun t there => none_ t (List.mem_append_left _ there) }

omit [HeaderFind] [RegexMatch] in
theorem Sound.put (sound : s.Sound (some c)) {task : ServerTask} (here : task.connection = c)
    (turn : s.InTurn c (some task))
    (numbered : ∀ id, task.request = some id → id < s.nextRequestId)
    (fresh : ∀ id, task.reading = some id →
      (∀ t ∈ s.tasks, t.reading ≠ some id) ∧ ∀ c, id ∉ s.called c) :
    (s.add task).Sound none := by
  subst here
  obtain ⟨known, gone⟩ := sound.absent _ rfl
  apply sound.add known gone _ turn numbered fresh
  intro c
  refine iff_of_false (fun none_ => by cases none_) ?_
  rintro ⟨⟨⟩, other⟩
  exact other rfl

omit [HeaderFind] [RegexMatch] in
/-- Nothing is under way on the connection any more. -/
theorem Sound.finish (sound : s.Sound (some c)) (turn : s.InTurn c none) : s.Sound none :=
  { sound with
    absent := fun _ none_ => by cases none_
    idle := by
      intro c' _ gone
      by_cases same : c = c'
      · exact same ▸ turn
      · exact sound.idle c' (fun is => same (Option.some.inj is)) gone }

omit [HeaderFind] [RegexMatch] in
theorem InTurn.congr {o : Option ServerTask} (turn : s.InTurn c o)
    (called : s'.called c = s.called c) (sent : s'.sent c = s.sent c)
    (posted : ∀ id ∈ s.called c, s'.posted id = s.posted id) : s'.InTurn c o := by
  -- the answers to the requests of this connection have not changed
  have same : ∀ ids : List Nat, (∀ id ∈ ids, id ∈ s.called c) →
      ids.map s'.answer = ids.map s.answer := by
    intro ids among
    apply List.map_congr_left
    intro id member
    rw [answer, answer, posted id (among id member)]
  have all := same (s.called c) fun _ member => member
  have refused : s.InTurn c none → s'.InTurn c none := by
    rintro ⟨refusal, is, shape⟩
    exact ⟨refusal, by rw [sent, is, called, all], shape⟩
  have plain : s.sent c = (s.called c).map s.answer →
      s'.sent c = (s'.called c).map s'.answer := by
    intro is
    rw [sent, is, called, all]
  cases o with
  | none => exact refused turn
  | some task =>
    cases task with
    | accept _ => exact plain turn
    | read _ _ _ => exact plain turn
    | write _ => exact plain turn
    | refuse _ _ => exact refused turn
    | respond r =>
      obtain ⟨released, split, is, held⟩ := turn
      refine ⟨released, called.trans split, ?_, ?_⟩
      · rw [sent, is, same released]
        intro id member
        rw [split]
        exact List.mem_append_left _ member
      · rw [held, posted]
        simp [split]

omit [HeaderFind] [RegexMatch] in
/-- A change on a connection without a task does not disturb those with one. -/
theorem Sound.elsewhere (sound : s.Sound (some c))
    (others : ∀ c' o, c' ≠ c → s.InTurn c' o → s'.InTurn c' o) :
    (∀ task ∈ s.tasks, s'.InTurn task.connection (some task)) ∧
      ∀ c', some c ≠ some c' → (∀ task ∈ s.tasks, task.connection ≠ c') → s'.InTurn c' none := by
  refine ⟨fun task there => ?_, fun c' other none_ => ?_⟩
  · exact others _ _ ((sound.absent c rfl).2 task there) (sound.turn task there)
  · apply others c' none
    · exact fun same => other (congrArg some same.symm)
    · exact sound.idle c' other none_

omit [HeaderFind] [RegexMatch] in
/-- A callback is called for a request that none has been called for. -/
theorem Sound.call (sound : s.Sound (some c)) {id : Nat} (issued : id < s.nextRequestId)
    (fresh : ∀ c, id ∉ s.called c) (unread : ∀ t ∈ s.tasks, t.reading ≠ some id) :
    ({ s with called := Function.update s.called c (s.called c ++ [id]) } :
      ServerSessions).Sound (some c) := by
  obtain ⟨known, gone⟩ := sound.absent c rfl
  -- a request that has been called for was so before, or is this one
  have cases : ∀ c' id', id' ∈ Function.update s.called c (s.called c ++ [id]) c' →
      id' ∈ s.called c' ∨ id' = id ∧ c' = c := by
    intro c' id' member
    by_cases same : c' = c
    · subst same
      rw [Function.update_self] at member
      rcases List.mem_append.mp member with old | new
      · exact .inl old
      · exact .inr ⟨List.mem_singleton.mp new, rfl⟩
    · rw [Function.update_of_ne same] at member
      exact .inl member
  have others : ∀ c' o, c' ≠ c → s.InTurn c' o → ({ s with
      called := Function.update s.called c (s.called c ++ [id]) } : ServerSessions).InTurn c' o :=
    fun c' o other turn =>
      turn.congr (Function.update_of_ne other _ _) rfl fun _ _ => rfl
  exact
    { sound with
      unread := by
        intro t there id' reads c' member
        rcases cases c' id' member with old | ⟨rfl, -⟩
        · exact sound.unread t there id' reads c' old
        · exact unread t there reads
      issued := by
        intro c' id' member
        rcases cases c' id' member with old | ⟨rfl, -⟩
        · exact sound.issued c' id' old
        · exact issued
      owner := by
        intro c' c'' id' member member'
        rcases cases c' id' member with old | ⟨rfl, rfl⟩
        · rcases cases c'' id' member' with old' | ⟨rfl, -⟩
          · exact sound.owner c' c'' id' old old'
          · exact absurd old (fresh c')
        · rcases cases c'' _ member' with old' | ⟨-, rfl⟩
          · exact absurd old' (fresh c'')
          · rfl
      once := by
        intro c'
        dsimp only
        by_cases same : c' = c
        · subst same
          rw [Function.update_self, List.nodup_append]
          refine ⟨sound.once c', List.nodup_singleton _, ?_⟩
          rintro id' old _ here rfl
          rw [List.mem_singleton.mp here] at old
          exact fresh c' old
        · rw [Function.update_of_ne same]
          exact sound.once c'
      unposted := by
        intro id' never
        apply sound.unposted
        intro c' member
        apply never c'
        dsimp only
        by_cases same : c' = c
        · subst same
          rw [Function.update_self]
          exact List.mem_append_left _ member
        · rwa [Function.update_of_ne same]
      unused := by
        intro c' unused
        have other : c' ≠ c := Nat.ne_of_gt (Nat.lt_of_lt_of_le known unused)
        dsimp only
        rw [Function.update_of_ne other]
        exact sound.unused c' unused
      turn := (sound.elsewhere others).1
      idle := (sound.elsewhere others).2 }

omit [HeaderFind] [RegexMatch] in
theorem Sound.send (sound : s.Sound (some c)) (id : Nat) (text : Bytes) :
    (s.send c id text).Sound (some c) := by
  obtain ⟨known, gone⟩ := sound.absent c rfl
  have others : ∀ c' o, c' ≠ c → s.InTurn c' o → (s.send c id text).InTurn c' o :=
    fun c' o other turn =>
      turn.congr rfl (Function.update_of_ne other _ _) fun _ _ => rfl
  exact
    { sound with
      unused := by
        intro c' unused
        have other : c' ≠ c := Nat.ne_of_gt (Nat.lt_of_lt_of_le known unused)
        refine ⟨(sound.unused c' unused).1, ?_⟩
        exact (Function.update_of_ne other _ _).trans (sound.unused c' unused).2
      turn := (sound.elsewhere others).1
      idle := (sound.elsewhere others).2 }

omit [HeaderFind] [RegexMatch] in
/-- Something is posted to a response that a callback on the connection has been given. -/
theorem Sound.posts (sound : s.Sound (some c)) {id : Nat} (called : id ∈ s.called c)
    (posted : Bytes) :
    ({ s with posted := Function.update s.posted id posted } : ServerSessions).Sound
      (some c) := by
  obtain ⟨known, gone⟩ := sound.absent c rfl
  have others : ∀ c' o, c' ≠ c → s.InTurn c' o →
      ({ s with posted := Function.update s.posted id posted } : ServerSessions).InTurn c' o := by
    intro c' o other turn
    -- a request belongs to one connection, so that no other one's answer changes
    have apart : ∀ id' ∈ s.called c', id' ≠ id := fun id' member same =>
      other (sound.owner c' c id' member (same ▸ called))
    exact turn.congr rfl rfl fun id' member => Function.update_of_ne (apart id' member) _ _
  exact
    { sound with
      unposted := by
        intro id' never
        have other : id' ≠ id := fun same => never c (same ▸ called)
        exact (Function.update_of_ne other _ _).trans (sound.unposted id' never)
      turn := (sound.elsewhere others).1
      idle := (sound.elsewhere others).2 }

omit [HeaderFind] [RegexMatch] in
theorem Sound.report {out : Option Nat} (sound : s.Sound out) (id : Nat) (ec : ErrorCode) :
    (s.report id ec).Sound out := { sound with }

omit [HeaderFind] [RegexMatch] in
theorem Sound.arrive {out : Option Nat} (sound : s.Sound out) (socket : Nat → Socket) :
    ({ s with socket } : ServerSessions).Sound out := { sound with }

omit [HeaderFind] [RegexMatch] in
theorem Sound.note {out : Option Nat} (sound : s.Sound out) (c id : Nat) (step : ServerStep) :
    (s.note c id step).Sound out := by
  unfold ServerSessions.note
  split
  · exact sound
  · exact { sound with }

omit [HeaderFind] [RegexMatch] in
theorem Sound.issue {out : Option Nat} (sound : s.Sound out) :
    ({ s with nextRequestId := s.nextRequestId + 1 } : ServerSessions).Sound out :=
  { sound with
    numbered := fun t there id is => Nat.lt_succ_of_lt (sound.numbered t there id is)
    issued := fun c id member => Nat.lt_succ_of_lt (sound.issued c id member) }

/-! ### The handlers -/

omit [HeaderFind] [RegexMatch] in
theorem Sound.read (sound : s.Sound (some c)) (config : ServerConfig)
    (turn : s.sent c = (s.called c).map s.answer) : (s.read config c).Sound none := by
  apply sound.issue.put rfl
  · exact turn
  · rintro id ⟨⟩
    exact Nat.lt_succ_self _
  · rintro id ⟨⟩
    refine ⟨fun t there reads => ?_, fun c' member => ?_⟩
    · have request : t.request = some s.nextRequestId := by
        cases t with
        | read _ _ _ => exact reads
        | _ => cases reads
      exact absurd (sound.numbered t there _ request) (Nat.lt_irrefl _)
    · exact absurd (sound.issued c' _ member) (Nat.lt_irrefl _)

omit [HeaderFind] [RegexMatch] in
theorem Sound.accept (sound : s.Sound (some c)) : s.accept.Sound (some c) := by
  obtain ⟨known, gone⟩ := sound.absent c rfl
  have more : ({ s with nextConnection := s.nextConnection + 1 } : ServerSessions).Sound (some c) :=
    { sound with
      known := fun t there => Nat.lt_succ_of_lt (sound.known t there)
      absent := by
        rintro c' ⟨⟩
        exact ⟨Nat.lt_succ_of_lt known, gone⟩
      unused := fun c' unused => sound.unused c' (Nat.le_of_succ_le unused) }
  apply more.add
  · exact Nat.lt_succ_self _
  · exact fun t there => Nat.ne_of_lt (sound.known t there)
  · intro c'
    constructor
    · rintro ⟨⟩
      exact ⟨rfl, Nat.ne_of_lt known⟩
    · exact And.left
  · obtain ⟨called, sent⟩ := sound.unused _ (Nat.le_refl s.nextConnection)
    show s.sent s.nextConnection = (s.called s.nextConnection).map _
    rw [called, sent]
    rfl
  · rintro id ⟨⟩
  · rintro id ⟨⟩

omit [HeaderFind] [RegexMatch] in
theorem InTurn.idle (turn : s.sent c = (s.called c).map s.answer) : s.InTurn c none :=
  ⟨[], by rw [turn, List.append_nil], .inl rfl⟩

omit [HeaderFind] [RegexMatch] in
theorem Sound.afterAccept (sound : s.Sound (some c)) (config : ServerConfig)
    (turn : s.sent c = (s.called c).map s.answer) (ec : Option ErrorCode) (socket : Socket) :
    (s.afterAccept config c ec socket).Sound none := by
  unfold ServerSessions.afterAccept
  split
  · exact sound.finish (.idle turn)
  · cases ec with
    | none => exact (sound.accept.arrive _).read config turn
    | some ec =>
      dsimp only
      split
      · exact (sound.issue.report _ _).finish (.idle turn)
      · exact (sound.accept.issue.report _ _).finish (.idle turn)

omit [HeaderFind] [RegexMatch] in
/-- A session that has read a request, or not yet. -/
structure Reads (s : ServerSessions) (c id : Nat) : Prop where
  turn : s.sent c = (s.called c).map s.answer
  issued : id < s.nextRequestId
  alone : ∀ t ∈ s.tasks, t.reading ≠ some id
  uncalled : ∀ c, id ∉ s.called c

omit [HeaderFind] [RegexMatch] in
theorem Reads.arrive {id : Nat} (reads : s.Reads c id) (socket : Nat → Socket) :
    ({ s with socket } : ServerSessions).Reads c id :=
  ⟨reads.turn, reads.issued, reads.alone, reads.uncalled⟩

omit [HeaderFind] [RegexMatch] in
theorem Reads.note {id : Nat} (reads : s.Reads c id) (step : ServerStep) :
    (s.note c id step).Reads c id := by
  unfold ServerSessions.note
  split
  · exact reads
  · exact ⟨reads.turn, reads.issued, reads.alone, reads.uncalled⟩

theorem Sound.goOn (sound : s.Sound (some c)) (server : Server η) {id : Nat}
    (reads : s.Reads c id) (step : ServerStep) : (s.goOn server c id step).Sound none := by
  unfold ServerSessions.goOn
  split
  · apply sound.put rfl (show s.InTurn c (some (.read c id step)) from reads.turn)
    · rintro _ ⟨⟩
      exact reads.issued
    · rintro _ ⟨⟩
      exact ⟨reads.alone, reads.uncalled⟩
  · split
    -- a callback is called, an error is answered, or the session is over
    · apply (sound.call reads.issued reads.uncalled reads.alone).put rfl
      · -- the response is there, and nothing has been posted to it
        refine ⟨s.called c, Function.update_self _ _ _, reads.turn, ?_⟩
        exact (sound.unposted id reads.uncalled).symm
      · rintro _ ⟨⟩
        exact reads.issued
      · rintro _ ⟨⟩
    · split
      · apply Sound.report
        apply (sound.send id tooLargeText).put rfl
        · refine ⟨[(id, tooLargeText)], ?_, .inr ⟨id, rfl⟩⟩
          exact (Function.update_self _ _ _).trans (congrArg (· ++ _) reads.turn)
        · rintro _ ⟨⟩
          exact reads.issued
        · rintro _ ⟨⟩
      · exact (sound.report _ _).finish (.idle reads.turn)
    · exact sound.finish (.idle reads.turn)
    · exact sound.finish (.idle reads.turn)

omit [RegexMatch] in
theorem Sound.afterWrite (sound : s.Sound (some c)) (config : ServerConfig)
    {response : HeldResponse} (here : response.connection = c)
    (turn : s.sent c = (s.called c).map s.answer) (ec : Option ErrorCode) :
    (s.afterWrite config response ec).Sound none := by
  unfold ServerSessions.afterWrite
  subst here
  split
  · exact sound.finish (.idle turn)
  · cases ec with
    | none =>
      dsimp only
      split
      · exact sound.read config turn
      · exact sound.finish (.idle turn)
    | some ec => exact (sound.report _ _).finish (.idle turn)

/-! ### The steps -/

omit [HeaderFind] [RegexMatch] in
/-- A response that is held is taken out. -/
theorem Sound.takeResponse (sound : s.Sound none) {i : Nat} {r : HeldResponse}
    (here : s.tasks[i]? = some (.respond r)) :
    (s.without i).Sound (some r.connection) ∧ r.request < s.nextRequestId ∧
      ∃ released, s.called r.connection = released ++ [r.request] ∧
        s.sent r.connection = released.map s.answer ∧ r.streambuf = s.posted r.request := by
  obtain ⟨taken, turn⟩ := sound.without here
  exact ⟨taken, sound.numbered _ (List.mem_of_getElem? here) _ rfl, turn⟩

omit [HeaderFind] [RegexMatch] in
/-- It is put back as it was, but for what has been posted to it. -/
theorem Sound.putBack (sound : s.Sound (some c)) {r : HeldResponse} (here : r.connection = c)
    (issued : r.request < s.nextRequestId) (turn : s.InTurn c (some (.respond r))) :
    (s.add (.respond r)).Sound none := by
  apply sound.put (show (ServerTask.respond r).connection = c from here) turn
  · rintro _ ⟨⟩
    exact issued
  · rintro _ ⟨⟩

omit [HeaderFind] [RegexMatch] in
/-- A read that is taken out was the only one of its request. -/
theorem Sound.takeRead (sound : s.Sound none) {i id : Nat} {step : ServerStep}
    (here : s.tasks[i]? = some (.read c id step)) :
    (s.without i).Sound (some c) ∧ (s.without i).Reads c id := by
  obtain ⟨taken, turn⟩ := sound.without here
  have member := List.mem_of_getElem? here
  refine ⟨taken, turn, sound.numbered _ member id rfl, fun t there reads => ?_,
    sound.unread _ member id rfl⟩
  apply (taken.absent c rfl).2 t there
  exact sound.unshared t (List.mem_of_mem_eraseIdx there) _ member id reads rfl

theorem sound_step (server : Server η) (s : ServerSessions) (a : SessionAction)
    (s' : ServerSessions) (sound : s.Sound none) (stepped : s.step server a = some s') :
    s'.Sound none := by
  cases stepped_of_step stepped with
  | arrive connection socket => exact sound.arrive _
  | accepted ec socket here =>
    obtain ⟨taken, turn⟩ := sound.without here
    exact taken.afterAccept server.config turn ec socket
  | @received i connection id step t socket here turn =>
    obtain ⟨taken, reads⟩ := sound.takeRead here
    unfold afterRead
    dsimp only
    split
    · exact (taken.arrive _).finish (.idle reads.turn)
    · apply Sound.goOn ((taken.arrive _).note connection id t.step)
      exact (reads.arrive _).note t.step
  | @post i r code content header here text is =>
    obtain ⟨taken, issued, released, called, sent, held⟩ := sound.takeResponse here
    have given : r.request ∈ s.called r.connection := by simp [called]
    refine Sound.putBack (taken.posts given _) rfl issued ⟨released, called, ?_, ?_⟩
    · -- the answers that have been sent are those to other requests
      have once := sound.once r.connection
      rw [called, List.nodup_append] at once
      refine sent.trans (List.map_congr_left fun id member => ?_)
      have other : id ≠ r.request := once.2.2 id member _ (List.mem_singleton_self _)
      exact congrArg (Prod.mk id) (Function.update_of_ne other _ _).symm
    · show r.streambuf ++ _ = Function.update s.posted r.request _ r.request
      rw [Function.update_self, held]
  | closeAfterResponse here =>
    obtain ⟨taken, issued, turn⟩ := sound.takeResponse here
    exact taken.putBack rfl issued turn
  | returned here inside =>
    obtain ⟨taken, issued, turn⟩ := sound.takeResponse here
    exact taken.putBack rfl issued turn
  | @thrown i r here inside =>
    obtain ⟨taken, issued, turn⟩ := sound.takeResponse here
    exact (taken.report r.request .operationCanceled).putBack rfl issued turn
  | @release i r here outside =>
    obtain ⟨taken, issued, released, called, sent, held⟩ := sound.takeResponse here
    apply (taken.send r.request r.streambuf).put rfl
    · -- what has been held is the answer to the request that was called last
      show Function.update s.sent r.connection (s.sent r.connection ++ _) r.connection =
        (s.called r.connection).map s.answer
      rw [Function.update_self, sent, called, List.map_append, held]
      rfl
    · rintro _ ⟨⟩
      exact issued
    · rintro _ ⟨⟩
  | written ec here =>
    obtain ⟨taken, turn⟩ := sound.without here
    exact taken.afterWrite server.config rfl turn ec
  | refused ec here =>
    obtain ⟨taken, turn⟩ := sound.without here
    exact taken.finish turn
  | stop => exact { sound with }

/-! ### What is handed to the callbacks -/

/-- There is a callback for what the reading of a request has come to. -/
def Handles (server : Server η) (step : ServerStep) : Bool :=
  match server.callback step with
  | some (.handler _ _) => true
  | _ => false

/-- The callbacks have been called for the requests that there is a callback for, in the order in
which these have been read. -/
def Handed (server : Server η) (s : ServerSessions) (c : Nat) : Prop :=
  s.called c = ((s.ended c).filter fun read => Handles server read.2).map Prod.fst

omit [HeaderFind] [RegexMatch] in
theorem afterAccept_same (config : ServerConfig) (s : ServerSessions) (connection : Nat)
    (ec : Option ErrorCode) (socket : Socket) :
    (s.afterAccept config connection ec socket).called = s.called ∧
      (s.afterAccept config connection ec socket).ended = s.ended := by
  unfold ServerSessions.afterAccept
  split
  · exact ⟨rfl, rfl⟩
  · cases ec with
    | none => exact ⟨rfl, rfl⟩
    | some ec =>
      dsimp only
      split
      · exact ⟨rfl, rfl⟩
      · exact ⟨rfl, rfl⟩

omit [RegexMatch] in
theorem afterWrite_same (config : ServerConfig) (s : ServerSessions) (response : HeldResponse)
    (ec : Option ErrorCode) : (s.afterWrite config response ec).called = s.called ∧
      (s.afterWrite config response ec).ended = s.ended := by
  unfold ServerSessions.afterWrite
  split
  · exact ⟨rfl, rfl⟩
  · cases ec with
    | none =>
      dsimp only
      split
      · exact ⟨rfl, rfl⟩
      · exact ⟨rfl, rfl⟩
    | some ec => exact ⟨rfl, rfl⟩

/-- A read that has come to its end is noted, and its request is handed on if there is a callback
for it. -/
theorem handed_goOn (server : Server η) (handed : ∀ c, s.Handed server c) (connection id : Nat)
    (step : ServerStep) (c : Nat) :
    ((s.note connection id step).goOn server connection id step).Handed server c := by
  have before := handed c
  unfold Handed at before
  by_cases reads : step.isRead = true
  · have same : s.note connection id step = s := if_pos reads
    rw [same, ServerSessions.goOn, if_pos reads]
    exact before
  · have noted : s.note connection id step = { s with
        ended := Function.update s.ended connection (s.ended connection ++ [(id, step)]) } :=
      if_neg reads
    rw [noted, ServerSessions.goOn, if_neg reads]
    -- on the connection one read more has ended, on the others none
    have ended (called : Nat → List Nat) (here : connection = c → called c =
          s.called c ++ if Handles server step then [id] else [])
        (elsewhere : connection ≠ c → called c = s.called c) :
        called c =
          ((Function.update s.ended connection (s.ended connection ++ [(id, step)]) c).filter
            fun read => Handles server read.2).map Prod.fst := by
      by_cases same : connection = c
      · subst same
        rw [here rfl, Function.update_self, List.filter_append, List.map_append, ← before]
        congr 1
        cases handles : Handles server step with
        | true => simp [handles]
        | false => simp [handles]
      · rw [elsewhere same, Function.update_of_ne (Ne.symm same), before]
    split
    next handler request called =>
      apply ended
      · rintro rfl
        rw [Handles, called]
        exact Function.update_self ..
      · exact fun other => Function.update_of_ne (Ne.symm other) _ _
    next ec failed =>
      have unhandled : Handles server step = false := by rw [Handles, failed]
      have none_ := ended s.called (fun _ => by rw [unhandled]; simp) fun _ => rfl
      split
      · exact none_
      · exact none_
    next upgraded =>
      have unhandled : Handles server step = false := by rw [Handles, upgraded]
      exact ended s.called (fun _ => by rw [unhandled]; simp) fun _ => rfl
    next dropped =>
      have unhandled : Handles server step = false := by rw [Handles, dropped]
      exact ended s.called (fun _ => by rw [unhandled]; simp) fun _ => rfl

theorem handed_step (server : Server η) (s : ServerSessions) (a : SessionAction)
    (s' : ServerSessions) (handed : ∀ c, s.Handed server c)
    (stepped : s.step server a = some s') (c : Nat) : s'.Handed server c := by
  -- all but the end of a read leave both records alone
  have same {s' : ServerSessions} (called : s'.called = s.called) (ended : s'.ended = s.ended) :
      s'.Handed server c := by
    rw [Handed, called, ended]
    exact handed c
  cases stepped_of_step stepped with
  | received t socket here turn =>
    unfold afterRead
    dsimp only
    split
    · exact same rfl rfl
    · apply handed_goOn
      exact fun c => handed c
  | @accepted i connection ec socket here =>
    obtain ⟨called, ended⟩ := afterAccept_same server.config (s.without i) connection ec socket
    exact same called ended
  | @written i r ec here =>
    obtain ⟨called, ended⟩ := afterWrite_same server.config (s.without i) r ec
    exact same called ended
  | _ => exact same rfl rfl

/-! ### Every run -/

/-- The requests of a connection whose responses are held. -/
def held (s : ServerSessions) (c : Nat) : List Nat :=
  (s.tasks.filter fun task => task.connection = c).flatMap ServerTask.held

/-- A connection is busy with one task at most. The callbacks are given the requests that there is
a callback for, in the order in which they have been read, each once, and what is sent is what
they have posted, request by request, in the same order. At the end there may be one refusal,
after which only its own write is under way. -/
structure AnswersInTurn (server : Server η) (s : ServerSessions) (c : Nat) : Prop where
  handed : s.Handed server c
  alone : (s.tasks.filter fun task => task.connection = c).length ≤ 1
  once : (s.called c).Nodup
  own : ∀ c', c' ≠ c → ∀ id ∈ s.called c, id ∉ s.called c'
  inTurn : ∃ released refusal, s.called c = released ++ s.held c ∧
    s.sent c = released.map s.answer ++ refusal ∧
    (refusal = [] ∨ ∃ id, refusal = [(id, tooLargeText)] ∧
      ∀ task ∈ s.tasks, task.connection = c → ∃ id, task = .refuse c id)

omit [HeaderFind] [RegexMatch] in
theorem Sound.alone (sound : s.Sound none) (c : Nat) :
    (s.tasks.filter fun task => task.connection = c).length ≤ 1 := by
  have counted := List.nodup_iff_count_le_one.mp sound.distinct c
  rw [List.count_eq_countP, List.countP_map, List.countP_eq_length_filter] at counted
  refine Nat.le_trans (Nat.le_of_eq ?_) counted
  congr 2

theorem Sound.answersInTurn {server : Server η} (sound : s.Sound none) {c : Nat}
    (handed : s.Handed server c) : s.AnswersInTurn server c := by
  have alone := sound.alone c
  refine ⟨handed, alone, sound.once c, fun c' other id member member' => ?_, ?_⟩
  · exact other (sound.owner c' c id member' member)
  · cases busy : s.tasks.filter fun task => task.connection = c with
    | nil =>
      -- nothing is under way
      have none_ : ∀ task ∈ s.tasks, task.connection ≠ c := by
        simpa using busy
      obtain ⟨refusal, sent, shape⟩ := sound.idle c (fun none_ => by cases none_) none_
      refine ⟨s.called c, refusal, ?_, sent, ?_⟩
      · rw [ServerSessions.held, busy, List.flatMap_nil, List.append_nil]
      · refine shape.imp_right ?_
        rintro ⟨id, is⟩
        exact ⟨id, is, fun task there here => absurd here (none_ task there)⟩
    | cons task others =>
      rw [busy, List.length_cons] at alone
      obtain rfl : others = [] := List.length_eq_zero_iff.mp (by omega)
      have only : ∀ t, t ∈ s.tasks ∧ t.connection = c ↔ t = task := by
        intro t
        have listed : t ∈ [task] ↔ t = task := List.mem_singleton
        rw [← listed, ← busy, List.mem_filter, decide_eq_true_iff]
      obtain ⟨there, here⟩ := (only task).mpr rfl
      have turn := sound.turn task there
      rw [here] at turn
      rw [ServerSessions.held, busy, List.flatMap_singleton]
      cases task with
      | respond r =>
        obtain ⟨released, called, sent, -⟩ := turn
        exact ⟨released, [], called, by rw [sent, List.append_nil], .inl rfl⟩
      | refuse c' id =>
        obtain ⟨refusal, sent, shape⟩ := turn
        refine ⟨s.called c, refusal, (List.append_nil _).symm, sent, shape.imp_right ?_⟩
        rintro ⟨id', is⟩
        refine ⟨id', is, fun t among on => ⟨id, ?_⟩⟩
        rw [(only t).mp ⟨among, on⟩, ← here]
        rfl
      | accept _ | read _ _ _ | write _ =>
        exact ⟨s.called c, [], (List.append_nil _).symm, turn.trans (List.append_nil _).symm,
          .inl rfl⟩

/-- In every interleaving of the sessions of all connections, however their callbacks answer. -/
theorem responses_are_sent_in_turn (server : Server η) {acts : List SessionAction}
    (visited : Visits (step server) {} acts s) (c : Nat) : s.AnswersInTurn server c := by
  have sound : s.Sound none := visited.invariant (sound_step server) sound_start
  have handed : ∀ c, s.Handed server c := visited.invariant (handed_step server) fun _ => rfl
  exact sound.answersInTurn (handed c)

private def anyPath : Server Unit where
  config := ⟨30⟩
  resources := ⟨[], [(ascii "GET", ())]⟩

private def getRequest : Bytes := ascii "GET / HTTP/1.1\r\n\r\n"

/-- Two connections; the second request of the first one is too long. -/
private def overlapping : List SessionAction :=
  [.accepted 0 none ⟨[getRequest, List.replicate 30 65], none⟩,
    .accepted 0 none ⟨[getRequest], none⟩, .received 2, .return_ 2 false, .received 0,
    .post 2 .successOk (ascii "one") [], .return_ 2 true, .post 1 .successOk (ascii "two") [],
    .release 1, .written 2 none, .received 2, .release 1, .stop]

omit [HeaderFind] [RegexMatch] in
/-- Both callbacks answer later, and one of them throws. -/
theorem responses_are_sent_in_turn_overlapping :
    ∃ s, run (@step Unit findFirst ⟨fun _ _ => false⟩ anyPath) {} overlapping = some s ∧
      s.sent 0 = [(1, post false .successOk (ascii "one") []), (3, tooLargeText)] ∧
      s.reported = [(1, .operationCanceled), (3, .messageSize)] ∧
      @AnswersInTurn Unit findFirst ⟨fun _ _ => false⟩ anyPath s 0 := by
  have ran : (run (@step Unit findFirst ⟨fun _ _ => false⟩ anyPath) {} overlapping).map
      (fun s => (s.sent 0, s.reported)) =
      some ([(1, post false .successOk (ascii "one") []), (3, tooLargeText)],
        [(1, .operationCanceled), (3, .messageSize)]) := by decide +kernel
  obtain ⟨s, is, fields⟩ := Option.map_eq_some_iff.mp ran
  obtain ⟨sent, reported⟩ := Prod.mk.inj fields
  exact ⟨s, is, sent, reported,
    @responses_are_sent_in_turn _ findFirst ⟨fun _ _ => false⟩ s anyPath _ (visits_of_run is) 0⟩

end ServerSessions

end ServerLib.Web
