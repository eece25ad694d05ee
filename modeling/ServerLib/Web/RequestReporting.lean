import ServerLib.Web.RequestLine
import ServerLib.Web.SessionTurns

/-!
# What the operator sees of a request

A session comes to a callback, or it drops its request without one. Its reads come to an end on
whatever is sent, and what they can end in without a callback is told by the states they end in:
a size line or a chunk that the chunked reader cannot handle, and a request that nothing is
registered for.
-/
namespace ServerLib.Web

open Network (Bytes)

/-- A server: its configuration, its handlers, and whether one for upgrades is set. -/
structure Server (η : Type) where
  config : ServerConfig
  resources : Resources η
  onUpgrade : Bool := false

/-- A callback of the user that is called for a request. -/
inductive Callback (η : Type) where
  | handler (handler : η) (request : Request)
  | onError (ec : ErrorCode)
  | onUpgrade (request : Request)

variable {η : Type} [HeaderFind] [RegexMatch]

/-- `find_resource`, with the upgrade of the connection. -/
def Server.findResource (server : Server η) (request : Request) : Option (Callback η) :=
  if server.onUpgrade ∧
      (HeaderFind.find request.message.header (ascii "Upgrade")).isSome then
    some (.onUpgrade request)
  else (Web.findResource server.resources request.message).map fun handler =>
    .handler handler request

/-- The callback at the end of a session. What leaves a handler is caught and logged, or not
caught at all. -/
def Server.callback (server : Server η) : ServerStep → Option (Callback η)
  | .findResource request => server.findResource request
  | .tooLarge => some (.onError .messageSize)
  | .onError ec => some (.onError ec)
  | _ => none

/-- Nothing is registered for a request: no pattern that its path matches with its method, no
default for the method, and no upgrade that it asks for. -/
structure Server.Unregistered (server : Server η) (message : RequestMessage) : Prop where
  resource : ∀ entry ∈ server.resources.resource,
    RegexMatch.regexMatch entry.1 message.path = true → ∀ method ∈ entry.2,
      method.1 ≠ message.method
  default : ∀ method ∈ server.resources.defaultResource, method.1 ≠ message.method
  upgrade : server.onUpgrade = true → message.header.Lacks (ascii "Upgrade")

/-- Another read has been started. -/
def ServerStep.isRead : ServerStep → Bool
  | .readHeader _ | .readContent _ _ => true
  | .readChunked _ step => step.isRead
  | _ => false

/-- In this state the session drops its request: the read completes with what the chunked reader
cannot handle, or there is a request that nothing is registered for. -/
def Server.Drops (server : Server η) : ServerStep → Socket → Prop
  | .readChunked _ step, s => step.Breaks s
  | .findResource request, _ => server.Unregistered request.message
  | _, _ => False

/-- Some callback is called for the request. -/
def Server.Reports (server : Server η) (s : Socket) : Prop :=
  ∃ turns, (server.callback (serverReads server.config s turns).step).isSome

/-- The peer sends what the session waits for or closes, so each of its reads is completed. -/
def Server.Served (server : Server η) (s : Socket) : Prop :=
  ∀ turns, (serverReads server.config s turns).step.isRead →
    ∃ result, serverTurn server.config (serverReads server.config s turns).step
      (serverReads server.config s turns).socket = some result

/-! ### Looking up a handler -/

omit [HeaderFind] in
theorem findResource_eq_none_iff (resources : Resources η) (message : RequestMessage) :
    findResource resources message = none ↔
      (∀ entry ∈ resources.resource, RegexMatch.regexMatch entry.1 message.path = true →
        ∀ method ∈ entry.2, method.1 ≠ message.method) ∧
      ∀ method ∈ resources.defaultResource, method.1 ≠ message.method := by
  have lacks : ∀ methods : List (Bytes × η), methods.lookup message.method = none ↔
      ∀ method ∈ methods, method.1 ≠ message.method := by
    intro methods
    rw [List.lookup_eq_none_iff]
    exact forall₂_congr fun method _ => by rw [bne_iff_ne, ne_comm]
  have skipped : ∀ entry : Bytes × List (Bytes × η),
      ((entry.2.lookup message.method).filter fun _ =>
        RegexMatch.regexMatch entry.1 message.path) = none ↔
      (RegexMatch.regexMatch entry.1 message.path = true →
        ∀ method ∈ entry.2, method.1 ≠ message.method) := by
    intro entry
    rw [← lacks]
    cases RegexMatch.regexMatch entry.1 message.path with
    | false => simp
    | true => cases entry.2.lookup message.method <;> simp
  rw [findResource, Option.orElse_eq_orElse, Option.orElse_eq_or, Option.or_eq_none_iff, lacks,
    List.findSome?_eq_none_iff]
  exact and_congr (forall₂_congr fun entry _ => skipped entry) Iff.rfl

theorem Server.findResource_eq_none_iff (server : Server η) (request : Request) :
    server.findResource request = none ↔ server.Unregistered request.message := by
  have found : (HeaderFind.find request.message.header (ascii "Upgrade")).isSome = false ↔
      request.message.header.Lacks (ascii "Upgrade") := by
    rw [Option.isSome_eq_false_iff, Option.isNone_iff_eq_none]
    exact ⟨HeaderFind.missing _ _, find_eq_none⟩
  constructor
  · intro nothing
    rw [findResource] at nothing
    split at nothing
    · cases nothing
    next plain =>
      obtain ⟨resource, default⟩ :=
        (Web.findResource_eq_none_iff _ _).mp (Option.map_eq_none_iff.mp nothing)
      refine ⟨resource, default, fun upgrades => found.mp ?_⟩
      rw [Bool.eq_false_iff]
      exact fun asked => plain ⟨upgrades, asked⟩
  · rintro ⟨resource, default, upgrade⟩
    rw [findResource, if_neg, Option.map_eq_none_iff]
    · exact (Web.findResource_eq_none_iff _ _).mpr ⟨resource, default⟩
    · rintro ⟨upgrades, asked⟩
      rw [found.mpr (upgrade upgrades)] at asked
      cases asked

/-! ### The reads of a session -/

namespace ServerStep

def isBroken : ServerStep → Bool
  | .broken _ => true
  | _ => false

/-- How many reads can follow at most. -/
def rank (c : ServerConfig) : ServerStep → Nat
  | .readHeader _ => 2 * c.maxRequestStreambufSize + 3
  | .readContent _ _ => 1
  | .readChunked _ step => step.rank c.maxRequestStreambufSize
  | _ => 0

def Steady (c : ServerConfig) : ServerStep → Prop
  | .readHeader request => request.streambuf.good
  | .readChunked _ step => step.isRead ∧ step.Steady c.maxRequestStreambufSize
  | _ => True

variable {c : ServerConfig} {step : ServerStep} {s s' : Socket} {t : Turn ServerStep}

omit [HeaderFind] [RegexMatch] in
theorem ofChunkStep_steady {message : RequestMessage} {step : ChunkStep}
    (steady : step.Steady c.maxRequestStreambufSize) : (ofChunkStep message step).Steady c := by
  cases step with
  | readLine | readData => exact ⟨rfl, steady⟩
  | _ => trivial

omit [HeaderFind] [RegexMatch] in
theorem rank_ofChunkStep_le (message : RequestMessage) (step : ChunkStep) :
    (ofChunkStep message step).rank c ≤ step.rank c.maxRequestStreambufSize := by
  cases step <;> exact Nat.le_refl _

omit [RegexMatch] in
/-- Behind a header nothing breaks, and the session has read what there is of it. -/
theorem ofHeader_spec (numAdditionalBytes : Nat) {request : Request}
    (good : request.streambuf.good) :
    (ofHeader c numAdditionalBytes request).Steady c ∧
      (ofHeader c numAdditionalBytes request).rank c < 2 * c.maxRequestStreambufSize + 3 ∧
      (ofHeader c numAdditionalBytes request).isBroken = false := by
  simp only [ofHeader]
  cases HeaderFind.find request.message.header (ascii "Content-Length") with
  | some value =>
    simp only
    cases stoul 10 value with
    | error failure => exact ⟨trivial, Nat.succ_pos _, rfl⟩
    | ok contentLength =>
      simp only
      split <;> simp [Steady, rank, isBroken]
  | none =>
    simp only
    split
    · simp [Steady, rank, isBroken, readChunkedTransferEncoded, ChunkStep.isRead,
        ChunkStep.Steady, ChunkStep.rank, StreamBuf.size, good]
    · simp [Steady, rank, isBroken]

omit [RegexMatch] in
/-- What the handler of a header comes to. -/
theorem afterRequestHeader_spec {request : Request} (good : request.streambuf.good)
    {r : ReadResult} (completed : asyncReadUntil headerEnd request.streambuf s = some r) :
    (afterRequestHeader c request.message r).step.Steady c ∧
      (afterRequestHeader c request.message r).step.rank c < (readHeader request).rank c ∧
      (afterRequestHeader c request.message r).step.isBroken = false := by
  obtain ⟨carries, cases⟩ := asyncReadUntil_some completed
  have good' : r.buf.good := carries.good.trans good
  simp only [afterRequestHeader, Turn.after]
  split
  · exact ⟨trivial, Nat.succ_pos _, rfl⟩
  · cases failed : r.ec with
    | some code => exact ⟨trivial, Nat.succ_pos _, rfl⟩
    | none =>
      -- the delimiter has been found, so the parser gets to its end
      have ended : headerEnd <:+: r.buf.data := cases.found_of_clean failed
      obtain ⟨accepted, message, k, -, parses⟩ := exists_parsed_request ended request.message
      rw [parses r.buf [] good' (List.append_nil _).symm]
      cases accepted with
      | false => exact ⟨trivial, Nat.succ_pos _, rfl⟩
      | true =>
        have good_request : (Request.mk message (r.buf.consume k)).streambuf.good := good'
        exact ofHeader_spec _ good_request

omit [HeaderFind] [RegexMatch] in
theorem afterRequestContent_spec (message : RequestMessage) (r : ReadResult) :
    (afterRequestContent message r).step.Steady c ∧
      (afterRequestContent message r).step.rank c = 0 ∧
      (afterRequestContent message r).step.isBroken = false := by
  simp only [afterRequestContent, Turn.after]
  cases r.ec with
  | some code => exact ⟨trivial, rfl, rfl⟩
  | none => cases r.buf.full <;> exact ⟨trivial, rfl, rfl⟩

omit [RegexMatch] in
/-- What the completion of a read comes to: only the chunked reader breaks. -/
theorem turn_spec (steady : step.Steady c) (turned : serverTurn c step s = some (t, s')) :
    t.step.Steady c ∧ t.step.rank c < step.rank c ∧
      (t.step.isBroken = true ↔ ∃ message chunks, step = .readChunked message chunks ∧
        chunks.Breaks s) := by
  cases step with
  | readHeader request =>
    obtain ⟨r, completed, same⟩ := Option.map_eq_some_iff.mp turned
    cases same
    obtain ⟨steady', shorter, sound⟩ := afterRequestHeader_spec (c := c) steady completed
    exact ⟨steady', shorter, by simp [sound]⟩
  | readContent missing request =>
    obtain ⟨r, completed, same⟩ := Option.map_eq_some_iff.mp turned
    cases same
    obtain ⟨steady', last, sound⟩ := afterRequestContent_spec (c := c) request.message r
    refine ⟨steady', ?_, by simp [sound]⟩
    rw [last]
    exact Nat.one_pos
  | readChunked message chunks =>
    obtain ⟨⟨t', s''⟩, turned', same⟩ := Option.map_eq_some_iff.mp turned
    cases same
    obtain ⟨steady', shorter⟩ := steady_chunkTurn steady.2 turned'
    refine ⟨ofChunkStep_steady steady',
      Nat.lt_of_le_of_lt (rank_ofChunkStep_le message t'.step) shorter, ?_⟩
    have breaks := chunkTurn_isBroken turned'
    have same : (ofChunkStep message t'.step).isBroken = t'.step.isBroken := by
      cases t'.step <;> rfl
    rw [Turn.map, same, breaks]
    simp
  | _ => cases turned

omit [RegexMatch] in
theorem ending_of_turn (turned : serverTurn c step s = some (t, s')) :
    s'.ending = s.ending := by
  cases step with
  | readHeader =>
    obtain ⟨r, completed, same⟩ := Option.map_eq_some_iff.mp turned
    cases same
    exact (asyncReadUntil_some completed).1.ending
  | readContent =>
    obtain ⟨r, completed, same⟩ := Option.map_eq_some_iff.mp turned
    cases same
    exact (asyncReadExactly_some completed).1.ending
  | readChunked =>
    obtain ⟨⟨t', s''⟩, turned', same⟩ := Option.map_eq_some_iff.mp turned
    cases same
    obtain ⟨b, r, carries, rfl⟩ := ChunkStep.carries_of_turn turned'
    exact carries.ending
  | _ => cases turned

omit [RegexMatch] in
/-- A read from a socket that fails some day is completed. -/
theorem turn_of_ending (reads : step.isRead) {code : ErrorCode} (ending : s.ending = some code) :
    ∃ result, serverTurn c step s = some result := by
  cases step with
  | readHeader request =>
    obtain ⟨r, completed⟩ : ∃ r, asyncReadUntil headerEnd request.streambuf s = some r :=
      asyncReadUntil_of_ending ending
    exact ⟨_, by rw [serverTurn, completed]; rfl⟩
  | readContent missing request =>
    obtain ⟨r, completed⟩ :=
      asyncReadExactly_of_ending (n := missing) (b := request.streambuf) ending
    exact ⟨_, by rw [serverTurn, completed]; rfl⟩
  | readChunked message step =>
    obtain ⟨result, turned⟩ := step.turn_of_ending reads ending
    exact ⟨_, by rw [serverTurn, turned]; rfl⟩
  | _ => cases reads

omit [RegexMatch] in
theorem ending_of_run (c : ServerConfig) (turns : Nat) (step : ServerStep) (s : Socket) :
    (runTurns (serverTurn c) turns step s).socket.ending = s.ending := by
  apply @runTurns_keeps _ (serverTurn c) fun _ s' => s'.ending = s.ending
  · exact fun _ _ _ _ same turned => (ending_of_turn turned).trans same
  · rfl

end ServerStep

/-! ### The end of a session -/

namespace Server

variable (server : Server η) {step : ServerStep} {s s' : Socket}

/-- A session that waits for no read has come to a callback, or drops its request. -/
theorem callback_iff_of_stopped (steady : step.Steady server.config)
    (waits : step.isRead = false) (sound : step.isBroken = false) :
    (server.callback step).isSome ↔ ¬ server.Drops step s := by
  cases step with
  | readHeader | readContent => cases waits
  | readChunked message chunks => rw [ServerStep.isRead, steady.1] at waits; cases waits
  | findResource request =>
    rw [callback, Drops, ← findResource_eq_none_iff, Option.isSome_iff_ne_none]
  | tooLarge | onError => exact ⟨fun _ dropped => dropped, fun _ => rfl⟩
  | broken => cases sound

/-- While a session reads nothing is called, and it drops its request only in the reader of
chunks. -/
theorem callback_of_turn {t : Turn ServerStep}
    (turned : serverTurn server.config step s = some (t, s')) :
    server.callback step = none ∧ (server.Drops step s ↔
      ∃ message chunks, step = .readChunked message chunks ∧ chunks.Breaks s) := by
  cases step with
  | readHeader | readContent => exact ⟨rfl, by simp [Drops]⟩
  | readChunked message chunks => exact ⟨rfl, by simp [Drops]⟩
  | _ => cases turned

/-- A session comes to a callback exactly if it meets no state in which it drops its request.
The induction is on the number of reads that can follow. -/
theorem callback_iff_of_steady (steady : step.Steady server.config)
    (sound : step.isBroken = false)
    (answered : ∀ turns, (runTurns (serverTurn server.config) turns step s).step.isRead →
      ∃ result, serverTurn server.config (runTurns (serverTurn server.config) turns step s).step
        (runTurns (serverTurn server.config) turns step s).socket = some result) :
    (∃ turns, (server.callback
        (runTurns (serverTurn server.config) turns step s).step).isSome) ↔
      ∀ turns, ¬ server.Drops (runTurns (serverTurn server.config) turns step s).step
        (runTurns (serverTurn server.config) turns step s).socket := by
  rw [← not_exists]
  induction reads : step.rank server.config using Nat.strong_induction_on
    generalizing step s with
  | _ reads' ih =>
    subst reads
    cases turned : serverTurn server.config step s with
    | none =>
      -- a session that still reads would be answered
      have waits : step.isRead = false := by
        rw [Bool.eq_false_iff]
        intro reads
        obtain ⟨result, completed⟩ := answered 0 reads
        exact absurd (turned.symm.trans completed) (by simp)
      rw [exists_run_iff_of_none turned fun step _ => (server.callback step).isSome,
        exists_run_iff_of_none turned server.Drops]
      exact server.callback_iff_of_stopped steady waits sound
    | some result =>
      obtain ⟨t, s'⟩ := result
      -- a session that reads calls nothing, so what follows decides
      obtain ⟨steady', shorter, breaks⟩ := ServerStep.turn_spec steady turned
      obtain ⟨silent, drops⟩ := server.callback_of_turn turned
      have uncalled : ¬ (server.callback step).isSome := by simp [silent]
      rw [exists_run_iff turned fun step _ => (server.callback step).isSome,
        exists_run_iff turned server.Drops, or_iff_right uncalled, drops, ← breaks]
      cases broken : t.step.isBroken with
      | true =>
        -- the request is dropped here, and nothing follows
        refine iff_of_false ?_ fun kept => kept (.inl rfl)
        cases failed : t.step with
        | broken failure =>
          rw [exists_run_iff_of_none rfl fun step _ => (server.callback step).isSome]
          exact Bool.noConfusion
        | _ => rw [failed] at broken; cases broken
      | false =>
        rw [or_iff_right Bool.false_ne_true]
        refine ih _ shorter steady' broken (fun turns => ?_) rfl
        have next := answered (turns + 1)
        rwa [runTurns_of_turn turned] at next

/-- Some callback is called for a request exactly if its session meets no state in which it is
dropped. -/
theorem reports_iff (served : server.Served s) :
    server.Reports s ↔
      ∀ turns, ¬ server.Drops (serverReads server.config s turns).step
        (serverReads server.config s turns).socket :=
  server.callback_iff_of_steady rfl rfl served

omit [RegexMatch] in
/-- A peer that closes some day serves every read. -/
theorem served_of_ending {code : ErrorCode} (ending : s.ending = some code) :
    server.Served s := by
  intro turns reads
  apply ServerStep.turn_of_ending reads
  rw [serverReads, ServerStep.ending_of_run]
  exact ending

end Server

/-! ### Requests that are dropped -/

/-- A pattern matches itself. -/
@[reducible] def literalPatterns : RegexMatch := ⟨fun regex path => regex == path⟩

/-- A server that lists its users, and nothing else. -/
def listingServer : Server Unit where
  config := ⟨999⟩
  resources := ⟨[(ascii "/users", [(ascii "GET", ())])], []⟩

def deleteUsers : Bytes := ascii "DELETE /users HTTP/1.1" ++ headerEnd

omit [HeaderFind] [RegexMatch] in
/-- A request with another method is dropped, though it has come as a whole. -/
theorem other_method_is_dropped :
    let s : Socket := ⟨[deleteUsers], some .eof⟩
    @Server.Served Unit findFirst listingServer s ∧
      ¬ @Server.Reports Unit findFirst literalPatterns listingServer s := by
  intro s
  have served := @Server.served_of_ending Unit findFirst listingServer s .eof rfl
  refine ⟨served, fun reported => ?_⟩
  have kept : ¬ @Server.Drops Unit literalPatterns listingServer
      (@serverReads findFirst listingServer.config s 1).step _ :=
    (@Server.callback_iff_of_steady Unit findFirst literalPatterns listingServer
      (.readHeader (.new listingServer.config)) s rfl rfl served).mp reported 1
  have found : (@serverReads findFirst listingServer.config s 1).step = .findResource
      ⟨{ method := ascii "DELETE", path := ascii "/users", httpVersion := ascii "1.1" },
        { maxSize := 999 }⟩ := rfl
  rw [found] at kept
  have unregistered : @Server.Unregistered Unit literalPatterns listingServer
      { method := ascii "DELETE", path := ascii "/users", httpVersion := ascii "1.1" } := by
    refine @Server.Unregistered.mk Unit literalPatterns _ _ ?_ ?_ ?_
    · intro entry member _
      revert entry
      decide
    · decide
    · decide
  exact kept unregistered

omit [HeaderFind] [RegexMatch] in
theorem reports_iff_listed :
    let s : Socket := ⟨[ascii "GET /users HTTP/1.1" ++ headerEnd], some .eof⟩
    @Server.Reports Unit findFirst literalPatterns listingServer s ↔
      ∀ turns, ¬ @Server.Drops Unit literalPatterns listingServer
        (@serverReads findFirst listingServer.config s turns).step
        (@serverReads findFirst listingServer.config s turns).socket := by
  intro s
  apply @Server.reports_iff Unit findFirst literalPatterns listingServer
  exact @Server.served_of_ending Unit findFirst listingServer s .eof rfl

end ServerLib.Web
