import ServerLib.Common.Asserts
import ServerLib.Foundation.OrderedMap
import ServerLib.Web.HttpServer

/-!
# The request callbacks of the web server

`web_server` keeps the callbacks in a map of maps, by the anchored pattern and the method, each
with a number of its own. A start copies them into the HTTP server, which gets a resource for each
of them, and the numbers lead back from the resources to the callbacks.
-/
namespace ServerLib.Web

open Network (Bytes)
open OrderedMap
open Std (TreeMap)

/-- The callbacks of `web_server`, with the last number that it has given. -/
structure WebServer (η : Type) where
  nextSubscription : UInt64 := 0
  requestCallbacks : TreeMap Bytes (TreeMap Bytes (UInt64 × η)) := ∅

/-- A call of one of the three forms of `on_request`; without a callback it unsubscribes. -/
inductive RequestCall (η : Type) where
  | request (pattern method : Bytes) (callback : Option η)
  | post (pattern : Bytes) (callback : Option η)
  | root (callback : Option η)

/-- `web_server_impl`: the callbacks by their numbers, and the resources. -/
structure WebServerImpl (η : Type) where
  requestCallbacks : TreeMap UInt64 η := ∅
  resource : TreeMap Bytes (TreeMap Bytes UInt64) := ∅

/-- The pattern with the anchors that it lacks. -/
def anchored (pattern : Bytes) : Bytes :=
  let pattern := if pattern.getLast? = some 36 then pattern else pattern ++ ascii "$"
  if pattern.head? = some 94 then pattern else ascii "^" ++ pattern

namespace RequestCall

variable {η : Type}

def pattern : RequestCall η → Bytes
  | request pattern _ _ | post pattern _ => pattern
  | root _ => ascii "/"

def method : RequestCall η → Bytes
  | request _ method _ => method
  | _ => ascii "POST"

def callback : RequestCall η → Option η
  | request _ _ callback | post _ callback | root callback => callback

end RequestCall

variable {η : Type}

def WebServer.onRequest (s : WebServer η) (call : RequestCall η) : Outcome (WebServer η) :=
  if call.pattern = [] then .thrown ⟨"!pattern.empty()", ""⟩ s
  else if call.method = [] then .thrown ⟨"!method.empty()", ""⟩ s
  else
    let pattern := anchored call.pattern
    match call.callback with
    | some callback =>
      -- a number is used up also if there is a callback already
      let nextSubscription := s.nextSubscription + 1
      .returned ⟨nextSubscription, within s.requestCallbacks pattern fun callbacksByMethod =>
        callbacksByMethod.insertIfNew call.method (nextSubscription, callback)⟩
    | none =>
      .returned { s with requestCallbacks := eraseWithin s.requestCallbacks pattern call.method }

/-- A new server after so many calls, some of which may have thrown. -/
def WebServer.after (calls : List (RequestCall η)) : WebServer η :=
  calls.foldl (fun s call => (s.onRequest call).state) {}

/-- The body of the loops of `set_request_handler`. -/
def WebServerImpl.add (impl : WebServerImpl η) (item : Bytes × Bytes × UInt64 × η) :
    WebServerImpl η :=
  let (pattern, method, subscriptionId, callback) := item
  { requestCallbacks := impl.requestCallbacks.insertIfNew subscriptionId callback
    resource := within impl.resource pattern fun methods => methods.insert method subscriptionId }

/-- `set_request_handler`; `valid` are the patterns that `std::regex` can be made of. It throws on
others. -/
def WebServerImpl.setRequestHandler (valid : Bytes → Bool)
    (callbacks : TreeMap Bytes (TreeMap Bytes (UInt64 × η))) : Option (WebServerImpl η) :=
  (entries callbacks).foldlM
    (fun impl item => if valid item.1 then some (impl.add item) else none) {}

/-- `start_impl`, up to the start of the HTTP server; `none` if it does not come there. -/
def WebServer.start (valid : Bytes → Bool) (s : WebServer η) : Option (WebServerImpl η) :=
  if s.requestCallbacks.isEmpty then none
  else WebServerImpl.setRequestHandler valid s.requestCallbacks

def WebServerImpl.resources (impl : WebServerImpl η) : Resources UInt64 where
  resource := impl.resource.toList.map fun (regex, methods) => (regex, methods.toList)

/-- The callback that a request comes to: `find_resource` and `on_request_impl`. -/
def WebServerImpl.answerer [RegexMatch] (impl : WebServerImpl η) (message : RequestMessage) :
    Option η :=
  (findResource impl.resources message).bind fun subscriptionId =>
    impl.requestCallbacks[subscriptionId]?

/-! ### What is registered -/

/-- The callback that stands for a pattern with a method. -/
abbrev Registered (η : Type) := Bytes → Bytes → Option η

def Registered.set (table : Registered η) (pattern method : Bytes) (callback : Option η) :
    Registered η :=
  fun pattern' method' =>
    if pattern = pattern' ∧ method = method' then callback else table pattern' method'

/-- The first registration counts until it is taken back. -/
def RequestCall.apply (call : RequestCall η) (table : Registered η) : Registered η :=
  if call.pattern = [] ∨ call.method = [] then table
  else
    let pattern := anchored call.pattern
    table.set pattern call.method <|
      call.callback.map fun callback => (table pattern call.method).getD callback

def registered (calls : List (RequestCall η)) : Registered η :=
  calls.foldl (fun table call => call.apply table) fun _ _ => none

/-- The pattern is the first one, in the order of their texts, that a callback is registered for
with the method of the request and that matches its path. -/
structure Registered.First [RegexMatch] (table : Registered η) (message : RequestMessage)
    (pattern : Bytes) (callback : η) : Prop where
  registered : table pattern message.method = some callback
  matches_ : RegexMatch.regexMatch pattern message.path = true
  first : ∀ other, compare other pattern = .lt → table other message.method ≠ none →
    RegexMatch.regexMatch other message.path = false

/-- The maps of the server and its numbers stand for the table. -/
structure WebServer.Represents (s : WebServer η) (table : Registered η) : Prop where
  callbacks : ∀ pattern method,
    (lookup₂ s.requestCallbacks pattern method).map Prod.snd = table pattern method
  inhabited : Inhabited₂ s.requestCallbacks
  issued : ∀ pattern method entry, lookup₂ s.requestCallbacks pattern method = some entry →
    entry.1.toNat ≤ s.nextSubscription.toNat
  unique : ∀ pattern method entry pattern' method' entry',
    lookup₂ s.requestCallbacks pattern method = some entry →
    lookup₂ s.requestCallbacks pattern' method' = some entry' → entry.1 = entry'.1 →
    pattern = pattern' ∧ method = method'

namespace WebServer.Represents

variable {s : WebServer η} {table : Registered η}

theorem start : Represents ({} : WebServer η) fun _ _ => none where
  callbacks _ _ := by simp [lookup₂]
  inhabited := inhabited₂_empty
  issued _ _ _ here := by simp [lookup₂] at here
  unique _ _ _ _ _ _ here := by simp [lookup₂] at here

theorem registered_isSome (represents : s.Represents table) {pattern method : Bytes}
    {entry : UInt64 × η} (here : lookup₂ s.requestCallbacks pattern method = some entry) :
    table pattern method = some entry.2 := by
  rw [← represents.callbacks, here]
  rfl

/-- `emplace`, with the next number. -/
theorem emplace (represents : s.Represents table) (fits : s.nextSubscription.toNat + 1 < sizeMax)
    (pattern method : Bytes) (callback : η) :
    Represents
      ⟨s.nextSubscription + 1, within s.requestCallbacks pattern fun callbacksByMethod =>
        callbacksByMethod.insertIfNew method (s.nextSubscription + 1, callback)⟩
      (table.set pattern method (some ((table pattern method).getD callback))) := by
  have next : (s.nextSubscription + 1).toNat = s.nextSubscription.toNat + 1 := by
    rw [UInt64.toNat_add]
    exact Nat.mod_eq_of_lt fits
  have entered : ∀ pattern' method' entry,
      lookup₂ (within s.requestCallbacks pattern fun callbacksByMethod =>
        callbacksByMethod.insertIfNew method (s.nextSubscription + 1, callback)) pattern' method' =
          some entry →
      lookup₂ s.requestCallbacks pattern' method' = some entry ∨
        pattern = pattern' ∧ method = method' ∧ entry = (s.nextSubscription + 1, callback) := by
    intro pattern' method' entry here
    rw [lookup₂_insertIfNew] at here
    split at here
    next same =>
      obtain ⟨rfl, rfl⟩ := same
      cases old : lookup₂ s.requestCallbacks pattern method with
      | none =>
        rw [old] at here
        exact .inr ⟨rfl, rfl, (Option.some.inj here).symm⟩
      | some entry' =>
        rw [old] at here
        exact .inl here
    · exact .inl here
  refine ⟨fun pattern' method' => ?_, ?_, fun pattern' method' entry here => ?_, ?_⟩
  · rw [lookup₂_insertIfNew, Registered.set]
    split
    · rw [← represents.callbacks]
      cases lookup₂ s.requestCallbacks pattern method with
      | none => rfl
      | some entry => rfl
    · exact represents.callbacks pattern' method'
  · exact represents.inhabited.within pattern fun inner => TreeMap.isEmpty_insertIfNew
  · rcases entered pattern' method' entry here with old | ⟨-, -, rfl⟩
    · have before := represents.issued pattern' method' entry old
      dsimp only
      omega
    · exact Nat.le_refl _
  · intro p m entry p' m' entry' here here' same
    rcases entered p m entry here with old | ⟨rfl, rfl, rfl⟩
    · rcases entered p' m' entry' here' with old' | ⟨rfl, rfl, rfl⟩
      · exact represents.unique p m entry p' m' entry' old old' same
      · -- a new number is not among the old ones
        have before := represents.issued p m entry old
        rw [same] at before
        dsimp only at before
        omega
    · rcases entered p' m' entry' here' with old' | ⟨rfl, rfl, -⟩
      · have before := represents.issued p' m' entry' old'
        rw [← same] at before
        dsimp only at before
        omega
      · exact ⟨rfl, rfl⟩

theorem erase (represents : s.Represents table) (pattern method : Bytes) :
    Represents { s with requestCallbacks := eraseWithin s.requestCallbacks pattern method }
      (table.set pattern method none) := by
  have kept : ∀ pattern' method' entry,
      lookup₂ (eraseWithin s.requestCallbacks pattern method) pattern' method' = some entry →
      lookup₂ s.requestCallbacks pattern' method' = some entry := by
    intro pattern' method' entry here
    rw [lookup₂_eraseWithin] at here
    split at here
    · cases here
    · exact here
  refine ⟨fun pattern' method' => ?_, represents.inhabited.eraseWithin pattern method,
    fun p m entry here => represents.issued p m entry (kept p m entry here),
    fun p m entry p' m' entry' here here' =>
      represents.unique p m entry p' m' entry' (kept p m entry here) (kept p' m' entry' here')⟩
  rw [lookup₂_eraseWithin, Registered.set]
  split
  · rfl
  · exact represents.callbacks pattern' method'

end WebServer.Represents

theorem represents_step {s : WebServer η} {table : Registered η} (represents : s.Represents table)
    (fits : s.nextSubscription.toNat + 1 < sizeMax) (call : RequestCall η) :
    (s.onRequest call).state.Represents (call.apply table) := by
  unfold WebServer.onRequest RequestCall.apply
  by_cases noPattern : call.pattern = []
  · rw [if_pos noPattern, if_pos (.inl noPattern)]
    exact represents
  · by_cases noMethod : call.method = []
    · rw [if_neg noPattern, if_pos noMethod, if_pos (.inr noMethod)]
      exact represents
    · rw [if_neg noPattern, if_neg noMethod, if_neg (not_or.mpr ⟨noPattern, noMethod⟩)]
      cases call.callback with
      | some callback => exact represents.emplace fits (anchored call.pattern) call.method callback
      | none => exact represents.erase (anchored call.pattern) call.method

theorem nextSubscription_step (s : WebServer η) (call : RequestCall η) :
    (s.onRequest call).state.nextSubscription.toNat ≤ s.nextSubscription.toNat + 1 := by
  have next : (s.nextSubscription + 1).toNat ≤ s.nextSubscription.toNat + 1 := by
    rw [UInt64.toNat_add]
    exact Nat.mod_le _ _
  have same := Nat.le_succ s.nextSubscription.toNat
  unfold WebServer.onRequest
  split
  · exact same
  · split
    · exact same
    · dsimp only
      split
      · exact next
      · exact same

theorem represents_after (calls : List (RequestCall η)) (few : calls.length < sizeMax) :
    (WebServer.after calls).Represents (registered calls) := by
  have counted : (WebServer.after calls).Represents (registered calls) ∧
      (WebServer.after calls).nextSubscription.toNat ≤ calls.length := by
    induction calls using List.reverseRecOn with
    | nil => exact ⟨.start, Nat.le_refl _⟩
    | append_singleton calls call ih =>
      rw [List.length_append, List.length_singleton] at few ⊢
      obtain ⟨represents, count⟩ := ih (by omega)
      rw [WebServer.after, registered, List.foldl_append, List.foldl_append]
      refine ⟨represents_step represents (by omega) call, ?_⟩
      have next := nextSubscription_step (WebServer.after calls) call
      exact next.trans (Nat.add_le_add_right count 1)
  exact counted.1

/-! ### The copies of the HTTP server -/

section Start

variable {s : WebServer η} {table : Registered η}

theorem lookup_resource (s : WebServer η) (pattern method : Bytes) (id : UInt64) :
    lookup₂ ((entries s.requestCallbacks).foldl WebServerImpl.add {}).resource pattern method =
        some id ↔
      ∃ callback, lookup₂ s.requestCallbacks pattern method = some (id, callback) := by
  have filled := look_foldl WebServerImpl.add
    (fun impl (key : Bytes × Bytes) => lookup₂ impl.resource key.1 key.2)
    (fun item : Bytes × Bytes × UInt64 × η => (item.1, item.2.1)) (fun item => item.2.2.1)
    ?_ ?_ (entries s.requestCallbacks) ?_ {} ?_ (pattern, method) id
  · rw [filled]
    constructor
    · rintro ⟨⟨pattern', method', id', callback⟩, member, key, rfl⟩
      cases key
      exact ⟨callback, mem_entries.mp member⟩
    · rintro ⟨callback, here⟩
      exact ⟨(pattern, method, id, callback), mem_entries.mpr here, rfl, rfl⟩
  · rintro impl ⟨pattern, method, id, callback⟩
    left
    simp [WebServerImpl.add, lookup₂_insert]
  · rintro impl ⟨pattern, method, id, callback⟩ ⟨pattern', method'⟩ other
    have other : ¬ (pattern = pattern' ∧ method = method') := by simpa using other
    simp [WebServerImpl.add, lookup₂_insert, other]
  · rintro ⟨pattern, method, entry⟩ member ⟨pattern', method', entry'⟩ member' same
    cases same
    have one := (mem_entries.mp member).symm.trans (mem_entries.mp member')
    rw [Option.some.inj one]
  · intro key
    simp [lookup₂]

theorem lookup_requestCallbacks (represents : s.Represents table) (id : UInt64) (callback : η) :
    ((entries s.requestCallbacks).foldl WebServerImpl.add {}).requestCallbacks[id]? =
        some callback ↔
      ∃ pattern method, lookup₂ s.requestCallbacks pattern method = some (id, callback) := by
  have filled := look_foldl WebServerImpl.add (fun impl id => impl.requestCallbacks[id]?)
    (fun item : Bytes × Bytes × UInt64 × η => item.2.2.1) (fun item => item.2.2.2)
    ?_ ?_ (entries s.requestCallbacks) ?_ {} ?_ id callback
  · rw [filled]
    constructor
    · rintro ⟨⟨pattern, method, id', callback'⟩, member, rfl, rfl⟩
      exact ⟨pattern, method, mem_entries.mp member⟩
    · rintro ⟨pattern, method, here⟩
      exact ⟨(pattern, method, id, callback), mem_entries.mpr here, rfl, rfl⟩
  · rintro impl ⟨pattern, method, id, callback⟩
    dsimp only [WebServerImpl.add]
    rw [TreeMap.getElem?_insertIfNew]
    by_cases inside : id ∈ impl.requestCallbacks
    · right
      simp [inside]
    · left
      simp [inside]
  · rintro impl ⟨pattern, method, id, callback⟩ id' other
    have other : ¬ id = id' := other
    simp [WebServerImpl.add, TreeMap.getElem?_insertIfNew, other]
  · -- a number belongs to one pattern and one method, so to one callback
    rintro ⟨pattern, method, entry⟩ member ⟨pattern', method', entry'⟩ member' same
    have here := mem_entries.mp member
    have here' := mem_entries.mp member'
    obtain ⟨rfl, rfl⟩ := represents.unique _ _ _ _ _ _ here here' same
    rw [Option.some.inj (here.symm.trans here')]
  · intro id
    simp

theorem start_eq_some_iff (represents : s.Represents table) (valid : Bytes → Bool)
    (impl : WebServerImpl η) :
    s.start valid = some impl ↔
      (∃ pattern method, table pattern method ≠ none) ∧
        (∀ pattern method, table pattern method ≠ none → valid pattern = true) ∧
        impl = (entries s.requestCallbacks).foldl WebServerImpl.add {} := by
  have holds : ∀ pattern method,
      table pattern method ≠ none ↔ lookup₂ s.requestCallbacks pattern method ≠ none := by
    intro pattern method
    rw [← represents.callbacks, Ne, Option.map_eq_none_iff]
  have empty := represents.inhabited.isEmpty_iff
  have all : (entries s.requestCallbacks).all (fun item => valid item.1) = true ↔
      ∀ pattern method, table pattern method ≠ none → valid pattern = true := by
    rw [List.all_eq_true]
    constructor
    · intro every pattern method has
      obtain ⟨entry, here⟩ := Option.ne_none_iff_exists'.mp ((holds pattern method).mp has)
      exact every (pattern, method, entry) (mem_entries.mpr here)
    · rintro every ⟨pattern, method, entry⟩ member
      apply every pattern method
      rw [holds, mem_entries.mp member]
      exact Option.some_ne_none entry
  rw [WebServer.start, WebServerImpl.setRequestHandler, foldlM_guard]
  by_cases nothing : s.requestCallbacks.isEmpty = true
  · rw [if_pos nothing]
    constructor
    · intro none_
      cases none_
    · rintro ⟨⟨pattern, method, has⟩, -⟩
      exact absurd (empty.mp nothing pattern method) ((holds pattern method).mp has)
  · have something : ∃ pattern method, table pattern method ≠ none := by
      by_contra none_
      simp only [not_exists, not_not] at none_
      apply nothing
      rw [empty]
      intro pattern method
      by_contra has
      exact (holds pattern method).mpr has (none_ pattern method)
    rw [if_neg nothing, Option.ite_none_right_eq_some, all, Option.some.injEq]
    exact ⟨fun ⟨every, is⟩ => ⟨something, every, is.symm⟩, fun ⟨_, every, is⟩ => ⟨every, is.symm⟩⟩

variable [RegexMatch]

theorem findResource_resources (impl : WebServerImpl η) (message : RequestMessage) (id : UInt64) :
    findResource impl.resources message = some id ↔
      ∃ pattern, lookup₂ impl.resource pattern message.method = some id ∧
        RegexMatch.regexMatch pattern message.path = true ∧
        ∀ other, compare other pattern = .lt →
          lookup₂ impl.resource other message.method ≠ none →
          RegexMatch.regexMatch other message.path = false := by
  have visit : ∀ (regex : Bytes) (methods : TreeMap Bytes UInt64) (id : UInt64),
      (methods.toList.lookup message.method).filter
          (fun _ => RegexMatch.regexMatch regex message.path) = some id ↔
        methods[message.method]? = some id ∧ RegexMatch.regexMatch regex message.path = true := by
    intro regex methods id
    rw [toList_lookup, Option.filter_eq_some_iff]
  rw [findResource, WebServerImpl.resources, List.findSome?_map]
  dsimp only
  rw [List.lookup_nil, Option.orElse_apply, Option.orElse_eq_or, Option.or_none, findSome?_toList]
  simp only [Function.comp_apply]
  constructor
  · rintro ⟨pattern, methods, here, takes, passed⟩
    obtain ⟨is, matches_⟩ := (visit pattern methods id).mp takes
    refine ⟨pattern, ?_, matches_, fun other less has => ?_⟩
    · rw [lookup₂, here]
      exact is
    · obtain ⟨id', is'⟩ := Option.ne_none_iff_exists'.mp has
      obtain ⟨methods', here', inside⟩ := Option.bind_eq_some_iff.mp is'
      by_contra also
      have taken := (visit other methods' id').mpr ⟨inside, Bool.not_eq_false _ ▸ also⟩
      cases taken.symm.trans (passed other methods' less here')
  · rintro ⟨pattern, is, matches_, first⟩
    obtain ⟨methods, here, inside⟩ := Option.bind_eq_some_iff.mp is
    refine ⟨pattern, methods, here, (visit pattern methods id).mpr ⟨inside, matches_⟩, ?_⟩
    intro other methods' less here'
    by_contra takes
    obtain ⟨id', taken⟩ := Option.ne_none_iff_exists'.mp takes
    obtain ⟨inside', also⟩ := (visit other methods' id').mp taken
    have has : lookup₂ impl.resource other message.method ≠ none := by
      rw [lookup₂, here', Option.bind_some, inside']
      exact Option.some_ne_none id'
    rw [first other less has] at also
    cases also

/-- The walk through the resources, and the number that leads to the callback. -/
theorem answerer_eq_some_iff (represents : s.Represents table) (message : RequestMessage)
    (callback : η) :
    ((entries s.requestCallbacks).foldl WebServerImpl.add {}).answerer message = some callback ↔
      ∃ pattern, table.First message pattern callback := by
  -- a resource stands for a callback of the table
  have known : ∀ pattern,
      lookup₂ ((entries s.requestCallbacks).foldl WebServerImpl.add {}).resource pattern
        message.method ≠ none ↔ table pattern message.method ≠ none := by
    intro pattern
    rw [← represents.callbacks, Option.ne_none_iff_exists', Option.ne_none_iff_exists']
    simp only [lookup_resource, Option.map_eq_some_iff, Prod.exists, exists_eq_right]
    exact exists_comm
  rw [WebServerImpl.answerer, Option.bind_eq_some_iff]
  constructor
  · rintro ⟨id, found, leads⟩
    obtain ⟨pattern, resource, matches_, first⟩ := (findResource_resources _ message id).mp found
    obtain ⟨callback', here⟩ := (lookup_resource s pattern message.method id).mp resource
    obtain ⟨pattern', method', here'⟩ := (lookup_requestCallbacks represents id callback).mp leads
    obtain ⟨rfl, rfl⟩ := represents.unique _ _ _ _ _ _ here here' rfl
    refine ⟨pattern, represents.registered_isSome here', matches_, fun other less has => ?_⟩
    exact first other less ((known other).mpr has)
  · rintro ⟨pattern, is, matches_, first⟩
    rw [← represents.callbacks, Option.map_eq_some_iff] at is
    obtain ⟨⟨id, callback⟩, here, rfl⟩ := is
    refine ⟨id, (findResource_resources _ message id).mpr ⟨pattern, ?_, matches_, ?_⟩, ?_⟩
    · exact (lookup_resource s pattern message.method id).mpr ⟨callback, here⟩
    · exact fun other less has => first other less ((known other).mp has)
    · exact (lookup_requestCallbacks represents id callback).mpr ⟨pattern, message.method, here⟩

end Start

/-- A server starts if a callback is registered and `std::regex` takes the patterns of all of
them. Each request goes to the callback that was the first one for its pattern and method since
the last removal, and the pattern is the first one that fits the request. The condition is that
the numbers of `size_t` are not used up. -/
theorem requests_reach_registered [RegexMatch] (valid : Bytes → Bool)
    (calls : List (RequestCall η)) (few : calls.length < sizeMax) :
    (((WebServer.after calls).start valid).isSome = true ↔
      (∃ pattern method, registered calls pattern method ≠ none) ∧
        ∀ pattern method, registered calls pattern method ≠ none → valid pattern = true) ∧
    ∀ impl, (WebServer.after calls).start valid = some impl → ∀ message callback,
      impl.answerer message = some callback ↔
        ∃ pattern, (registered calls).First message pattern callback := by
  have represents := represents_after calls few
  constructor
  · rw [Option.isSome_iff_exists]
    simp only [start_eq_some_iff represents, exists_and_left, exists_eq, and_true]
  · intro impl started
    obtain ⟨-, -, rfl⟩ := (start_eq_some_iff represents valid impl).mp started
    exact answerer_eq_some_iff represents

/-- Every path, or the one that the pattern spells. -/
@[reducible] private def spelled : RegexMatch where
  regexMatch regex path := regex == ascii "^.*$" || regex == ascii "^" ++ path ++ ascii "$"

private def subscribed : List (RequestCall Nat) :=
  [.request (ascii "/a") (ascii "GET") (some 1), .request (ascii ".*") (ascii "GET") (some 2),
    .request (ascii "^/a") (ascii "GET") (some 3), .request (ascii "") (ascii "GET") (some 4),
    .request (ascii ".*$") (ascii "GET") none, .post (ascii "/a") (some 5), .root (some 6)]

/-- The second registration of a pattern is without effect, and another pattern is removed. -/
theorem requests_reach_registered_twice :
    ∃ impl, (WebServer.after subscribed).start (fun _ => true) = some impl ∧
      @WebServerImpl.answerer _ spelled impl { method := ascii "GET", path := ascii "/a" } =
        some 1 ∧
      ∃ pattern, @Registered.First _ spelled (registered subscribed)
        { method := ascii "GET", path := ascii "/a" } pattern 1 := by
  have ran : ((WebServer.after subscribed).start fun _ => true).map (fun impl =>
      @WebServerImpl.answerer _ spelled impl { method := ascii "GET", path := ascii "/a" }) =
        some (some 1) := by decide +kernel
  obtain ⟨impl, started, answers⟩ := Option.map_eq_some_iff.mp ran
  have reach := @requests_reach_registered _ spelled (fun _ => true) subscribed (by decide)
  exact ⟨impl, started, answers, (reach.2 impl started _ 1).mp answers⟩

end ServerLib.Web
