import SafetyHub.Catalog.Broadcast
import SafetyHub.Instant.Basic
import SafetyHub.Profile
import SafetyHub.Refresh.Reason

/-!
# The refresh in flight

At most one refresh is in flight.  `RefreshTracker.start` asks the sources of a profile group,
one request for each package and user, and waits for the pairs of source and user that it asked
and that are not untracked.  Each pair leaves `PairState.pending` once, for the state of the
first answer that carries the refresh's token; the refresh ends when no pair is pending.
Answers with another token change nothing.
-/

namespace SafetyHub

open Std

/-- How far a refresh is with one source and user. -/
inductive PairState where
  | pending
  | completed
  | failed
  | timedOut
deriving DecidableEq, Repr, Inhabited

namespace PairState

/-- Every state. -/
def all : List PairState := [.pending, .completed, .failed, .timedOut]

/-- Whether the state is final. -/
def isFinal (s : PairState) : Bool := s != .pending

/-- The states that may follow a state. -/
def successors : PairState → List PairState
  | .pending => [.completed, .failed, .timedOut]
  | _ => []

/-- Whether a state may follow another. -/
def mayBecome (source target : PairState) : Bool :=
  source.successors.contains target

/-- The name of a state. -/
def name : PairState → String
  | .pending => "Pending"
  | .completed => "Completed"
  | .failed => "Failed"
  | .timedOut => "TimedOut"

end PairState

/-- What one package is asked for one user. -/
structure RefreshRequest where
  package : String
  sourceIds : List String
  userId : UserId
  requestType : RequestType
  broadcastId : BroadcastId
deriving DecidableEq, Repr, Inhabited

namespace RefreshRequest

/-- The pairs of source and user that are asked. -/
def pairs (r : RefreshRequest) : List SourceKey :=
  r.sourceIds.map (⟨·, r.userId⟩)

instance : Encode RefreshRequest :=
  ⟨fun r => .record [("package_name", encode r.package), ("source_ids", encode r.sourceIds),
    ("user_id", encode r.userId), ("request_type", encode r.requestType),
    ("broadcast_id", encode r.broadcastId)]⟩

instance : Decode RefreshRequest where
  decode? d v := do
    let r ← v.record? d ["package_name", "source_ids", "user_id", "request_type",
      "broadcast_id"]
    some {
      package := ← r.required "package_name" (decode? d)
      sourceIds := ← r.required "source_ids" (decode? d)
      userId := ← r.required "user_id" (decode? d)
      requestType := ← r.required "request_type" (decode? d)
      broadcastId := ← r.required "broadcast_id" (decode? d) }

end RefreshRequest

/-! ### Tokens -/

/-- What the token of a refresh is made from. -/
structure RefreshOrigin where
  /-- How many refreshes have been started, this one included. -/
  number : Nat
  reason : RefreshReason
  parent : UserId
  startedAt : Instant
deriving DecidableEq, Repr

namespace RefreshOrigin

/-- The digest of a text: its characters folded into 64 bits by exclusive or and
multiplication, in hexadecimal digits. -/
def digestOf (text : String) : String :=
  let n := text.toList.foldl
    (fun (h : UInt64) c => (h ^^^ UInt64.ofNat c.toNat) * 1099511628211) 14695981039346656037
  let digits := Text.hexDigits n.toNat
  String.ofList (List.replicate (16 - digits.length) '0' ++ digits)

/-- A digest of the origin of a refresh.  The tracker and the hub leave it open which one is
taken; this is the one that sessions and the command line take. -/
def digest (o : RefreshOrigin) : String :=
  digestOf s!"{o.number} {o.reason.name} {o.parent} {o.startedAt.seconds} {o.startedAt.nanos}"

/-- The token of a refresh: its number and the first twelve digits of a digest of its origin. -/
def broadcastId (digest : RefreshOrigin → String) (o : RefreshOrigin) : BroadcastId :=
  ⟨s!"{o.number}-" ++ String.ofList ((digest o).toList.take 12)⟩

end RefreshOrigin

/-! ### Requests -/

/-- What a refresh asks for. -/
structure RefreshOrder where
  reason : RefreshReason
  requestType : RequestType
  group : ProfileGroup
  broadcasts : List Broadcast
  /-- The sources that are asked but not waited for. -/
  untracked : SourceIds
  /-- Whether a source must be asked even if it is not asked when the page is opened. -/
  needsReport : SourceKey → Bool

namespace RefreshOrder

/-- The sources of a list that are asked for a user.  When the page is opened they are the ones
asked on that occasion and the ones that must report; otherwise they are all. -/
def asked (o : RefreshOrder) (user : UserId) (ids onPageOpen : List String) : List String :=
  ids.filter fun id =>
    o.reason != .pageOpen || onPageOpen.contains id || o.needsReport ⟨id, user⟩

/-- The request to a package for a user, if there is a source to ask. -/
def request? (o : RefreshOrder) (token : BroadcastId) (package : String) (user : UserId)
    (ids onPageOpen : List String) : Option RefreshRequest :=
  let sourceIds := o.asked user ids onPageOpen
  if sourceIds.isEmpty then none
  else some {
    package, sourceIds, userId := user, requestType := o.requestType, broadcastId := token }

/-- The requests of one broadcast: for the profile parent, then for each running profile. -/
def requestsOf (o : RefreshOrder) (token : BroadcastId) (b : Broadcast) :
    List RefreshRequest :=
  (o.request? token b.package o.group.parent b.forParent b.forParentOnPageOpen).toList
    ++ o.group.running.filterMap fun user =>
      o.request? token b.package user b.forManaged b.forManagedOnPageOpen

/-- All requests, in the order of the broadcasts. -/
def requests (o : RefreshOrder) (token : BroadcastId) : List RefreshRequest :=
  o.broadcasts.flatMap (o.requestsOf token)

/-- The requested pairs that are waited for. -/
def tracked (o : RefreshOrder) (requests : List RefreshRequest) : List SourceKey :=
  (requests.flatMap (·.pairs)).filter fun key => !o.untracked.contains key.sourceId

end RefreshOrder

/-! ### Tracking -/

/-- The refresh in flight. -/
structure RefreshInProgress where
  id : BroadcastId
  reason : RefreshReason
  requestType : RequestType
  group : ProfileGroup
  /-- How far each pair is that the refresh waits for, or waited for. -/
  states : ExtTreeMap SourceKey PairState
  /-- The pairs that are waited for. -/
  pending : ExtTreeSet SourceKey

namespace RefreshInProgress

/-- A refresh that is asked for under a token and has yet to hear of all its pairs. -/
def ofOrder (o : RefreshOrder) (id : BroadcastId) (pending : ExtTreeSet SourceKey) :
    RefreshInProgress where
  id
  reason := o.reason
  requestType := o.requestType
  group := o.group
  states := .ofList (pending.toList.map (·, PairState.pending))
  pending

/-- How far a pair is, if it is part of the refresh. -/
def state? (r : RefreshInProgress) (key : SourceKey) : Option PairState :=
  r.states[key]?

/-- The refresh when a pair has moved to a final state. -/
def settle (r : RefreshInProgress) (key : SourceKey) (target : PairState) : RefreshInProgress :=
  { r with states := r.states.insert key target, pending := r.pending.erase key }

instance : Encode RefreshInProgress :=
  ⟨fun r => .record [("id", encode r.id), ("reason", encode r.reason),
    ("request_type", encode r.requestType), ("parent", encode r.group.parent),
    ("pending", encode (r.pending.toList.map toString))]⟩

end RefreshInProgress

/-- What the start of a refresh answers. -/
structure RefreshPlan where
  id : BroadcastId
  requests : List RefreshRequest
  /-- The number of pairs that are waited for. -/
  tracked : Nat
  /-- Whether there is nothing to wait for. -/
  isImmediate : Bool
deriving DecidableEq, Repr

namespace RefreshPlan

instance : Encode RefreshPlan :=
  ⟨fun p => .record [("id", encode p.id), ("requests", encode p.requests),
    ("tracked", .nat p.tracked), ("immediate", encode p.isImmediate)]⟩

end RefreshPlan

/-- The refresh in flight and the number of refreshes started so far. -/
structure RefreshTracker where
  started : Nat := 0
  current : Option RefreshInProgress := none

namespace RefreshTracker

instance : Inhabited RefreshTracker := ⟨{}⟩

/-- Starts a refresh in place of the one in flight. -/
def start (t : RefreshTracker) (digest : RefreshOrigin → String) (now : Instant)
    (o : RefreshOrder) : RefreshPlan × RefreshTracker :=
  let number := t.started + 1
  let id := RefreshOrigin.broadcastId digest ⟨number, o.reason, o.group.parent, now⟩
  let requests := o.requests id
  let pending := ExtTreeSet.ofList (o.tracked requests)
  let current := if pending.isEmpty then none else some (.ofOrder o id pending)
  ({ id, requests, tracked := pending.size, isImmediate := pending.isEmpty },
    { started := number, current })

/-- Whether a refresh is in flight. -/
def isInProgress (t : RefreshTracker) : Bool := t.current.isSome

/-- The refresh in flight, if it has the given token. -/
def withId? (t : RefreshTracker) (id : BroadcastId) : Option RefreshInProgress :=
  t.current.filter (·.id == id)

/-- Moves a pair to a state, if the refresh in flight has the given token and waits for the
pair.  Says whether this ends the refresh. -/
def retire (t : RefreshTracker) (key : SourceKey) (id : BroadcastId) (target : PairState) :
    Bool × RefreshTracker :=
  match t.withId? id with
  | none => (false, t)
  | some r =>
    match r.state? key with
    | none => (false, t)
    | some state =>
      if state.mayBecome target then
        let r := r.settle key target
        if r.pending.isEmpty then (true, { t with current := none })
        else (false, { t with current := some r })
      else (false, t)

/-- A source reported. -/
def complete (t : RefreshTracker) (key : SourceKey) (id : BroadcastId) : Bool × RefreshTracker :=
  t.retire key id .completed

/-- A source failed. -/
def fail (t : RefreshTracker) (key : SourceKey) (id : BroadcastId) : Bool × RefreshTracker :=
  t.retire key id .failed

/-- The time of a pair is over. -/
def timeOut (t : RefreshTracker) (key : SourceKey) (id : BroadcastId) : Bool × RefreshTracker :=
  t.retire key id .timedOut

/-- The time of all pending pairs is over.  Says which they were. -/
def timeOutAll (t : RefreshTracker) (id : BroadcastId) : List SourceKey × RefreshTracker :=
  match t.withId? id with
  | none => ([], t)
  | some r =>
    (r.pending.toList, r.pending.toList.foldl (fun t key => (t.timeOut key id).2) t)

/-- Drops the refresh in flight, if it has the given token. -/
def clear (t : RefreshTracker) (id : BroadcastId) : Bool × RefreshTracker :=
  if (t.withId? id).isSome then (true, { t with current := none }) else (false, t)

/-- Drops the refresh in flight.  Says which it was. -/
def clearAll (t : RefreshTracker) : Option BroadcastId × RefreshTracker :=
  (t.current.map (·.id), { t with current := none })

/-- Drops the refresh in flight, if its group has the given user.  Says which it was. -/
def clearForUser (t : RefreshTracker) (user : UserId) : Option BroadcastId × RefreshTracker :=
  if t.current.any (·.group.contains user) then t.clearAll else (none, t)

/-- Whether a pair is waited for. -/
def isPending (t : RefreshTracker) (key : SourceKey) : Bool :=
  t.current.any (·.pending.contains key)

/-- What the overview of a group shows of the refresh in flight. -/
def statusFor (t : RefreshTracker) (group : ProfileGroup) : RefreshStatus :=
  match t.current with
  | some r => if r.group.parent == group.parent then r.reason.inProgressStatus else .none
  | none => .none

end RefreshTracker

end SafetyHub
