import SafetyHub.Admission
import SafetyHub.Audience
import SafetyHub.Deadline.Basic
import SafetyHub.Overview.Assembly
import SafetyHub.Refresh.Tracker
import SafetyHub.Report.Event

/-!
# The hub

`Hub` is everything the hub knows.  Every call on it is a function that answers with an error
and no change, or with the changed hub and its `Effect`s in order: first what is put on record
while the hub changes, then what is sent to packages, then what is offered to listeners, last
the errors that listeners hear of.  The functions of this module are the parts that calls are
made of.
-/

namespace SafetyHub

/-- Everything the hub knows. -/
structure Hub where
  catalog : Catalog
  policy : Policy
  dismissals : Dismissals := {}
  tracker : RefreshTracker := {}
  reports : ReportStore := {}
  inFlight : InFlight := ∅
  /-- The sequence number of the latest overviews.  A call or a turn takes one at most, so that
  fewer than `2 ^ 64` of them never exhaust 64 bits. -/
  sequence : Nat := 0
  audience : Audience := {}
  deadlines : Deadlines Unit := {}
  archive : Archive := {}

/-- What the hub sees of the device at a call. -/
structure Surroundings where
  users : Roster
  /-- The reading of the clock. -/
  now : Instant
  /-- The digest from which the tokens of refreshes are made. -/
  digest : RefreshOrigin → String

/-- What the hub tells the outside world other than its listeners. -/
inductive Signal where
  /-- The statistics of a group are put on record. -/
  | stats (parent : UserId) (severity : OverallSeverity) (counts : IssueCounts)
  /-- Dismissal records are saved. -/
  | saved (records : List SavedRecord)
  /-- Dismissal records could not be saved. -/
  | saveFailed (count : Nat)
  /-- A package is asked to report. -/
  | request (request : RefreshRequest)
  /-- A package is asked to carry out an action. -/
  | action (package : String) (key : ActionKey)
deriving DecidableEq, Repr

/-- The line under which a request or an action is logged. -/
def Signal.line? : Signal → Option String
  | .request r =>
    let ids := String.intercalate "," r.sourceIds
    let type := r.requestType.logName
    some s!"Refresh {r.broadcastId} -> {r.package} (user {r.userId}, {type}): {ids}"
  | .action package key => some s!"Action {key.actionId} of {key.issue} -> {package}"
  | _ => none

/-- What a call brings about outside the hub. -/
inductive Effect where
  | signal (signal : Signal)
  /-- An overview is offered to the listeners of a group that belong to a package. -/
  | offer (parent : UserId) (package : String) (sequence : Nat) (view : Overview)
  /-- An overview is offered to one listener of a group. -/
  | offerTo (parent : UserId) (listener : String) (sequence : Nat) (view : Overview)
  /-- The listeners of a group hear of an error. -/
  | notice (parent : UserId) (notice : Notice)
deriving DecidableEq, Repr

/-- A changed hub and what the change brings about. -/
structure Change where
  hub : Hub
  effects : List Effect := []

namespace Hub

/-! ### Overviews -/

/-- What overviews are drawn from at an instant. -/
def basis (h : Hub) (now : Instant) : Basis where
  catalog := h.catalog
  policy := h.policy
  reports := h.reports
  dismissals := h.dismissals
  inFlight := h.inFlight
  now

/-- The overview of a group at an instant. -/
def overview (h : Hub) (now : Instant) (group : ProfileGroup) : Overview :=
  (h.basis now).assemble (h.tracker.statusFor group) group

/-- The offers of the current overviews to everyone in the audience whose group is known. -/
def offers (h : Hub) (env : Surroundings) : List Effect :=
  h.audience.parents.flatMap fun parent =>
    match env.users.resolve? parent with
    | none => []
    | some group =>
      (h.audience.packages parent).map fun package =>
        .offer parent package h.sequence (h.overview env.now group)

/-- The hub with the next sequence number, and the offers under it. -/
def publish (h : Hub) (env : Surroundings) : Change :=
  let h := { h with sequence := h.sequence + 1 }
  { hub := h, effects := h.offers env }

/-- The statistics of a group as they are put on record. -/
def statsOf (h : Hub) (now : Instant) (group : ProfileGroup) : Effect :=
  let view := h.overview now group
  .signal (.stats group.parent view.status.severity view.counts)

/-- The error that the listeners of a user's group hear of; the user itself stands for a group
that is not known. -/
def noticeFor (env : Surroundings) (user : UserId) (notice : Notice) : Effect :=
  .notice (((env.users.resolve? user).map (·.parent)).getD user) notice

/-! ### Deadlines -/

/-- Arms a deadline. -/
def arm (h : Hub) (key : DeadlineKey) (delay : Nat) : Hub :=
  { h with deadlines := h.deadlines.arm key delay () }

/-- Drops a deadline. -/
def disarm (h : Hub) (key : DeadlineKey) : Hub :=
  { h with deadlines := h.deadlines.disarm key }

/-- Ends the actions in flight that do not satisfy a condition, and drops their deadlines. -/
def keepActions (h : Hub) (keep : ActionKey → Bool) : Hub :=
  { h with
    inFlight := h.inFlight.filter keep
    deadlines := h.deadlines.disarmEach ((h.inFlight.outside keep).map .resolveAction) }

/-- Drops the deadline of a refresh, if there is one to drop. -/
def disarmRefresh (h : Hub) (id : Option BroadcastId) : Hub :=
  { h with deadlines := h.deadlines.disarmEach (id.toList.map .refresh) }

/-- Arms the deadline for saving when dismissals have changed and it is not armed. -/
def schedulePersist (h : Hub) : Hub :=
  if h.dismissals.dirty && !h.deadlines.isArmed .persistWrite then
    h.arm .persistWrite h.policy.persistWriteDelay.nanos
  else h

/-- When each dismissed issue of a stored report comes back, if it does. -/
def resurfacings (h : Hub) (now : Instant) : List Instant :=
  h.reports.reports.toList.flatMap fun (key, stored) =>
    stored.report.issues.filterMap fun issue =>
      h.dismissals.resurfaceAt? (key.issue issue.id) issue.severity h.policy now

/-- When the next dismissed issue comes back, if any does. -/
def nextResurfacing (h : Hub) (now : Instant) : Option Instant :=
  (h.resurfacings now).min?

/-- Arms the deadline for the next dismissed issue to come back, or drops it. -/
def scheduleResurface (h : Hub) (now : Instant) : Hub :=
  match h.nextResurfacing now with
  | none => h.disarm .resurface
  | some back => h.arm .resurface (back.since now).toNat

/-! ### Checks -/

/-- Refuses a call when the hub is turned off. -/
def ensureEnabled (h : Hub) : Except HubError Unit :=
  if h.policy.isActive then .ok () else .error .notEnabled

/-- The group of a user. -/
def groupOf (env : Surroundings) (user : UserId) : Except HubError ProfileGroup :=
  match env.users.resolve? user with
  | some group => .ok group
  | none => .error (.unknownUser user)

/-! ### Saving -/

/-- Saves changed dismissals.  They count as unchanged from when they are handed over, and as
changed again when they cannot be saved. -/
def write (h : Hub) : Except HubError Unit × Change :=
  if h.dismissals.dirty then
    let records := h.dismissals.saved
    let h := { h with dismissals := h.dismissals.clean }
    match h.archive.save records with
    | .ok archive =>
      (.ok (), { hub := { h with archive }, effects := [.signal (.saved records)] })
    | .error e =>
      (.error (.archive e), {
        hub := { h with dismissals := h.dismissals.markDirty }
        effects := [.signal (.saveFailed records.length)] })
  else (.ok (), { hub := h })

/-- Saves changed dismissals now. -/
def flush (h : Hub) : Except HubError Unit × Change :=
  (h.disarm .persistWrite).write

/-! ### Start -/

/-- A hub with what has been loaded from the archive.  An archive that cannot be loaded counts
as empty. -/
def start (catalog : Catalog) (policy : Policy) (archive : Archive)
    (loaded : Except ArchiveError (List SavedRecord)) (time : Nat) : Hub :=
  let dismissals := match loaded with
    | .ok records => Dismissals.load records catalog
    | .error _ => {}
  schedulePersist { catalog, policy, dismissals, archive, deadlines := { now := time } }

end Hub

end SafetyHub
