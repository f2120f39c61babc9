import SafetyHub.Hub.Basic

/-!
# Calls on the hub

The calls of packages, of the page and of the device.  A call that is refused changes nothing;
one that is carried out ends by publishing the overviews, unless it only reads.
-/

namespace SafetyHub.Hub

/-! ### Refreshes -/

/-- What a refresh of a group asks for. -/
def refreshOrder (h : Hub) (now : Instant) (reason : RefreshReason) (group : ProfileGroup) :
    RefreshOrder where
  reason
  requestType := reason.requestType
  group
  broadcasts := h.catalog.broadcasts
  untracked := h.policy.untrackedSources
  needsReport key := h.reports.isStale key now h.policy.staleDataAge

/-- Starts a refresh of a group in place of the one in flight, with a deadline unless there is
nothing to wait for. -/
def startRefresh (h : Hub) (env : Surroundings) (reason : RefreshReason)
    (group : ProfileGroup) : RefreshPlan × Hub :=
  let (plan, tracker) := h.tracker.start env.digest env.now (h.refreshOrder env.now reason group)
  let h := { h with tracker, deadlines := h.deadlines.disarmMatching (·.isRefresh) }
  (plan, if plan.isImmediate then h
    else h.arm (.refresh plan.id) (h.policy.timeoutFor reason).nanos)

/-- Asks the sources of a user's group to report, in place of the refresh in flight.  Answers
with the token that they must give back. -/
def refresh (h : Hub) (env : Surroundings) (reason : RefreshReason) (user : UserId) :
    Except HubError (BroadcastId × Change) := do
  let group ← groupOf env user
  h.ensureEnabled
  let (plan, h) := h.startRefresh env reason group
  let published := h.publish env
  .ok (plan.id, {
    published with
    effects := plan.requests.map (.signal <| .request ·) ++ published.effects })

/-! ### Reports -/

/-- Arms what dismissals call for, and publishes the overviews. -/
def settle (h : Hub) (env : Surroundings) : Change :=
  ((h.schedulePersist).scheduleResurface env.now).publish env

/-- Ends an action, if it is in flight. -/
def endAction? (h : Hub) (action : ActionKey) : Option Hub :=
  if h.inFlight.contains action then some { h with inFlight := h.inFlight.erase action } else none

/-- Ends an action, if it is in flight, and drops its deadline. -/
def finishAction? (h : Hub) (action : ActionKey) : Option Hub :=
  (h.endAction? action).map (·.disarm (.resolveAction action))

/-- A source's answer to a refresh.  When it is the last one, the refresh and its deadline end
and the statistics of its group are put on record. -/
def answerRefresh (h : Hub) (now : Instant) (key : SourceKey) (id : BroadcastId)
    (failed : Bool) : Change :=
  let group := h.tracker.current.map (·.group)
  let (completed, tracker) := if failed then h.tracker.fail key id else h.tracker.complete key id
  let h := { h with tracker }
  if completed then
    let h := h.disarm (.refresh id)
    { hub := h, effects := group.toList.map (h.statsOf now) }
  else { hub := h }

/-- What follows from an event: a changed hub with what is put on record, and the errors that
listeners hear of. -/
def applyEvent (h : Hub) (env : Surroundings) (key : SourceKey) (event : Event)
    (failed : Bool) : Change × List Effect :=
  match event with
  | .refreshRequested id => (h.answerRefresh env.now key id failed, [])
  | .resolvingActionSucceeded issueId actionId =>
    ({ hub := (h.finishAction? ⟨key.issue issueId, actionId⟩).getD h }, [])
  | .resolvingActionFailed issueId actionId =>
    let action : ActionKey := ⟨key.issue issueId, actionId⟩
    match h.finishAction? action with
    | none => ({ hub := h }, [])
    | some h =>
      ({ hub := h }, [noticeFor env key.userId ⟨.actionFailed, s!"action {action} failed"⟩])
  | .sourceStateChanged | .deviceRebooted | .deviceLocaleChanged => ({ hub := h }, [])

/-- Stores an admitted report for a key, or its withdrawal: the issues that are no longer
reported are forgotten, and the actions that are no longer offered end. -/
def store (h : Hub) (now : Instant) (key : SourceKey) (report : Option Report) : Hub :=
  let issueIds := (report.map (·.issueIds)).getD []
  { h with
    dismissals := h.dismissals.reconcile key issueIds now
    reports := h.reports.set key report now }.keepActions (InFlight.isOffered key report)

/-- Takes an admitted report for a key, or its withdrawal, with the event that goes with it. -/
def accept (h : Hub) (env : Surroundings) (key : SourceKey) (report : Option Report)
    (event : Event) : Change :=
  let (change, notices) := (h.store env.now key report).applyEvent env key event false
  let published := change.hub.settle env
  { published with effects := change.effects ++ published.effects ++ notices }

/-- Takes the report of a source, or its withdrawal, with the event that goes with it. -/
def submit (h : Hub) (env : Surroundings) (package sourceId : String) (user : UserId)
    (report : Option Report) (event : Event) : Except HubError Change := do
  h.ensureEnabled
  let source ← h.catalog.checkCaller env.users package sourceId user
  source.checkSubmission h.policy report
  .ok (h.accept env ⟨sourceId, user⟩ report event)

/-- Takes an admitted word that the source of a key failed to report. -/
def acceptFailure (h : Hub) (env : Surroundings) (key : SourceKey) (event : Event) : Change :=
  let h := { h with reports := h.reports.markFailed key }
  let (change, notices) := h.applyEvent env key event true
  let published := change.hub.publish env
  { published with effects := change.effects ++ published.effects ++ notices }

/-- Takes a source's word that it failed to report. -/
def reportFailure (h : Hub) (env : Surroundings) (package sourceId : String) (user : UserId)
    (event : Event) : Except HubError Change := do
  h.ensureEnabled
  let _ ← h.catalog.checkCaller env.users package sourceId user
  .ok (h.acceptFailure env ⟨sourceId, user⟩ event)

/-- The report of a source, as the package that may report for it sees it. -/
def reportOf (h : Hub) (env : Surroundings) (package sourceId : String) (user : UserId) :
    Except HubError (Option Report) := do
  h.ensureEnabled
  let _ ← h.catalog.checkCaller env.users package sourceId user
  .ok (h.reports.report? ⟨sourceId, user⟩)

/-! ### Overviews -/

/-- The overview of a user's group. -/
def view (h : Hub) (env : Surroundings) (user : UserId) : Except HubError Overview := do
  let group ← groupOf env user
  h.ensureEnabled
  .ok (h.overview env.now group)

/-- Registers a listener for a user's group and offers it the current overview.  Answers
whether it was not registered there before. -/
def listen (h : Hub) (env : Surroundings) (listener package : String) (user : UserId) :
    Except HubError (Bool × Change) := do
  let group ← groupOf env user
  h.ensureEnabled
  match h.audience.register? listener group.parent package with
  | none => .ok (false, { hub := h })
  | some audience =>
    let h := { h with audience, sequence := h.sequence + 1 }
    .ok (true, {
      hub := h
      effects := [.offerTo group.parent listener h.sequence (h.overview env.now group)] })

/-- Drops the registrations of a listener.  Answers whether there were any. -/
def unlisten (h : Hub) (listener : String) : Bool × Hub :=
  (h.audience.hears listener, { h with audience := h.audience.unregister listener })

/-! ### Issues -/

/-- Dismisses an issue. -/
def dismiss (h : Hub) (env : Surroundings) (issue : IssueKey) : Except HubError Change := do
  h.ensureEnabled
  if (h.reports.issue? issue).isNone then .error (.unknownIssue issue)
  else
    let dismissals := (h.dismissals.dismiss? issue env.now).getD h.dismissals
    .ok ({ h with dismissals }.settle env)

/-- The package that carries out an action on an issue, if the action can begin. -/
def executor (h : Hub) (issue : IssueKey) (actionId : String) : Except HubError String :=
  match h.reports.issue? issue with
  | none => .error (.unknownIssue issue)
  | some reported =>
    if (reported.action? actionId).isNone then .error (.unknownAction issue actionId)
    else match (h.catalog.source? issue.sourceId).bind (·.package) with
      | none => .error (.unknownSource issue.sourceId)
      | some package =>
        if h.inFlight.contains ⟨issue, actionId⟩ then .error (.actionInFlight issue actionId)
        else .ok package

/-- Begins an action, with its deadline. -/
def beginAction (h : Hub) (action : ActionKey) : Hub :=
  { h with inFlight := h.inFlight.insert action }.arm (.resolveAction action)
    h.policy.resolveActionTimeout.nanos

/-- Asks the source of an issue to carry out an action on it. -/
def execute (h : Hub) (env : Surroundings) (issue : IssueKey) (actionId : String) :
    Except HubError Change := do
  h.ensureEnabled
  let package ← h.executor issue actionId
  let published := (h.beginAction ⟨issue, actionId⟩).publish env
  .ok { published with
    effects := .signal (.action package ⟨issue, actionId⟩) :: published.effects }

/-! ### The whole hub -/

/-- The hub without reports, dismissals, actions and a refresh in flight. -/
def cleared (h : Hub) : Hub :=
  { h with
    tracker := h.tracker.clearAll.2
    reports := {}
    dismissals := h.dismissals.clear
    inFlight := ∅
    deadlines := h.deadlines.disarmMatching (· != DeadlineKey.persistWrite) }

/-- Forgets all reports, dismissals, actions and the refresh in flight. -/
def clear (h : Hub) (env : Surroundings) : Change :=
  h.cleared.schedulePersist.publish env

/-- The hub without anything about a user. -/
def without (h : Hub) (user : UserId) : Hub :=
  let (refresh, tracker) := h.tracker.clearForUser user
  let h := { h with tracker }.disarmRefresh refresh
  { h.keepActions (InFlight.isOfOther user) with
    reports := h.reports.clearForUser user
    dismissals := h.dismissals.clearForUser user
    audience := h.audience.clearForUser user }

/-- Forgets everything about a user. -/
def removeUser (h : Hub) (env : Surroundings) (user : UserId) : Change :=
  (h.without user).settle env

/-- The hub under a new catalog and policy.  The refresh in flight ends, and what belongs to
sources that the catalog does not have, or that do not report, is dropped. -/
def under (h : Hub) (catalog : Catalog) (policy : Policy) : Hub :=
  let (refresh, tracker) := h.tracker.clearAll
  let h := { h with tracker, catalog, policy }.disarmRefresh refresh
  { h.keepActions (catalog.isExternal ·.issue.sourceId) with
    dismissals := h.dismissals.retainConfigured catalog
    reports := h.reports.retainConfigured catalog }

/-- Takes a new catalog and policy. -/
def reload (h : Hub) (env : Surroundings) (catalog : Catalog) (policy : Policy) : Change :=
  (h.under catalog policy).settle env

end SafetyHub.Hub
