import SafetyHub.Hub.Turn
import SafetyHub.Proofs.Basic
import SafetyHub.Proofs.Deadline.Bounded

/-!
# What calls change

A call that is carried out passes its checks, changes the hub, and then publishes overviews.
The lemmas of this module say which checks are passed and give the hub that is left, up to
`Hub.Like`: sequence numbers and the deadlines for saving and for issues that come back.  What a
refresh, an answer or a deadline leaves alone is `Hub.Keeps`.
-/

namespace SafetyHub

namespace Hub

variable {h h' h'' : Hub} {env : Surroundings}

/-- Two hubs that differ in nothing but sequence numbers and deadlines that are not bounded. -/
def Like (h h' : Hub) : Prop :=
  ∃ deadlines sequence, deadlines.now = h.deadlines.now
    ∧ deadlines.bounded = h.deadlines.bounded ∧ h' = { h with deadlines, sequence }

/-- A hub that keeps what another one knows of issues; actions in flight may have ended. -/
structure Keeps (h h' : Hub) : Prop where
  catalog : h'.catalog = h.catalog
  policy : h'.policy = h.policy
  dismissals : h'.dismissals = h.dismissals
  reports : h'.reports.reports = h.reports.reports
  archive : h'.archive = h.archive
  inFlight : ∀ action, action ∈ h'.inFlight → action ∈ h.inFlight

namespace Like

theorem refl (h : Hub) : h.Like h := ⟨h.deadlines, h.sequence, rfl, rfl, rfl⟩

theorem trans (hab : h.Like h') (hbc : h'.Like h'') : h.Like h'' := by
  obtain ⟨_, _, hnow, hbounded, rfl⟩ := hab
  obtain ⟨_, _, hnow', hbounded', rfl⟩ := hbc
  exact ⟨_, _, hnow'.trans hnow, hbounded'.trans hbounded, rfl⟩

theorem bounded_eq (hlike : h.Like h') : h'.deadlines.bounded = h.deadlines.bounded := by
  obtain ⟨_, _, -, hbounded, rfl⟩ := hlike
  exact hbounded

theorem arm (h : Hub) {key : DeadlineKey} (delay : Nat) (unbounded : key.isBounded = false) :
  h.Like (h.arm key delay)
  := ⟨h.deadlines.arm key delay (), h.sequence, rfl,
    Deadlines.bounded_arm_of_not_isBounded unbounded delay (), rfl⟩

theorem disarm (h : Hub) {key : DeadlineKey} (unbounded : key.isBounded = false) :
  h.Like (h.disarm key)
  := by
  refine ⟨h.deadlines.disarm key, h.sequence, rfl, ?_, rfl⟩
  rw [Deadlines.bounded_disarm, Deadlines.filter_bounded_of_not_isBounded unbounded]

theorem publish (h : Hub) (env : Surroundings) : h.Like (h.publish env).hub :=
  ⟨_, _, rfl, rfl, rfl⟩

theorem schedulePersist (h : Hub) : h.Like h.schedulePersist := by
  unfold Hub.schedulePersist
  split
  · apply arm h _ rfl
  · apply refl

theorem scheduleResurface (h : Hub) (now : Instant) : h.Like (h.scheduleResurface now) := by
  unfold Hub.scheduleResurface
  split
  · apply disarm h rfl
  · apply arm h _ rfl

theorem settle (h : Hub) (env : Surroundings) : h.Like (h.settle env).hub := by
  apply trans (schedulePersist h)
  apply trans (scheduleResurface _ env.now)
  apply publish

end Like

namespace Keeps

theorem elsewhere (h : Hub) (tracker : RefreshTracker) (deadlines : Deadlines Unit)
    (audience : Audience) (sequence : Nat) :
  h.Keeps { h with tracker, deadlines, audience, sequence }
  := ⟨rfl, rfl, rfl, rfl, rfl, fun _ hin => hin⟩

theorem refl (h : Hub) : h.Keeps h := elsewhere h _ _ _ _

theorem trans (hab : h.Keeps h') (hbc : h'.Keeps h'') : h.Keeps h'' where
  catalog := hbc.catalog.trans hab.catalog
  policy := hbc.policy.trans hab.policy
  dismissals := hbc.dismissals.trans hab.dismissals
  reports := hbc.reports.trans hab.reports
  archive := hbc.archive.trans hab.archive
  inFlight action hin := hab.inFlight action (hbc.inFlight action hin)

end Keeps

theorem Like.keeps (hlike : h.Like h') : h.Keeps h' := by
  obtain ⟨_, _, -, -, rfl⟩ := hlike
  exact .elsewhere h _ _ _ _

/-! ### Checks -/

theorem ensureEnabled_eq_ok_iff {u : Unit} :
  h.ensureEnabled = .ok u ↔ h.policy.isActive = true
  := by
  simp [ensureEnabled]

theorem groupOf_eq_ok_iff {user : UserId} {group : ProfileGroup} :
  groupOf env user = .ok group ↔ env.users.resolve? user = some group
  := by
  unfold groupOf
  split <;> simp_all

/-! ### Refreshes -/

theorem refresh_eq_ok {reason : RefreshReason} {user : UserId} {id : BroadcastId} {c : Change}
    (hok : h.refresh env reason user = .ok (id, c)) :
  h.policy.isActive = true ∧ ∃ group, env.users.resolve? user = some group
    ∧ id = (h.startRefresh env reason group).1.id
    ∧ (h.startRefresh env reason group).2.Like c.hub
  := by
  simp only [refresh, bind_eq_ok_iff, groupOf_eq_ok_iff, ensureEnabled_eq_ok_iff] at hok
  obtain ⟨group, hgroup, _, hactive, hok⟩ := hok
  cases hok
  exact ⟨hactive, group, hgroup, rfl, Like.publish _ env⟩

theorem keeps_startRefresh (h : Hub) (env : Surroundings) (reason : RefreshReason)
    (group : ProfileGroup) :
  h.Keeps (h.startRefresh env reason group).2
  := by
  simp only [startRefresh]
  split <;> exact .elsewhere h _ _ _ _

/-! ### Events -/

theorem endAction?_eq_some_iff {action : ActionKey} :
  h.endAction? action = some h' ↔ action ∈ h.inFlight
    ∧ h' = { h with inFlight := h.inFlight.erase action }
  := by
  simp [endAction?, eq_comm (a := h')]

theorem endAction?_eq_none_iff {action : ActionKey} :
  h.endAction? action = none ↔ action ∉ h.inFlight
  := by
  simp [endAction?]

theorem finishAction?_eq_none_iff {action : ActionKey} :
  h.finishAction? action = none ↔ action ∉ h.inFlight
  := by
  rw [finishAction?, Option.map_eq_none_iff, endAction?_eq_none_iff]

theorem finishAction?_eq_some_iff {action : ActionKey} :
  h.finishAction? action = some h' ↔ action ∈ h.inFlight
    ∧ h' = { h with inFlight := h.inFlight.erase action }.disarm (.resolveAction action)
  := by
  simp [finishAction?, endAction?_eq_some_iff, and_assoc, eq_comm (a := h')]

theorem keeps_endAction? {action : ActionKey} (hend : h.endAction? action = some h') :
  h.Keeps h'
  := by
  obtain ⟨-, rfl⟩ := endAction?_eq_some_iff.mp hend
  exact ⟨rfl, rfl, rfl, rfl, rfl, fun _ hin => Std.ExtTreeSet.mem_of_mem_erase hin⟩

theorem keeps_finishAction? {action : ActionKey} (hfin : h.finishAction? action = some h') :
  h.Keeps h'
  := by
  obtain ⟨-, rfl⟩ := finishAction?_eq_some_iff.mp hfin
  exact ⟨rfl, rfl, rfl, rfl, rfl, fun _ hin => Std.ExtTreeSet.mem_of_mem_erase hin⟩

/-- The final state of a pair that answers. -/
def answerState (failed : Bool) : PairState :=
  if failed then .failed else .completed

theorem hub_answerRefresh (h : Hub) (now : Instant) (key : SourceKey) (id : BroadcastId)
    (failed : Bool) :
  (h.answerRefresh now key id failed).hub =
    let (completed, tracker) := h.tracker.retire key id (answerState failed)
    if completed then { h with tracker }.disarm (.refresh id) else { h with tracker }
  := by
  cases failed <;> exact apply_ite Change.hub _ _ _

theorem keeps_answerRefresh (h : Hub) (now : Instant) (key : SourceKey) (id : BroadcastId)
    (failed : Bool) :
  h.Keeps (h.answerRefresh now key id failed).hub
  := by
  rw [hub_answerRefresh]
  dsimp only
  split <;> exact .elsewhere h _ _ _ _

/-- An event answers the refresh in flight, ends an action of its source key, or changes
nothing. -/
theorem hub_applyEvent_cases (h : Hub) (env : Surroundings) (key : SourceKey) (event : Event)
    (failed : Bool) :
  (h.applyEvent env key event failed).1.hub = h
    ∨ (∃ id, (h.applyEvent env key event failed).1.hub
        = (h.answerRefresh env.now key id failed).hub)
    ∨ ∃ action, action.issue.belongsTo key = true
        ∧ h.finishAction? action = some (h.applyEvent env key event failed).1.hub
  := by
  have belongs (issueId : String) : (key.issue issueId).belongsTo key = true :=
    IssueKey.belongsTo_iff.mpr rfl
  cases event with
  | refreshRequested id =>
    right; left
    exact ⟨id, rfl⟩
  | resolvingActionSucceeded issueId actionId =>
    simp only [applyEvent]
    cases hfin : h.finishAction? ⟨key.issue issueId, actionId⟩ with
    | none =>
      left
      rfl
    | some h' =>
      right; right
      exact ⟨_, belongs issueId, hfin⟩
  | resolvingActionFailed issueId actionId =>
    simp only [applyEvent]
    cases hfin : h.finishAction? ⟨key.issue issueId, actionId⟩ with
    | none =>
      left
      rfl
    | some h' =>
      right; right
      exact ⟨_, belongs issueId, hfin⟩
  | sourceStateChanged | deviceRebooted | deviceLocaleChanged =>
    left
    rfl

theorem keeps_applyEvent (h : Hub) (env : Surroundings) (key : SourceKey) (event : Event)
    (failed : Bool) :
  h.Keeps (h.applyEvent env key event failed).1.hub
  := by
  obtain heq | ⟨id, heq⟩ | ⟨action, -, hfin⟩ := hub_applyEvent_cases h env key event failed
  · rw [heq]
    apply Keeps.refl
  · rw [heq]
    apply keeps_answerRefresh
  · apply keeps_finishAction? hfin

/-! ### Reports -/

theorem submit_eq_ok {package sourceId : String} {user : UserId} {report : Option Report}
    {event : Event} {c : Change}
    (hok : h.submit env package sourceId user report event = .ok c) :
  h.policy.isActive = true
    ∧ (∃ source, h.catalog.checkCaller env.users package sourceId user = .ok source
      ∧ source.checkSubmission h.policy report = .ok ())
    ∧ c = h.accept env ⟨sourceId, user⟩ report event
  := by
  simp only [submit, bind_eq_ok_iff, ensureEnabled_eq_ok_iff] at hok
  obtain ⟨_, hactive, source, hcaller, _, hreport, hok⟩ := hok
  cases hok
  exact ⟨hactive, ⟨source, hcaller, hreport⟩, rfl⟩

theorem reports_store (h : Hub) (now : Instant) (key : SourceKey) (report : Option Report) :
  (h.store now key report).reports = h.reports.set key report now
  := rfl

theorem dismissals_store (h : Hub) (now : Instant) (key : SourceKey) (report : Option Report) :
  (h.store now key report).dismissals
    = h.dismissals.reconcile key ((report.map (·.issueIds)).getD []) now
  := rfl

theorem mem_inFlight_store {now : Instant} {key : SourceKey} {report : Option Report}
    {action : ActionKey} :
  action ∈ (h.store now key report).inFlight
    ↔ action ∈ h.inFlight ∧ InFlight.isOffered key report action = true
  := mem_filter_iff

theorem like_accept (h : Hub) (env : Surroundings) (key : SourceKey) (report : Option Report)
    (event : Event) :
  ((h.store env.now key report).applyEvent env key event false).1.hub.Like
    (h.accept env key report event).hub
  := Like.settle _ env

theorem reportFailure_eq_ok {package sourceId : String} {user : UserId} {event : Event}
    {c : Change} (hok : h.reportFailure env package sourceId user event = .ok c) :
  h.policy.isActive = true
    ∧ (∃ source, h.catalog.checkCaller env.users package sourceId user = .ok source)
    ∧ c = h.acceptFailure env ⟨sourceId, user⟩ event
  := by
  simp only [reportFailure, bind_eq_ok_iff, ensureEnabled_eq_ok_iff] at hok
  obtain ⟨_, hactive, source, hcaller, hok⟩ := hok
  cases hok
  exact ⟨hactive, ⟨source, hcaller⟩, rfl⟩

theorem like_acceptFailure (h : Hub) (env : Surroundings) (key : SourceKey) (event : Event) :
  ({ h with reports := h.reports.markFailed key }.applyEvent env key event true).1.hub.Like
    (h.acceptFailure env key event).hub
  := Like.publish _ env

theorem keeps_markFailed (h : Hub) (key : SourceKey) :
  h.Keeps { h with reports := h.reports.markFailed key }
  := ⟨rfl, rfl, rfl, rfl, rfl, fun _ hin => hin⟩

/-! ### Listeners -/

theorem listen_eq_ok {listener package : String} {user : UserId} {isNew : Bool} {c : Change}
    (hok : h.listen env listener package user = .ok (isNew, c)) :
  h.policy.isActive = true ∧ ∃ group, env.users.resolve? user = some group
    ∧ (c.hub = h ∨ ∃ audience, h.audience.register? listener group.parent package = some audience
      ∧ c.hub = { h with audience, sequence := h.sequence + 1 })
  := by
  simp only [listen, bind_eq_ok_iff, groupOf_eq_ok_iff, ensureEnabled_eq_ok_iff] at hok
  obtain ⟨group, hgroup, _, hactive, hok⟩ := hok
  use hactive, group, hgroup
  split at hok
  next => cases hok; exact .inl rfl
  next audience hregister => cases hok; exact .inr ⟨audience, hregister, rfl⟩

/-! ### Issues -/

theorem dismiss_eq_ok_iff {issue : IssueKey} {c : Change} :
  h.dismiss env issue = .ok c ↔ h.policy.isActive = true
    ∧ (h.reports.issue? issue).isSome = true
    ∧ c = { h with
        dismissals := (h.dismissals.dismiss? issue env.now).getD h.dismissals }.settle env
  := by
  simp only [dismiss, bind_eq_ok_iff, ensureEnabled_eq_ok_iff]
  cases h.reports.issue? issue <;> simp [eq_comm (a := c)]

theorem executor_eq_ok {issue : IssueKey} {actionId package : String}
    (hok : h.executor issue actionId = .ok package) :
  (∃ reported, h.reports.issue? issue = some reported
      ∧ (reported.action? actionId).isSome = true)
    ∧ (h.catalog.source? issue.sourceId).bind (·.package) = some package
    ∧ ⟨issue, actionId⟩ ∉ h.inFlight
  := by
  unfold executor at hok
  split at hok
  next => cases hok
  next reported hreported =>
    split at hok
    next => cases hok
    next haction =>
      split at hok
      next => cases hok
      next expected hpackage =>
        split at hok
        next => cases hok
        next hidle =>
          cases hok
          exact ⟨⟨reported, hreported, by simpa [Option.isSome_iff_ne_none] using haction⟩,
            hpackage, by simpa using hidle⟩

theorem execute_eq_ok {issue : IssueKey} {actionId : String} {c : Change}
    (hok : h.execute env issue actionId = .ok c) :
  h.policy.isActive = true ∧ (∃ package, h.executor issue actionId = .ok package)
    ∧ (h.beginAction ⟨issue, actionId⟩).Like c.hub
  := by
  simp only [execute, bind_eq_ok_iff, ensureEnabled_eq_ok_iff] at hok
  obtain ⟨_, hactive, package, hpackage, hok⟩ := hok
  cases hok
  exact ⟨hactive, ⟨package, hpackage⟩, Like.publish _ env⟩

theorem mem_inFlight_beginAction {action other : ActionKey} :
  other ∈ (h.beginAction action).inFlight ↔ other = action ∨ other ∈ h.inFlight
  := by
  simp [beginAction, arm, eq_comm (a := other)]

theorem dismissals_under (h : Hub) (catalog : Catalog) (policy : Policy) :
  (h.under catalog policy).dismissals = h.dismissals.retainConfigured catalog
  := rfl

/-! ### Saving -/

/-- Saving leaves the hub as it is, unless changed dismissals are handed over to the archive. -/
theorem hub_write_cases (h : Hub) :
  h.write.2.hub = h ∨ h.dismissals.dirty = true
    ∧ ∃ archive, h.archive.save h.dismissals.saved = .ok archive
      ∧ h.write.2.hub = { h with dismissals := h.dismissals.clean, archive }
  := by
  unfold write
  split
  next hdirty =>
    dsimp only
    split
    next archive hsave =>
      right
      exact ⟨hdirty, archive, hsave, rfl⟩
    next e hsave =>
      left
      have same : h.dismissals.clean.markDirty = h.dismissals := by
        rw [Dismissals.markDirty, ← hdirty]
        rfl
      rw [same]
  next =>
    left
    rfl

/-! ### Deadlines -/

theorem reports_foldl_markFailed (keys : List SourceKey) (s : ReportStore) :
  (keys.foldl ReportStore.markFailed s).reports = s.reports
  := by
  induction keys generalizing s with
  | nil => rfl
  | cons key keys ih => rw [List.foldl_cons, ih, ReportStore.markFailed]

theorem keeps_refreshOverdue (h : Hub) (env : Surroundings) (id : BroadcastId) :
  h.Keeps (h.refreshOverdue env id).hub
  := by
  unfold refreshOverdue
  split
  · apply Keeps.refl
  · dsimp only
    split
    · apply Keeps.refl
    · refine ⟨rfl, rfl, rfl, ?_, rfl, fun _ hin => hin⟩
      dsimp only [publish]
      split
      · apply reports_foldl_markFailed
      · rfl

theorem keeps_actionOverdue (h : Hub) (env : Surroundings) (action : ActionKey) :
  h.Keeps (h.actionOverdue env action).hub
  := by
  unfold actionOverdue
  split
  · apply Keeps.refl
  next h' hend => exact (keeps_endAction? hend).trans (Like.publish h' env).keeps

theorem keeps_turn (h : Hub) (env : Surroundings) {key : DeadlineKey}
    (hne : key ≠ .persistWrite) :
  h.Keeps (h.turn env key).hub
  := by
  cases key with
  | refresh id => apply keeps_refreshOverdue h env id
  | resolveAction action => apply keeps_actionOverdue h env action
  | resurface => apply ((Like.scheduleResurface h env.now).trans (Like.publish _ env)).keeps
  | persistWrite => exact absurd rfl hne

end Hub

end SafetyHub
