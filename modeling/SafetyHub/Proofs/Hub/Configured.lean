import SafetyHub.Proofs.Hub.Durability
import SafetyHub.Proofs.Hub.Expiry
import SafetyHub.Proofs.Hub.Sparing
import SafetyHub.Proofs.Refresh.FanOut
import SafetyHub.Proofs.Report.Store

/-!
# Sources that a hub refers to

A hub refers to a source by a stored report, a mark, a dismissal record, an action in flight or a
pair that a refresh waits for: `Hub.Names`.  Nothing that happens under a catalog makes it refer
to a source that does not report, `Hub.Adds`, and a new catalog drops what belongs to sources that
do not report under it, and nothing else, `Hub.Reloads`.  So all that a hub refers to are sources
of its catalog that report: `Hub.Configured`.
-/

namespace SafetyHub

/-- The pairs that a refresh over a catalog waits for are of sources that report. -/
theorem RefreshOrder.isExternal_of_mem_tracked {o : RefreshOrder} {token : BroadcastId}
    {c : Catalog} (hcatalog : o.broadcasts = c.broadcasts) {key : SourceKey}
    (hkey : key ∈ o.tracked (o.requests token)) :
  c.isExternal key.sourceId = true
  := by
  obtain ⟨q, hq, hpair⟩ := List.mem_flatMap.mp (List.mem_filter.mp hkey).1
  rw [← map_snd_asks] at hpair
  obtain ⟨⟨package, k⟩, hask, rfl⟩ := List.mem_map.mp hpair
  obtain ⟨s, hs, hid, hexternal, -⟩ :=
    (mem_asks_of_catalog hcatalog).mp (List.mem_flatMap.mpr ⟨q, hq, hask⟩)
  exact Catalog.isExternal_iff.mpr ⟨s, hs, hid, hexternal⟩

namespace RefreshTracker

theorem isPending_iff {t : RefreshTracker} {key : SourceKey} :
  t.isPending key = true ↔ ∃ r, t.current = some r ∧ key ∈ r.pending
  := by
  simp only [isPending, Option.any_eq_true, Std.ExtTreeSet.contains_iff_mem]

/-- An answer leaves no pair pending that was not. -/
theorem isPending_of_retire {t : RefreshTracker} (hsound : t.Sound) {key k : SourceKey}
    {id : BroadcastId} {target : PairState} (final : target.isFinal = true)
    (hk : (t.retire key id target).2.isPending k = true) :
  t.isPending k = true
  := by
  obtain ⟨-, heq⟩ | ⟨r, hr, -, -, ⟨-, heq⟩ | ⟨-, heq⟩⟩ := retire_cases hsound key id final
  · rwa [heq] at hk
  · rw [heq] at hk
    cases hk
  · rw [heq, isPending_iff] at hk
    obtain ⟨r', hr', hk⟩ := hk
    cases hr'
    exact isPending_iff.mpr ⟨r, hr, (RefreshInProgress.mem_pending_settle.mp hk).2⟩

theorem isPending_of_clearForUser {t : RefreshTracker} {user : UserId} {key : SourceKey}
    (hkey : (t.clearForUser user).2.isPending key = true) :
  t.isPending key = true
  := by
  unfold clearForUser at hkey
  split at hkey
  · cases hkey
  · exact hkey

end RefreshTracker

namespace Hub

variable {h h' h'' : Hub} {env : Surroundings}

/-- A hub refers to the source of a name. -/
inductive Names (h : Hub) : String → Prop
  | stored {key : SourceKey} (hkey : (h.reports.get? key).isSome = true) : Names h key.sourceId
  | failed {key : SourceKey} (hkey : h.reports.isFailed key = true) : Names h key.sourceId
  | recorded {issue : IssueKey} (hissue : (h.dismissals.record? issue).isSome = true) :
      Names h issue.sourceId
  | acting {action : ActionKey} (haction : action ∈ h.inFlight) : Names h action.issue.sourceId
  | awaited {key : SourceKey} (hkey : h.tracker.isPending key = true) : Names h key.sourceId

/-- A hub refers to the source of an issue that is reported. -/
theorem Names.of_issue? {issue : IssueKey} {reported : Issue}
    (hissue : h.reports.issue? issue = some reported) :
  h.Names issue.sourceId
  := by
  obtain ⟨report, hreport, -⟩ := Option.bind_eq_some_iff.mp hissue
  obtain ⟨stored, hstored, -⟩ := Option.map_eq_some_iff.mp hreport
  have hnames : h.Names issue.sourceKey.sourceId := .stored (by rw [hstored, Option.isSome_some])
  exact hnames

/-- All that a hub refers to are sources of its catalog that report. -/
def Configured (h : Hub) : Prop :=
  ∀ id, h.Names id → h.catalog.isExternal id = true

/-- Under the same catalog, a hub refers to no sources but those that another one refers to and
those that report. -/
structure Adds (h h' : Hub) : Prop where
  catalog : h'.catalog = h.catalog
  external : ∀ id, h'.Names id → h.Names id ∨ h.catalog.isExternal id = true

namespace Adds

theorem trans (hab : h.Adds h') (hbc : h'.Adds h'') : h.Adds h'' where
  catalog := hbc.catalog.trans hab.catalog
  external id hid := by
    obtain hid | hexternal := hbc.external id hid
    · apply hab.external id hid
    · right
      rwa [hab.catalog] at hexternal

theorem configured (hadds : h.Adds h') (hconf : h.Configured) : h'.Configured := by
  intro id hid
  rw [hadds.catalog]
  obtain hid | hexternal := hadds.external id hid
  · apply hconf id hid
  · exact hexternal

/-- What is only dropped adds nothing. -/
theorem of_fewer (hcatalog : h'.catalog = h.catalog)
    (hstored : ∀ key, (h'.reports.get? key).isSome = true → (h.reports.get? key).isSome = true)
    (hfailed : ∀ key, h'.reports.isFailed key = true → h.reports.isFailed key = true)
    (hrecorded : ∀ issue, (h'.dismissals.record? issue).isSome = true →
      (h.dismissals.record? issue).isSome = true)
    (hacting : ∀ action, action ∈ h'.inFlight → action ∈ h.inFlight)
    (hawaited : ∀ key, h'.tracker.isPending key = true → h.tracker.isPending key = true) :
  h.Adds h'
  where
  catalog := hcatalog
  external id hid := by
    left
    cases hid with
    | stored hkey => exact .stored (hstored _ hkey)
    | failed hkey => exact .failed (hfailed _ hkey)
    | recorded hissue => exact .recorded (hrecorded _ hissue)
    | acting haction => exact .acting (hacting _ haction)
    | awaited hkey => exact .awaited (hawaited _ hkey)

/-- What changes elsewhere adds nothing. -/
theorem elsewhere (h : Hub) (policy : Policy) (sequence : Nat) (audience : Audience)
    (deadlines : Deadlines Unit) (archive : Archive) :
  h.Adds { h with policy, sequence, audience, deadlines, archive }
  := of_fewer rfl (fun _ => id) (fun _ => id) (fun _ => id) (fun _ => id) (fun _ => id)

theorem refl (h : Hub) : h.Adds h := elsewhere h _ _ _ _ _

theorem of_like (hlike : h.Like h') : h.Adds h' := by
  obtain ⟨deadlines, sequence, -, -, rfl⟩ := hlike
  exact elsewhere h _ _ _ _ _

/-! ### Operations that drop -/

theorem keepActions (h : Hub) (keep : ActionKey → Bool) : h.Adds (h.keepActions keep) :=
  of_fewer rfl (fun _ => id) (fun _ => id) (fun _ => id)
    (fun _ haction => (mem_filter_iff.mp haction).1) (fun _ => id)

theorem endAction? {action : ActionKey} (hend : h.endAction? action = some h') : h.Adds h' := by
  obtain ⟨-, rfl⟩ := endAction?_eq_some_iff.mp hend
  exact of_fewer rfl (fun _ => id) (fun _ => id) (fun _ => id)
    (fun _ => Std.ExtTreeSet.mem_of_mem_erase) (fun _ => id)

theorem finishAction? {action : ActionKey} (hfin : h.finishAction? action = some h') :
  h.Adds h'
  := by
  obtain ⟨haction, rfl⟩ := finishAction?_eq_some_iff.mp hfin
  apply (endAction? (endAction?_eq_some_iff.mpr ⟨haction, rfl⟩)).trans
  apply elsewhere

theorem answerRefresh (hsound : h.tracker.Sound) (now : Instant) (key : SourceKey)
    (token : BroadcastId) (failed : Bool) :
  h.Adds (h.answerRefresh now key token failed).hub
  := by
  have final : (answerState failed).isFinal = true := by cases failed <;> rfl
  have hretired : h.Adds { h with
      tracker := (h.tracker.retire key token (answerState failed)).2 } :=
    of_fewer rfl (fun _ => id) (fun _ => id) (fun _ => id) (fun _ => id)
      fun _ => RefreshTracker.isPending_of_retire hsound final
  rw [hub_answerRefresh]
  dsimp only
  split
  · apply hretired.trans
    apply elsewhere
  · exact hretired

theorem applyEvent (hsound : h.tracker.Sound) (env : Surroundings) (key : SourceKey)
    (event : Event) (failed : Bool) :
  h.Adds (h.applyEvent env key event failed).1.hub
  := by
  obtain heq | ⟨id, heq⟩ | ⟨action, -, hfin⟩ := hub_applyEvent_cases h env key event failed
  · rw [heq]
    apply refl
  · rw [heq]
    apply answerRefresh hsound
  · apply finishAction? hfin

theorem dismiss (h : Hub) (issue : IssueKey) (now : Instant) :
  h.Adds { h with dismissals := (h.dismissals.dismiss? issue now).getD h.dismissals }
  := by
  refine of_fewer rfl (fun _ => id) (fun _ => id) ?_ (fun _ => id) (fun _ => id)
  intro other hother
  rwa [Dismissals.isSome_record?_dismiss?] at hother

theorem cleared (h : Hub) : h.Adds h.cleared where
  catalog := rfl
  external id hid := by
    cases hid with
    | stored hkey => simp [Hub.cleared, ReportStore.get?] at hkey
    | failed hkey => simp [Hub.cleared, ReportStore.isFailed] at hkey
    | recorded hissue => simp [Hub.cleared, Dismissals.clear, Dismissals.record?] at hissue
    | acting haction => exact absurd haction Std.ExtTreeSet.not_mem_empty
    | awaited hkey => cases hkey

theorem without (h : Hub) (user : UserId) : h.Adds (h.without user) := by
  refine of_fewer rfl ?_ ?_ ?_ ?_ ?_
  · intro key hkey
    have hget : ((h.reports.clearForUser user).get? key).isSome = true := hkey
    rw [ReportStore.get?_clearForUser] at hget
    split at hget
    · exact hget
    · cases hget
  · intro key hkey
    have hfailed : (h.reports.clearForUser user).isFailed key = true := hkey
    rw [ReportStore.isFailed_clearForUser, Bool.and_eq_true] at hfailed
    exact hfailed.2
  · intro issue hissue
    have hrecord : ((h.dismissals.clearForUser user).record? issue).isSome = true := hissue
    rw [Dismissals.record?_clearForUser] at hrecord
    split at hrecord
    · exact hrecord
    · cases hrecord
  · intro action haction
    apply (mem_filter_iff.mp haction).1
  · intro key hkey
    apply RefreshTracker.isPending_of_clearForUser hkey

theorem write (h : Hub) : h.Adds h.write.2.hub := by
  obtain heq | ⟨-, archive, -, heq⟩ := hub_write_cases h
  · rw [heq]
    apply refl
  · rw [heq]
    exact of_fewer rfl (fun _ => id) (fun _ => id) (fun _ => id) (fun _ => id) (fun _ => id)

/-! ### Operations that add -/

theorem store (h : Hub) (now : Instant) {key : SourceKey}
    (hexternal : h.catalog.isExternal key.sourceId = true) (report : Option Report) :
  h.Adds (h.store now key report)
  := by
  have hset : h.Adds { h with
      dismissals := h.dismissals.reconcile key ((report.map (·.issueIds)).getD []) now
      reports := h.reports.set key report now } := by
    refine ⟨rfl, ?_⟩
    intro id hid
    cases hid with
    | stored hk =>
      dsimp only at hk
      rw [ReportStore.get?_set] at hk
      split at hk
      next hkey =>
        right
        rwa [hkey]
      next => exact .inl (.stored hk)
    | failed hk =>
      dsimp only at hk
      rw [ReportStore.isFailed_set, Bool.and_eq_true] at hk
      exact .inl (.failed hk.2)
    | recorded hissue =>
      dsimp only at hissue
      rw [Dismissals.record?_reconcile] at hissue
      split at hissue
      next hbelongs =>
        right
        rwa [← IssueKey.belongsTo_iff.mp hbelongs] at hexternal
      next => exact .inl (.recorded hissue)
    | acting haction => exact .inl (.acting haction)
    | awaited hk => exact .inl (.awaited hk)
  exact hset.trans (keepActions _ (InFlight.isOffered key report))

theorem markFailed (h : Hub) {key : SourceKey}
    (hexternal : h.catalog.isExternal key.sourceId = true) :
  h.Adds { h with reports := h.reports.markFailed key }
  := by
  refine ⟨rfl, ?_⟩
  intro id hid
  cases hid with
  | stored hk => exact .inl (.stored hk)
  | @failed k hk =>
    dsimp only at hk
    rw [ReportStore.isFailed_markFailed, Bool.or_eq_true, beq_iff_eq] at hk
    obtain rfl | hk := hk
    · exact .inr hexternal
    · exact .inl (.failed hk)
  | recorded hissue => exact .inl (.recorded hissue)
  | acting haction => exact .inl (.acting haction)
  | awaited hk => exact .inl (.awaited hk)

/-- An action that begins is of an issue that is reported. -/
theorem beginAction {issue : IssueKey} {actionId package : String}
    (hpackage : h.executor issue actionId = .ok package) :
  h.Adds (h.beginAction ⟨issue, actionId⟩)
  := by
  obtain ⟨⟨reported, hreported, -⟩, -, -⟩ := executor_eq_ok hpackage
  refine ⟨rfl, ?_⟩
  intro id hid
  left
  cases hid with
  | stored hk => exact .stored hk
  | failed hk => exact .failed hk
  | recorded hissue => exact .recorded hissue
  | acting haction =>
    obtain rfl | haction := mem_inFlight_beginAction.mp haction
    · exact .of_issue? hreported
    · exact .acting haction
  | awaited hk => exact .awaited hk

theorem startRefresh (h : Hub) (env : Surroundings) (reason : RefreshReason)
    (group : ProfileGroup) :
  h.Adds (h.startRefresh env reason group).2
  := by
  have hstarted : h.Adds { h with
      tracker := (h.tracker.start env.digest env.now (h.refreshOrder env.now reason group)).2
      deadlines := h.deadlines.disarmMatching (·.isRefresh) } := by
    refine ⟨rfl, ?_⟩
    intro id hid
    cases hid with
    | stored hk => exact .inl (.stored hk)
    | failed hk => exact .inl (.failed hk)
    | recorded hissue => exact .inl (.recorded hissue)
    | acting haction => exact .inl (.acting haction)
    | awaited hk =>
      right
      exact RefreshOrder.isExternal_of_mem_tracked rfl (RefreshTracker.isPending_start_iff.mp hk)
  simp only [Hub.startRefresh]
  split
  · exact hstarted
  · apply hstarted.trans
    apply elsewhere

/-! ### Deadlines that pass -/

/-- The sources that are marked when the time of a refresh is over were waited for. -/
theorem refreshOverdue (hsound : h.tracker.Sound) (env : Surroundings) (id : BroadcastId) :
  h.Adds (h.refreshOverdue env id).hub
  := by
  obtain ⟨-, hsame⟩ | ⟨r, -, hr, rfl, -⟩ := hub_refreshOverdue_cases hsound env id
  · rw [hsame]
    apply refl
  · rw [refreshOverdue_of_current hsound hr]
    apply Adds.trans _ (.of_like (.publish _ env))
    refine ⟨rfl, ?_⟩
    intro id hid
    left
    cases hid with
    | stored hk =>
      dsimp only at hk
      rw [ReportStore.get?, apply_ite ReportStore.reports, reports_foldl_markFailed, ite_self] at hk
      exact .stored hk
    | failed hk =>
      dsimp only at hk
      split at hk
      next =>
        obtain hk | hk := ReportStore.isFailed_foldl_markFailed.mp hk
        · exact .failed hk
        · exact .awaited (RefreshTracker.isPending_iff.mpr
            ⟨r, hr, Std.ExtTreeSet.mem_toList.mp hk⟩)
      next => exact .failed hk
    | recorded hissue => exact .recorded hissue
    | acting haction => exact .acting haction
    | awaited hk => cases hk

theorem turn (hsound : h.tracker.Sound) (env : Surroundings) (key : DeadlineKey) :
  h.Adds (h.turn env key).hub
  := by
  cases key with
  | refresh id => apply refreshOverdue hsound
  | resolveAction action =>
    rw [Hub.turn, actionOverdue]
    split
    next => apply refl
    next h₁ hend => apply (endAction? hend).trans (.of_like (.publish _ env))
  | resurface =>
    apply of_like
    apply (Like.scheduleResurface h env.now).trans (.publish _ env)
  | persistWrite => apply write

end Adds

/-! ### A new catalog -/

/-- A hub is another one under a new catalog and policy: without what belongs to sources that do
not report under the catalog, and without the refresh in flight. -/
structure Reloads (h : Hub) (c : Catalog) (p : Policy) (h' : Hub) : Prop where
  catalog : h'.catalog = c
  policy : h'.policy = p
  stored : ∀ key,
    h'.reports.get? key = if c.isExternal key.sourceId then h.reports.get? key else none
  failed : ∀ key,
    h'.reports.isFailed key = (c.isExternal key.sourceId && h.reports.isFailed key)
  records : ∀ issue, h'.dismissals.record? issue
    = if c.isExternal issue.sourceId then h.dismissals.record? issue else none
  actions : ∀ action,
    action ∈ h'.inFlight ↔ action ∈ h.inFlight ∧ c.isExternal action.issue.sourceId = true
  idle : h'.tracker.current = none
  started : h'.tracker.started = h.tracker.started
  audience : h'.audience = h.audience
  archive : h'.archive = h.archive
  no_refresh_armed : ∀ id, h'.deadlines.isArmed (.refresh id) = false
  external_of_armed : ∀ action, h'.deadlines.isArmed (.resolveAction action) = true →
    c.isExternal action.issue.sourceId = true
  spares_action : ∀ action, c.isExternal action.issue.sourceId = true →
    h.Spares (.resolveAction action) h'

/-- A new catalog leaves the deadlines alone of actions whose sources report under it. -/
theorem Spares.under (h : Hub) (c : Catalog) (p : Policy) {action : ActionKey}
    (haction : c.isExternal action.issue.sourceId = true) :
  h.Spares (.resolveAction action) (h.under c p)
  := by
  have hended : h.Spares (.resolveAction action) (h.disarmRefresh h.tracker.clearAll.1) := by
    apply Deadlines.Spares.disarmEach
    intro hin
    obtain ⟨id, -, hkey⟩ := List.mem_map.mp hin
    cases hkey
  apply Deadlines.Spares.trans hended
  apply Deadlines.Spares.disarmEach
  intro hin
  obtain ⟨other, hother, hkey⟩ := List.mem_map.mp hin
  cases hkey
  have hdropped := (List.mem_filter.mp hother).2
  simp [haction] at hdropped

/-- A new catalog is taken when bounded deadlines are those of waits. -/
theorem reloads_under (htimed : h.Timed) (c : Catalog) (p : Policy)
    (hlike : (h.under c p).Like h') :
  h.Reloads c p h'
  := by
  have htimed' : h'.Timed := Ends.timed ((ends_under h c p).trans (.of_like hlike)) htimed
  have hspares (action : ActionKey) (haction : c.isExternal action.issue.sourceId = true) :
      h.Spares (.resolveAction action) h' :=
    (Spares.under h c p haction).trans (.of_like hlike rfl)
  obtain ⟨deadlines, sequence, -, -, rfl⟩ := hlike
  have hactions (action : ActionKey) : action ∈ (h.under c p).inFlight
      ↔ action ∈ h.inFlight ∧ c.isExternal action.issue.sourceId = true :=
    mem_filter_iff
  constructor
  case catalog | policy | idle | started | audience | archive => rfl
  case stored => apply ReportStore.get?_retainConfigured
  case failed => apply ReportStore.isFailed_retainConfigured
  case records => apply Dismissals.record?_retainConfigured
  case actions => exact hactions
  case no_refresh_armed =>
    intro id
    rw [Bool.eq_false_iff]
    intro harmed
    cases htimed'.current_of_armed harmed
  case external_of_armed =>
    intro action harmed
    apply ((hactions action).mp (htimed'.inFlight_of_armed harmed)).2
  case spares_action => exact hspares

theorem Reloads.configured {c : Catalog} {p : Policy} (hreloads : h.Reloads c p h') :
  h'.Configured
  := by
  intro id hid
  rw [hreloads.catalog]
  cases hid with
  | stored hkey =>
    rw [hreloads.stored] at hkey
    split at hkey
    next hexternal => exact hexternal
    next => cases hkey
  | failed hkey =>
    rw [hreloads.failed, Bool.and_eq_true] at hkey
    exact hkey.1
  | recorded hissue =>
    rw [hreloads.records] at hissue
    split at hissue
    next hexternal => exact hexternal
    next => cases hissue
  | acting haction => exact ((hreloads.actions _).mp haction).2
  | awaited hkey =>
    rw [RefreshTracker.isPending, hreloads.idle] at hkey
    cases hkey

/-! ### Runs -/

/-- A step leaves a hub that refers to sources of its catalog that report, and to no others. -/
theorem Step.configured (hstep : h.Step env h') (hsound : h.tracker.Sound) (htimed : h.Timed)
    (hconf : h.Configured) :
  h'.Configured
  := by
  cases hstep with
  | same => exact hconf
  | startRefresh reason _ _ hlike =>
    exact ((Adds.startRefresh h env reason _).trans (.of_like hlike)).configured hconf
  | accept key report event _ hcaller _ hlike =>
    have hstored := Adds.store h env.now (Catalog.isExternal_of_checkCaller hcaller) report
    have stored : (h.store env.now key report).tracker.Sound := hsound
    exact (hstored.trans
      ((Adds.applyEvent stored env key event false).trans (.of_like hlike))).configured hconf
  | acceptFailure key event _ hcaller hlike =>
    have hmarked := Adds.markFailed h (Catalog.isExternal_of_checkCaller hcaller)
    have marked : { h with reports := h.reports.markFailed key }.tracker.Sound := hsound
    exact (hmarked.trans
      ((Adds.applyEvent marked env key event true).trans (.of_like hlike))).configured hconf
  | dismiss _ _ hlike =>
    exact ((Adds.dismiss h _ env.now).trans (.of_like hlike)).configured hconf
  | beginAction _ hpackage hlike =>
    exact ((Adds.beginAction hpackage).trans (.of_like hlike)).configured hconf
  | clear hlike => exact ((Adds.cleared h).trans (.of_like hlike)).configured hconf
  | without user hlike =>
    exact ((Adds.without h user).trans (.of_like hlike)).configured hconf
  | under catalog policy hlike =>
    apply (reloads_under htimed catalog policy hlike).configured
  | flush hlike => exact ((Adds.of_like hlike).trans (.write _)).configured hconf
  | turn e _ =>
    have taken : h.Adds { h with deadlines := h.deadlines.take e } := .elsewhere h _ _ _ _ _
    have htaken : { h with deadlines := h.deadlines.take e }.tracker.Sound := hsound
    exact (taken.trans (.turn htaken env e.key)).configured hconf
  | listeners _ _ | wait _ | setFault _ => exact (Adds.elsewhere h _ _ _ _ _).configured hconf

theorem configured_start (catalog : Catalog) (policy : Policy) (archive : Archive)
    (loaded : Except ArchiveError (List SavedRecord)) (time : Nat) :
  (start catalog policy archive loaded time).Configured
  := by
  apply (Adds.of_like (Like.schedulePersist _)).configured
  intro id hid
  cases hid with
  | stored hkey => cases hkey
  | failed hkey => cases hkey
  | recorded hissue =>
    rw [← Dismissals.mem_records_iff] at hissue
    cases loaded with
    | ok records =>
      obtain ⟨s, -, hexternal, rfl⟩ := Dismissals.mem_load_iff.mp hissue
      exact hexternal
    | error e => exact absurd hissue Std.ExtTreeMap.not_mem_empty
  | acting haction => exact absurd haction Std.ExtTreeSet.not_mem_empty
  | awaited hkey => cases hkey

/-- An action is never refused for want of a source: the source of an issue that is reported
reports, so it has a package. -/
theorem Configured.executor_ne (hconf : h.Configured) (issue : IssueKey) (actionId id : String) :
  h.executor issue actionId ≠ .error (.unknownSource id)
  := by
  intro hrefused
  unfold executor at hrefused
  split at hrefused
  next => cases hrefused
  next reported hreported =>
    split at hrefused
    next => cases hrefused
    next =>
      split at hrefused
      next hnone =>
        obtain ⟨s, hs, hid, hreports⟩ :=
          Catalog.isExternal_iff.mp (hconf _ (.of_issue? hreported))
        have hsource : h.catalog.source? issue.sourceId = some s :=
          Catalog.source?_eq_some_iff.mpr ⟨hs, hid⟩
        have hpackage := (Catalog.isSome_package_iff hs).mpr hreports
        rw [hsource, Option.bind_some] at hnone
        rw [hnone] at hpackage
        cases hpackage
      next => split at hrefused <;> cases hrefused

theorem Configured.execute_ne (hconf : h.Configured) (env : Surroundings) (issue : IssueKey)
    (actionId id : String) :
  h.execute env issue actionId ≠ .error (.unknownSource id)
  := by
  intro hrefused
  simp only [execute, bind_eq_error_iff] at hrefused
  obtain hdisabled | ⟨-, -, hexecutor | ⟨package, -, hok⟩⟩ := hrefused
  · unfold ensureEnabled at hdisabled
    split at hdisabled <;> cases hdisabled
  · exact hconf.executor_ne issue actionId id hexecutor
  · cases hok

/-- After every run all that a hub refers to are sources of its catalog that report, so an action
is never refused because its source is not known.  A new catalog drops the reports, marks, records
and actions of sources that do not report under it, with the deadlines of these actions, and ends
the refresh in flight with its deadline; all other reports, marks, records and actions, with their
deadlines, are as before. -/
theorem configured_after (catalog : Catalog) (policy : Policy) (archive : Archive)
    (loaded : Except ArchiveError (List SavedRecord)) (time : Nat)
    (moves : List (Surroundings × Move)) :
  let h := (start catalog policy archive loaded time).after moves
  h.Configured
    ∧ (∀ env issue actionId id, h.execute env issue actionId ≠ .error (.unknownSource id))
    ∧ ∀ env c p, h.Reloads c p (h.reload env c p).hub
  := by
  intro h
  have hsound := sound_start catalog policy archive loaded time
  have htimed := timed_start catalog policy archive loaded time
  have hconf : h.Configured := by
    have hall : h.tracker.Sound ∧ h.Timed ∧ h.Configured := by
      apply after_induction (P := fun h => h.tracker.Sound ∧ h.Timed ∧ h.Configured)
        ⟨hsound, htimed, configured_start catalog policy archive loaded time⟩
      rintro h env m ⟨hsound, htimed, hconf⟩
      have hstep := step_move h env m
      exact ⟨hstep.sound hsound, (hstep.shifts hsound).timed htimed,
        hstep.configured hsound htimed hconf⟩
    exact hall.2.2
  refine ⟨hconf, hconf.execute_ne, ?_⟩
  intro env c p
  apply reloads_under (timed_after hsound htimed moves).2 c p (Like.settle _ env)

/-- A hub that refers to its only source in every way, and to none under an empty catalog. -/
example :
  let moves := [(Sample.device, Sample.submission ["a"]),
    (Sample.device, .execute ⟨"s", "i", 0⟩ "a"),
    (Sample.device, .reportFailure "p" "s" 0 .sourceStateChanged),
    (Sample.device, .refresh .other 0)]
  let h := (start Sample.catalog {} {} (.ok []) 0).after moves
  let h' := (h.reload Sample.device .empty {}).hub
  h.reports.keys = [⟨"s", 0⟩] ∧ h.reports.isFailed ⟨"s", 0⟩ = true
    ∧ h.dismissals.records.keys = [⟨"s", "i", 0⟩] ∧ h.inFlight.toList = [⟨⟨"s", "i", 0⟩, "a"⟩]
    ∧ h.tracker.isPending ⟨"s", 0⟩ = true
    ∧ h'.reports.isBlank = true ∧ h'.dismissals.records.keys = [] ∧ h'.inFlight.toList = []
    ∧ h'.tracker.isInProgress = false
    ∧ h'.deadlines.armed.map (·.key) = [.persistWrite]
  := by
  decide +kernel

end Hub

end SafetyHub
