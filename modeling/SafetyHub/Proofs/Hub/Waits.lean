import SafetyHub.Proofs.Hub.Run
import SafetyHub.Proofs.Refresh.Tracking

/-!
# What a hub waits for

A hub waits for the refresh in flight and for the actions in flight; each wait has the key of
its deadline.  A move ends some waits and drops their deadlines with them, `Hub.Ends`, or it
also begins one wait and arms its deadline, `Hub.Begins`.
-/

namespace SafetyHub

namespace Hub

variable {h h' h'' : Hub} {env : Surroundings}

/-- What a hub waits for, each wait by the key of its deadline. -/
def waits (h : Hub) : List DeadlineKey :=
  (h.tracker.current.map (.refresh ·.id)).toList ++ h.inFlight.toList.map .resolveAction

theorem refresh_mem_waits_iff {id : BroadcastId} :
  .refresh id ∈ h.waits ↔ h.tracker.current.map (·.id) = some id
  := by
  simp [waits]

theorem resolveAction_mem_waits_iff {action : ActionKey} :
  .resolveAction action ∈ h.waits ↔ action ∈ h.inFlight
  := by
  simp [waits]

theorem isBounded_of_mem_waits {key : DeadlineKey} (hkey : key ∈ h.waits) :
  key.isBounded = true
  := by
  obtain hrefresh | haction := List.mem_append.mp hkey
  · obtain ⟨r, -, rfl⟩ := Option.map_eq_some_iff.mp (Option.mem_toList.mp hrefresh)
    rfl
  · obtain ⟨action, -, rfl⟩ := List.mem_map.mp haction
    rfl

@[simp] theorem resurface_not_mem_waits (h : Hub) : .resurface ∉ h.waits :=
  fun hin => Bool.noConfusion (isBounded_of_mem_waits hin)

@[simp] theorem persistWrite_not_mem_waits (h : Hub) : .persistWrite ∉ h.waits :=
  fun hin => Bool.noConfusion (isBounded_of_mem_waits hin)

/-- The waits of a hub are given by the refresh and the actions that are in flight. -/
theorem mem_waits_iff_of {stays : DeadlineKey → Prop}
    (hrefresh : ∀ id, h'.tracker.current.map (·.id) = some id
      ↔ h.tracker.current.map (·.id) = some id ∧ stays (.refresh id))
    (haction : ∀ action, action ∈ h'.inFlight
      ↔ action ∈ h.inFlight ∧ stays (.resolveAction action)) (key : DeadlineKey) :
  key ∈ h'.waits ↔ key ∈ h.waits ∧ stays key
  := by
  cases key with
  | refresh id => rw [refresh_mem_waits_iff, refresh_mem_waits_iff, hrefresh]
  | resolveAction action =>
    rw [resolveAction_mem_waits_iff, resolveAction_mem_waits_iff, haction]
  | resurface | persistWrite => simp

theorem Like.waits_eq (hlike : h.Like h') : h'.waits = h.waits := by
  obtain ⟨_, _, -, -, rfl⟩ := hlike
  rfl

/-- Some waits end and their deadlines are dropped. -/
def Ends (h h' : Hub) : Prop :=
  ∃ stays : DeadlineKey → Bool, (∀ key, key ∈ h'.waits ↔ key ∈ h.waits ∧ stays key = true)
    ∧ h'.deadlines.bounded = h.deadlines.bounded.filter (stays ·.key)

/-- Some waits end and their deadlines are dropped; then a wait begins and its deadline is
armed. -/
def Begins (h : Hub) (key : DeadlineKey) (h' : Hub) : Prop :=
  ∃ between, h.Ends between ∧ key ∉ between.waits
    ∧ (∀ k, k ∈ h'.waits ↔ k = key ∨ k ∈ between.waits)
    ∧ ∃ e, e.key = key ∧ h'.deadlines.bounded = between.deadlines.roomFor key ++ [e]

/-- Some waits end, and at most one begins. -/
def Shifts (h h' : Hub) : Prop :=
  h.Ends h' ∨ ∃ key, h.Begins key h'

namespace Ends

theorem of_same (hrefresh : h'.tracker.current.map (·.id) = h.tracker.current.map (·.id))
    (hactions : h'.inFlight = h.inFlight)
    (hbounded : h'.deadlines.bounded = h.deadlines.bounded) :
  h.Ends h'
  := by
  use fun _ => true
  constructor
  · apply mem_waits_iff_of
    · simp [hrefresh]
    · simp [hactions]
  · rw [hbounded]
    apply (List.filter_eq_self.mpr fun _ _ => rfl).symm

theorem trans (hab : h.Ends h') (hbc : h'.Ends h'') : h.Ends h'' := by
  obtain ⟨stays, hwaits, hbounded⟩ := hab
  obtain ⟨stays', hwaits', hbounded'⟩ := hbc
  use fun key => stays key && stays' key
  constructor
  · intro key
    rw [hwaits', hwaits, Bool.and_eq_true, and_assoc]
  · rw [hbounded', hbounded, List.filter_filter]
    apply List.filter_congr
    intro e _
    apply Bool.and_comm _ _

theorem of_like (hlike : h.Like h') : h.Ends h' := by
  obtain ⟨deadlines, sequence, -, hbounded, rfl⟩ := hlike
  exact of_same rfl rfl hbounded

end Ends

theorem Begins.like {key : DeadlineKey} (hbegins : h.Begins key h') (hlike : h'.Like h'') :
  h.Begins key h''
  := by
  obtain ⟨between, hends, hnew, hwaits, hbounded⟩ := hbegins
  obtain ⟨deadlines, sequence, -, hsame, rfl⟩ := hlike
  use between, hends, hnew, hwaits
  rwa [hsame]

theorem Shifts.like (hshifts : h.Shifts h') (hlike : h'.Like h'') : h.Shifts h'' := by
  obtain hends | ⟨key, hbegins⟩ := hshifts
  · exact .inl (hends.trans (.of_like hlike))
  · exact .inr ⟨key, hbegins.like hlike⟩

/-! ### Waits that end -/

theorem ends_keepActions (h : Hub) (keep : ActionKey → Bool) : h.Ends (h.keepActions keep) := by
  use fun key => !((h.inFlight.outside keep).map .resolveAction).contains key
  constructor
  · apply mem_waits_iff_of
    · simp [keepActions]
    · intro action
      by_cases hin : action ∈ h.inFlight <;> simp [keepActions, InFlight.outside, hin]
  · apply Deadlines.bounded_disarmEach h.deadlines _

/-- The wait of one key ends, if there is one. -/
theorem ends_of_key (key : DeadlineKey)
    (hrefresh : ∀ id, h'.tracker.current.map (·.id) = some id
      ↔ h.tracker.current.map (·.id) = some id ∧ .refresh id ≠ key)
    (haction : ∀ action, action ∈ h'.inFlight
      ↔ action ∈ h.inFlight ∧ .resolveAction action ≠ key)
    (hbounded : h'.deadlines.bounded = h.deadlines.bounded.filter (·.key != key)) :
  h.Ends h'
  := by
  use fun k => k != key
  constructor
  · apply mem_waits_iff_of
    · simpa using hrefresh
    · simpa using haction
  · apply hbounded

theorem ends_finishAction? {action : ActionKey} (hfin : h.finishAction? action = some h') :
  h.Ends h'
  := by
  obtain ⟨-, rfl⟩ := finishAction?_eq_some_iff.mp hfin
  apply ends_of_key (.resolveAction action)
  · simp [disarm]
  · intro other
    simp [disarm, and_comm, eq_comm (a := other)]
  · apply Deadlines.bounded_disarm h.deadlines _

/-- The wait for a refresh ends with the refresh. -/
theorem ends_refresh {r : RefreshInProgress} {t : RefreshTracker}
    (hr : h.tracker.current = some r) (ht : t.current = none) :
  h.Ends ({ h with tracker := t }.disarm (.refresh r.id))
  := by
  apply ends_of_key (.refresh r.id)
  · simp [disarm, hr, ht]
  · simp [disarm]
  · apply Deadlines.bounded_disarm h.deadlines _

theorem ends_clearAll (h : Hub) :
  h.Ends ({ h with tracker := h.tracker.clearAll.2 }.disarmRefresh h.tracker.clearAll.1)
  := by
  cases hr : h.tracker.current with
  | none =>
    rw [RefreshTracker.clearAll, hr]
    refine .of_same ?_ rfl rfl
    rw [hr]
    rfl
  | some r =>
    rw [RefreshTracker.clearAll, hr]
    apply ends_refresh hr rfl

theorem ends_answerRefresh (hsound : h.tracker.Sound) (now : Instant) (key : SourceKey)
    (id : BroadcastId) (failed : Bool) :
  h.Ends (h.answerRefresh now key id failed).hub
  := by
  have final : (answerState failed).isFinal = true := by cases failed <;> rfl
  rw [hub_answerRefresh]
  obtain ⟨-, heq⟩ | ⟨r, hr, rfl, -, ⟨-, heq⟩ | ⟨-, heq⟩⟩ :=
    RefreshTracker.retire_cases hsound key id final
  · rw [heq]
    exact .of_same rfl rfl rfl
  · rw [heq]
    apply ends_refresh hr rfl
  · rw [heq]
    refine .of_same ?_ rfl rfl
    simp [hr, RefreshInProgress.settle]

theorem ends_applyEvent (hsound : h.tracker.Sound) (env : Surroundings) (key : SourceKey)
    (event : Event) (failed : Bool) :
  h.Ends (h.applyEvent env key event failed).1.hub
  := by
  obtain heq | ⟨id, heq⟩ | ⟨action, -, hfin⟩ := hub_applyEvent_cases h env key event failed
  · rw [heq]
    exact .of_same rfl rfl rfl
  · rw [heq]
    apply ends_answerRefresh hsound env.now key id failed
  · apply ends_finishAction? hfin

theorem ends_store (h : Hub) (now : Instant) (key : SourceKey) (report : Option Report) :
  h.Ends (h.store now key report)
  := by
  have hsame : h.Ends { h with
      dismissals := h.dismissals.reconcile key ((report.map (·.issueIds)).getD []) now
      reports := h.reports.set key report now } :=
    .of_same rfl rfl rfl
  apply hsame.trans
  apply ends_keepActions

theorem ends_cleared (h : Hub) : h.Ends h.cleared := by
  use fun _ => false
  constructor
  · apply mem_waits_iff_of
    · simp [cleared, RefreshTracker.clearAll]
    · simp [cleared]
  · rw [cleared, Deadlines.bounded_disarmMatching]
    apply List.filter_congr
    intro e he
    have bounded := (Deadlines.mem_bounded_iff.mp he).2
    rw [Bool.not_eq_false', bne_iff_ne]
    rintro heq
    rw [heq] at bounded
    cases bounded

theorem ends_without (h : Hub) (user : UserId) : h.Ends (h.without user) := by
  have hrefresh : h.Ends ({ h with tracker := (h.tracker.clearForUser user).2 }.disarmRefresh
      (h.tracker.clearForUser user).1) := by
    unfold RefreshTracker.clearForUser
    split
    · exact ends_clearAll h
    · exact .of_same rfl rfl rfl
  apply hrefresh.trans
  apply (ends_keepActions _ (InFlight.isOfOther user)).trans
  exact .of_same rfl rfl rfl

theorem ends_under (h : Hub) (catalog : Catalog) (policy : Policy) :
  h.Ends (h.under catalog policy)
  := by
  have hsame : ({ h with tracker := h.tracker.clearAll.2 }.disarmRefresh h.tracker.clearAll.1).Ends
      ({ h with tracker := h.tracker.clearAll.2, catalog, policy }.disarmRefresh
        h.tracker.clearAll.1) :=
    .of_same rfl rfl rfl
  apply (ends_clearAll h).trans
  apply hsame.trans
  apply (ends_keepActions _ (catalog.isExternal ·.issue.sourceId)).trans
  exact .of_same rfl rfl rfl

/-! ### Waits whose time is over -/

/-- When the time of a refresh is over, the refresh in flight ends if it is the one. -/
theorem hub_refreshOverdue_cases (hsound : h.tracker.Sound) (env : Surroundings)
    (id : BroadcastId) :
  (h.tracker.current.map (·.id) ≠ some id ∧ (h.refreshOverdue env id).hub = h)
    ∨ ∃ r reports, h.tracker.current = some r ∧ r.id = id
      ∧ { h with tracker := { h.tracker with current := none }, reports }.Like
        (h.refreshOverdue env id).hub
  := by
  unfold refreshOverdue
  cases hr : h.tracker.current with
  | none =>
    left
    simp
  | some r =>
    by_cases hid : r.id = id
    · right
      have missing : ¬ r.pending.toList.isEmpty = true := by
        simpa using (hsound r hr).pending_ne_empty
      simp only [← hid, RefreshTracker.timeOutAll_of_current (hsound r hr) hr, if_neg missing]
      exact ⟨r, _, rfl, rfl, Like.publish _ env⟩
    · left
      have other : ∀ r', h.tracker.current = some r' → r'.id ≠ id := by
        rintro r' hr'
        rw [hr] at hr'
        cases hr'
        apply hid
      rw [RefreshTracker.timeOutAll_of_ne other]
      simpa using hid

/-- A deadline that is for no wait passes. -/
theorem ends_take {e : Armed Unit} (hidle : e.key ∉ h.waits) :
  h.Ends { h with deadlines := h.deadlines.take e }
  := by
  use fun key => key != e.key
  constructor
  · intro key
    rw [bne_iff_ne]
    constructor
    · intro hkey
      use hkey
      rintro rfl
      exact hidle hkey
    · apply And.left
  · apply Deadlines.bounded_take

theorem ends_refreshExpired {e : Armed Unit} {id : BroadcastId} (hsound : h.tracker.Sound)
    (hkey : e.key = .refresh id) (env : Surroundings) :
  h.Ends ({ h with deadlines := h.deadlines.take e }.refreshOverdue env id).hub
  := by
  obtain ⟨hother, hsame⟩ | ⟨r, reports, hr, rfl, hlike⟩ :=
    hub_refreshOverdue_cases (h := { h with deadlines := h.deadlines.take e }) hsound env id
  · rw [hsame]
    apply ends_take
    rwa [hkey, refresh_mem_waits_iff]
  · refine Ends.trans ?_ (.of_like hlike)
    apply ends_of_key (.refresh r.id)
    · dsimp only at hr
      simp [hr, eq_comm]
    · simp
    · rw [← hkey]
      apply Deadlines.bounded_take

theorem ends_actionExpired {e : Armed Unit} {action : ActionKey}
    (hkey : e.key = .resolveAction action) (env : Surroundings) :
  h.Ends ({ h with deadlines := h.deadlines.take e }.actionOverdue env action).hub
  := by
  unfold actionOverdue
  split
  next hend =>
    apply ends_take
    rw [hkey, resolveAction_mem_waits_iff]
    exact endAction?_eq_none_iff (h := { h with deadlines := h.deadlines.take e }).mp hend
  next h₁ hend =>
    obtain ⟨-, rfl⟩ := endAction?_eq_some_iff.mp hend
    refine Ends.trans ?_ (.of_like (Like.publish _ env))
    apply ends_of_key (.resolveAction action)
    · simp
    · intro other
      simp [and_comm, eq_comm (a := other)]
    · rw [← hkey]
      apply Deadlines.bounded_take

theorem ends_write (h : Hub) : h.Ends h.write.2.hub := by
  obtain heq | ⟨-, archive, -, heq⟩ := hub_write_cases h
  · rw [heq]
    exact .of_same rfl rfl rfl
  · rw [heq]
    exact .of_same rfl rfl rfl

/-- A deadline that passes ends the wait that it is for, if there is one. -/
theorem ends_turn (hsound : h.tracker.Sound) (env : Surroundings) (e : Armed Unit) :
  h.Ends ({ h with deadlines := h.deadlines.take e }.turn env e.key).hub
  := by
  cases hkey : e.key with
  | refresh id => apply ends_refreshExpired hsound hkey
  | resolveAction action => apply ends_actionExpired hkey
  | resurface =>
    have hidle : e.key ∉ h.waits := by simp [hkey]
    apply (ends_take hidle).trans
    exact .of_like ((Like.scheduleResurface _ env.now).trans (Like.publish _ env))
  | persistWrite =>
    have hidle : e.key ∉ h.waits := by simp [hkey]
    apply (ends_take hidle).trans
    apply ends_write

/-! ### Waits that begin -/

theorem begins_beginAction {action : ActionKey} (hidle : action ∉ h.inFlight) :
  h.Begins (.resolveAction action) (h.beginAction action)
  := by
  use h, .of_same rfl rfl rfl
  constructor
  · rwa [resolveAction_mem_waits_iff]
  constructor
  · intro key
    cases key with
    | refresh id =>
      rw [refresh_mem_waits_iff, refresh_mem_waits_iff]
      simp [beginAction, arm]
    | resolveAction other =>
      rw [resolveAction_mem_waits_iff, resolveAction_mem_waits_iff, mem_inFlight_beginAction,
        DeadlineKey.resolveAction.injEq]
    | resurface | persistWrite => simp
  · exact ⟨_, rfl, Deadlines.bounded_arm rfl _ ()⟩

/-- A refresh that is to be started first ends the one in flight. -/
theorem ends_abandon {t : RefreshTracker} (ht : t.current = none) :
  h.Ends { h with tracker := t, deadlines := h.deadlines.disarmMatching (·.isRefresh) }
  := by
  use fun key => !key.isRefresh
  constructor
  · apply mem_waits_iff_of
    · simp [ht, DeadlineKey.isRefresh]
    · simp [DeadlineKey.isRefresh]
  · apply Deadlines.bounded_disarmMatching h.deadlines _

theorem shifts_startRefresh (h : Hub) (env : Surroundings) (reason : RefreshReason)
    (group : ProfileGroup) :
  h.Shifts (h.startRefresh env reason group).2
  := by
  have hgoing := RefreshTracker.isInProgress_start h.tracker env.digest env.now
    (h.refreshOrder env.now reason group)
  simp only [startRefresh]
  split
  next himmediate =>
    left
    apply ends_abandon
    simpa [himmediate, RefreshTracker.isInProgress] using hgoing
  next himmediate =>
    right
    simp only [himmediate, RefreshTracker.isInProgress] at hgoing
    obtain ⟨r, hr⟩ := Option.isSome_iff_exists.mp hgoing
    obtain ⟨-, hid, -⟩ := RefreshTracker.current_start hr
    refine ⟨.refresh r.id, _, ends_abandon (t := {}) rfl, ?_, ?_, ?_⟩
    · simp [refresh_mem_waits_iff]
    · intro key
      cases key with
      | refresh id =>
        rw [refresh_mem_waits_iff, refresh_mem_waits_iff]
        simp [arm, hr, eq_comm (a := id)]
      | resolveAction action =>
        rw [resolveAction_mem_waits_iff, resolveAction_mem_waits_iff]
        simp [arm]
      | resurface | persistWrite => simp
    · rw [hid]
      exact ⟨_, rfl, Deadlines.bounded_arm rfl _ ()⟩

/-! ### The tracker -/

theorem Like.sound (hlike : h.Like h') (hsound : h.tracker.Sound) : h'.tracker.Sound := by
  obtain ⟨_, _, -, -, rfl⟩ := hlike
  apply hsound

theorem sound_startRefresh (h : Hub) (env : Surroundings) (reason : RefreshReason)
    (group : ProfileGroup) :
  (h.startRefresh env reason group).2.tracker.Sound
  := by
  have started : (h.tracker.start env.digest env.now
      (h.refreshOrder env.now reason group)).2.Sound :=
    fun _ hr => (RefreshTracker.current_start hr).1
  simp only [startRefresh]
  split <;> exact started

theorem sound_applyEvent (hsound : h.tracker.Sound) (env : Surroundings) (key : SourceKey)
    (event : Event) (failed : Bool) :
  (h.applyEvent env key event failed).1.hub.tracker.Sound
  := by
  obtain heq | ⟨id, heq⟩ | ⟨action, -, hfin⟩ := hub_applyEvent_cases h env key event failed
  · rwa [heq]
  · rw [heq, hub_answerRefresh]
    have final : (answerState failed).isFinal = true := by cases failed <;> rfl
    have retired := hsound.retire key id final
    dsimp only
    split <;> exact retired
  · obtain ⟨-, heq⟩ := finishAction?_eq_some_iff.mp hfin
    rw [heq]
    apply hsound

theorem sound_write (hsound : h.tracker.Sound) : h.write.2.hub.tracker.Sound := by
  obtain heq | ⟨-, archive, -, heq⟩ := hub_write_cases h
  · rwa [heq]
  · rwa [heq]

theorem sound_turn (hsound : h.tracker.Sound) (env : Surroundings) (key : DeadlineKey) :
  (h.turn env key).hub.tracker.Sound
  := by
  cases key with
  | refresh id =>
    obtain ⟨-, hsame⟩ | ⟨r, reports, -, -, hlike⟩ := hub_refreshOverdue_cases hsound env id
    · rwa [turn, hsame]
    · apply hlike.sound (.of_idle rfl)
  | resolveAction action =>
    rw [turn, actionOverdue]
    split
    next => exact hsound
    next h₁ hend =>
      obtain ⟨-, rfl⟩ := endAction?_eq_some_iff.mp hend
      apply hsound
  | resurface =>
    apply ((Like.scheduleResurface h env.now).trans (Like.publish _ env)).sound hsound
  | persistWrite => apply sound_write hsound

/-- The refresh in flight stays sound. -/
theorem Step.sound (hstep : h.Step env h') (hsound : h.tracker.Sound) : h'.tracker.Sound := by
  cases hstep with
  | startRefresh reason _ _ hlike => apply hlike.sound (sound_startRefresh h env reason _)
  | accept key report event _ _ _ hlike =>
    have stored : (h.store env.now key report).tracker.Sound := hsound
    apply hlike.sound (sound_applyEvent stored env key event false)
  | acceptFailure key event _ _ hlike =>
    have marked : { h with reports := h.reports.markFailed key }.tracker.Sound := hsound
    apply hlike.sound (sound_applyEvent marked env key event true)
  | dismiss _ _ hlike => apply hlike.sound hsound
  | beginAction _ _ hlike => apply hlike.sound hsound
  | clear hlike => apply hlike.sound (.of_idle rfl)
  | without user hlike => apply hlike.sound (hsound.clearForUser user)
  | under catalog policy hlike => apply hlike.sound (.of_idle rfl)
  | flush hlike => apply sound_write (hlike.sound hsound)
  | turn e _ =>
    have taken : { h with deadlines := h.deadlines.take e }.tracker.Sound := hsound
    apply sound_turn taken env e.key
  | same | listeners _ _ | wait _ | setFault _ => apply hsound

/-! ### Steps -/

/-- A step ends some waits, starts a refresh, or begins an action. -/
theorem Step.waits_cases (hstep : h.Step env h') (hsound : h.tracker.Sound) :
  h.Ends h' ∨ (∃ reason group, (h.startRefresh env reason group).2.Like h')
    ∨ ∃ action, action ∉ h.inFlight ∧ (h.beginAction action).Like h'
  := by
  cases hstep with
  | startRefresh reason _ _ hlike =>
    right; left
    exact ⟨reason, _, hlike⟩
  | beginAction _ hpackage hlike =>
    right; right
    obtain ⟨-, -, hidle⟩ := executor_eq_ok hpackage
    exact ⟨_, hidle, hlike⟩
  | accept key report event _ _ _ hlike =>
    left
    have stored : (h.store env.now key report).tracker.Sound := hsound
    apply (ends_store h env.now key report).trans
    apply (ends_applyEvent stored env key event false).trans (.of_like hlike)
  | acceptFailure key event _ _ hlike =>
    left
    have marked : h.Ends { h with reports := h.reports.markFailed key } := .of_same rfl rfl rfl
    apply marked.trans
    apply Ends.trans _ (.of_like hlike)
    apply ends_applyEvent
    apply hsound
  | dismiss _ _ hlike =>
    left
    refine Ends.trans ?_ (.of_like hlike)
    exact .of_same rfl rfl rfl
  | clear hlike => exact .inl ((ends_cleared h).trans (.of_like hlike))
  | without user hlike => exact .inl ((ends_without h user).trans (.of_like hlike))
  | under catalog policy hlike =>
    exact .inl ((ends_under h catalog policy).trans (.of_like hlike))
  | flush hlike => exact .inl ((Ends.of_like hlike).trans (ends_write _))
  | turn e _ => exact .inl (ends_turn hsound env e)
  | same | listeners _ _ | wait _ | setFault _ => exact .inl (.of_same rfl rfl rfl)

/-- A step ends some waits, and begins at most one. -/
theorem Step.shifts (hstep : h.Step env h') (hsound : h.tracker.Sound) : h.Shifts h' := by
  obtain hends | ⟨reason, group, hlike⟩ | ⟨action, hidle, hlike⟩ := hstep.waits_cases hsound
  · left
    apply hends
  · apply (shifts_startRefresh h env reason group).like hlike
  · right
    exact ⟨_, (begins_beginAction hidle).like hlike⟩

end Hub

end SafetyHub
