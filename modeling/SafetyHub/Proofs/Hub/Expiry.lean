import SafetyHub.Proofs.Hub.Outcomes

/-!
# Deadlines that pass

No deadline outlives what it is for: an armed deadline of a refresh is that of the refresh in
flight, and one of an action is that of an action in flight.  So a deadline that passes always
ends what it is for, once: the refresh ends and its listeners hear which sources did not answer,
or the action ends and its listeners hear of it.
-/

namespace SafetyHub

open Std

/-- A tracker goes on with the refresh of another one, or with none. -/
def RefreshTracker.Continues (t t' : RefreshTracker) : Prop :=
  ∀ r', t'.current = some r' → ∃ r, t.current = some r ∧ r.id = r'.id ∧ r.group = r'.group

namespace RefreshTracker.Continues

variable {t t' t'' : RefreshTracker}

theorem refl (t : RefreshTracker) : t.Continues t := fun r hr => ⟨r, hr, rfl, rfl⟩

theorem trans (hab : t.Continues t') (hbc : t'.Continues t'') : t.Continues t'' := by
  intro r'' hr''
  obtain ⟨r', hr', hid', hgroup'⟩ := hbc r'' hr''
  obtain ⟨r, hr, hid, hgroup⟩ := hab r' hr'
  exact ⟨r, hr, hid.trans hid', hgroup.trans hgroup'⟩

theorem of_idle (h : t'.current = none) : t.Continues t' := by
  intro r' hr'
  rw [h] at hr'
  cases hr'

theorem retire (hsound : t.Sound) (key : SourceKey) (id : BroadcastId) {target : PairState}
    (final : target.isFinal = true) :
  t.Continues (t.retire key id target).2
  := by
  obtain ⟨-, heq⟩ | ⟨r, hr, -, -, ⟨-, heq⟩ | ⟨-, heq⟩⟩ := retire_cases hsound key id final
  · rw [heq]
    apply refl
  · rw [heq]
    exact of_idle rfl
  · rw [heq]
    intro r' hr'
    cases hr'
    exact ⟨r, hr, rfl, rfl⟩

theorem clearForUser (t : RefreshTracker) (user : UserId) :
  t.Continues (t.clearForUser user).2
  := by
  unfold RefreshTracker.clearForUser
  split
  · exact of_idle rfl
  · apply refl

end RefreshTracker.Continues

theorem ReportStore.isFailed_foldl_markFailed {keys : List SourceKey} {s : ReportStore}
    {key : SourceKey} :
  (keys.foldl markFailed s).isFailed key = true ↔ s.isFailed key = true ∨ key ∈ keys
  := by
  induction keys generalizing s with
  | nil => simp
  | cons k keys ih =>
    rw [List.foldl_cons, ih, List.mem_cons, ← or_assoc]
    simp [isFailed, markFailed, or_comm, eq_comm (a := k)]

namespace Hub

variable {h h' : Hub} {env : Surroundings}

/-! ### Where the refresh in flight comes from -/

theorem Like.tracker_eq (hlike : h.Like h') : h'.tracker = h.tracker := by
  obtain ⟨_, _, -, -, rfl⟩ := hlike
  rfl

theorem Like.continues (hlike : h.Like h') : h.tracker.Continues h'.tracker := by
  rw [hlike.tracker_eq]
  apply RefreshTracker.Continues.refl

theorem continues_applyEvent (hsound : h.tracker.Sound) (env : Surroundings) (key : SourceKey)
    (event : Event) (failed : Bool) :
  h.tracker.Continues (h.applyEvent env key event failed).1.hub.tracker
  := by
  obtain heq | ⟨id, heq⟩ | ⟨action, -, hfin⟩ := hub_applyEvent_cases h env key event failed
  · rw [heq]
    apply RefreshTracker.Continues.refl
  · have final : (answerState failed).isFinal = true := by cases failed <;> rfl
    have hretired := RefreshTracker.Continues.retire hsound key id final
    rw [heq, hub_answerRefresh]
    dsimp only
    split <;> exact hretired
  · obtain ⟨-, heq⟩ := finishAction?_eq_some_iff.mp hfin
    rw [heq]
    apply RefreshTracker.Continues.refl

theorem continues_turn (hsound : h.tracker.Sound) (env : Surroundings) (key : DeadlineKey) :
  h.tracker.Continues (h.turn env key).hub.tracker
  := by
  cases key with
  | refresh id =>
    obtain ⟨-, hsame⟩ | ⟨r, reports, -, -, hlike⟩ := hub_refreshOverdue_cases hsound env id
    · rw [turn, hsame]
      apply RefreshTracker.Continues.refl
    · exact (RefreshTracker.Continues.of_idle rfl).trans hlike.continues
  | resolveAction action =>
    rw [turn, actionOverdue]
    split
    next => apply RefreshTracker.Continues.refl
    next h₁ hend =>
      obtain ⟨-, rfl⟩ := endAction?_eq_some_iff.mp hend
      apply RefreshTracker.Continues.refl
  | resurface => apply ((Like.scheduleResurface h env.now).trans (Like.publish _ env)).continues
  | persistWrite =>
    rw [turn]
    obtain heq | ⟨-, archive, -, heq⟩ := hub_write_cases h
    · rw [heq]
      apply RefreshTracker.Continues.refl
    · rw [heq]
      apply RefreshTracker.Continues.refl

/-- Only a call to refresh puts another refresh in flight. -/
theorem continues_move (hsound : h.tracker.Sound) (env : Surroundings) {m : Move}
    (hm : ∀ reason user, m ≠ .refresh reason user) :
  h.tracker.Continues (h.move env m).tracker
  := by
  have refused := RefreshTracker.Continues.refl h.tracker
  cases m with
  | refresh reason user => exact absurd rfl (hm reason user)
  | submit package sourceId user report event =>
    apply afterCall_elim (P := fun h' => h.tracker.Continues h'.tracker) refused
    intro c hok
    obtain ⟨-, -, rfl⟩ := submit_eq_ok hok
    have hstore : (h.store env.now ⟨sourceId, user⟩ report).tracker.Sound := hsound
    exact (continues_applyEvent hstore env _ event false).trans
      (like_accept h env _ report event).continues
  | reportFailure package sourceId user event =>
    apply afterCall_elim (P := fun h' => h.tracker.Continues h'.tracker) refused
    intro c hok
    obtain ⟨-, -, rfl⟩ := reportFailure_eq_ok hok
    have hmark : { h with reports := h.reports.markFailed ⟨sourceId, user⟩ }.tracker.Sound :=
      hsound
    exact (continues_applyEvent hmark env _ event true).trans
      (like_acceptFailure h env _ event).continues
  | listen listener package user =>
    apply afterCall_elim (P := fun h' => h.tracker.Continues h'.tracker) refused
    intro c hok
    obtain ⟨isNew, hok⟩ := map_snd_eq_ok_iff.mp hok
    obtain ⟨-, group, -, hsame | ⟨audience, -, hnew⟩⟩ := listen_eq_ok hok
    · rwa [hsame]
    · rwa [hnew]
  | dismiss issue =>
    apply afterCall_elim (P := fun h' => h.tracker.Continues h'.tracker) refused
    intro c hok
    obtain ⟨-, -, rfl⟩ := dismiss_eq_ok_iff.mp hok
    apply (Like.settle _ env).continues
  | execute issue actionId =>
    apply afterCall_elim (P := fun h' => h.tracker.Continues h'.tracker) refused
    intro c hok
    obtain ⟨-, -, hlike⟩ := execute_eq_ok hok
    apply hlike.continues
  | flush =>
    obtain heq | ⟨-, archive, -, heq⟩ := hub_write_cases (h.disarm .persistWrite)
    · rw [move, flush, heq]
      apply refused
    · rw [move, flush, heq]
      apply refused
  | clear =>
    exact (RefreshTracker.Continues.of_idle rfl).trans
      ((Like.schedulePersist h.cleared).trans (Like.publish _ env)).continues
  | removeUser user =>
    exact (RefreshTracker.Continues.clearForUser h.tracker user).trans
      (Like.settle (h.without user) env).continues
  | reload catalog policy =>
    exact (RefreshTracker.Continues.of_idle rfl).trans
      (Like.settle (h.under catalog policy) env).continues
  | expire key =>
    rw [move]
    obtain heq | ⟨e, -, rfl, heq⟩ := expire_cases h env key
    · rwa [heq]
    · rw [heq]
      have taken : { h with deadlines := h.deadlines.take e }.tracker.Sound := hsound
      apply continues_turn taken env e.key
  | unlisten _ | offer _ _ _ | wait _ | setFault _ => apply refused

/-- The refresh was started in a run by a call that answered with its token, for the group that
the user of the call belonged to. -/
def StartedIn (h : Hub) (moves : List (Surroundings × Move)) (r : RefreshInProgress) : Prop :=
  ∃ before env reason user rest c, moves = before ++ (env, .refresh reason user) :: rest
    ∧ (h.after before).refresh env reason user = .ok (r.id, c)
    ∧ env.users.resolve? user = some r.group

theorem StartedIn.append {moves : List (Surroundings × Move)} {r : RefreshInProgress}
    (hstarted : h.StartedIn moves r) (more : List (Surroundings × Move)) :
  h.StartedIn (moves ++ more) r
  := by
  obtain ⟨before, env, reason, user, rest, c, rfl, hstarted⟩ := hstarted
  exact ⟨before, env, reason, user, rest ++ more, c, by simp, hstarted⟩

theorem current_of_refresh {reason : RefreshReason} {user : UserId} {id : BroadcastId}
    {c : Change} (hok : h.refresh env reason user = .ok (id, c)) {r : RefreshInProgress}
    (hr : c.hub.tracker.current = some r) :
  r.id = id ∧ env.users.resolve? user = some r.group
  := by
  obtain ⟨-, group, hgroup, rfl, _, _, -, -, heq⟩ := refresh_eq_ok hok
  have hr : (h.tracker.start env.digest env.now
      (h.refreshOrder env.now reason group)).2.current = some r := by
    rw [heq] at hr
    simp only [startRefresh] at hr
    split at hr <;> exact hr
  obtain ⟨hid, -, -, hrgroup⟩ := RefreshTracker.order_of_current_start hr
  rw [hrgroup]
  constructor
  · rw [hid]
    simp only [startRefresh]
  · exact hgroup

/-- The refresh in flight after a run was started in it. -/
theorem startedIn_after (hidle : h.tracker.current = none) (moves : List (Surroundings × Move))
    {r : RefreshInProgress} (hr : (h.after moves).tracker.current = some r) :
  h.StartedIn moves r
  := by
  have hsound (moves : List (Surroundings × Move)) : (h.after moves).tracker.Sound := by
    apply after_induction (P := fun h => h.tracker.Sound) (.of_idle hidle)
    intro h env m hsound
    apply (step_move h env m).sound hsound
  induction moves using List.reverseRecOn generalizing r with
  | nil =>
    rw [after, List.foldl_nil, hidle] at hr
    cases hr
  | append_singleton moves m ih =>
    obtain ⟨env, m⟩ := m
    have hmove := after_concat h moves env m
    rw [hmove] at hr
    have continued (hcontinues : (h.after moves).tracker.Continues
        ((h.after moves).move env m).tracker) : h.StartedIn (moves ++ [(env, m)]) r := by
      obtain ⟨r', hr', hid, hgroup⟩ := hcontinues r hr
      obtain ⟨before, env', reason, user, rest, c, hmoves, hok, hresolve⟩ :=
        (ih hr').append [(env, m)]
      rw [hid] at hok
      rw [hgroup] at hresolve
      exact ⟨before, env', reason, user, rest, c, hmoves, hok, hresolve⟩
    by_cases hm : ∃ reason user, m = .refresh reason user
    · obtain ⟨reason, user, rfl⟩ := hm
      cases hok : (h.after moves).refresh env reason user with
      | error e =>
        apply continued
        rw [move, hok]
        apply RefreshTracker.Continues.refl
      | ok answer =>
        obtain ⟨id, c⟩ := answer
        rw [move, hok] at hr
        obtain ⟨rfl, hresolve⟩ := current_of_refresh hok hr
        exact ⟨moves, env, reason, user, [], c, rfl, hok, hresolve⟩
    · apply continued
      apply continues_move (hsound moves)
      intro reason user heq
      apply hm ⟨reason, user, heq⟩

/-! ### Deadlines and what they are for -/

theorem mem_timers_iff {key : DeadlineKey} (hbounded : key.isBounded = true) :
  key ∈ h.timers ↔ h.deadlines.isArmed key = true
  := by
  rw [Deadlines.isArmed_iff, timers, List.mem_map]
  constructor
  · rintro ⟨e, he, rfl⟩
    exact ⟨e, (Deadlines.mem_bounded_iff.mp he).1, rfl⟩
  · rintro ⟨e, he, rfl⟩
    exact ⟨e, Deadlines.mem_bounded_iff.mpr ⟨he, hbounded⟩, rfl⟩

theorem Timed.current_of_armed (htimed : h.Timed) {id : BroadcastId}
    (harmed : h.deadlines.isArmed (.refresh id) = true) :
  h.tracker.current.map (·.id) = some id
  := refresh_mem_waits_iff.mp (htimed.awaited _ ((mem_timers_iff rfl).mpr harmed))

theorem Timed.inFlight_of_armed (htimed : h.Timed) {action : ActionKey}
    (harmed : h.deadlines.isArmed (.resolveAction action) = true) :
  action ∈ h.inFlight
  := resolveAction_mem_waits_iff.mp (htimed.awaited _ ((mem_timers_iff rfl).mpr harmed))

/-- The deadline of at most one refresh is armed. -/
theorem Timed.countP_isRefresh_le (htimed : h.Timed) :
  h.deadlines.armed.countP (·.key.isRefresh) ≤ 1
  := by
  have hcount : h.deadlines.armed.countP (·.key.isRefresh)
      = (h.timers.filter (·.isRefresh)).length := by
    rw [timers, List.filter_map, List.length_map, Deadlines.bounded, List.filter_filter,
      List.countP_eq_length_filter]
    congr 1
    apply List.filter_congr
    intro e _
    rw [Function.comp_apply]
    cases e.key <;> rfl
  have hsubset : h.timers.filter (·.isRefresh)
      ⊆ (h.tracker.current.map (DeadlineKey.refresh ·.id)).toList := by
    intro key hkey
    obtain ⟨htimer, hrefresh⟩ := List.mem_filter.mp hkey
    cases key with
    | refresh id =>
      have hid := refresh_mem_waits_iff.mp (htimed.awaited _ htimer)
      rw [Option.mem_toList, ← Function.comp_def DeadlineKey.refresh, ← Option.map_map, hid]
      rfl
    | resolveAction _ | resurface | persistWrite => cases hrefresh
  rw [hcount]
  exact ((htimed.nodup.filter _).length_le_of_subset hsubset).trans Option.length_toList_le

/-! ### What a deadline that passes does -/

theorem refreshOverdue_of_current (hsound : h.tracker.Sound) {r : RefreshInProgress}
    (hr : h.tracker.current = some r) (env : Surroundings) :
  let reports := if h.policy.showErrorsOnTimeout
    then r.pending.toList.foldl ReportStore.markFailed h.reports else h.reports
  let ended : Hub := { h with tracker := { h.tracker with current := none }, reports }
  let names := String.intercalate ", " (r.pending.toList.map toString)
  h.refreshOverdue env r.id = {
    hub := (ended.publish env).hub
    effects := ended.statsOf env.now r.group :: (ended.publish env).effects
      ++ [.notice r.group.parent ⟨.refreshTimeout, s!"no answer from {names}"⟩] }
  := by
  intro reports ended names
  have missing : ¬ r.pending.toList.isEmpty = true := by
    simpa using (hsound r hr).pending_ne_empty
  rw [refreshOverdue]
  simp only [hr, RefreshTracker.timeOutAll_of_current (hsound r hr) hr, if_neg missing]
  rfl

theorem actionOverdue_of_mem {action : ActionKey} (haction : action ∈ h.inFlight)
    (env : Surroundings) :
  let ended := { h with inFlight := h.inFlight.erase action }
  h.actionOverdue env action = {
    hub := (ended.publish env).hub
    effects := (ended.publish env).effects ++ [noticeFor env action.issue.userId
      ⟨.actionTimeout, s!"action {action} did not complete"⟩] }
  := by
  intro ended
  rw [actionOverdue]
  simp only [endAction?_eq_some_iff.mpr ⟨haction, rfl⟩]
  rfl

/-- When the deadline of a refresh passes, the refresh in flight ends, the sources that have not
answered are marked as failed where the policy says so, and the listeners of its group hear
which they are. -/
theorem passed_refresh (hsound : h.tracker.Sound) (htimed : h.Timed) {id : BroadcastId}
    (harmed : h.deadlines.isArmed (.refresh id) = true) (env : Surroundings) :
  let c := h.passed env (.refresh id)
  ∃ r, h.tracker.current = some r ∧ r.id = id
    ∧ c.hub.tracker.current = none
    ∧ c.hub.deadlines.isArmed (.refresh id) = false
    ∧ c.hub.reports.reports = h.reports.reports
    ∧ (∀ key, c.hub.reports.isFailed key = true
      ↔ h.reports.isFailed key = true ∨ h.policy.showErrorsOnTimeout = true ∧ key ∈ r.pending)
    ∧ c.notices = [(r.group.parent, ⟨.refreshTimeout,
        "no answer from " ++ String.intercalate ", " (r.pending.toList.map toString)⟩)]
  := by
  intro c
  obtain ⟨r, hr, rfl⟩ := Option.map_eq_some_iff.mp (htimed.current_of_armed harmed)
  obtain ⟨e, -, hkey, hpassed⟩ := exists_passed_eq harmed env
  have hc : c = _ := hpassed.trans
    (refreshOverdue_of_current (h := { h with deadlines := h.deadlines.take e }) hsound hr env)
  refine ⟨r, hr, rfl, ?_, ?_, ?_, ?_, ?_⟩
  · rw [hc]
    rfl
  · rw [hc]
    simp [publish, Deadlines.take, Deadlines.isArmed, hkey]
  · rw [hc]
    dsimp only [publish]
    split
    · apply reports_foldl_markFailed
    · rfl
  · intro key
    rw [hc]
    dsimp only [publish]
    split
    next hshow => simp [ReportStore.isFailed_foldl_markFailed, hshow]
    next hshow => simp [hshow]
  · rw [hc, Change.notices, List.filterMap_append, List.filterMap_cons_none rfl, notices_publish]
    rfl

/-- When the deadline of an action passes, the action is in flight no more, and the listeners of
its user's group hear of it. -/
theorem passed_resolveAction (htimed : h.Timed) {action : ActionKey}
    (harmed : h.deadlines.isArmed (.resolveAction action) = true) (env : Surroundings) :
  let c := h.passed env (.resolveAction action)
  let user := action.issue.userId
  action ∈ h.inFlight
    ∧ (∀ other, other ∈ c.hub.inFlight ↔ other ∈ h.inFlight ∧ other ≠ action)
    ∧ c.hub.deadlines.isArmed (.resolveAction action) = false
    ∧ c.notices = [(((env.users.resolve? user).map (·.parent)).getD user,
        ⟨.actionTimeout, s!"action {action} did not complete"⟩)]
  := by
  intro c user
  have haction := htimed.inFlight_of_armed harmed
  obtain ⟨e, -, hkey, hpassed⟩ := exists_passed_eq harmed env
  have hc : c = _ := hpassed.trans
    (actionOverdue_of_mem (h := { h with deadlines := h.deadlines.take e }) haction env)
  refine ⟨haction, ?_, ?_, ?_⟩
  · intro other
    rw [hc]
    simp [publish, and_comm, eq_comm (a := other)]
  · rw [hc]
    simp [publish, Deadlines.take, Deadlines.isArmed, hkey]
  · rw [hc, Change.notices, List.filterMap_append, notices_publish]
    rfl

/-! ### Runs -/

/-- After every run the armed deadlines of refreshes and actions are those of the refresh and of
actions in flight, that of one refresh at most.  When one passes, it ends what it is for, and
one error goes to the listeners: for a refresh, to the group that it was started for, naming the
sources that have not answered in the order of their keys; for an action, to the group of its
user. -/
theorem armed_deadlines_act_after (catalog : Catalog) (policy : Policy) (archive : Archive)
    (loaded : Except ArchiveError (List SavedRecord)) (time : Nat)
    (moves : List (Surroundings × Move)) :
  let h := (start catalog policy archive loaded time).after moves
  h.deadlines.armed.countP (·.key.isRefresh) ≤ 1
    ∧ (∀ id, h.deadlines.isArmed (.refresh id) = true → ∀ env,
      let c := h.passed env (.refresh id)
      ∃ r, h.tracker.current = some r ∧ r.id = id
        ∧ (start catalog policy archive loaded time).StartedIn moves r
        ∧ c.hub.tracker.current = none
        ∧ c.hub.deadlines.isArmed (.refresh id) = false
        ∧ c.hub.reports.reports = h.reports.reports
        ∧ (∀ key, c.hub.reports.isFailed key = true ↔ h.reports.isFailed key = true
          ∨ h.policy.showErrorsOnTimeout = true ∧ r.state? key = some .pending)
        ∧ ∃ keys : List SourceKey, keys.Pairwise (compare · · = .lt)
          ∧ (∀ key, key ∈ keys ↔ r.state? key = some .pending)
          ∧ c.notices = [(r.group.parent, ⟨.refreshTimeout,
              "no answer from " ++ String.intercalate ", " (keys.map toString)⟩)])
    ∧ ∀ action, h.deadlines.isArmed (.resolveAction action) = true → ∀ env,
      let c := h.passed env (.resolveAction action)
      let user := action.issue.userId
      action ∈ h.inFlight
        ∧ (∀ other, other ∈ c.hub.inFlight ↔ other ∈ h.inFlight ∧ other ≠ action)
        ∧ c.hub.deadlines.isArmed (.resolveAction action) = false
        ∧ c.notices = [(((env.users.resolve? user).map (·.parent)).getD user,
            ⟨.actionTimeout, s!"action {action} did not complete"⟩)]
  := by
  intro h
  have hidle : (start catalog policy archive loaded time).tracker.current = none :=
    congrArg RefreshTracker.current (Like.schedulePersist _).tracker_eq
  have hsound : (start catalog policy archive loaded time).tracker.Sound := .of_idle hidle
  obtain ⟨hsound, htimed⟩ :=
    timed_after hsound (timed_start catalog policy archive loaded time) moves
  refine ⟨htimed.countP_isRefresh_le, ?_, ?_⟩
  · intro id harmed env
    obtain ⟨r, hr, hid, hended, hdropped, hreports, hfailed, hnotices⟩ :=
      passed_refresh hsound htimed harmed env
    have hpending := (hsound r hr).mem_pending_iff
    refine ⟨r, hr, hid, startedIn_after hidle moves hr, hended, hdropped, hreports, ?_,
      r.pending.toList, r.pending.ordered_toList, ?_, hnotices⟩
    · intro key
      rw [hfailed, hpending]
    · intro key
      rw [ExtTreeSet.mem_toList, hpending]
  · intro action harmed env
    apply passed_resolveAction htimed harmed env

/-- The deadlines of a refresh and of an action pass while both are in flight. -/
theorem passed_deadlines_of_two_waits :
  let action : ActionKey := ⟨⟨"s", "i", 0⟩, "a"⟩
  let moves := [(Sample.device, Sample.submission ["a"]),
    (Sample.device, .execute action.issue "a"), (Sample.device, .refresh .other 0)]
  let h := (start Sample.catalog {} {} (.ok []) 0).after moves
  ∃ id, h.deadlines.isArmed (.refresh id) = true
    ∧ (∃ parent message, (h.passed Sample.device (.refresh id)).notices
      = [(parent, ⟨.refreshTimeout, message⟩)])
    ∧ h.deadlines.isArmed (.resolveAction action) = true
    ∧ (h.passed Sample.device (.resolveAction action)).notices
      = [(0, ⟨.actionTimeout, "action s/i/u0#a did not complete"⟩)]
  := by
  intro action moves h
  have hany : h.deadlines.armed.any (·.key.isRefresh) = true := by decide
  obtain ⟨e, he, hrefresh⟩ := List.any_eq_true.mp hany
  have hact : h.deadlines.isArmed (.resolveAction action) = true := by decide
  cases hkey : e.key with
  | refresh id =>
    have harmed : h.deadlines.isArmed (.refresh id) = true :=
      Deadlines.isArmed_iff.mpr ⟨e, he, hkey⟩
    obtain ⟨-, hrefreshes, hactions⟩ :=
      armed_deadlines_act_after Sample.catalog {} {} (.ok []) 0 moves
    obtain ⟨r, -, -, -, -, -, -, -, keys, -, -, hnotices⟩ := hrefreshes id harmed Sample.device
    obtain ⟨-, -, -, hnotice⟩ := hactions action hact Sample.device
    exact ⟨id, harmed, ⟨_, _, hnotices⟩, hact, hnotice.trans (by decide)⟩
  | resolveAction _ | resurface | persistWrite => simp [hkey, DeadlineKey.isRefresh] at hrefresh

end Hub

end SafetyHub
