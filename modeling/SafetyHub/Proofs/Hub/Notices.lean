import SafetyHub.Proofs.Hub.Failures
import SafetyHub.Proofs.Hub.Messages

/-!
# Actions that are sent and errors that are heard

Of all that a move brings about, only a call that executes an action sends it to a package; the
other moves send none, and listeners hear of at most one error with each.  `Hub.Telling` lists
the errors that they may hear of: one is about a refresh that is overdue, the others are about an
action that the move ends.
-/

namespace SafetyHub

/-- The package that an effect sends an action to. -/
def Effect.sent? (action : ActionKey) : Effect → Option String
  | .signal (.action package key) => if key = action then some package else none
  | _ => none

/-- The packages that a change sends an action to. -/
def Change.sends (c : Change) (action : ActionKey) : List String :=
  c.effects.filterMap (·.sent? action)

/-- Whether an effect sends an action, or lets listeners hear of an error. -/
def Effect.isNews : Effect → Bool
  | .signal (.action _ _) | .notice _ _ => true
  | _ => false

theorem Effect.filterMap_sent? {effects : List Effect}
    (hquiet : ∀ effect ∈ effects, effect.isNews = false) (action : ActionKey) :
  effects.filterMap (·.sent? action) = []
  := by
  apply List.filterMap_eq_nil_iff.mpr
  intro effect heffect
  have hquiet := hquiet effect heffect
  unfold sent?
  split
  · cases hquiet
  · rfl

theorem Effect.filterMap_notice? {effects : List Effect}
    (hquiet : ∀ effect ∈ effects, effect.isNews = false) :
  effects.filterMap (·.notice?) = []
  := by
  apply List.filterMap_eq_nil_iff.mpr
  intro effect heffect
  have hquiet := hquiet effect heffect
  cases effect with
  | notice _ _ => cases hquiet
  | signal _ | offer _ _ _ _ | offerTo _ _ _ _ => rfl

/-- A change that sends no action, and lets listeners hear of some errors. -/
def Change.Tells (c : Change) (errors : List (UserId × Notice)) : Prop :=
  ∃ before, (∀ effect ∈ before, effect.isNews = false)
    ∧ c.effects = before ++ errors.map fun n => .notice n.1 n.2

namespace Change.Tells

variable {c : Change} {errors : List (UserId × Notice)}

theorem of_quiet (hquiet : ∀ effect ∈ c.effects, effect.isNews = false) : c.Tells [] :=
  ⟨c.effects, hquiet, (List.append_nil _).symm⟩

theorem sends (htells : c.Tells errors) (action : ActionKey) : c.sends action = [] := by
  obtain ⟨before, hquiet, heffects⟩ := htells
  have hnone : (errors.map fun n => Effect.notice n.1 n.2).filterMap (·.sent? action) = [] := by
    rw [List.filterMap_map]
    exact List.filterMap_none errors
  rw [Change.sends, heffects, List.filterMap_append, Effect.filterMap_sent? hquiet, hnone,
    List.append_nil]

theorem notices (htells : c.Tells errors) : c.notices = errors := by
  obtain ⟨before, hquiet, heffects⟩ := htells
  rw [Change.notices, heffects, List.filterMap_append, Effect.filterMap_notice? hquiet,
    List.nil_append, List.filterMap_map]
  exact List.filterMap_some

end Change.Tells

/-- The action whose failure an event of a source key tells of. -/
def Event.failed? (event : Event) (key : SourceKey) : Option ActionKey :=
  match event with
  | .resolvingActionFailed issueId actionId => some ⟨key.issue issueId, actionId⟩
  | _ => none

/-- The action that the errors of a move are about. -/
def Move.subject? : Move → Option ActionKey
  | .submit _ sourceId user _ event | .reportFailure _ sourceId user event =>
    event.failed? ⟨sourceId, user⟩
  | .expire (.resolveAction action) => some action
  | _ => none

/-- Whether a move neither tells of an action nor executes one, and is not the passing of a
deadline. -/
def Move.isQuiet : Move → Bool
  | .submit _ _ _ _ _ | .reportFailure _ _ _ _ | .execute _ _ | .expire _ => false
  | _ => true

namespace Hub

variable {h : Hub} {env : Surroundings} {action : ActionKey} {m : Move}

/-- Whether a move ends an action: the action is in flight, and its source says how it ended,
its time is over, a report does not offer it, or everything, its user or its source is dropped. -/
def endsAction (h : Hub) (env : Surroundings) (m : Move) (action : ActionKey) : Bool :=
  h.inFlight.contains action && match m with
    | .submit package sourceId user report event =>
      (h.submit env package sourceId user report event).isOk
        && (!InFlight.isOffered ⟨sourceId, user⟩ report action
          || event.ends ⟨sourceId, user⟩ action)
    | .reportFailure package sourceId user event =>
      (h.reportFailure env package sourceId user event).isOk
        && event.ends ⟨sourceId, user⟩ action
    | .expire key => key == .resolveAction action && h.deadlines.isArmed key
    | .clear => true
    | .removeUser user => action.issue.userId == user
    | .reload catalog _ => !catalog.isExternal action.issue.sourceId
    | _ => false

theorem mem_of_endsAction (hends : h.endsAction env m action = true) : action ∈ h.inFlight := by
  unfold endsAction at hends
  apply Std.ExtTreeSet.contains_iff_mem.mp (Bool.and_eq_true_iff.mp hends).1

/-- The error by which listeners hear that an action is overdue, with the parent of their
group. -/
def overdueOf (env : Surroundings) (action : ActionKey) : UserId × Notice :=
  let user := action.issue.userId
  (((env.users.resolve? user).map (·.parent)).getD user,
    ⟨.actionTimeout, s!"action {action} did not complete"⟩)

/-- The errors that listeners may hear of with a move: one about a refresh that is overdue, or one
about an action that the move ends. -/
inductive Telling (h : Hub) (env : Surroundings) (m : Move) : List (UserId × Notice) → Prop
  | nothing : Telling h env m []
  | refresh (hm : m.subject? = none) (parent : UserId) (message : String) :
      Telling h env m [(parent, ⟨.refreshTimeout, message⟩)]
  | failed {action : ActionKey} (hm : m.subject? = some action)
      (hends : h.endsAction env m action = true) :
      Telling h env m [failureOf env action]
  | overdue {action : ActionKey} (hm : m = .expire (.resolveAction action))
      (hends : h.endsAction env m action = true) :
      Telling h env m [overdueOf env action]

/-! ### Effects -/

theorem quiet_publish (h : Hub) (env : Surroundings) :
  ∀ effect ∈ (h.publish env).effects, effect.isNews = false
  := by
  intro effect heffect
  rw [publish, ← offers_eq_filter] at heffect
  have hoffer := (List.mem_filter.mp heffect).2
  cases effect with
  | offer _ _ _ _ | offerTo _ _ _ _ => rfl
  | signal _ | notice _ _ => cases hoffer

theorem quiet_write (h : Hub) : ∀ effect ∈ h.write.2.effects, effect.isNews = false := by
  unfold write
  split
  · dsimp only
    split <;> simp [Effect.isNews]
  · simp

/-- An event puts statistics on record, and listeners hear of the failure of an action in
flight. -/
theorem effects_applyEvent (h : Hub) (env : Surroundings) (key : SourceKey) (event : Event)
    (failed : Bool) :
  (∀ effect ∈ (h.applyEvent env key event failed).1.effects, effect.isNews = false)
    ∧ (h.applyEvent env key event failed).2
      = (((event.failed? key).filter (h.inFlight.contains ·)).toList.map (failureOf env)).map
        fun n => .notice n.1 n.2
  := by
  cases event with
  | refreshRequested id =>
    have stats (hub : Hub) (groups : List ProfileGroup) :
        ∀ effect ∈ groups.map (hub.statsOf env.now), effect.isNews = false :=
      List.forall_mem_map.mpr fun _ _ => rfl
    simp only [applyEvent, answerRefresh]
    generalize (if failed = true then h.tracker.fail key id else h.tracker.complete key id) = answer
    constructor
    · split
      · apply stats
      · simp
    · rfl
  | resolvingActionFailed issueId actionId =>
    by_cases hin : ⟨key.issue issueId, actionId⟩ ∈ h.inFlight
    · rw [applyEvent_failed_of_mem hin, Event.failed?, Option.filter_some_pos]
      · exact ⟨by simp, rfl⟩
      · simpa using hin
    · rw [applyEvent_failed_of_not_mem hin, Event.failed?, Option.filter_some_neg]
      · exact ⟨by simp, rfl⟩
      · rw [← Bool.not_eq_true, Std.ExtTreeSet.contains_iff_mem]
        exact hin
  | resolvingActionSucceeded _ _ | sourceStateChanged | deviceRebooted | deviceLocaleChanged =>
    exact ⟨by simp [applyEvent], rfl⟩

/-- What listeners hear of the failure of an action in flight, where the event ends actions. -/
theorem Telling.of_event {event : Event} {key : SourceKey} {inFlight : InFlight}
    (hm : m.subject? = event.failed? key)
    (hends : ∀ action ∈ inFlight, event.ends key action = true → h.endsAction env m action = true) :
  h.Telling env m (((event.failed? key).filter (inFlight.contains ·)).toList.map (failureOf env))
  := by
  cases hfailed : (event.failed? key).filter (inFlight.contains ·) with
  | none => exact .nothing
  | some action =>
    obtain ⟨hevent, hin⟩ := Option.filter_eq_some_iff.mp hfailed
    apply Telling.failed (hm.trans hevent)
    apply hends action (by simpa using hin)
    cases event with
    | resolvingActionFailed issueId actionId =>
      cases hevent
      simp [Event.ends]
    | _ => cases hevent

theorem tells_accept (h : Hub) (env : Surroundings) (key : SourceKey) (report : Option Report)
    (event : Event) :
  (h.accept env key report event).Tells (((event.failed? key).filter
    ((h.store env.now key report).inFlight.contains ·)).toList.map (failureOf env))
  := by
  obtain ⟨hquiet, htold⟩ := effects_applyEvent (h.store env.now key report) env key event false
  rw [Change.Tells, ← htold]
  exact ⟨_, List.forall_mem_append.mpr ⟨hquiet, quiet_publish _ env⟩, rfl⟩

theorem tells_acceptFailure (h : Hub) (env : Surroundings) (key : SourceKey) (event : Event) :
  (h.acceptFailure env key event).Tells
    (((event.failed? key).filter (h.inFlight.contains ·)).toList.map (failureOf env))
  := by
  obtain ⟨hquiet, htold⟩ :=
    effects_applyEvent { h with reports := h.reports.markFailed key } env key event true
  rw [Change.Tells, ← htold]
  exact ⟨_, List.forall_mem_append.mpr ⟨hquiet, quiet_publish _ env⟩, rfl⟩

theorem tells_refreshOverdue (h : Hub) (env : Surroundings) (id : BroadcastId) :
  (h.refreshOverdue env id).Tells []
    ∨ ∃ parent message,
      (h.refreshOverdue env id).Tells [(parent, ⟨.refreshTimeout, message⟩)]
  := by
  have stays : Change.Tells { hub := h } [] := .of_quiet (by simp)
  unfold refreshOverdue
  split
  · left
    apply stays
  next r _ =>
    dsimp only
    split
    · left
      apply stays
    · right
      refine ⟨r.group.parent, _, _, ?_, rfl⟩
      exact List.forall_mem_cons.mpr ⟨rfl, quiet_publish _ env⟩

theorem tells_actionOverdue_of_mem {action : ActionKey} (hin : action ∈ h.inFlight)
    (env : Surroundings) :
  (h.actionOverdue env action).Tells [overdueOf env action]
  := by
  rw [actionOverdue_of_mem hin]
  exact ⟨_, quiet_publish _ env, rfl⟩

theorem quiet_called {x : Except HubError Change}
    (hx : ∀ c, x = .ok c → ∀ effect ∈ c.effects, effect.isNews = false) :
  ∀ effect ∈ (h.called x).effects, effect.isNews = false
  := by
  cases x with
  | error e => simp [called]
  | ok c => apply hx c rfl

/-- Of a move that neither tells what became of an action nor executes one, and that is not the
passing of a deadline, listeners hear no error. -/
theorem quiet_outcome (hm : m.isQuiet = true) (h : Hub) (env : Surroundings) :
  ∀ effect ∈ (h.outcome env m).effects, effect.isNews = false
  := by
  cases m with
  | refresh reason user =>
    apply quiet_called
    intro c hok
    obtain ⟨id, hok⟩ := map_snd_eq_ok_iff.mp hok
    simp only [refresh, bind_eq_ok_iff] at hok
    obtain ⟨group, -, _, -, hok⟩ := hok
    cases hok
    exact List.forall_mem_append.mpr
      ⟨List.forall_mem_map.mpr fun _ _ => rfl, quiet_publish _ env⟩
  | listen listener package user =>
    apply quiet_called
    intro c hok
    obtain ⟨isNew, hok⟩ := map_snd_eq_ok_iff.mp hok
    simp only [listen, bind_eq_ok_iff] at hok
    obtain ⟨group, -, _, -, hok⟩ := hok
    split at hok <;> cases hok <;> simp [Effect.isNews]
  | dismiss issue =>
    apply quiet_called
    intro c hok
    obtain ⟨-, -, rfl⟩ := dismiss_eq_ok_iff.mp hok
    apply quiet_publish
  | flush => apply quiet_write
  | clear | removeUser _ | reload _ _ => apply quiet_publish
  | unlisten _ | offer _ _ _ | wait _ | setFault _ => simp [outcome]
  | submit _ _ _ _ _ | reportFailure _ _ _ _ | execute _ _ | expire _ => cases hm

theorem exists_tells_passed (h : Hub) (env : Surroundings) (key : DeadlineKey) :
  ∃ errors, h.Telling env (.expire key) errors ∧ (h.passed env key).Tells errors
  := by
  have quiet (hquiet : ∀ effect ∈ (h.passed env key).effects, effect.isNews = false) :
      ∃ errors, h.Telling env (.expire key) errors ∧ (h.passed env key).Tells errors :=
    ⟨[], .nothing, .of_quiet hquiet⟩
  by_cases harmed : h.deadlines.isArmed key = true
  · obtain ⟨e, -, -, hpassed⟩ := exists_passed_eq harmed env
    rw [hpassed] at quiet ⊢
    cases key with
    | refresh id =>
      obtain htells | ⟨parent, message, htells⟩ :=
        tells_refreshOverdue { h with deadlines := h.deadlines.take e } env id
      · exact ⟨_, .nothing, htells⟩
      · exact ⟨_, .refresh rfl parent message, htells⟩
    | resolveAction action =>
      by_cases hin : action ∈ h.inFlight
      · have hends : h.endsAction env (.expire (.resolveAction action)) action = true := by
          simp [endsAction, hin, harmed]
        exact ⟨_, .overdue rfl hends,
          tells_actionOverdue_of_mem (h := { h with deadlines := h.deadlines.take e }) hin env⟩
      · have hend : { h with deadlines := h.deadlines.take e }.endAction? action = none :=
          endAction?_eq_none_iff.mpr hin
        apply quiet
        simp [turn, actionOverdue, hend]
    | resurface =>
      apply quiet
      apply quiet_publish
    | persistWrite =>
      apply quiet
      apply quiet_write
  · apply quiet
    rw [passed_of_not_isArmed harmed]
    simp

/-- A move that executes no action sends none, and listeners hear of at most one error. -/
theorem exists_tells (hm : ∀ issue actionId, m ≠ .execute issue actionId) (h : Hub)
    (env : Surroundings) :
  ∃ errors, h.Telling env m errors ∧ (h.outcome env m).Tells errors
  := by
  have refused : ∃ errors, h.Telling env m errors ∧ Change.Tells { hub := h } errors :=
    ⟨[], .nothing, .of_quiet (by simp)⟩
  cases m with
  | submit package sourceId user report event =>
    rw [outcome]
    cases hok : h.submit env package sourceId user report event with
    | error e => exact refused
    | ok c =>
      obtain ⟨-, -, rfl⟩ := submit_eq_ok hok
      refine ⟨_, .of_event rfl ?_, tells_accept h env ⟨sourceId, user⟩ report event⟩
      intro action hin hends
      obtain ⟨hin, -⟩ := mem_inFlight_store.mp hin
      simp [endsAction, hok, hin, hends, Except.isOk, Except.toBool]
  | reportFailure package sourceId user event =>
    rw [outcome]
    cases hok : h.reportFailure env package sourceId user event with
    | error e => exact refused
    | ok c =>
      obtain ⟨-, -, rfl⟩ := reportFailure_eq_ok hok
      refine ⟨_, .of_event rfl ?_, tells_acceptFailure h env ⟨sourceId, user⟩ event⟩
      intro action hin hends
      simp [endsAction, hok, hin, hends, Except.isOk, Except.toBool]
  | execute issue actionId => exact absurd rfl (hm issue actionId)
  | expire key => apply exists_tells_passed
  | _ => exact ⟨[], .nothing, .of_quiet (quiet_outcome rfl h env)⟩

/-- Only a call that executes an action sends one. -/
theorem sends_outcome_of_ne (hm : ∀ issue actionId, m ≠ .execute issue actionId) (h : Hub)
    (env : Surroundings) (action : ActionKey) :
  (h.outcome env m).sends action = []
  := by
  obtain ⟨errors, -, htells⟩ := exists_tells hm h env
  apply htells.sends

/-- An action that is executed is sent to the package of its source, and listeners hear of no
error. -/
theorem effects_execute {issue : IssueKey} {actionId : String} {c : Change}
    (hok : h.execute env issue actionId = .ok c) :
  ∃ package rest, h.executor issue actionId = .ok package
    ∧ c.effects = .signal (.action package ⟨issue, actionId⟩) :: rest
    ∧ ∀ effect ∈ rest, effect.isNews = false
  := by
  simp only [execute, bind_eq_ok_iff] at hok
  obtain ⟨_, -, package, hpackage, hok⟩ := hok
  cases hok
  exact ⟨package, _, hpackage, rfl, quiet_publish _ env⟩

theorem telling_notices (h : Hub) (env : Surroundings) (m : Move) :
  h.Telling env m (h.outcome env m).notices
  := by
  by_cases hm : ∃ issue actionId, m = .execute issue actionId
  · obtain ⟨issue, actionId, rfl⟩ := hm
    have hnone : (h.outcome env (.execute issue actionId)).notices = [] := by
      rw [outcome]
      cases hok : h.execute env issue actionId with
      | error e => rfl
      | ok c =>
        obtain ⟨package, rest, -, heffects, hquiet⟩ := effects_execute hok
        rw [called, Change.notices, heffects, List.filterMap_cons_none rfl,
          Effect.filterMap_notice? hquiet]
    rw [hnone]
    exact .nothing
  · obtain ⟨errors, htelling, htells⟩ :=
      exists_tells (fun issue actionId heq => hm ⟨issue, actionId, heq⟩) h env
    rwa [htells.notices]

end Hub

end SafetyHub
