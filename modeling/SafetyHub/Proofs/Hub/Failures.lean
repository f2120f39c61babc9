import SafetyHub.Proofs.Hub.Outcomes

/-!
# Actions that fail

A source says that an action in flight has failed, in place of a report or along with one.  The
action ends, and the listeners of its user's group hear of it once, unless a report comes along
that does not offer the action any more: then the action has ended with the report by the time
its failure is looked at, and nobody hears of the failure.
-/

namespace SafetyHub.Hub

variable {h h' : Hub} {env : Surroundings}

theorem Like.inFlight_eq (hlike : h.Like h') : h'.inFlight = h.inFlight := by
  obtain ⟨_, _, -, -, rfl⟩ := hlike
  rfl

/-! ### The event -/

/-- A hub once an action has ended. -/
def finished (h : Hub) (action : ActionKey) : Hub :=
  { h with inFlight := h.inFlight.erase action }.disarm (.resolveAction action)

theorem mem_inFlight_finished {action other : ActionKey} :
  other ∈ (h.finished action).inFlight ↔ other ∈ h.inFlight ∧ other ≠ action
  := by
  simp [finished, disarm, and_comm, eq_comm (a := other)]

/-- The failure of an action in flight ends the action, and listeners are to hear of it. -/
theorem applyEvent_failed_of_mem {key : SourceKey} {issueId actionId : String}
    (haction : ⟨key.issue issueId, actionId⟩ ∈ h.inFlight) (env : Surroundings) (failed : Bool) :
  let action : ActionKey := ⟨key.issue issueId, actionId⟩
  h.applyEvent env key (.resolvingActionFailed issueId actionId) failed
    = ({ hub := h.finished action },
        [noticeFor env key.userId ⟨.actionFailed, s!"action {action} failed"⟩])
  := by
  have hfin := finishAction?_eq_some_iff.mpr ⟨haction, rfl⟩
  simp only [applyEvent, hfin]
  rfl

/-- The failure of an action that is not in flight changes nothing. -/
theorem applyEvent_failed_of_not_mem {key : SourceKey} {issueId actionId : String}
    (haction : ⟨key.issue issueId, actionId⟩ ∉ h.inFlight) (env : Surroundings)
    (failed : Bool) :
  h.applyEvent env key (.resolvingActionFailed issueId actionId) failed = ({ hub := h }, [])
  := by
  simp only [applyEvent, finishAction?_eq_none_iff.mpr haction]

/-! ### The call -/

theorem notices_accept (h : Hub) (env : Surroundings) (key : SourceKey) (report : Option Report)
    (event : Event) :
  let (change, notices) := (h.store env.now key report).applyEvent env key event false
  (h.accept env key report event).notices = (change.effects ++ notices).filterMap (·.notice?)
  := by
  simp only [accept, Change.notices, List.filterMap_append, settle, notices_publish,
    List.append_nil]

theorem notices_acceptFailure (h : Hub) (env : Surroundings) (key : SourceKey) (event : Event) :
  let (change, notices) :=
    { h with reports := h.reports.markFailed key }.applyEvent env key event true
  (h.acceptFailure env key event).notices = (change.effects ++ notices).filterMap (·.notice?)
  := by
  simp only [acceptFailure, Change.notices, List.filterMap_append, notices_publish,
    List.append_nil]

/-- Nobody hears of the failure of an action that the report along with it does not offer. -/
theorem notices_accept_of_not_offered (h : Hub) (env : Surroundings) (key : SourceKey)
    {report : Option Report} {issueId actionId : String}
    (hgone : ¬ InFlight.isOffered key report ⟨key.issue issueId, actionId⟩ = true) :
  (h.accept env key report (.resolvingActionFailed issueId actionId)).notices = []
  := by
  have hended : ⟨key.issue issueId, actionId⟩ ∉ (h.store env.now key report).inFlight :=
    fun hin => hgone (mem_inFlight_store.mp hin).2
  have hnotices := notices_accept h env key report (.resolvingActionFailed issueId actionId)
  rwa [applyEvent_failed_of_not_mem hended] at hnotices

/-- The error by which listeners hear that an action has failed, with the parent of their
group. -/
def failureOf (env : Surroundings) (action : ActionKey) : UserId × Notice :=
  let user := action.issue.userId
  (((env.users.resolve? user).map (·.parent)).getD user,
    ⟨.actionFailed, s!"action {action} failed"⟩)

/-- When a source says that an action in flight has failed, the action ends, and no other one
does but those that a report along with the word does not offer any more.  The listeners of the
group of its user hear of the failure once, where no report comes along or where it still offers
the action; otherwise they do not hear of it. -/
theorem failed_action_ends (h : Hub) (env : Surroundings) (key : SourceKey)
    (issueId actionId : String) (haction : ⟨key.issue issueId, actionId⟩ ∈ h.inFlight)
    (package : String) :
  let action : ActionKey := ⟨key.issue issueId, actionId⟩
  let event : Event := .resolvingActionFailed issueId actionId
  (∀ c, h.reportFailure env package key.sourceId key.userId event = .ok c →
    (∀ other, other ∈ c.hub.inFlight ↔ other ∈ h.inFlight ∧ other ≠ action)
      ∧ c.notices = [failureOf env action])
    ∧ ∀ report c, h.submit env package key.sourceId key.userId report event = .ok c →
      (∀ other, other ∈ c.hub.inFlight
        ↔ (other ∈ h.inFlight ∧ InFlight.isOffered key report other = true) ∧ other ≠ action)
      ∧ c.notices = if report.any (·.offers issueId actionId) then [failureOf env action] else []
  := by
  intro action event
  constructor
  · intro c hok
    obtain ⟨-, -, rfl⟩ := reportFailure_eq_ok hok
    let marked : Hub := { h with reports := h.reports.markFailed key }
    have happly := applyEvent_failed_of_mem (h := marked) haction env true
    have hnotices := notices_acceptFailure h env key event
    rw [happly] at hnotices
    have hlike := like_acceptFailure h env key event
    rw [happly] at hlike
    refine ⟨?_, hnotices⟩
    intro other
    rw [hlike.inFlight_eq, mem_inFlight_finished]
  · intro report c hok
    obtain ⟨-, -, rfl⟩ := submit_eq_ok hok
    have hoffered : InFlight.isOffered key report action
        = report.any (·.offers issueId actionId) := by
      have hbelongs : action.issue.belongsTo key = true := IssueKey.belongsTo_iff.mpr rfl
      rw [InFlight.isOffered, hbelongs]
      rfl
    have hlike := like_accept h env key report event
    rw [← hoffered]
    -- whether the action is still in flight after the report, when its failure is looked at
    by_cases hstays : InFlight.isOffered key report action = true
    · have hstored : action ∈ (h.store env.now key report).inFlight :=
        mem_inFlight_store.mpr ⟨haction, hstays⟩
      have happly := applyEvent_failed_of_mem hstored env false
      have hnotices := notices_accept h env key report event
      rw [happly] at hlike hnotices
      rw [if_pos hstays]
      refine ⟨?_, hnotices⟩
      intro other
      rw [hlike.inFlight_eq, mem_inFlight_finished, mem_inFlight_store]
    · have hstored : action ∉ (h.store env.now key report).inFlight :=
        fun hin => hstays (mem_inFlight_store.mp hin).2
      have happly := applyEvent_failed_of_not_mem hstored env false
      rw [happly] at hlike
      rw [if_neg hstays]
      refine ⟨?_, notices_accept_of_not_offered h env key hstays⟩
      intro other
      rw [hlike.inFlight_eq, mem_inFlight_store]
      constructor
      · rintro ⟨hin, hother⟩
        refine ⟨⟨hin, hother⟩, ?_⟩
        rintro rfl
        exact hstays hother
      · exact And.left

/-- An action in flight fails, and no report comes along. -/
theorem failure_of_one_action :
  let action : ActionKey := ⟨⟨"s", "i", 0⟩, "a"⟩
  let h := (start Sample.catalog {} {} (.ok []) 0).after
    [(Sample.device, Sample.submission ["a"]), (Sample.device, .execute action.issue "a")]
  action ∈ h.inFlight
    ∧ ∃ c, h.reportFailure Sample.device "p" "s" 0 (.resolvingActionFailed "i" "a") = .ok c
      ∧ action ∉ c.hub.inFlight
      ∧ c.notices = [(0, ⟨.actionFailed, "action s/i/u0#a failed"⟩)]
  := by
  intro action h
  have haction : action ∈ h.inFlight := by decide
  obtain ⟨hfails, -⟩ := failed_action_ends h Sample.device ⟨"s", 0⟩ "i" "a" haction "p"
  cases hok : h.reportFailure Sample.device "p" "s" 0 (.resolvingActionFailed "i" "a") with
  | ok c =>
    obtain ⟨hothers, hnotices⟩ := hfails c hok
    refine ⟨haction, c, rfl, ?_, hnotices.trans (by decide)⟩
    rw [hothers]
    exact fun hstays => hstays.2 rfl
  | error e =>
    have haccepted : (h.reportFailure Sample.device "p" "s" 0
        (.resolvingActionFailed "i" "a")).isOk = true := by
      decide +kernel
    rw [hok] at haccepted
    cases haccepted

/-- The failure of an action is not heard of when its issue is withdrawn along with it. -/
theorem not_all_failures_are_heard_of :
  ¬ ∀ (catalog : Catalog) (policy : Policy) (archive : Archive)
    (loaded : Except ArchiveError (List SavedRecord)) (time : Nat)
    (moves : List (Surroundings × Move)) (env : Surroundings) (key : SourceKey)
    (issueId actionId package : String) (report : Option Report) (c : Change),
    let h := (start catalog policy archive loaded time).after moves
    let action : ActionKey := ⟨key.issue issueId, actionId⟩
    action ∈ h.inFlight →
    h.submit env package key.sourceId key.userId report (.resolvingActionFailed issueId actionId)
      = .ok c →
    action ∉ c.hub.inFlight ∧ c.notices = [failureOf env action]
  := by
  intro hall
  let moves : List (Surroundings × Move) := [(Sample.device, Sample.submission ["a"]),
    (Sample.device, .execute ⟨"s", "i", 0⟩ "a")]
  let h := (start Sample.catalog {} {} (.ok []) 0).after moves
  have haction : ⟨⟨"s", "i", 0⟩, "a"⟩ ∈ h.inFlight := by decide
  cases hok : h.submit Sample.device "p" "s" 0 none (.resolvingActionFailed "i" "a") with
  | ok c =>
    obtain ⟨-, hheard⟩ := hall Sample.catalog {} {} (.ok []) 0 moves Sample.device ⟨"s", 0⟩
      "i" "a" "p" none c haction hok
    obtain ⟨-, -, rfl⟩ := submit_eq_ok hok
    -- the action has ended with the report when its failure is looked at
    have hgone : ¬ InFlight.isOffered ⟨"s", 0⟩ none ⟨⟨"s", "i", 0⟩, "a"⟩ = true := by decide
    have hunheard := notices_accept_of_not_offered h Sample.device ⟨"s", 0⟩ hgone
    exact absurd (hheard.symm.trans hunheard) (List.cons_ne_nil _ _)
  | error e =>
    have haccepted : (h.submit Sample.device "p" "s" 0 none
        (.resolvingActionFailed "i" "a")).isOk = true := by
      decide +kernel
    rw [hok] at haccepted
    cases haccepted

end SafetyHub.Hub
