import SafetyHub.Proofs.Dismissal.Records
import SafetyHub.Proofs.Hub.Expiry
import SafetyHub.Proofs.Hub.Sparing
import SafetyHub.Proofs.Report.Store

/-!
# Messages in any order

A `Message` is what a source tells the hub: that it reports, that it withdraws its report, or
that it failed to report.  `Hub.Informed` is a hub that has heard some messages: reports,
dismissals and the refresh in flight come about by one function of each message, an action stays
in flight when every message keeps it, and what is armed is given by what the hub knows then.
Messages of different source keys at one reading of the clock commute in each of these, so their
order does not matter.
-/

namespace SafetyHub

open Std

namespace Event

/-- The refresh in flight when the source of a key has given or failed to give the answer that an
event stands for. -/
def trackerAfter (event : Event) (key : SourceKey) (failed : Bool) (t : RefreshTracker) :
    RefreshTracker :=
  match event with
  | .refreshRequested id => (t.retire key id (Hub.answerState failed)).2
  | _ => t

/-- Whether an event of a source key ends an action. -/
def ends (event : Event) (key : SourceKey) (action : ActionKey) : Bool :=
  match event with
  | .resolvingActionSucceeded issueId actionId | .resolvingActionFailed issueId actionId =>
    action == ⟨key.issue issueId, actionId⟩
  | _ => false

end Event

/-- A report or its withdrawal, or none where a source failed to report. -/
inductive Content where
  | report (report : Option Report)
  | failure

/-- What a source tells the hub through a package. -/
structure Message where
  package : String
  key : SourceKey
  content : Content
  event : Event

namespace Message

/-- Whether a message brings a report or a withdrawal. -/
def isReport (m : Message) : Bool :=
  match m.content with
  | .report _ => true
  | .failure => false

/-- The stored reports once a message is heard. -/
def reportsAfter (now : Instant) (s : ReportStore) (m : Message) : ReportStore :=
  match m.content with
  | .report report => s.set m.key report now
  | .failure => s.markFailed m.key

/-- The dismissals once a message is heard. -/
def dismissalsAfter (now : Instant) (d : Dismissals) (m : Message) : Dismissals :=
  match m.content with
  | .report report => d.reconcile m.key ((report.map (·.issueIds)).getD []) now
  | .failure => d

/-- The refresh in flight once a message is heard. -/
def trackerAfter (t : RefreshTracker) (m : Message) : RefreshTracker :=
  m.event.trackerAfter m.key (!m.isReport) t

/-- Whether an action stays in flight when a message is heard. -/
def keeps (m : Message) (action : ActionKey) : Bool :=
  (match m.content with
    | .report report => InFlight.isOffered m.key report action
    | .failure => true)
  && !m.event.ends m.key action

/-- A hub takes a message from a package that may speak for the source, with a report that the
source may make. -/
structure Admitted (m : Message) (h : Hub) (users : Roster) : Prop where
  active : h.policy.isActive = true
  caller : ∃ source, h.catalog.checkCaller users m.package m.key.sourceId m.key.userId = .ok source
    ∧ ∀ report, m.content = .report report → source.checkSubmission h.policy report = .ok ()

end Message

namespace Hub

variable {h h' h'' : Hub} {env : Surroundings}

/-- Hears a message. -/
def hear (h : Hub) (env : Surroundings) (m : Message) : Except HubError Change :=
  match m.content with
  | .report report => h.submit env m.package m.key.sourceId m.key.userId report m.event
  | .failure => h.reportFailure env m.package m.key.sourceId m.key.userId m.event

/-- Hears messages one after the other, unless one is refused. -/
def hearAll (h : Hub) : List (Surroundings × Message) → Except HubError Hub
  | [] => .ok h
  | (env, m) :: rest => do
    let c ← h.hear env m
    c.hub.hearAll rest

/-- Takes a message. -/
def take (h : Hub) (env : Surroundings) (m : Message) : Change :=
  match m.content with
  | .report report => h.accept env m.key report m.event
  | .failure => h.acceptFailure env m.key m.event

theorem hear_eq_ok_iff {m : Message} {c : Change} :
  h.hear env m = .ok c ↔ m.Admitted h env.users ∧ c = h.take env m
  := by
  obtain ⟨package, key, content, event⟩ := m
  cases content with
  | report report =>
    constructor
    · intro hok
      obtain ⟨hactive, ⟨source, hcaller, hreport⟩, hc⟩ := submit_eq_ok hok
      refine ⟨⟨hactive, source, hcaller, ?_⟩, hc⟩
      rintro _ ⟨⟩
      apply hreport
    · rintro ⟨⟨hactive, source, hcaller, hreport⟩, rfl⟩
      simp only [hear, submit, bind_eq_ok_iff, ensureEnabled_eq_ok_iff]
      exact ⟨(), hactive, source, hcaller, (), hreport report rfl, rfl⟩
  | failure =>
    constructor
    · intro hok
      obtain ⟨hactive, ⟨source, hcaller⟩, hc⟩ := reportFailure_eq_ok hok
      refine ⟨⟨hactive, source, hcaller, ?_⟩, hc⟩
      rintro _ ⟨⟩
    · rintro ⟨⟨hactive, source, hcaller, -⟩, rfl⟩
      simp only [hear, reportFailure, bind_eq_ok_iff, ensureEnabled_eq_ok_iff]
      exact ⟨(), hactive, source, hcaller, rfl⟩

/-! ### Events -/

/-- An event concerns the refresh and the actions in flight, and their deadlines. -/
theorem exists_hub_applyEvent (h : Hub) (env : Surroundings) (key : SourceKey) (event : Event)
    (failed : Bool) :
  ∃ tracker inFlight deadlines, (h.applyEvent env key event failed).1.hub
    = { h with tracker, inFlight, deadlines }
  := by
  obtain heq | ⟨id, heq⟩ | ⟨action, -, hfin⟩ := hub_applyEvent_cases h env key event failed
  · exact ⟨_, _, _, heq⟩
  · rw [heq, hub_answerRefresh]
    dsimp only
    split <;> exact ⟨_, _, _, rfl⟩
  · obtain ⟨-, heq⟩ := finishAction?_eq_some_iff.mp hfin
    exact ⟨_, _, _, heq⟩

theorem hub_applyEvent_of_action {key : SourceKey} {event : Event} {issueId actionId : String}
    (hevent : event = .resolvingActionSucceeded issueId actionId
      ∨ event = .resolvingActionFailed issueId actionId) (env : Surroundings) (failed : Bool) :
  (h.applyEvent env key event failed).1.hub
    = (h.finishAction? ⟨key.issue issueId, actionId⟩).getD h
  := by
  obtain rfl | rfl := hevent
  · rfl
  · simp only [applyEvent]
    cases h.finishAction? ⟨key.issue issueId, actionId⟩ <;> rfl

theorem tracker_applyEvent (h : Hub) (env : Surroundings) (key : SourceKey) (event : Event)
    (failed : Bool) :
  (h.applyEvent env key event failed).1.hub.tracker = event.trackerAfter key failed h.tracker
  := by
  have of_action (action : ActionKey) : ((h.finishAction? action).getD h).tracker = h.tracker := by
    cases hfin : h.finishAction? action with
    | none => rfl
    | some h' =>
      obtain ⟨-, rfl⟩ := finishAction?_eq_some_iff.mp hfin
      rfl
  cases event with
  | refreshRequested id =>
    change (h.answerRefresh env.now key id failed).hub.tracker = _
    rw [hub_answerRefresh]
    dsimp only
    split <;> rfl
  | resolvingActionSucceeded issueId actionId =>
    rw [hub_applyEvent_of_action (.inl rfl)]
    apply of_action
  | resolvingActionFailed issueId actionId =>
    rw [hub_applyEvent_of_action (.inr rfl)]
    apply of_action
  | sourceStateChanged | deviceRebooted | deviceLocaleChanged => rfl

theorem mem_inFlight_applyEvent {key : SourceKey} {event : Event} {failed : Bool}
    {action : ActionKey} :
  action ∈ (h.applyEvent env key event failed).1.hub.inFlight
    ↔ action ∈ h.inFlight ∧ event.ends key action = false
  := by
  have of_action (ended : ActionKey) : action ∈ ((h.finishAction? ended).getD h).inFlight
      ↔ action ∈ h.inFlight ∧ (action == ended) = false := by
    rw [beq_eq_false_iff_ne]
    cases hfin : h.finishAction? ended with
    | none =>
      apply (and_iff_left_of_imp _).symm
      rintro hin rfl
      exact finishAction?_eq_none_iff.mp hfin hin
    | some h' =>
      obtain ⟨-, rfl⟩ := finishAction?_eq_some_iff.mp hfin
      simp [disarm, and_comm, eq_comm (a := action)]
  cases event with
  | refreshRequested id =>
    change action ∈ (h.answerRefresh env.now key id failed).hub.inFlight ↔ _
    rw [hub_answerRefresh]
    dsimp only
    split <;> apply (and_iff_left rfl).symm
  | resolvingActionSucceeded issueId actionId =>
    rw [hub_applyEvent_of_action (.inl rfl)]
    apply of_action
  | resolvingActionFailed issueId actionId =>
    rw [hub_applyEvent_of_action (.inr rfl)]
    apply of_action
  | sourceStateChanged | deviceRebooted | deviceLocaleChanged => apply (and_iff_left rfl).symm

/-! ### What is armed -/

/-- When waits end, the deadlines left are those of the waits that are left. -/
theorem Ends.isArmed_iff (hends : h.Ends h') (htimed : h.Timed) {key : DeadlineKey}
    (hbounded : key.isBounded = true) :
  h'.deadlines.isArmed key = true ↔ h.deadlines.isArmed key = true ∧ key ∈ h'.waits
  := by
  obtain ⟨stays, hwaits, htimers⟩ := hends.timers_eq
  rw [← mem_timers_iff hbounded, ← mem_timers_iff hbounded, htimers, List.mem_filter, hwaits]
  apply and_congr_right
  intro harmed
  apply (and_iff_right (htimed.awaited key harmed)).symm

/-! ### Hubs that have heard messages -/

/-- A hub that has heard messages at a reading of the clock. -/
structure Informed (h : Hub) (now : Instant) (messages : List Message) (h' : Hub) : Prop where
  catalog : h'.catalog = h.catalog
  policy : h'.policy = h.policy
  reports : h'.reports = messages.foldl (Message.reportsAfter now) h.reports
  dismissals : h'.dismissals = messages.foldl (Message.dismissalsAfter now) h.dismissals
  tracker : h'.tracker = messages.foldl Message.trackerAfter h.tracker
  inFlight : ∀ action, action ∈ h'.inFlight
    ↔ action ∈ h.inFlight ∧ ∀ m ∈ messages, m.keeps action = true
  ends : h.Ends h'
  persistWrite : h'.deadlines.isArmed .persistWrite = (h.deadlines.isArmed .persistWrite
    || (messages.any (·.isReport) && h'.dismissals.dirty))
  resurface : h'.deadlines.isArmed .resurface = if messages.any (·.isReport)
    then (h'.nextResurfacing now).isSome else h.deadlines.isArmed .resurface

theorem informed_accept (hsound : h.tracker.Sound) (env : Surroundings) (package : String)
    (key : SourceKey) (report : Option Report) (event : Event) :
  h.Informed env.now [⟨package, key, .report report, event⟩] (h.accept env key report event).hub
  := by
  let stored := h.store env.now key report
  let heard := (stored.applyEvent env key event false).1.hub
  let settled := (heard.settle env).hub
  have htracker : heard.tracker = event.trackerAfter key false h.tracker :=
    tracker_applyEvent stored env key event false
  have hactions (action : ActionKey) : action ∈ heard.inFlight
      ↔ action ∈ stored.inFlight ∧ event.ends key action = false :=
    mem_inFlight_applyEvent
  have hspares : h.Spares .persistWrite heard :=
    (Spares.store h env.now key report rfl).trans (.applyEvent stored env key event false rfl)
  have hends : h.Ends settled := by
    have hstored : stored.tracker.Sound := hsound
    apply (ends_store h env.now key report).trans
    apply (ends_applyEvent hstored env key event false).trans (.of_like (.settle heard env))
  have hpersist := isArmed_persistWrite_settle heard env
  obtain ⟨tracker, inFlight, deadlines, hheard⟩ : ∃ tracker inFlight deadlines,
      heard = { stored with tracker, inFlight, deadlines } :=
    exists_hub_applyEvent stored env key event false
  obtain ⟨_, _, -, -, hsettled⟩ : heard.Like settled := .settle heard env
  have hdismissals : settled.dismissals = heard.dismissals := by rw [hsettled]
  have hrest : settled.catalog = h.catalog ∧ settled.policy = h.policy
      ∧ settled.reports = h.reports.set key report env.now
      ∧ heard.dismissals = h.dismissals.reconcile key ((report.map (·.issueIds)).getD []) env.now
      ∧ settled.tracker = heard.tracker ∧ settled.inFlight = heard.inFlight := by
    rw [hsettled, hheard]
    exact ⟨rfl, rfl, rfl, rfl, rfl, rfl⟩
  obtain ⟨hcatalog, hpolicy, hreports, hreconciled, htracker', hactions'⟩ := hrest
  change h.Informed env.now _ settled
  exact {
    catalog := hcatalog
    policy := hpolicy
    reports := hreports
    dismissals := hdismissals.trans hreconciled
    tracker := htracker'.trans htracker
    inFlight action := by
      rw [hactions', hactions, mem_inFlight_store, and_assoc]
      simp [Message.keeps]
    ends := hends
    persistWrite := by
      rw [hdismissals, hpersist, hspares.isArmed_eq]
      rfl
    resurface := isArmed_resurface_settle heard env }

theorem informed_acceptFailure (hsound : h.tracker.Sound) (env : Surroundings) (package : String)
    (key : SourceKey) (event : Event) :
  h.Informed env.now [⟨package, key, .failure, event⟩] (h.acceptFailure env key event).hub
  := by
  let marked : Hub := { h with reports := h.reports.markFailed key }
  let heard := (marked.applyEvent env key event true).1.hub
  let published := (heard.publish env).hub
  have htracker : heard.tracker = event.trackerAfter key true h.tracker :=
    tracker_applyEvent marked env key event true
  have hactions (action : ActionKey) : action ∈ heard.inFlight
      ↔ action ∈ marked.inFlight ∧ event.ends key action = false :=
    mem_inFlight_applyEvent
  have hpersist : h.Spares .persistWrite published := .acceptFailure h env key event rfl
  have hresurface : h.Spares .resurface published := .acceptFailure h env key event rfl
  have hends : h.Ends published := by
    have hsame : h.Ends marked := .of_same rfl rfl rfl
    have hmarked : marked.tracker.Sound := hsound
    apply hsame.trans
    apply (ends_applyEvent hmarked env key event true).trans (.of_like (.publish heard env))
  obtain ⟨tracker, inFlight, deadlines, hheard⟩ : ∃ tracker inFlight deadlines,
      heard = { marked with tracker, inFlight, deadlines } :=
    exists_hub_applyEvent marked env key event true
  have hrest : heard.catalog = h.catalog ∧ heard.policy = h.policy
      ∧ heard.reports = h.reports.markFailed key ∧ heard.dismissals = h.dismissals := by
    rw [hheard]
    exact ⟨rfl, rfl, rfl, rfl⟩
  obtain ⟨hcatalog, hpolicy, hreports, hdismissals⟩ := hrest
  change h.Informed env.now _ published
  exact {
    catalog := hcatalog
    policy := hpolicy
    reports := hreports
    dismissals := hdismissals
    tracker := htracker
    inFlight action := by
      apply (hactions action).trans
      simp [Message.keeps, marked]
    ends := hends
    persistWrite := hpersist.isArmed_eq.trans (Bool.or_false _).symm
    resurface := hresurface.isArmed_eq }

/-- A hub is informed by one message. -/
theorem informed_take (hsound : h.tracker.Sound) (env : Surroundings) (m : Message) :
  h.Informed env.now [m] (h.take env m).hub
  := by
  obtain ⟨package, key, content, event⟩ := m
  cases content with
  | report report => apply informed_accept hsound
  | failure => apply informed_acceptFailure hsound

namespace Informed

variable {now : Instant} {messages messages' order : List Message}

theorem refl (h : Hub) (now : Instant) : h.Informed now [] h where
  catalog := rfl
  policy := rfl
  reports := rfl
  dismissals := rfl
  tracker := rfl
  inFlight action := by simp
  ends := .of_same rfl rfl rfl
  persistWrite := by simp
  resurface := rfl

/-- Messages that bring no report change nothing of what is known of issues. -/
theorem keepsIssues (hinformed : h.Informed now messages h')
    (hnone : ¬ messages.any (·.isReport) = true) :
  h.KeepsIssues h'
  := by
  have hsilent : ∀ m ∈ messages, m.content = .failure := by
    intro m hm
    cases hcontent : m.content with
    | failure => rfl
    | report report =>
      apply absurd _ hnone
      apply List.any_eq_true.mpr ⟨m, hm, _⟩
      rw [Message.isReport, hcontent]
  refine ⟨hinformed.policy, ?_, ?_⟩
  · rw [hinformed.dismissals]
    apply List.foldlRecOn (motive := fun d : Dismissals => d = h.dismissals) _ _ rfl
    intro d hd m hm
    rwa [Message.dismissalsAfter, hsilent m hm]
  · rw [hinformed.reports]
    apply List.foldlRecOn (motive := fun s : ReportStore => s.reports = h.reports.reports) _ _ rfl
    intro s hs m hm
    rwa [Message.reportsAfter, hsilent m hm]

theorem dirty (hinformed : h.Informed now messages h') (hdirty : h.dismissals.dirty = true) :
  h'.dismissals.dirty = true
  := by
  rw [hinformed.dismissals]
  apply List.foldlRecOn (motive := fun d : Dismissals => d.dirty = true) _ _ hdirty
  intro d hd m _
  cases hcontent : m.content with
  | failure => rwa [Message.dismissalsAfter, hcontent]
  | report report =>
    rw [Message.dismissalsAfter, hcontent]
    by_contra hclean
    rw [Bool.not_eq_true, Dismissals.dirty_reconcile_eq_false_iff] at hclean
    exact Bool.false_ne_true (hclean.1.symm.trans hd)

/-- The refresh in flight stays sound. -/
theorem sound (hinformed : h.Informed now messages h') (hsound : h.tracker.Sound) :
  h'.tracker.Sound
  := by
  rw [hinformed.tracker]
  apply List.foldlRecOn (motive := RefreshTracker.Sound) _ _ hsound
  intro t ht m _
  have final : (answerState (!m.isReport)).isFinal = true := by cases m.isReport <;> rfl
  simp only [Message.trackerAfter, Event.trackerAfter]
  cases m.event with
  | refreshRequested id => apply ht.retire m.key id final
  | _ => apply ht

theorem trans (hfirst : h.Informed now messages h') (hrest : h'.Informed now messages' h'') :
  h.Informed now (messages ++ messages') h''
  where
  catalog := hrest.catalog.trans hfirst.catalog
  policy := hrest.policy.trans hfirst.policy
  reports := by rw [hrest.reports, hfirst.reports, List.foldl_append]
  dismissals := by rw [hrest.dismissals, hfirst.dismissals, List.foldl_append]
  tracker := by rw [hrest.tracker, hfirst.tracker, List.foldl_append]
  inFlight action := by
    rw [hrest.inFlight, hfirst.inFlight, List.forall_mem_append, and_assoc]
  ends := hfirst.ends.trans hrest.ends
  persistWrite := by
    rw [hrest.persistWrite, hfirst.persistWrite, List.any_append]
    by_cases hreports : messages'.any (·.isReport) = true
    · rw [hreports, Bool.true_and, Bool.or_true, Bool.true_and, Bool.or_assoc]
      congr 1
      cases hlast : h''.dismissals.dirty with
      | true => rw [Bool.or_true]
      | false =>
        have hbefore : h'.dismissals.dirty = false :=
          Bool.eq_false_iff.mpr fun hdirty => absurd (hrest.dirty hdirty) (by simp [hlast])
        rw [hbefore, Bool.and_false, Bool.or_false]
    · rw [(hrest.keepsIssues hreports).dismissals, Bool.eq_false_iff.mpr hreports]
      simp
  resurface := by
    rw [hrest.resurface, hfirst.resurface, List.any_append]
    by_cases hreports : messages'.any (·.isReport) = true
    · simp [hreports]
    · rw [(hrest.keepsIssues hreports).same.nextResurfacing_eq, Bool.eq_false_iff.mpr hreports]
      simp

end Informed

end Hub

/-! ### Messages of different source keys -/

namespace Message

variable {m m' : Message}

theorem get?_reportsAfter (now : Instant) (s : ReportStore) (m : Message) (key : SourceKey) :
  (reportsAfter now s m).get? key = if key = m.key then
      match m.content with
      | .report report => report.map (⟨·, now⟩)
      | .failure => s.get? key
    else s.get? key
  := by
  rw [reportsAfter]
  cases m.content with
  | report report => apply ReportStore.get?_set
  | failure => apply (ite_self _).symm

theorem isFailed_reportsAfter (now : Instant) (s : ReportStore) (m : Message) (key : SourceKey) :
  (reportsAfter now s m).isFailed key = if key = m.key then !m.isReport else s.isFailed key
  := by
  rw [reportsAfter, isReport]
  cases m.content with
  | report report =>
    rw [ReportStore.isFailed_set]
    by_cases hkey : key = m.key <;> simp [hkey]
  | failure =>
    rw [ReportStore.isFailed_markFailed]
    by_cases hkey : key = m.key <;> simp [hkey]

theorem reportsAfter_comm (hne : m.key ≠ m'.key) (now : Instant) (s : ReportStore) :
  reportsAfter now (reportsAfter now s m) m' = reportsAfter now (reportsAfter now s m') m
  := by
  apply ReportStore.eq_of_get?_of_isFailed
  · intro key
    simp only [get?_reportsAfter]
    by_cases hkey : key = m.key
    · simp only [hkey, if_neg hne]
    · simp only [if_neg hkey]
  · intro key
    simp only [isFailed_reportsAfter]
    by_cases hkey : key = m.key
    · simp only [hkey, if_neg hne]
    · simp only [if_neg hkey]

theorem dismissalsAfter_comm (hne : m.key ≠ m'.key) (now : Instant) (d : Dismissals) :
  dismissalsAfter now (dismissalsAfter now d m) m'
    = dismissalsAfter now (dismissalsAfter now d m') m
  := by
  simp only [dismissalsAfter]
  cases m.content with
  | failure => rfl
  | report report =>
    cases m'.content with
    | failure => rfl
    | report report' => apply Dismissals.reconcile_comm hne

theorem trackerAfter_comm (hne : m.key ≠ m'.key) (t : RefreshTracker) :
  trackerAfter (trackerAfter t m) m' = trackerAfter (trackerAfter t m') m
  := by
  simp only [trackerAfter, Event.trackerAfter]
  cases m.event with
  | refreshRequested id =>
    cases m'.event with
    | refreshRequested id' => apply RefreshTracker.retire_comm hne
    | _ => rfl
  | _ => rfl

/-- Whether a message is admitted is given by the catalog and the policy. -/
theorem Admitted.congr {h h' : Hub} {users : Roster} (hadmitted : m.Admitted h users)
    (hcatalog : h'.catalog = h.catalog) (hpolicy : h'.policy = h.policy) :
  m.Admitted h' users
  := by
  constructor
  · rw [hpolicy]
    apply hadmitted.active
  · rw [hcatalog, hpolicy]
    apply hadmitted.caller

end Message

namespace Hub

variable {h h₁ h₂ : Hub} {now : Instant}

/-! ### The order of messages -/

/-- Messages that have all been heard were admitted from the first on. -/
theorem informed_of_hearAll (hsound : h.tracker.Sound)
    {messages : List (Surroundings × Message)} (hnow : ∀ p ∈ messages, p.1.now = now)
    (hok : h.hearAll messages = .ok h₁) :
  (∀ p ∈ messages, p.2.Admitted h p.1.users) ∧ h.Informed now (messages.map (·.2)) h₁
  := by
  induction messages generalizing h with
  | nil =>
    cases hok
    use fun p hp => absurd hp List.not_mem_nil
    apply Informed.refl
  | cons p messages ih =>
    obtain ⟨env, m⟩ := p
    obtain ⟨rfl, hnow⟩ := List.forall_mem_cons.mp hnow
    obtain ⟨c, hc, hok⟩ := bind_eq_ok_iff.mp hok
    obtain ⟨hadmitted, rfl⟩ := hear_eq_ok_iff.mp hc
    have hfirst := informed_take hsound env m
    obtain ⟨hrest, hinformed⟩ := ih (hfirst.sound hsound) hnow hok
    constructor
    · refine List.forall_mem_cons.mpr ⟨hadmitted, ?_⟩
      intro p hp
      apply (hrest p hp).congr hfirst.catalog.symm hfirst.policy.symm
    · apply hfirst.trans hinformed

/-- Messages that are admitted from the first on are all heard. -/
theorem exists_hearAll (hsound : h.tracker.Sound) {messages : List (Surroundings × Message)}
    (hadmitted : ∀ p ∈ messages, p.2.Admitted h p.1.users) :
  ∃ h₁, h.hearAll messages = .ok h₁
  := by
  induction messages generalizing h with
  | nil => exact ⟨h, rfl⟩
  | cons p messages ih =>
    obtain ⟨env, m⟩ := p
    obtain ⟨hfirst, hrest⟩ := List.forall_mem_cons.mp hadmitted
    have hinformed := informed_take hsound env m
    obtain ⟨h₁, hok⟩ := ih (hinformed.sound hsound) fun p hp =>
      (hrest p hp).congr hinformed.catalog hinformed.policy
    use h₁
    apply bind_eq_ok_iff.mpr ⟨_, hear_eq_ok_iff.mpr ⟨hfirst, rfl⟩, hok⟩

/-- What a hub has heard does not depend on the order, for messages of different source keys. -/
theorem Informed.perm (htimed : h.Timed) {messages order : List Message}
    (hfirst : h.Informed now messages h₁) (hsecond : h.Informed now order h₂)
    (hkeys : (messages.map (·.key)).Nodup) (horder : order.Perm messages) :
  h₂.reports = h₁.reports ∧ h₂.dismissals = h₁.dismissals ∧ h₂.tracker = h₁.tracker
    ∧ h₂.inFlight = h₁.inFlight
    ∧ ∀ key, h₂.deadlines.isArmed key = h₁.deadlines.isArmed key
  := by
  have foldl_eq {α : Type} {f : α → Message → α}
      (hcomm : ∀ m m', m.key ≠ m'.key → ∀ a, f (f a m) m' = f (f a m') m) (a : α) :
      order.foldl f a = messages.foldl f a := by
    apply horder.foldl_eq'
    intro m hm m' hm' a
    by_cases heq : m = m'
    · rw [heq]
    · apply hcomm
      have hdistinct := List.inj_on_of_nodup_map hkeys
      intro hkey
      exact heq (hdistinct (horder.mem_iff.mp hm) (horder.mem_iff.mp hm') hkey)
  have hreports : h₂.reports = h₁.reports := by
    rw [hsecond.reports, hfirst.reports]
    apply foldl_eq fun m m' hne => Message.reportsAfter_comm hne now
  have hdismissals : h₂.dismissals = h₁.dismissals := by
    rw [hsecond.dismissals, hfirst.dismissals]
    apply foldl_eq fun m m' hne => Message.dismissalsAfter_comm hne now
  have htracker : h₂.tracker = h₁.tracker := by
    rw [hsecond.tracker, hfirst.tracker]
    apply foldl_eq fun m m' hne => Message.trackerAfter_comm hne
  have hactions : h₂.inFlight = h₁.inFlight := by
    apply ExtTreeSet.ext_mem
    intro action
    rw [hsecond.inFlight, hfirst.inFlight]
    simp only [horder.mem_iff]
  have hkeeps : h₁.KeepsIssues h₂ :=
    ⟨hsecond.policy.trans hfirst.policy.symm, hdismissals, by rw [hreports]⟩
  have hany : order.any (·.isReport) = messages.any (·.isReport) := by
    rw [Bool.eq_iff_iff, List.any_eq_true, List.any_eq_true]
    simp only [horder.mem_iff]
  have hwaits : h₂.waits = h₁.waits := by rw [waits, waits, htracker, hactions]
  refine ⟨hreports, hdismissals, htracker, hactions, ?_⟩
  intro key
  cases key with
  | refresh _ | resolveAction _ =>
    rw [Bool.eq_iff_iff, hsecond.ends.isArmed_iff htimed rfl, hfirst.ends.isArmed_iff htimed rfl,
      hwaits]
  | resurface => rw [hsecond.resurface, hfirst.resurface, hany, hkeeps.same.nextResurfacing_eq]
  | persistWrite => rw [hsecond.persistWrite, hfirst.persistWrite, hany, hdismissals]

/-- After every run, messages of different source keys at one reading of the clock that are all
carried out are carried out in every order, and leave the same reports and marks of failed
sources, the same dismissals, the same refresh and actions in flight, the same deadlines and the
same overviews. -/
theorem messages_in_any_order (catalog : Catalog) (policy : Policy) (archive : Archive)
    (loaded : Except ArchiveError (List SavedRecord)) (time : Nat)
    (moves : List (Surroundings × Move)) {messages order : List (Surroundings × Message)}
    (hnow : ∀ p ∈ messages, p.1.now = now) (hkeys : (messages.map (·.2.key)).Nodup)
    (horder : order.Perm messages) :
  let h := (start catalog policy archive loaded time).after moves
  h.hearAll messages = .ok h₁ →
  ∃ h₂, h.hearAll order = .ok h₂ ∧ h₂.reports = h₁.reports ∧ h₂.dismissals = h₁.dismissals
    ∧ h₂.tracker = h₁.tracker ∧ h₂.inFlight = h₁.inFlight
    ∧ (∀ key, h₂.deadlines.isArmed key = h₁.deadlines.isArmed key)
    ∧ ∀ later group, h₂.overview later group = h₁.overview later group
  := by
  intro h hok
  have hstart : (start catalog policy archive loaded time).tracker.Sound :=
    (Like.schedulePersist _).sound (.of_idle rfl)
  obtain ⟨hsound, htimed⟩ :=
    timed_after hstart (timed_start catalog policy archive loaded time) moves
  have hnow' : ∀ p ∈ order, p.1.now = now := fun p hp => hnow p (horder.mem_iff.mp hp)
  have hkeys' : ((messages.map (·.2)).map (·.key)).Nodup := by rwa [List.map_map]
  obtain ⟨hadmitted, hfirst⟩ := informed_of_hearAll hsound hnow hok
  obtain ⟨h₂, hok'⟩ := exists_hearAll hsound fun p hp => hadmitted p (horder.mem_iff.mp hp)
  obtain ⟨-, hsecond⟩ := informed_of_hearAll hsound hnow' hok'
  obtain ⟨hreports, hdismissals, htracker, hactions, harmed⟩ :=
    hfirst.perm htimed hsecond hkeys' (horder.map _)
  refine ⟨h₂, hok', hreports, hdismissals, htracker, hactions, harmed, ?_⟩
  intro later group
  have hcatalog : h₂.catalog = h₁.catalog := hsecond.catalog.trans hfirst.catalog.symm
  have hpolicy : h₂.policy = h₁.policy := hsecond.policy.trans hfirst.policy.symm
  simp only [overview, basis, hreports, hdismissals, htracker, hactions, hcatalog, hpolicy]

/-- A source reports for one user and fails to report for another. -/
theorem two_messages_in_either_order :
  let device : Surroundings :=
    { users := [.full 0, .full 10], now := .epoch, digest := RefreshOrigin.digest }
  let report : Message :=
    ⟨"p", ⟨"s", 0⟩, .report (some (Sample.report ["a"])), .sourceStateChanged⟩
  let failure : Message := ⟨"p", ⟨"s", 10⟩, .failure, .deviceRebooted⟩
  let h := (start Sample.catalog {} {} (.ok []) 0).after [(device, .clear)]
  ∃ h₁ h₂, h.hearAll [(device, report), (device, failure)] = .ok h₁
    ∧ h.hearAll [(device, failure), (device, report)] = .ok h₂
    ∧ ∀ later group, h₂.overview later group = h₁.overview later group
  := by
  intro device report failure h
  let messages := [(device, report), (device, failure)]
  have hnow : ∀ p ∈ messages, p.1.now = .epoch := by simp [messages, device]
  have hkeys : (messages.map (·.2.key)).Nodup := by decide
  cases hok : h.hearAll messages with
  | ok h₁ =>
    obtain ⟨h₂, hok', -, -, -, -, -, hsame⟩ := messages_in_any_order Sample.catalog {} {} (.ok []) 0
      [(device, .clear)] hnow hkeys (List.Perm.swap (device, report) (device, failure) []) hok
    exact ⟨h₁, h₂, rfl, hok', hsame⟩
  | error e =>
    have haccepted : (h.hearAll messages).isOk = true := by decide +kernel
    rw [hok] at haccepted
    cases haccepted

end Hub

end SafetyHub
