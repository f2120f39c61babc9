import SafetyHub.Proofs.Hub.Live
import SafetyHub.Proofs.Hub.Messages

/-!
# Messages that are repeated

A hub that hears a message again at the same reading of the clock finds that it has heard it,
`Hub.Heard`: the report is stored, its issues have their records, the refresh does not wait for
the answer, and the action has ended.  So nothing changes but the sequence number, and the
listeners, who are offered the overviews again, have taken them already.
-/

namespace SafetyHub

open Std

/-! ### Twice is once -/

/-- A refresh does not wait for a pair that has been retired. -/
theorem RefreshTracker.not_awaits_retire {t : RefreshTracker} (hsound : t.Sound) (key : SourceKey)
    (id : BroadcastId) {target : PairState} (final : target.isFinal = true) :
  ¬ (t.retire key id target).2.Awaits key id
  := by
  obtain ⟨hidle, heq⟩ | ⟨r, -, -, -, ⟨-, heq⟩ | ⟨-, heq⟩⟩ := retire_cases hsound key id final
  · rwa [heq]
  · rw [heq]
    rintro ⟨r', ⟨⟩, -⟩
  · rw [heq]
    rintro ⟨r', ⟨⟩, -, hkey⟩
    exact (RefreshInProgress.mem_pending_settle.mp hkey).1 rfl

namespace Message

theorem reportsAfter_reportsAfter (now : Instant) (s : ReportStore) (m : Message) :
  reportsAfter now (reportsAfter now s m) m = reportsAfter now s m
  := by
  apply ReportStore.eq_of_get?_of_isFailed
  · intro key
    rw [get?_reportsAfter, get?_reportsAfter]
    by_cases hkey : key = m.key
    · cases m.content <;> simp [hkey]
    · simp [hkey]
  · intro key
    rw [isFailed_reportsAfter, isFailed_reportsAfter]
    by_cases hkey : key = m.key <;> simp [hkey]

theorem dismissalsAfter_dismissalsAfter (now : Instant) (d : Dismissals) (m : Message) :
  dismissalsAfter now (dismissalsAfter now d m) m = dismissalsAfter now d m
  := by
  simp only [dismissalsAfter]
  cases m.content with
  | failure => rfl
  | report report => apply Dismissals.reconcile_again rfl fun _ => Iff.rfl

end Message

namespace Hub

variable {h h' : Hub} {env : Surroundings} {m : Message}

/-- A message brings nothing that the hub does not know at a reading of the clock. -/
structure Heard (h : Hub) (now : Instant) (m : Message) : Prop where
  reports : m.reportsAfter now h.reports = h.reports
  dismissals : m.dismissalsAfter now h.dismissals = h.dismissals
  not_awaits : ∀ id, m.event = .refreshRequested id → ¬ h.tracker.Awaits m.key id
  keeps : ∀ action ∈ h.inFlight, m.keeps action = true

/-- A message that has been taken has been heard. -/
theorem heard_take (hsound : h.tracker.Sound) (env : Surroundings) (m : Message) :
  (h.take env m).hub.Heard env.now m
  := by
  have hinformed := informed_take hsound env m
  constructor
  · rw [hinformed.reports]
    apply Message.reportsAfter_reportsAfter
  · rw [hinformed.dismissals]
    apply Message.dismissalsAfter_dismissalsAfter
  · intro id hid
    have final : (answerState (!m.isReport)).isFinal = true := by cases m.isReport <;> rfl
    rw [hinformed.tracker, List.foldl_cons, List.foldl_nil, Message.trackerAfter, hid]
    apply RefreshTracker.not_awaits_retire hsound m.key id final
  · intro action haction
    apply ((hinformed.inFlight action).mp haction).2 m List.mem_cons_self

/-! ### Hearing what is known -/

theorem keepActions_eq_self {keep : ActionKey → Bool}
    (hall : ∀ action ∈ h.inFlight, keep action = true) :
  h.keepActions keep = h
  := by
  have hkept : h.inFlight.filter keep = h.inFlight := by
    apply ExtTreeSet.ext_mem
    intro action
    rw [mem_filter_iff]
    apply and_iff_left_of_imp (hall action)
  have hnone : h.inFlight.outside keep = [] := by
    apply List.filter_eq_nil_iff.mpr
    intro action haction
    simp [hall action (ExtTreeSet.mem_toList.mp haction)]
  rw [keepActions, hkept, hnone]
  rfl

/-- An event that answers nothing that is waited for changes nothing. -/
theorem applyEvent_of_idle (hsound : h.tracker.Sound) (env : Surroundings) {key : SourceKey}
    {event : Event} (failed : Bool)
    (hidle : ∀ id, event = .refreshRequested id → ¬ h.tracker.Awaits key id)
    (hends : ∀ action ∈ h.inFlight, event.ends key action = false) :
  h.applyEvent env key event failed = ({ hub := h }, [])
  := by
  have hunfinished (issueId actionId : String)
      (hends : ∀ action ∈ h.inFlight, (action == ⟨key.issue issueId, actionId⟩) = false) :
      h.finishAction? ⟨key.issue issueId, actionId⟩ = none := by
    rw [finishAction?_eq_none_iff]
    intro hin
    simpa using hends _ hin
  cases event with
  | refreshRequested id =>
    have hretire (target : PairState) : h.tracker.retire key id target = (false, h.tracker) :=
      RefreshTracker.retire_of_not_awaits hsound (hidle id rfl)
    have hanswer : (if failed then h.tracker.fail key id else h.tracker.complete key id)
        = (false, h.tracker) := by
      cases failed <;> apply hretire
    rw [applyEvent, answerRefresh, hanswer]
    rfl
  | resolvingActionSucceeded issueId actionId =>
    rw [applyEvent, hunfinished issueId actionId hends]
    rfl
  | resolvingActionFailed issueId actionId =>
    simp only [applyEvent, hunfinished issueId actionId hends]
  | sourceStateChanged | deviceRebooted | deviceLocaleChanged => rfl

/-- Taking a message that brings nothing new is seeing to what dismissals call for, if it is a
report, and publishing. -/
theorem take_of_heard (hsound : h.tracker.Sound) (hheard : h.Heard env.now m) :
  h.take env m = if m.isReport then h.settle env else h.publish env
  := by
  obtain ⟨package, key, content, event⟩ := m
  have hkeeps : ∀ action ∈ h.inFlight, Message.keeps ⟨package, key, content, event⟩ action = true :=
    hheard.keeps
  simp only [Message.keeps, Bool.and_eq_true, Bool.not_eq_true'] at hkeeps
  have hevent (failed : Bool) : h.applyEvent env key event failed = ({ hub := h }, []) :=
    applyEvent_of_idle hsound env failed hheard.not_awaits
      fun action haction => (hkeeps action haction).2
  cases content with
  | report report =>
    have hreports : h.reports.set key report env.now = h.reports := hheard.reports
    have hdismissals : h.dismissals.reconcile key ((report.map (·.issueIds)).getD []) env.now
        = h.dismissals := hheard.dismissals
    have hstore : h.store env.now key report = h := by
      rw [store, hreports, hdismissals]
      apply keepActions_eq_self fun action haction => (hkeeps action haction).1
    show h.accept env key report event = h.settle env
    rw [accept, hstore, hevent]
    simp
  | failure =>
    have hreports : h.reports.markFailed key = h.reports := hheard.reports
    show h.acceptFailure env key event = h.publish env
    rw [acceptFailure, hreports]
    simp [hevent]

/-! ### Deadlines -/

/-- What dismissals call for is armed. -/
structure Settled (h : Hub) (now : Instant) : Prop where
  persistWrite : h.dismissals.dirty = true → h.deadlines.isArmed .persistWrite = true
  resurface : h.deadlines.isArmed .resurface = (h.nextResurfacing now).isSome

theorem settled_settle (h : Hub) (env : Surroundings) : (h.settle env).hub.Settled env.now where
  persistWrite hdirty := by
    rw [(Like.settle h env).keeps.dismissals] at hdirty
    rw [isArmed_persistWrite_settle, hdirty, Bool.or_true]
  resurface := isArmed_resurface_settle h env

/-- A report is taken with what dismissals call for. -/
theorem settled_take (hm : m.isReport = true) (h : Hub) (env : Surroundings) :
  (h.take env m).hub.Settled env.now
  := by
  obtain ⟨package, key, content, event⟩ := m
  cases content with
  | report report =>
    apply settled_settle ((h.store env.now key report).applyEvent env key event false).1.hub env
  | failure => cases hm

/-- Seeing to what dismissals call for arms and drops nothing where that is armed. -/
theorem Settled.isArmed_settle (hsettled : h.Settled env.now) (key : DeadlineKey) :
  (h.settle env).hub.deadlines.isArmed key = h.deadlines.isArmed key
  := by
  have hlike := Like.settle h env
  cases key with
  | refresh _ | resolveAction _ => apply (Spares.of_like hlike rfl).isArmed_eq
  | persistWrite =>
    rw [isArmed_persistWrite_settle]
    cases hdirty : h.dismissals.dirty with
    | false => apply Bool.or_false
    | true => rw [hsettled.persistWrite hdirty, Bool.or_true]
  | resurface =>
    rw [isArmed_resurface_settle, hlike.keeps.keepsIssues.same.nextResurfacing_eq,
      hsettled.resurface]

/-- What a repeated message leaves as it is. -/
structure Unmoved (h h' : Hub) : Prop where
  reports : h'.reports = h.reports
  dismissals : h'.dismissals = h.dismissals
  tracker : h'.tracker = h.tracker
  inFlight : h'.inFlight = h.inFlight
  isArmed : ∀ key, h'.deadlines.isArmed key = h.deadlines.isArmed key

/-- Taking a message that brings nothing new leaves everything as it is, and offers overviews. -/
theorem unmoved_take (hsound : h.tracker.Sound) (hheard : h.Heard env.now m)
    (hsettled : m.isReport = true → h.Settled env.now) :
  h.Like (h.take env m).hub ∧ h.Unmoved (h.take env m).hub
    ∧ ∀ effect ∈ (h.take env m).effects, effect.isOffer = true
  := by
  have unmoved {h' : Hub} (hlike : h.Like h')
      (harmed : ∀ key, h'.deadlines.isArmed key = h.deadlines.isArmed key) : h.Unmoved h' := by
    obtain ⟨deadlines, sequence, -, -, rfl⟩ := hlike
    exact ⟨rfl, rfl, rfl, rfl, harmed⟩
  have offers (h : Hub) : ∀ effect ∈ h.offers env, effect.isOffer = true := by
    intro effect heffect
    rw [← offers_eq_filter] at heffect
    apply (List.mem_filter.mp heffect).2
  rw [take_of_heard hsound hheard]
  split
  next hm =>
    have hlike := Like.settle h env
    exact ⟨hlike, unmoved hlike (hsettled hm).isArmed_settle, offers _⟩
  next =>
    have hlike := Like.publish h env
    exact ⟨hlike, unmoved hlike fun _ => rfl, offers _⟩

/-! ### Numbers of offers -/

/-- No registration was offered anything under a number that is yet to come. -/
structure Paced (h : Hub) : Prop where
  distinct : h.audience.Distinct
  sequence_le : ∀ ticket, (h.audience.offeredTo ticket).sequence ≤ h.sequence

namespace Paced

theorem thin (hpaced : h.Paced) (hthins : h.Thins h') : h'.Paced where
  distinct := hpaced.distinct.thin hthins.nextTicket hthins.subset
  sequence_le ticket := by
    rw [Audience.offeredTo, hthins.offered, hthins.sequence]
    apply hpaced.sequence_le

theorem publish (hpaced : h.Paced) (env : Surroundings) : (h.publish env).hub.Paced where
  distinct := hpaced.distinct
  sequence_le ticket := Nat.le_succ_of_le (hpaced.sequence_le ticket)

theorem listen (hpaced : h.Paced) {listener package : String} {user : UserId} {c : Change}
    (hok : h.listen env listener package user = .ok (true, c)) :
  c.hub.Paced
  := by
  obtain ⟨group, audience, -, hregister, rfl⟩ := listen_eq_ok_true hok
  constructor
  · apply hpaced.distinct.register hregister
  · intro ticket
    dsimp only
    rw [Audience.offeredTo_of_register? hregister]
    split
    next => apply Nat.zero_le
    next => apply Nat.le_succ_of_le (hpaced.sequence_le ticket)

theorem offer (hpaced : h.Paced) (r : Registration) {sequence : Nat} (view : Overview)
    (hsequence : sequence ≤ h.sequence) :
  { h with audience := (h.audience.offer r sequence view).2 }.Paced
  where
  distinct := hpaced.distinct.thin rfl fun _ => List.Subset.refl _
  sequence_le ticket := by
    dsimp only
    rw [Audience.offeredTo_offer]
    split
    next =>
      rw [Offered.sequence_offer]
      apply Nat.max_le.mpr ⟨hpaced.sequence_le ticket, hsequence⟩
    next => apply hpaced.sequence_le

/-- Every move keeps to the numbers, if it is no offer under a number that is yet to come. -/
theorem move (hpaced : h.Paced) (hsound : h.tracker.Sound) (htimed : h.Timed)
    (env : Surroundings) {m : Move}
    (hm : ∀ r sequence view, m = .offer r sequence view → sequence ≤ h.sequence) :
  (h.move env m).Paced
  := by
  cases hoffer : m.isOffer with
  | true =>
    cases m with
    | offer r sequence view => apply hpaced.offer r view (hm r sequence view rfl)
    | _ => cases hoffer
  | false =>
    rw [← hub_outcome]
    obtain (⟨ended, hthins, hhub, -⟩ | ⟨hthins, -⟩) | ⟨listener, package, user, hok⟩ :=
      outcome_cases hsound htimed env hoffer
    · rw [hhub]
      apply (hpaced.thin hthins).publish
    · apply hpaced.thin hthins
    · apply hpaced.listen hok

end Paced

/-- The offers of a run are of overviews that have been published. -/
def OffersPublished (h : Hub) (moves : List (Surroundings × Move)) : Prop :=
  ∀ before env r sequence view, before ++ [(env, .offer r sequence view)] <+: moves →
    sequence ≤ (h.after before).sequence

theorem paced_start (catalog : Catalog) (policy : Policy) (archive : Archive)
    (loaded : Except ArchiveError (List SavedRecord)) (time : Nat) :
  (start catalog policy archive loaded time).Paced
  := by
  have hkept := Live.kept_start catalog policy archive loaded time
  exact ⟨hkept.distinct, hkept.sequence_le⟩

theorem paced_after (hsound : h.tracker.Sound) (htimed : h.Timed) (hpaced : h.Paced)
    {moves : List (Surroundings × Move)} (hmoves : h.OffersPublished moves) :
  (h.after moves).Paced
  := by
  induction moves using List.reverseRecOn with
  | nil => apply hpaced
  | append_singleton moves m ih =>
    obtain ⟨env, m⟩ := m
    obtain ⟨hsound', htimed'⟩ := timed_after hsound htimed moves
    rw [after_concat]
    apply Paced.move _ hsound' htimed' env
    · rintro r sequence view rfl
      apply hmoves moves env r sequence view (List.prefix_refl _)
    · apply ih
      intro before env' r sequence view hbefore
      apply hmoves before env' r sequence view (hbefore.trans (List.prefix_append _ _))

/-! ### Hearing a message twice -/

theorem publishesBy_hear {c : Change} (hok : h.hear env m = .ok c) : h.PublishesBy env c := by
  obtain ⟨package, key, content, event⟩ := m
  cases content with
  | report report => apply publishesBy_submit hok
  | failure => apply publishesBy_reportFailure hok

/-- Once a message has been heard, and listeners have been offered overviews, it is heard again
without anything changing. -/
theorem hear_again (hsound : h.tracker.Sound) {c : Change} (hok : h.hear env m = .ok c)
    {offered : ExtTreeMap Nat Offered}
    (hframe : h' = { c.hub with audience := { c.hub.audience with offered } }) :
  ∃ c', h'.hear env m = .ok c' ∧ h'.Like c'.hub ∧ h'.Unmoved c'.hub
    ∧ ∀ effect ∈ c'.effects, effect.isOffer = true
  := by
  obtain ⟨hadmitted, rfl⟩ := hear_eq_ok_iff.mp hok
  have hinformed := informed_take hsound env m
  obtain ⟨hreports, hdismissals, hidle, hkeeps⟩ := heard_take hsound env m
  have hsound' : h'.tracker.Sound := by
    rw [hframe]
    apply hinformed.sound hsound
  have hheard : h'.Heard env.now m := by
    rw [hframe]
    exact ⟨hreports, hdismissals, hidle, hkeeps⟩
  have hsettled : m.isReport = true → h'.Settled env.now := by
    intro hm
    obtain ⟨hpersist, hresurface⟩ := settled_take hm h env
    rw [hframe]
    exact ⟨hpersist, hresurface⟩
  have hadmitted' : m.Admitted h' env.users := by
    apply hadmitted.congr
    · rw [hframe]
      exact hinformed.catalog
    · rw [hframe]
      exact hinformed.policy
  exact ⟨h'.take env m, hear_eq_ok_iff.mpr ⟨hadmitted', rfl⟩, unmoved_take hsound' hheard hsettled⟩

theorem Unmoved.undergo {l : Live} {c : Change} (hunmoved : h.Unmoved c.hub) :
  h.Unmoved (l.undergo c).hub
  := by
  obtain ⟨offered, hframe⟩ := l.exists_hub_undergo c
  rw [hframe]
  exact ⟨hunmoved.reports, hunmoved.dismissals, hunmoved.tracker, hunmoved.inFlight,
    hunmoved.isArmed⟩

/-- After every run, a message that a hub hears twice in a row, at the same reading of the clock,
is heard the second time too, and then it changes nothing: reports, marks of failed sources,
dismissals and whether they have changed, the refresh and the actions in flight and what is armed
stay as they are, nobody is asked anything, and no listener receives an overview or hears of an
error. -/
theorem second_hearing_silent_after (catalog : Catalog) (policy : Policy) (archive : Archive)
    (loaded : Except ArchiveError (List SavedRecord)) (time : Nat)
    {moves : List (Surroundings × Move)}
    (hmoves : (start catalog policy archive loaded time).OffersPublished moves)
    (received : List (Registration × Overview)) {c : Change} :
  let h := (start catalog policy archive loaded time).after moves
  h.hear env m = .ok c →
  let l := Live.undergo { hub := h, received } c
  ∃ c', l.hub.hear env m = .ok c' ∧ (∀ effect ∈ c'.effects, effect.isOffer = true)
    ∧ l.hub.Unmoved (l.undergo c').hub ∧ (l.undergo c').received = l.received
  := by
  intro h hok l
  have hstart := sound_start catalog policy archive loaded time
  have htimed := timed_start catalog policy archive loaded time
  have hpaced : h.Paced :=
    paced_after hstart htimed (paced_start catalog policy archive loaded time) hmoves
  have hcurrent : l.UpToDate env :=
    Live.upToDate_undergo hpaced.distinct hpaced.sequence_le (publishesBy_hear hok)
  obtain ⟨offered, hframe⟩ := Live.exists_hub_undergo { hub := h, received } c
  obtain ⟨c', hok', hlike, hunmoved, hoffers⟩ :=
    hear_again (timed_after hstart htimed moves).1 hok hframe
  refine ⟨c', hok', hoffers, hunmoved.undergo, ?_⟩
  rw [Live.undergo_eq_showAll (publishesBy_hear hok')]
  apply (hcurrent.like hlike).received_showAll

/-- A source says twice that an action failed: a listener hears of it and receives an overview the
first time, and not the second. -/
theorem second_failure_silent :
  let moves := [(Sample.device, .listen "l" "p" 0), (Sample.device, Sample.submission ["a"]),
    (Sample.device, .execute ⟨"s", "i", 0⟩ "a")]
  let h := (start Sample.catalog {} {} (.ok []) 0).after moves
  let m : Message := ⟨"p", ⟨"s", 0⟩, .failure, .resolvingActionFailed "i" "a"⟩
  let c := h.take Sample.device m
  let l := Live.undergo { hub := h } c
  (start Sample.catalog {} {} (.ok []) 0).OffersPublished moves
    ∧ h.hear Sample.device m = .ok c ∧ c.notices.length = 1 ∧ l.received.length = 1
    ∧ ∃ c', l.hub.hear Sample.device m = .ok c' ∧ c'.notices = []
      ∧ (l.undergo c').received.length = 1
  := by
  intro moves h m c l
  have hmoves : (start Sample.catalog {} {} (.ok []) 0).OffersPublished moves := by
    intro before env r sequence view hbefore
    have hin := hbefore.subset (List.mem_append_right _ List.mem_cons_self)
    simp [moves, Sample.submission] at hin
  have hok : h.hear Sample.device m = .ok c := by
    cases hok : h.hear Sample.device m with
    | ok c' => rw [(hear_eq_ok_iff.mp hok).2]
    | error e =>
      have haccepted : (h.hear Sample.device m).isOk = true := by decide +kernel
      rw [hok] at haccepted
      cases haccepted
  have hreceived : l.received.length = 1 := by decide +kernel
  obtain ⟨c', hok', hoffers, -, hsame⟩ :=
    second_hearing_silent_after Sample.catalog {} {} (.ok []) 0 hmoves [] hok
  refine ⟨hmoves, hok, by decide +kernel, hreceived, c', hok', ?_, ?_⟩
  · apply List.filterMap_eq_nil_iff.mpr
    intro effect heffect
    have hoffer := hoffers effect heffect
    cases effect <;> first | rfl | cases hoffer
  · rw [hsame]
    exact hreceived

end Hub

end SafetyHub
