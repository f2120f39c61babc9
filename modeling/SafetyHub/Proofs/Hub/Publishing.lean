import SafetyHub.Proofs.Hub.Expiry
import SafetyHub.Proofs.Audience.Tickets

/-!
# What moves publish

Every call that is carried out, and every deadline that passes but that for saving, ends by
publishing: all listeners are offered the overviews of the hub that is left, under the next
sequence number, and nothing else is offered.  `Hub.Publishes` says which moves these are.  Of
the other moves only registering a listener offers anything, and to that listener alone.  So no run
takes more sequence numbers than it has moves, `Hub.sequence_after_le`.
-/

namespace SafetyHub

/-- Whether a move is an offer that reaches a registration. -/
def Move.isOffer : Move → Bool
  | .offer _ _ _ => true
  | _ => false

namespace Hub

variable {h h' h'' : Hub} {env : Surroundings}

theorem Like.audience_eq (hlike : h.Like h') : h'.audience = h.audience := by
  obtain ⟨_, _, -, -, rfl⟩ := hlike
  rfl

/-- A hub of the same sequence number, some of whose registrations may be gone. -/
structure Thins (h h' : Hub) : Prop where
  sequence : h'.sequence = h.sequence
  nextTicket : h'.audience.nextTicket = h.audience.nextTicket
  offered : h'.audience.offered = h.audience.offered
  subset : ∀ parent, h'.audience.registrations parent ⊆ h.audience.registrations parent

namespace Thins

theorem of_same (hsequence : h'.sequence = h.sequence) (haudience : h'.audience = h.audience) :
  h.Thins h'
  where
  sequence := hsequence
  nextTicket := congrArg Audience.nextTicket haudience
  offered := congrArg Audience.offered haudience
  subset parent := by
    rw [haudience]
    apply List.Subset.refl

theorem trans (hab : h.Thins h') (hbc : h'.Thins h'') : h.Thins h'' where
  sequence := hbc.sequence.trans hab.sequence
  nextTicket := hbc.nextTicket.trans hab.nextTicket
  offered := hbc.offered.trans hab.offered
  subset parent := List.Subset.trans (hbc.subset parent) (hab.subset parent)

end Thins

/-- A change ends by publishing: the overviews of the hub that is left are all that is
offered. -/
def PublishesBy (h : Hub) (env : Surroundings) (c : Change) : Prop :=
  ∃ ended, h.Thins ended ∧ c.hub = (ended.publish env).hub
    ∧ c.offers = (ended.publish env).effects

/-! ### Parts of calls -/

theorem thins_schedulePersist (h : Hub) : h.Thins h.schedulePersist := by
  unfold schedulePersist
  split <;> exact .of_same rfl rfl

theorem thins_scheduleResurface (h : Hub) (now : Instant) : h.Thins (h.scheduleResurface now) := by
  unfold scheduleResurface
  split <;> exact .of_same rfl rfl

theorem thins_startRefresh (h : Hub) (env : Surroundings) (reason : RefreshReason)
    (group : ProfileGroup) :
  h.Thins (h.startRefresh env reason group).2
  := by
  simp only [startRefresh]
  split <;> exact .of_same rfl rfl

theorem thins_applyEvent (h : Hub) (env : Surroundings) (key : SourceKey) (event : Event)
    (failed : Bool) :
  h.Thins (h.applyEvent env key event failed).1.hub
  := by
  obtain heq | ⟨id, heq⟩ | ⟨action, -, hfin⟩ := hub_applyEvent_cases h env key event failed
  · rw [heq]
    exact .of_same rfl rfl
  · rw [heq, hub_answerRefresh]
    dsimp only
    split <;> exact .of_same rfl rfl
  · obtain ⟨-, heq⟩ := finishAction?_eq_some_iff.mp hfin
    rw [heq]
    exact .of_same rfl rfl

theorem thins_without (h : Hub) (user : UserId) : h.Thins (h.without user) where
  sequence := rfl
  nextTicket := rfl
  offered := rfl
  subset parent := by
    have hclear := Audience.registrations_clearForUser h.audience user parent
    change (h.audience.clearForUser user).registrations parent ⊆ _
    rw [hclear]
    split
    · apply List.nil_subset
    · apply List.Subset.refl

theorem filter_isOffer_publish (h : Hub) (env : Surroundings) :
  (h.publish env).effects.filter (·.isOffer) = (h.publish env).effects
  := offers_eq_filter _ env

theorem filter_isOffer_answerRefresh (h : Hub) (now : Instant) (key : SourceKey)
    (id : BroadcastId) (failed : Bool) :
  (h.answerRefresh now key id failed).effects.filter (·.isOffer) = []
  := by
  have stats (hub : Hub) (groups : List ProfileGroup) :
      (groups.map (hub.statsOf now)).filter (·.isOffer) = [] := by
    simp [statsOf, Effect.isOffer]
  simp only [answerRefresh]
  generalize (if failed = true then h.tracker.fail key id else h.tracker.complete key id) = answer
  split
  · apply stats
  · rfl

/-- An event puts statistics on record and lets listeners hear of errors, and offers nothing. -/
theorem filter_isOffer_applyEvent (h : Hub) (env : Surroundings) (key : SourceKey)
    (event : Event) (failed : Bool) :
  (h.applyEvent env key event failed).1.effects.filter (·.isOffer) = []
    ∧ (h.applyEvent env key event failed).2.filter (·.isOffer) = []
  := by
  cases event with
  | refreshRequested id => exact ⟨filter_isOffer_answerRefresh h env.now key id failed, rfl⟩
  | resolvingActionFailed issueId actionId =>
    simp only [applyEvent]
    split <;> exact ⟨rfl, rfl⟩
  | resolvingActionSucceeded _ _ | sourceStateChanged | deviceRebooted | deviceLocaleChanged =>
    exact ⟨rfl, rfl⟩

/-! ### Calls that publish -/

/-- What is left of a call is published, with effects before and after that offer nothing. -/
theorem Thins.publishesBy {ended : Hub} (hthins : h.Thins ended) (before after : List Effect)
    (hbefore : before.filter (·.isOffer) = []) (hafter : after.filter (·.isOffer) = []) :
  h.PublishesBy env {
    hub := (ended.publish env).hub
    effects := before ++ (ended.publish env).effects ++ after }
  := by
  refine ⟨ended, hthins, rfl, ?_⟩
  rw [Change.offers, List.filter_append, List.filter_append, hbefore, hafter,
    filter_isOffer_publish, List.append_nil, List.nil_append]

/-- What is left of a call is settled, and thereby published. -/
theorem Thins.settle {ended : Hub} (hthins : h.Thins ended) (env : Surroundings) :
  h.PublishesBy env (ended.settle env)
  := by
  refine ⟨(ended.schedulePersist).scheduleResurface env.now, ?_, rfl, filter_isOffer_publish _ env⟩
  exact hthins.trans ((thins_schedulePersist ended).trans (thins_scheduleResurface _ env.now))

theorem publishesBy_refresh {reason : RefreshReason} {user : UserId} {id : BroadcastId}
    {c : Change} (hok : h.refresh env reason user = .ok (id, c)) :
  h.PublishesBy env c
  := by
  simp only [refresh, bind_eq_ok_iff] at hok
  obtain ⟨group, -, -, -, hok⟩ := hok
  cases hok
  have hthins := thins_startRefresh h env reason group
  refine ⟨_, hthins, rfl, ?_⟩
  have requests (rs : List RefreshRequest) :
      (rs.map (Effect.signal <| .request ·)).filter (·.isOffer) = [] := by
    simp [Effect.isOffer]
  rw [Change.offers, List.filter_append, requests, filter_isOffer_publish, List.nil_append]

theorem publishesBy_submit {package sourceId : String} {user : UserId} {report : Option Report}
    {event : Event} {c : Change}
    (hok : h.submit env package sourceId user report event = .ok c) :
  h.PublishesBy env c
  := by
  obtain ⟨-, -, rfl⟩ := submit_eq_ok hok
  have hstore : h.Thins (h.store env.now ⟨sourceId, user⟩ report) := .of_same rfl rfl
  have hthins := hstore.trans (thins_applyEvent _ env ⟨sourceId, user⟩ event false)
  obtain ⟨hbefore, hafter⟩ := filter_isOffer_applyEvent
    (h.store env.now ⟨sourceId, user⟩ report) env ⟨sourceId, user⟩ event false
  obtain ⟨ended, hthins, hhub, heffects⟩ := hthins.settle env
  refine ⟨ended, hthins, hhub, ?_⟩
  rw [Change.offers] at heffects
  rw [Change.offers, accept]
  dsimp only
  rw [List.filter_append, List.filter_append, hbefore, hafter, List.append_nil, List.nil_append,
    heffects]

theorem publishesBy_reportFailure {package sourceId : String} {user : UserId} {event : Event}
    {c : Change} (hok : h.reportFailure env package sourceId user event = .ok c) :
  h.PublishesBy env c
  := by
  obtain ⟨-, -, rfl⟩ := reportFailure_eq_ok hok
  have hmark : h.Thins { h with reports := h.reports.markFailed ⟨sourceId, user⟩ } :=
    .of_same rfl rfl
  have hthins := hmark.trans (thins_applyEvent _ env ⟨sourceId, user⟩ event true)
  obtain ⟨hbefore, hafter⟩ := filter_isOffer_applyEvent
    { h with reports := h.reports.markFailed ⟨sourceId, user⟩ } env ⟨sourceId, user⟩ event true
  apply hthins.publishesBy _ _ hbefore hafter

theorem publishesBy_dismiss {issue : IssueKey} {c : Change} (hok : h.dismiss env issue = .ok c) :
  h.PublishesBy env c
  := by
  obtain ⟨-, -, rfl⟩ := dismiss_eq_ok_iff.mp hok
  apply Thins.settle
  exact .of_same rfl rfl

theorem publishesBy_execute {issue : IssueKey} {actionId : String} {c : Change}
    (hok : h.execute env issue actionId = .ok c) :
  h.PublishesBy env c
  := by
  simp only [execute, bind_eq_ok_iff] at hok
  obtain ⟨-, -, package, -, hok⟩ := hok
  cases hok
  exact ⟨h.beginAction ⟨issue, actionId⟩, .of_same rfl rfl, rfl, filter_isOffer_publish _ env⟩

theorem publishesBy_clear (h : Hub) (env : Surroundings) : h.PublishesBy env (h.clear env) := by
  have hcleared : h.Thins h.cleared := .of_same rfl rfl
  exact ⟨h.cleared.schedulePersist, hcleared.trans (thins_schedulePersist _), rfl,
    filter_isOffer_publish _ env⟩

/-! ### Deadlines that publish -/

theorem publishesBy_passed (hsound : h.tracker.Sound) (htimed : h.Timed) {key : DeadlineKey}
    (harmed : h.deadlines.isArmed key = true) (hkey : key ≠ .persistWrite) (env : Surroundings) :
  h.PublishesBy env (h.passed env key)
  := by
  obtain ⟨e, -, -, hpassed⟩ := exists_passed_eq harmed env
  rw [hpassed]
  cases key with
  | refresh id =>
    obtain ⟨r, hr, rfl⟩ := Option.map_eq_some_iff.mp (htimed.current_of_armed harmed)
    rw [turn, refreshOverdue_of_current (h := { h with deadlines := h.deadlines.take e }) hsound hr]
    have hthins : h.Thins { h with
        deadlines := h.deadlines.take e
        tracker := { h.tracker with current := none }
        reports := if h.policy.showErrorsOnTimeout
          then r.pending.toList.foldl ReportStore.markFailed h.reports else h.reports } :=
      .of_same rfl rfl
    exact hthins.publishesBy [_] [_] rfl rfl
  | resolveAction action =>
    rw [turn, actionOverdue_of_mem (h := { h with deadlines := h.deadlines.take e })
      (htimed.inFlight_of_armed harmed)]
    have hthins : h.Thins { h with
        deadlines := h.deadlines.take e
        inFlight := h.inFlight.erase action } :=
      .of_same rfl rfl
    exact hthins.publishesBy [] [_] rfl rfl
  | resurface =>
    have htaken : h.Thins { h with deadlines := h.deadlines.take e } := .of_same rfl rfl
    exact ⟨_, htaken.trans (thins_scheduleResurface _ env.now), rfl, filter_isOffer_publish _ env⟩
  | persistWrite => exact absurd rfl hkey

/-! ### Moves that publish -/

/-- Whether a move publishes: a call that changes the hub and is carried out, or a deadline that
passes, other than that for saving. -/
def Publishes (h : Hub) (env : Surroundings) : Move → Prop
  | .refresh reason user => ∃ id c, h.refresh env reason user = .ok (id, c)
  | .submit package sourceId user report event =>
    ∃ c, h.submit env package sourceId user report event = .ok c
  | .reportFailure package sourceId user event =>
    ∃ c, h.reportFailure env package sourceId user event = .ok c
  | .dismiss issue => ∃ c, h.dismiss env issue = .ok c
  | .execute issue actionId => ∃ c, h.execute env issue actionId = .ok c
  | .clear | .removeUser _ | .reload _ _ => True
  | .expire key => h.deadlines.isArmed key = true ∧ key ≠ .persistWrite
  | .listen _ _ _ | .unlisten _ | .offer _ _ _ | .flush | .wait _ | .setFault _ => False

/-- Moves that publish end by publishing. -/
theorem publishesBy_outcome (hsound : h.tracker.Sound) (htimed : h.Timed) {m : Move}
    (hm : h.Publishes env m) :
  h.PublishesBy env (h.outcome env m)
  := by
  cases m with
  | refresh reason user =>
    obtain ⟨id, c, hok⟩ := hm
    rw [outcome, hok]
    apply publishesBy_refresh hok
  | submit package sourceId user report event =>
    obtain ⟨c, hok⟩ := hm
    rw [outcome, hok]
    apply publishesBy_submit hok
  | reportFailure package sourceId user event =>
    obtain ⟨c, hok⟩ := hm
    rw [outcome, hok]
    apply publishesBy_reportFailure hok
  | dismiss issue =>
    obtain ⟨c, hok⟩ := hm
    rw [outcome, hok]
    apply publishesBy_dismiss hok
  | execute issue actionId =>
    obtain ⟨c, hok⟩ := hm
    rw [outcome, hok]
    apply publishesBy_execute hok
  | clear => apply publishesBy_clear
  | removeUser user => exact (thins_without h user).settle env
  | reload catalog policy =>
    apply Thins.settle
    exact .of_same rfl rfl
  | expire key => apply publishesBy_passed hsound htimed hm.1 hm.2
  | listen _ _ _ | unlisten _ | offer _ _ _ | flush | wait _ | setFault _ => cases hm

/-! ### Moves that do not publish -/

/-- Registering a listener anew offers it the overview of its group. -/
theorem listen_eq_ok_true {listener package : String} {user : UserId} {c : Change}
    (hok : h.listen env listener package user = .ok (true, c)) :
  ∃ group audience, env.users.resolve? user = some group
    ∧ h.audience.register? listener group.parent package = some audience
    ∧ let joined := { h with audience, sequence := h.sequence + 1 }
      c = {
        hub := joined
        effects :=
          [.offerTo group.parent listener joined.sequence (joined.overview env.now group)] }
  := by
  simp only [listen, bind_eq_ok_iff, groupOf_eq_ok_iff] at hok
  obtain ⟨group, hgroup, -, -, hok⟩ := hok
  split at hok
  next => cases hok
  next audience hregister =>
    cases hok
    exact ⟨group, audience, hgroup, hregister, rfl⟩

theorem listen_eq_ok_false {listener package : String} {user : UserId} {c : Change}
    (hok : h.listen env listener package user = .ok (false, c)) :
  c = { hub := h }
  := by
  simp only [listen, bind_eq_ok_iff, groupOf_eq_ok_iff] at hok
  obtain ⟨group, -, -, -, hok⟩ := hok
  split at hok
  next =>
    cases hok
    rfl
  next => cases hok

/-- A change that offers nothing and registers nobody. -/
def QuietBy (h : Hub) (c : Change) : Prop := h.Thins c.hub ∧ c.offers = []

theorem quietBy_refused (h : Hub) : h.QuietBy { hub := h } := ⟨.of_same rfl rfl, rfl⟩

theorem quietBy_write (h : Hub) : h.QuietBy h.write.2 := by
  unfold write
  split
  · dsimp only
    split <;> exact ⟨.of_same rfl rfl, rfl⟩
  · apply quietBy_refused

/-- A call that may be refused publishes if it does when it is carried out. -/
theorem publishesBy_or_quietBy_called {x : Except HubError Change}
    (hx : ∀ c, x = .ok c → h.PublishesBy env c) :
  h.PublishesBy env (h.called x) ∨ h.QuietBy (h.called x)
  := by
  cases x with
  | ok c => exact .inl (hx c rfl)
  | error e => exact .inr (quietBy_refused h)

theorem publishesBy_or_quietBy_passed (hsound : h.tracker.Sound) (htimed : h.Timed)
    (env : Surroundings) (key : DeadlineKey) :
  h.PublishesBy env (h.passed env key) ∨ h.QuietBy (h.passed env key)
  := by
  cases harmed : h.deadlines.isArmed key with
  | false =>
    right
    have hnone : h.deadlines.armed.find? (·.key == key) = none := by
      rw [List.find?_eq_none]
      rw [Deadlines.isArmed, List.any_eq_false] at harmed
      exact harmed
    rw [passed, hnone]
    apply quietBy_refused
  | true =>
    by_cases hkey : key = .persistWrite
    · right
      obtain ⟨e, -, -, hpassed⟩ := exists_passed_eq harmed env
      rw [hpassed, hkey]
      have htaken : h.Thins { h with deadlines := h.deadlines.take e } := .of_same rfl rfl
      obtain ⟨hthins, hoffers⟩ := quietBy_write { h with deadlines := h.deadlines.take e }
      exact ⟨htaken.trans hthins, hoffers⟩
    · left
      apply publishesBy_passed hsound htimed harmed hkey

/-- A move other than an offer publishes, or it offers nothing, or it registers a listener
anew. -/
theorem outcome_cases (hsound : h.tracker.Sound) (htimed : h.Timed) (env : Surroundings)
    {m : Move} (hm : m.isOffer = false) :
  (h.PublishesBy env (h.outcome env m) ∨ h.QuietBy (h.outcome env m))
    ∨ ∃ listener package user, h.listen env listener package user = .ok (true, h.outcome env m)
  := by
  have publishes (hm : h.Publishes env m) := publishesBy_outcome hsound htimed hm
  cases m with
  | refresh reason user =>
    left
    apply publishesBy_or_quietBy_called
    intro c hok
    obtain ⟨id, hok⟩ := map_snd_eq_ok_iff.mp hok
    apply publishesBy_refresh hok
  | submit package sourceId user report event =>
    exact .inl (publishesBy_or_quietBy_called fun _ => publishesBy_submit)
  | reportFailure package sourceId user event =>
    exact .inl (publishesBy_or_quietBy_called fun _ => publishesBy_reportFailure)
  | listen listener package user =>
    rw [outcome]
    cases hok : h.listen env listener package user with
    | error e => exact .inl (.inr (quietBy_refused h))
    | ok answer =>
      obtain ⟨isNew, c⟩ := answer
      cases isNew with
      | true => exact .inr ⟨listener, package, user, hok⟩
      | false =>
        obtain rfl := listen_eq_ok_false hok
        exact .inl (.inr (quietBy_refused h))
  | unlisten listener =>
    left; right
    refine ⟨⟨rfl, rfl, rfl, ?_⟩, rfl⟩
    intro parent
    have hunregister := Audience.registrations_unregister h.audience listener parent
    change (h.audience.unregister listener).registrations parent ⊆ _
    rw [hunregister]
    apply List.filter_subset_self
  | offer _ _ _ => cases hm
  | dismiss issue => exact .inl (publishesBy_or_quietBy_called fun _ => publishesBy_dismiss)
  | execute issue actionId =>
    exact .inl (publishesBy_or_quietBy_called fun _ => publishesBy_execute)
  | flush =>
    left; right
    have hdisarm : h.Thins (h.disarm .persistWrite) := .of_same rfl rfl
    obtain ⟨hthins, hoffers⟩ := quietBy_write (h.disarm .persistWrite)
    exact ⟨hdisarm.trans hthins, hoffers⟩
  | clear | removeUser _ | reload _ _ => exact .inl (.inl (publishes trivial))
  | expire key =>
    left
    apply publishesBy_or_quietBy_passed hsound htimed
  | wait _ | setFault _ =>
    left; right
    exact ⟨.of_same rfl rfl, rfl⟩

/-! ### Sequence numbers -/

/-- A move takes one sequence number at most. -/
theorem sequence_move (hsound : h.tracker.Sound) (htimed : h.Timed) (env : Surroundings)
    (m : Move) :
  (h.move env m).sequence = h.sequence ∨ (h.move env m).sequence = h.sequence + 1
  := by
  cases hoffer : m.isOffer with
  | true =>
    cases m with
    | offer _ _ _ => exact .inl rfl
    | _ => cases hoffer
  | false =>
    rw [← hub_outcome]
    obtain (⟨ended, hthins, hhub, -⟩ | ⟨hthins, -⟩) | ⟨listener, package, user, hok⟩ :=
      outcome_cases hsound htimed env hoffer
    · right
      rw [hhub, ← hthins.sequence]
      rfl
    · exact .inl hthins.sequence
    · obtain ⟨group, audience, -, -, heq⟩ := listen_eq_ok_true hok
      right
      rw [heq]

/-- A run takes as many sequence numbers as it has moves at most, so that fewer than `2 ^ 64`
moves never exhaust a counter of 64 bits. -/
theorem sequence_after_le (catalog : Catalog) (policy : Policy) (archive : Archive)
    (loaded : Except ArchiveError (List SavedRecord)) (time : Nat)
    (moves : List (Surroundings × Move)) :
  ((start catalog policy archive loaded time).after moves).sequence ≤ moves.length
  := by
  induction moves using List.reverseRecOn with
  | nil =>
    have hstart : (start catalog policy archive loaded time).sequence = 0 :=
      (thins_schedulePersist _).sequence
    exact hstart.le
  | append_singleton moves m ih =>
    obtain ⟨env, m⟩ := m
    obtain ⟨hsound, htimed⟩ := timed_after (sound_start catalog policy archive loaded time)
      (timed_start catalog policy archive loaded time) moves
    rw [after_concat, List.length_append, List.length_singleton]
    have hmove := sequence_move hsound htimed env m
    omega

end Hub

end SafetyHub
