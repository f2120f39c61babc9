import SafetyHub.Proofs.Deadline.Arming
import SafetyHub.Proofs.Hub.Run

/-!
# Deadlines that calls leave alone

The deadlines for saving and for issues that come back are not dropped to make room for others,
and each is armed and dropped by few calls only.  All other calls, and other deadlines that pass,
leave it as it is: `Hub.Spares`.  The moves that leave the deadline for saving alone also leave
alone what a hub knows of issues, but for the marks of failed sources: `Hub.KeepsIssues`.  Those
that leave the other deadline alone may change whether dismissals count as saved, which does not
matter for when issues come back: `Hub.SameIssues`.
-/

namespace SafetyHub

/-- Whether a move leaves the deadline of a key alone, where that is not bounded. -/
def Move.spares (key : DeadlineKey) : Move → Bool
  | .refresh _ _ | .reportFailure _ _ _ _ | .listen _ _ _ | .unlisten _ | .offer _ _ _
  | .execute _ _ | .wait _ | .setFault _ => true
  | .flush => key != .persistWrite
  | .expire other => key != other
  | .submit _ _ _ _ _ | .dismiss _ | .clear | .removeUser _ | .reload _ _ => false

namespace Hub

variable {h h' h'' : Hub} {env : Surroundings} {key : DeadlineKey}

/-- The deadline of a key is left as it is. -/
def Spares (h : Hub) (key : DeadlineKey) (h' : Hub) : Prop :=
  h.deadlines.Spares key h'.deadlines

/-- Saving neither arms nor drops a deadline. -/
theorem deadlines_write (h : Hub) : h.write.2.hub.deadlines = h.deadlines := by
  obtain heq | ⟨-, archive, -, heq⟩ := hub_write_cases h <;> rw [heq]

/-! ### Deadlines that are seen to -/

theorem isArmed_schedulePersist (h : Hub) :
  h.schedulePersist.deadlines.isArmed .persistWrite
    = (h.deadlines.isArmed .persistWrite || h.dismissals.dirty)
  := by
  unfold schedulePersist
  split
  next hcond =>
    rw [Bool.and_eq_true] at hcond
    rw [hcond.1, Bool.or_true]
    apply Deadlines.isArmed_arm
  next hcond =>
    cases hdirty : h.dismissals.dirty with
    | false => rw [Bool.or_false]
    | true => simpa [hdirty] using hcond

theorem isArmed_scheduleResurface (h : Hub) (now : Instant) :
  (h.scheduleResurface now).deadlines.isArmed .resurface = (h.nextResurfacing now).isSome
  := by
  unfold scheduleResurface
  split
  next hnone =>
    rw [hnone, disarm, Deadlines.isArmed_disarm, bne_self_eq_false, Bool.and_false]
    rfl
  next back hback =>
    rw [hback]
    apply Deadlines.isArmed_arm

/-! ### Deadlines that are left alone -/

namespace Spares

theorem of_eq (hsame : h'.deadlines = h.deadlines) : h.Spares key h' := by
  rw [Spares, hsame]
  apply Deadlines.Spares.refl

theorem refl (h : Hub) : h.Spares key h := of_eq rfl

theorem trans (hab : h.Spares key h') (hbc : h'.Spares key h'') : h.Spares key h'' :=
  Deadlines.Spares.trans hab hbc

/-- Hubs that are alike have the same bounded deadlines. -/
theorem of_like (hlike : h.Like h') (hkey : key.isBounded = true) : h.Spares key h' := by
  rintro e rfl
  have hbounded : e ∈ h'.deadlines.bounded ↔ e ∈ h.deadlines.bounded := by
    rw [hlike.bounded_eq]
  simpa [Deadlines.mem_bounded_iff, hkey] using hbounded

theorem isArmed_eq (hspares : h.Spares key h') :
  h'.deadlines.isArmed key = h.deadlines.isArmed key
  := Deadlines.Spares.isArmed_eq hspares

theorem arm (h : Hub) {other : DeadlineKey} (hne : key ≠ other) (hkey : key.isBounded = false)
    (delay : Nat) :
  h.Spares key (h.arm other delay)
  := Deadlines.Spares.arm h.deadlines hne hkey delay ()

theorem disarm (h : Hub) {other : DeadlineKey} (hne : key ≠ other) :
  h.Spares key (h.disarm other)
  := Deadlines.Spares.disarm h.deadlines hne

theorem publish (h : Hub) (env : Surroundings) : h.Spares key (h.publish env).hub := of_eq rfl

theorem schedulePersist (h : Hub) (hne : key ≠ .persistWrite) (hkey : key.isBounded = false) :
  h.Spares key h.schedulePersist
  := by
  unfold Hub.schedulePersist
  split
  · apply arm h hne hkey
  · apply refl

theorem scheduleResurface (h : Hub) (now : Instant) (hne : key ≠ .resurface)
    (hkey : key.isBounded = false) :
  h.Spares key (h.scheduleResurface now)
  := by
  unfold Hub.scheduleResurface
  split
  · apply disarm h hne
  · apply arm h hne hkey

/-! ### Refreshes and actions -/

theorem startRefresh (h : Hub) (env : Surroundings) (reason : RefreshReason) (group : ProfileGroup)
    (hkey : key.isBounded = false) :
  h.Spares key (h.startRefresh env reason group).2
  := by
  have hrefresh : key.isRefresh = false := by
    cases key <;> first | rfl | cases hkey
  have abandoned (tracker : RefreshTracker) : h.Spares key { h with
      tracker, deadlines := h.deadlines.disarmMatching (·.isRefresh) } :=
    Deadlines.Spares.disarmMatching h.deadlines hrefresh
  simp only [Hub.startRefresh]
  split
  · apply abandoned
  · apply (abandoned _).trans
    apply arm _ _ hkey
    rintro rfl
    cases hkey

theorem finishAction? {action : ActionKey} (hfin : h.finishAction? action = some h')
    (hkey : key.isBounded = false) :
  h.Spares key h'
  := by
  obtain ⟨-, rfl⟩ := finishAction?_eq_some_iff.mp hfin
  apply Deadlines.Spares.disarm h.deadlines
  rintro rfl
  cases hkey

theorem applyEvent (h : Hub) (env : Surroundings) (source : SourceKey) (event : Event)
    (failed : Bool) (hkey : key.isBounded = false) :
  h.Spares key (h.applyEvent env source event failed).1.hub
  := by
  obtain heq | ⟨id, heq⟩ | ⟨action, -, hfin⟩ := hub_applyEvent_cases h env source event failed
  · rw [heq]
    apply refl
  · rw [heq, hub_answerRefresh]
    dsimp only
    split
    · apply Deadlines.Spares.disarm h.deadlines
      rintro rfl
      cases hkey
    · apply of_eq rfl
  · apply finishAction? hfin hkey

theorem acceptFailure (h : Hub) (env : Surroundings) (source : SourceKey) (event : Event)
    (hkey : key.isBounded = false) :
  h.Spares key (h.acceptFailure env source event).hub
  := by
  have marked : h.Spares key { h with reports := h.reports.markFailed source } := of_eq rfl
  apply marked.trans
  apply (applyEvent _ env source event true hkey).trans
  apply publish _ env

theorem keepActions (h : Hub) (keep : ActionKey → Bool) (hkey : key.isBounded = false) :
  h.Spares key (h.keepActions keep)
  := by
  apply Deadlines.Spares.disarmEach h.deadlines
  intro hin
  obtain ⟨action, -, rfl⟩ := List.mem_map.mp hin
  cases hkey

theorem store (h : Hub) (now : Instant) (source : SourceKey) (report : Option Report)
    (hkey : key.isBounded = false) :
  h.Spares key (h.store now source report)
  := by
  have stored : h.Spares key { h with
      dismissals := h.dismissals.reconcile source ((report.map (·.issueIds)).getD []) now
      reports := h.reports.set source report now } := of_eq rfl
  apply stored.trans
  apply keepActions _ _ hkey

theorem beginAction (h : Hub) (action : ActionKey) (hkey : key.isBounded = false) :
  h.Spares key (h.beginAction action)
  := by
  apply Deadlines.Spares.arm h.deadlines _ hkey
  rintro rfl
  cases hkey

/-! ### Saving, and deadlines that pass -/

theorem write (h : Hub) : h.Spares key h.write.2.hub := of_eq (deadlines_write h)

theorem turn (h : Hub) (env : Surroundings) {other : DeadlineKey} (hne : key ≠ other)
    (hkey : key.isBounded = false) :
  h.Spares key (h.turn env other).hub
  := by
  cases other with
  | refresh id =>
    rw [Hub.turn, refreshOverdue]
    split
    · apply refl
    · dsimp only
      split <;> apply of_eq rfl
  | resolveAction action =>
    rw [Hub.turn, actionOverdue]
    split
    next => apply refl
    next h₁ hend =>
      obtain ⟨-, rfl⟩ := endAction?_eq_some_iff.mp hend
      apply publish _ env
  | resurface =>
    apply (scheduleResurface h env.now hne hkey).trans
    apply publish _ env
  | persistWrite => apply write

theorem expire (h : Hub) (env : Surroundings) {other : DeadlineKey} (hne : key ≠ other)
    (hkey : key.isBounded = false) :
  h.Spares key (h.expire env other)
  := by
  obtain heq | ⟨e, -, rfl, heq⟩ := expire_cases h env other
  · rw [heq]
    apply refl
  · have taken : h.Spares key { h with deadlines := h.deadlines.take e } :=
      Deadlines.Spares.take h.deadlines hne
    rw [heq]
    apply taken.trans
    apply turn _ env hne hkey

/-! ### Moves -/

/-- A deadline that is not bounded is left as it is by most moves. -/
theorem move (h : Hub) (env : Surroundings) {m : Move} (hm : m.spares key = true)
    (hkey : key.isBounded = false) :
  h.Spares key (h.move env m)
  := by
  cases m with
  | refresh reason user =>
    apply afterCall_elim (refl h)
    intro c hok
    obtain ⟨id, hok⟩ := map_snd_eq_ok_iff.mp hok
    simp only [refresh, bind_eq_ok_iff] at hok
    obtain ⟨group, -, -, -, hok⟩ := hok
    cases hok
    apply (startRefresh h env reason group hkey).trans
    apply publish _ env
  | reportFailure package sourceId user event =>
    apply afterCall_elim (refl h)
    intro c hok
    obtain ⟨-, -, rfl⟩ := reportFailure_eq_ok hok
    apply acceptFailure h env _ event hkey
  | listen listener package user =>
    apply afterCall_elim (refl h)
    intro c hok
    obtain ⟨isNew, hok⟩ := map_snd_eq_ok_iff.mp hok
    obtain ⟨-, group, -, hsame | ⟨audience, -, hnew⟩⟩ := listen_eq_ok hok
    · rw [hsame]
      apply refl
    · rw [hnew]
      apply of_eq rfl
  | execute issue actionId =>
    apply afterCall_elim (refl h)
    intro c hok
    simp only [execute, bind_eq_ok_iff] at hok
    obtain ⟨-, -, package, -, hok⟩ := hok
    cases hok
    apply (beginAction h ⟨issue, actionId⟩ hkey).trans
    apply publish _ env
  | flush =>
    apply (disarm h (bne_iff_ne.mp hm)).trans
    apply write
  | expire other => apply expire h env (bne_iff_ne.mp hm) hkey
  | unlisten _ | offer _ _ _ | wait _ | setFault _ => apply of_eq rfl
  | submit _ _ _ _ _ | dismiss _ | clear | removeUser _ | reload _ _ => cases hm

end Spares

/-! ### What is known of issues -/

/-- Reports, dismissals and the policy are left as they are. -/
structure KeepsIssues (h h' : Hub) : Prop where
  policy : h'.policy = h.policy
  dismissals : h'.dismissals = h.dismissals
  reports : h'.reports.reports = h.reports.reports

theorem Keeps.keepsIssues (hkeeps : h.Keeps h') : h.KeepsIssues h' :=
  ⟨hkeeps.policy, hkeeps.dismissals, hkeeps.reports⟩

theorem KeepsIssues.refl (h : Hub) : h.KeepsIssues h := (Keeps.refl h).keepsIssues

theorem KeepsIssues.move (h : Hub) (env : Surroundings) {m : Move}
    (hm : m.spares .persistWrite = true) :
  h.KeepsIssues (h.move env m)
  := by
  cases m with
  | refresh reason user =>
    apply afterCall_elim (refl h)
    intro c hok
    obtain ⟨id, hok⟩ := map_snd_eq_ok_iff.mp hok
    obtain ⟨-, group, -, -, hlike⟩ := refresh_eq_ok hok
    apply ((keeps_startRefresh h env reason group).trans hlike.keeps).keepsIssues
  | reportFailure package sourceId user event =>
    apply afterCall_elim (refl h)
    intro c hok
    obtain ⟨-, -, rfl⟩ := reportFailure_eq_ok hok
    apply Keeps.keepsIssues
    apply (keeps_markFailed h ⟨sourceId, user⟩).trans
    apply (keeps_applyEvent _ env _ event true).trans
    apply (like_acceptFailure h env _ event).keeps
  | listen listener package user =>
    apply afterCall_elim (refl h)
    intro c hok
    obtain ⟨isNew, hok⟩ := map_snd_eq_ok_iff.mp hok
    obtain ⟨-, group, -, hsame | ⟨audience, -, hnew⟩⟩ := listen_eq_ok hok
    · rw [hsame]
      apply refl
    · rw [hnew]
      apply (Keeps.elsewhere h _ _ _ _).keepsIssues
  | execute issue actionId =>
    apply afterCall_elim (refl h)
    intro c hok
    obtain ⟨-, -, hlike⟩ := execute_eq_ok hok
    exact ⟨hlike.keeps.policy, hlike.keeps.dismissals, hlike.keeps.reports⟩
  | expire key =>
    obtain heq | ⟨e, -, rfl, heq⟩ := expire_cases h env key
    · rw [Hub.move, heq]
      apply refl
    · have taken : h.Keeps { h with deadlines := h.deadlines.take e } := .elsewhere h _ _ _ _
      rw [Hub.move, heq]
      apply (taken.trans (keeps_turn _ env (bne_iff_ne.mp hm).symm)).keepsIssues
  | unlisten _ | offer _ _ _ | wait _ | setFault _ => exact ⟨rfl, rfl, rfl⟩
  | submit _ _ _ _ _ | dismiss _ | flush | clear | removeUser _ | reload _ _ => cases hm

/-- Reports, dismissal records and the policy are left as they are. -/
structure SameIssues (h h' : Hub) : Prop where
  policy : h'.policy = h.policy
  records : h'.dismissals.records = h.dismissals.records
  reports : h'.reports.reports = h.reports.reports

theorem KeepsIssues.same (hkeeps : h.KeepsIssues h') : h.SameIssues h' :=
  ⟨hkeeps.policy, by rw [hkeeps.dismissals], hkeeps.reports⟩

namespace SameIssues

theorem refl (h : Hub) : h.SameIssues h := (KeepsIssues.refl h).same

theorem trans (hab : h.SameIssues h') (hbc : h'.SameIssues h'') : h.SameIssues h'' :=
  ⟨hbc.policy.trans hab.policy, hbc.records.trans hab.records, hbc.reports.trans hab.reports⟩

theorem write (h : Hub) : h.SameIssues h.write.2.hub := by
  obtain heq | ⟨-, archive, -, heq⟩ := hub_write_cases h
  · rw [heq]
    apply refl
  · rw [heq]
    exact ⟨rfl, rfl, rfl⟩

theorem resurfacings_eq (hsame : h.SameIssues h') (now : Instant) :
  h'.resurfacings now = h.resurfacings now
  := by
  simp only [resurfacings, Dismissals.resurfaceAt?, Dismissals.record?, hsame.policy,
    hsame.records, hsame.reports]

theorem nextResurfacing_eq (hsame : h.SameIssues h') (now : Instant) :
  h'.nextResurfacing now = h.nextResurfacing now
  := by
  rw [nextResurfacing, hsame.resurfacings_eq, nextResurfacing]

theorem scheduleResurface (h : Hub) (env : Surroundings) :
  h.SameIssues ((h.scheduleResurface env.now).publish env).hub
  := ((Like.scheduleResurface h env.now).trans (.publish _ env)).keeps.keepsIssues.same

theorem move (h : Hub) (env : Surroundings) {m : Move} (hm : m.spares .resurface = true) :
  h.SameIssues (h.move env m)
  := by
  cases m with
  | flush =>
    have disarmed : h.SameIssues (h.disarm .persistWrite) := ⟨rfl, rfl, rfl⟩
    apply disarmed.trans (write _)
  | expire key =>
    by_cases hkey : key = .persistWrite
    · obtain heq | ⟨e, -, -, heq⟩ := expire_cases h env key
      · rw [Hub.move, heq]
        apply refl
      · have taken : h.SameIssues { h with deadlines := h.deadlines.take e } := ⟨rfl, rfl, rfl⟩
        rw [Hub.move, heq, hkey]
        apply taken.trans (write _)
    · have hspares : (Move.expire key).spares .persistWrite = true :=
        bne_iff_ne.mpr (Ne.symm hkey)
      apply (KeepsIssues.move h env hspares).same
  | refresh _ _ | reportFailure _ _ _ _ | listen _ _ _ | unlisten _ | offer _ _ _ | execute _ _
  | wait _ | setFault _ => apply (KeepsIssues.move h env rfl).same
  | submit _ _ _ _ _ | dismiss _ | clear | removeUser _ | reload _ _ => cases hm

end SameIssues

/-! ### Calls that see to both deadlines -/

theorem isArmed_persistWrite_settle (h : Hub) (env : Surroundings) :
  (h.settle env).hub.deadlines.isArmed .persistWrite
    = (h.deadlines.isArmed .persistWrite || h.dismissals.dirty)
  := by
  have hspares : h.schedulePersist.Spares .persistWrite (h.settle env).hub :=
    (Spares.scheduleResurface _ env.now DeadlineKey.noConfusion rfl).trans (.publish _ env)
  rw [hspares.isArmed_eq, isArmed_schedulePersist]

theorem isArmed_resurface_settle (h : Hub) (env : Surroundings) :
  (h.settle env).hub.deadlines.isArmed .resurface
    = ((h.settle env).hub.nextResurfacing env.now).isSome
  := by
  have hsame : h.schedulePersist.SameIssues (h.settle env).hub := .scheduleResurface _ env
  rw [hsame.nextResurfacing_eq]
  apply isArmed_scheduleResurface

end Hub

end SafetyHub
