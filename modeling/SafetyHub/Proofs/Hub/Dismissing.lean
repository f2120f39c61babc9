import SafetyHub.Proofs.Hub.Agreement
import SafetyHub.Proofs.Hub.Isolation
import SafetyHub.Proofs.Instant.Order
import SafetyHub.Proofs.Overview.SettingAside
import SafetyHub.Proofs.Profile.Partition

/-!
# Dismissing an issue

Dismissing an issue that is shown moves it among the dismissed ones of its group's overview, in
its place, if a dismissal counts at once: if the issue's severity has a delay, or the dismissal is
one too many for the issue to come back.  The other issues keep their order, and the overviews of
the groups that the issue's user does not belong to stay the same.
-/

namespace SafetyHub

/-- A dismissal counts at once if the severity has a delay or the record is spent by it. -/
theorem DismissalRecord.isDismissed_dismiss {r : DismissalRecord} {level : Severity}
    {policy : Policy} {now : Instant}
    (hcounts : 0 < policy.resurfaceDelay.get level
      ∨ policy.resurfaceMaxCount.get level < (r.dismiss now).dismissCount) :
  (r.dismiss now).isDismissed level policy now = true
  := by
  have hlast : (r.dismiss now).dismissedAt = some now := rfl
  rw [isDismissed, hlast]
  simp only [Bool.or_eq_true, decide_eq_true_eq, isSpent]
  obtain hdelay | hspent := hcounts
  · right
    have hpositive : 0 < (policy.resurfaceDelay.get level).toNat := UInt64.lt_iff_toNat_lt.mp hdelay
    have hlong : 0 < (policy.resurfacing.delay level).clamped := by
      rw [Duration.clamped, Policy.resurfacing, Millis.total_duration]
      unfold Millis.nanos Duration.limit Instant.millisecond
      omega
    rw [Instant.since_of_seconds_eq rfl]
    omega
  · exact .inl hspent

/-- A group that a user does not belong to has no key of the user. -/
theorem Catalog.Applies.userId_ne {c : Catalog} {s : Source} {group : ProfileGroup}
    {key : SourceKey} {user : UserId} (happlies : c.Applies s group key) (hnormal : group.Normal)
    (hother : group.contains user = false) :
  key.userId ≠ user
  := by
  rintro rfl
  rw [← Bool.not_eq_true, ProfileGroup.contains_iff_mem_members, ProfileGroup.members,
    List.mem_cons, not_or] at hother
  obtain huser | ⟨-, huser⟩ := happlies.user
  · exact hother.1 huser
  · exact hother.2 (hnormal.running_sublist.subset huser)

namespace Hub

variable {h : Hub} {env : Surroundings} {issue : IssueKey} {c : Change} {o : Overview}

theorem view_eq_ok_iff {user : UserId} :
  h.view env user = .ok o ↔ ∃ group, env.users.resolve? user = some group
    ∧ h.policy.isActive = true ∧ o = h.overview env.now group
  := by
  simp only [view, bind_eq_ok_iff, groupOf_eq_ok_iff, ensureEnabled_eq_ok_iff]
  simp [eq_comm (a := o)]

theorem policy_of_dismiss (hok : h.dismiss env issue = .ok c) : c.hub.policy = h.policy := by
  obtain ⟨-, -, rfl⟩ := dismiss_eq_ok_iff.mp hok
  exact (Like.settle _ env).keeps.policy

/-- After a dismissal overviews are drawn from the same but for the dismissals. -/
theorem overview_of_dismiss (hok : h.dismiss env issue = .ok c) (group : ProfileGroup) :
  c.hub.overview env.now group
    = { h.basis env.now with dismissals := c.hub.dismissals }.assemble
      (h.tracker.statusFor group) group
  := by
  obtain ⟨-, -, rfl⟩ := dismiss_eq_ok_iff.mp hok
  obtain ⟨deadlines, sequence, -, -, heq⟩ := Like.settle _ env
  rw [heq]
  rfl

/-- A hub that lists an issue in an overview has it in a report. -/
theorem reports_of_lists {now : Instant} {group : ProfileGroup} {v : IssueView}
    (hlists : (h.basis now).Lists group v) :
  h.reports.Reports v.key
  := by
  obtain ⟨s, -, -, user, -, report, hreport, reported, hin, hdraws⟩ := hlists
  rw [hdraws.key_eq]
  exact ⟨report, hreport, List.mem_map_of_mem hin⟩

/-- Dismissing an issue that is shown sets it aside, if the dismissal counts at once. -/
theorem Agrees.setsAside (hagrees : h.Agrees) {group : ProfileGroup} (hnormal : group.Normal)
    {v : IssueView} (hv : v ∈ (h.overview env.now group).issues)
    (hok : h.dismiss env v.key = .ok c)
    (hcounts : ∀ r, h.dismissals.record? v.key = some r →
      0 < h.policy.resurfaceDelay.get v.severity
        ∨ h.policy.resurfaceMaxCount.get v.severity < (r.dismiss env.now).dismissCount) :
  (h.basis env.now).SetsAside v (h.overview env.now group) (c.hub.overview env.now group)
  := by
  obtain ⟨r, hr, hdismissed, hothers⟩ := hagrees.dismiss_eq_ok hok
  rw [overview_of_dismiss hok]
  apply Basis.assemble_setsAside hnormal _ hv hothers
  · show c.hub.dismissals.isDismissed v.key v.severity h.policy env.now = true
    rw [Dismissals.isDismissed, hdismissed]
    exact DismissalRecord.isDismissed_dismiss (hcounts r hr)
  · intro key report hreport
    exact (hagrees.named key report hreport).nodup

/-- Dismissing an issue leaves the overviews of other groups than its user's as they are. -/
theorem Agrees.overview_eq_of_dismiss (hagrees : h.Agrees) {group : ProfileGroup}
    (hnormal : group.Normal) (hother : group.contains issue.userId = false)
    (hok : h.dismiss env issue = .ok c) :
  c.hub.overview env.now group = h.overview env.now group
  := by
  obtain ⟨-, -, -, hothers⟩ := hagrees.dismiss_eq_ok hok
  rw [overview_of_dismiss hok]
  apply Basis.assemble_congr_of_applies (b := h.basis env.now)
  intro s key happlies
  refine ⟨rfl, rfl, ?_, fun _ _ => Iff.rfl⟩
  intro id
  apply hothers
  rintro rfl
  exact happlies.userId_ne hnormal hother rfl

/-- After every run, dismissing an issue that the overview of its user's group shows moves that
issue and nothing else, if the severity of the issue has a delay or does not allow the dismissals
that the issue has then had.  At the same reading of the clock the overview shows the other issues
in the same order, and the issue is among the dismissed ones, in its place; entries, errors and
the refresh status are the same, and the overall severity is no greater.  The counts of issues
move by one if the source of the issue counts, and else not at all.  The overviews of the groups
that the issue's user does not belong to are the same. -/
theorem dismissal_moves_one_issue (catalog : Catalog) (policy : Policy) (archive : Archive)
    (loaded : Except ArchiveError (List SavedRecord)) (time : Nat)
    (moves : List (Surroundings × Move)) (env : Surroundings) (issue : IssueKey) (o : Overview)
    (v : IssueView) :
  let h := (start catalog policy archive loaded time).after moves
  h.view env issue.userId = .ok o → v ∈ o.issues → v.key = issue →
    (0 < h.policy.resurfaceDelay.get v.severity
      ∨ ∃ r, h.dismissals.record? issue = some r
        ∧ h.policy.resurfaceMaxCount.get v.severity < (r.dismiss env.now).dismissCount) →
    ∃ c o', h.dismiss env issue = .ok c ∧ c.hub.view env issue.userId = .ok o'
      ∧ (h.basis env.now).SetsAside v o o'
      ∧ ∀ user group, env.users.resolve? user = some group →
        group.contains issue.userId = false → c.hub.view env user = h.view env user
  := by
  rintro h hview hv rfl hcounts
  have hagrees : h.Agrees := agrees_run catalog policy archive loaded time moves
  obtain ⟨group, hgroup, hactive, rfl⟩ := view_eq_ok_iff.mp hview
  obtain ⟨hlists, -⟩ := Basis.mem_views_iff.mp (Basis.issues_assemble _ _ _ ▸ hv)
  have hreported := ReportStore.isSome_issue?_iff.mpr (reports_of_lists hlists)
  obtain ⟨c, hok⟩ : ∃ c, h.dismiss env v.key = .ok c :=
    ⟨_, dismiss_eq_ok_iff.mpr ⟨hactive, hreported, rfl⟩⟩
  have hactive' : c.hub.policy.isActive = true := by
    rwa [policy_of_dismiss hok]
  refine ⟨c, c.hub.overview env.now group, hok, ?_, ?_, ?_⟩
  · exact view_eq_ok_iff.mpr ⟨group, hgroup, hactive', rfl⟩
  · apply hagrees.setsAside (Roster.normal_of_resolve? hgroup) hv hok
    intro r hr
    apply hcounts.imp_right
    rintro ⟨r', hr', hspent⟩
    rwa [Option.some_inj.mp (hr.symm.trans hr')]
  · intro user other hother hstranger
    have hsame := hagrees.overview_eq_of_dismiss (Roster.normal_of_resolve? hother) hstranger hok
    rw [view_eq_ok_iff.mpr ⟨other, hother, hactive, rfl⟩, ← hsame]
    exact view_eq_ok_iff.mpr ⟨other, hother, hactive', rfl⟩

/-- The one issue that is reported is dismissed. -/
theorem dismissal_of_one_issue :
  let h := (start Sample.catalog {} {} (.ok []) 0).after
    [(Sample.device, Sample.submission ["fix"])]
  ∃ o v c o', h.view Sample.device 0 = .ok o ∧ v ∈ o.issues ∧ v.key = ⟨"s", "i", 0⟩
    ∧ 0 < h.policy.resurfaceDelay.get v.severity
    ∧ h.dismiss Sample.device ⟨"s", "i", 0⟩ = .ok c ∧ c.hub.view Sample.device 0 = .ok o'
    ∧ (h.basis .epoch).SetsAside v o o'
  := by
  intro h
  let group : ProfileGroup := .ofMembers 0 []
  let o := h.overview .epoch group
  have hgroup : Sample.device.users.resolve? 0 = some group := by decide
  have hview : h.view Sample.device 0 = .ok o := view_eq_ok_iff.mpr ⟨group, hgroup, rfl, rfl⟩
  let reported : Issue := (Sample.report ["fix"]).issues[0]
  let v := (h.basis .epoch).issueView ⟨"s", "i", 0⟩ reported
  have hreport : h.reports.report? ⟨"s", 0⟩ = some (Sample.report ["fix"]) := rfl
  have hlists : (h.basis .epoch).Lists group v :=
    ⟨_, List.mem_singleton_self _, rfl, 0, .inl rfl, _, hreport, reported,
      List.mem_singleton_self _, Basis.draws_iff.mpr rfl⟩
  have hv : v ∈ o.issues := by
    apply (Basis.issues_assemble _ _ _).symm ▸ Basis.mem_views_iff.mpr ⟨hlists, ?_⟩
    decide
  have hdelay : 0 < h.policy.resurfaceDelay.get v.severity := by decide
  obtain ⟨c, o', hok, hview', hsets, -⟩ := dismissal_moves_one_issue Sample.catalog {} {} (.ok [])
    0 [(Sample.device, Sample.submission ["fix"])] Sample.device ⟨"s", "i", 0⟩ o v hview hv rfl
    (.inl hdelay)
  exact ⟨o, v, c, o', hview, hv, rfl, hdelay, hok, hview', hsets⟩

end Hub

end SafetyHub
