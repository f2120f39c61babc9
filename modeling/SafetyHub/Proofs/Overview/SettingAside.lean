import SafetyHub.Proofs.Overview.Summary

/-!
# Setting an issue aside

When the dismissals of a basis change so that one of the shown issues is dismissed, and no record
of another issue changes, then the overview shows the others as before and in the same order, and
it lists that issue among the dismissed ones, in its place.  Its source is counted with one issue
less that is shown and one more that is dismissed, if it counts at all.  The overall severity does
not rise, and nothing else is different.
-/

namespace SafetyHub

namespace OverallSeverity

theorem ofSeverity_le_ofSeverity {level level' : Severity} (hle : level ≤ level') :
  ofSeverity level ≤ ofSeverity level'
  := by
  cases level <;> cases level' <;> first | decide | exact absurd hle (by decide)

theorem ok_le_ofSeverity (level : Severity) : ok ≤ ofSeverity level := by
  cases level <;> decide

/-- The overall severity of levels, one of which may be the greatest. -/
def ofLevels (levels : List Severity) : OverallSeverity :=
  match Severity.maximum levels with
  | none => .ok
  | some level => .ofSeverity level

/-- Fewer levels do not have a greater overall severity. -/
theorem ofLevels_le_of_subset {levels levels' : List Severity} (hsub : levels' ⊆ levels) :
  ofLevels levels' ≤ ofLevels levels
  := by
  rw [ofLevels, ofLevels]
  cases hmax' : Severity.maximum levels' with
  | none =>
    cases Severity.maximum levels with
    | none => exact Nat.le_refl _
    | some level => apply ok_le_ofSeverity
  | some level' =>
    obtain ⟨hmem, -⟩ := Severity.maximum_eq_some_iff.mp hmax'
    cases hmax : Severity.maximum levels with
    | none =>
      rw [Severity.maximum, List.max?_eq_none_iff] at hmax
      rw [hmax] at hsub
      cases hsub hmem
    | some level =>
      apply ofSeverity_le_ofSeverity
      apply (Severity.maximum_eq_some_iff.mp hmax).2 (hsub hmem)

end OverallSeverity

namespace Basis

variable {b : Basis} {group : ProfileGroup} {v : IssueView} {dismissals : Dismissals}

/-- From one overview to another, an issue that was shown has become a dismissed one. -/
structure SetsAside (b : Basis) (v : IssueView) (o o' : Overview) : Prop where
  issues : ∃ before after, o.issues = before ++ v :: after ∧ o'.issues = before ++ after
  dismissedIssues : ∃ before after, o.dismissedIssues = before ++ after
    ∧ o'.dismissedIssues = before ++ v :: after
    ∧ (∀ w ∈ before, b.place w < b.place v) ∧ ∀ w ∈ after, b.place v < b.place w
  entries : o'.entries = o.entries
  errorEntries : o'.status.errorEntries = o.status.errorEntries
  refreshStatus : o'.status.refreshStatus = o.status.refreshStatus
  severity_le : o'.status.severity ≤ o.status.severity
  activeSources : o'.counts.activeSources = o.counts.activeSources
  /-- The counts of issues move by one if the source of the issue counts. -/
  counted : if (b.catalog.source? v.key.sourceId).any (·.loggable)
    then o.counts.openIssues = o'.counts.openIssues + 1
      ∧ o'.counts.dismissedIssues = o.counts.dismissedIssues + 1
    else o'.counts.openIssues = o.counts.openIssues
      ∧ o'.counts.dismissedIssues = o.counts.dismissedIssues

/-! ### The severity of fewer issues -/

/-- With fewer issues that are not dismissed the severity is no greater. -/
theorem severity_le_of_subset {cells : List Cell} {issues issues' : List RankedIssue}
    (hsub : issues'.filter (!·.dismissed) ⊆ issues.filter (!·.dismissed)) :
  b.severity cells issues' ≤ b.severity cells issues
  := by
  unfold severity
  split
  next =>
    apply OverallSeverity.ofLevels_le_of_subset
    apply List.append_subset.mpr
    constructor
    · apply List.subset_append_left
    · apply List.subset_append_of_subset_right
      apply List.map_subset _ hsub
  next => exact Nat.le_refl _

/-! ### Other dismissals -/

/-- Other dismissals change which issues of a cell are dismissed. -/
theorem issuesIn_withDismissals (b : Basis) (dismissals : Dismissals) (c : Cell) :
  { b with dismissals }.issuesIn c
    = (b.issuesIn c).map fun i => { i with dismissed := { b with dismissals }.isDismissed i.view }
  := by
  have hreport : { b with dismissals }.report? c = b.report? c := rfl
  rw [issuesIn, issuesIn, hreport]
  cases b.report? c with
  | none => rfl
  | some r =>
    rw [List.map_map]
    rfl

/-- Other dismissals do not change the order of the issues. -/
theorem sorted_withDismissals (b : Basis) (dismissals : Dismissals) (group : ProfileGroup) :
  { b with dismissals }.sorted group
    = (b.sorted group).map fun i =>
      { i with dismissed := { b with dismissals }.isDismissed i.view }
  := by
  have hranked : { b with dismissals }.ranked group
      = (b.ranked group).map fun i =>
        { i with dismissed := { b with dismissals }.isDismissed i.view } := by
    rw [ranked, ranked, List.map_flatMap]
    apply List.flatMap_congr
    intro c _
    apply issuesIn_withDismissals
  rw [sorted, sorted, hranked]
  symm
  apply List.map_mergeSort
  intro i _ j _
  rfl

/-! ### One more dismissed issue -/

/-- The source of an issue says whether the issue counts. -/
theorem loggable_of_mem_ranked {i : RankedIssue} (hi : i ∈ b.ranked group) :
  i.loggable = (b.catalog.source? i.view.key.sourceId).any (·.loggable)
  := by
  obtain ⟨s, report, issue, hplaced⟩ := mem_ranked_iff.mp hi
  have hs : s ∈ b.catalog.sources :=
    (List.mem_filter.mp (List.mem_of_getElem? hplaced.source_eq)).1
  have hid : i.view.key.sourceId = s.id := by
    rw [hplaced.view_eq]
    rfl
  rw [hid, Catalog.source?_eq_some hs, hplaced.loggable_eq, Option.any_some]

/-- Sorted issues other than one have other keys than that one. -/
theorem key_ne_of_sorted (hnormal : group.Normal)
    (hdistinct : ∀ key report, b.reports.report? key = some report → report.issueIds.Nodup)
    {before after : List RankedIssue} {i : RankedIssue}
    (hsplit : b.sorted group = before ++ i :: after) :
  ∀ j ∈ before ++ after, j.view.key ≠ i.view.key
  := by
  have hnodup := nodup_keys_sorted hnormal hdistinct
  rw [hsplit, List.map_append, List.map_cons, List.nodup_middle, ← List.map_append] at hnodup
  intro j hj heq
  apply (List.nodup_cons.mp hnodup).1
  rw [← heq]
  apply List.mem_map_of_mem hj

/-- An issue whose record is the same in other dismissals is dismissed as before. -/
theorem withDismissals_eq_self {i : RankedIssue} (hi : i ∈ b.ranked group)
    (hsame : dismissals.record? i.view.key = b.dismissals.record? i.view.key) :
  { i with dismissed := { b with dismissals }.isDismissed i.view } = i
  := by
  obtain ⟨s, report, issue, hplaced⟩ := mem_ranked_iff.mp hi
  have hdismissed : { b with dismissals }.isDismissed i.view = b.isDismissed i.view := by
    rw [isDismissed, isDismissed, Dismissals.isDismissed, Dismissals.isDismissed, hsame]
  rw [hdismissed, ← hplaced.dismissed_eq]

/-- If an issue that is shown becomes dismissed and no other one changes, then the sorted issues
are the same but for that one. -/
theorem sorted_setAside (hnormal : group.Normal)
    (hdistinct : ∀ key report, b.reports.report? key = some report → report.issueIds.Nodup)
    (hshown : b.Lists group v) (hnew : b.isDismissed v = false)
    (hothers : ∀ key, key ≠ v.key → dismissals.record? key = b.dismissals.record? key)
    (haway : { b with dismissals }.isDismissed v = true) :
  ∃ before i after, i.view = v ∧ i.dismissed = false
    ∧ b.sorted group = before ++ i :: after
    ∧ { b with dismissals }.sorted group = before ++ { i with dismissed := true } :: after
  := by
  obtain ⟨i, hi, rfl⟩ := lists_iff.mp hshown
  obtain ⟨s, report, issue, hplaced⟩ := mem_ranked_iff.mp hi
  obtain ⟨before, after, hsplit⟩ := List.append_of_mem (mem_sorted_iff.mpr hi)
  have hkeys := key_ne_of_sorted hnormal hdistinct hsplit
  have hunchanged : ∀ j ∈ before ++ after,
      { j with dismissed := { b with dismissals }.isDismissed j.view } = j := by
    intro j hj
    have hmem : j ∈ b.ranked group := by
      rw [← mem_sorted_iff, hsplit]
      apply List.mem_append.mpr ((List.mem_append.mp hj).imp_right (List.mem_cons_of_mem i))
    exact withDismissals_eq_self hmem (hothers _ (hkeys j hj))
  obtain ⟨hbefore, hafter⟩ := List.forall_mem_append.mp hunchanged
  refine ⟨before, i, after, rfl, hplaced.dismissed_eq.trans hnew, hsplit, ?_⟩
  rw [sorted_withDismissals, hsplit, List.map_append, List.map_cons, haway,
    List.map_congr_left hbefore, List.map_congr_left hafter, List.map_id', List.map_id']

/-- If an issue that is shown becomes dismissed and no other one changes, then the overview sets
it aside. -/
theorem assemble_setsAside (hnormal : group.Normal)
    (hdistinct : ∀ key report, b.reports.report? key = some report → report.issueIds.Nodup)
    {refreshStatus : RefreshStatus} (hshown : v ∈ (b.assemble refreshStatus group).issues)
    (hothers : ∀ key, key ≠ v.key → dismissals.record? key = b.dismissals.record? key)
    (haway : { b with dismissals }.isDismissed v = true) :
  b.SetsAside v (b.assemble refreshStatus group)
    ({ b with dismissals }.assemble refreshStatus group)
  := by
  rw [issues_assemble] at hshown
  obtain ⟨hlists, hnew⟩ := mem_views_iff.mp hshown
  obtain ⟨before, i, after, rfl, hi, hsorted, hsorted'⟩ :=
    sorted_setAside hnormal hdistinct hlists hnew hothers haway
  have hplaces := pairwise_sorted hnormal hdistinct
  rw [hsorted, List.pairwise_append, List.pairwise_cons] at hplaces
  obtain ⟨-, ⟨hafter, -⟩, hbefore⟩ := hplaces
  constructor
  case issues =>
    rw [issues_assemble, issues_assemble, hsorted, hsorted']
    use (before.filter (·.dismissed == false)).map (·.view),
      (after.filter (·.dismissed == false)).map (·.view)
    simp [hi]
  case dismissedIssues =>
    rw [dismissedIssues_assemble, dismissedIssues_assemble, hsorted, hsorted']
    use (before.filter (·.dismissed == true)).map (·.view),
      (after.filter (·.dismissed == true)).map (·.view)
    refine ⟨by simp [hi], by simp, ?_, ?_⟩
    · intro w hw
      obtain ⟨j, hj, rfl⟩ := List.mem_map.mp hw
      exact hbefore j (List.mem_of_mem_filter hj) i List.mem_cons_self
    · intro w hw
      obtain ⟨j, hj, rfl⟩ := List.mem_map.mp hw
      exact hafter j (List.mem_of_mem_filter hj)
  case entries => rfl
  case errorEntries => rfl
  case refreshStatus => rfl
  case severity_le =>
    show b.severity (b.cells group) ({ b with dismissals }.sorted group)
      ≤ b.severity (b.cells group) (b.sorted group)
    apply severity_le_of_subset
    rw [hsorted, hsorted', List.filter_append, List.filter_append]
    apply List.Sublist.subset
    apply (List.Sublist.refl _).append
    simp [hi]
  case activeSources => rfl
  case counted =>
    have hi' : i ∈ b.ranked group := by
      apply mem_sorted_iff.mp
      simp [hsorted]
    rw [← loggable_of_mem_ranked hi']
    have hopen (b : Basis) : (b.assemble refreshStatus group).counts.openIssues
        = (b.sorted group).countP fun i => i.loggable && !i.dismissed := rfl
    have hdismissed (b : Basis) : (b.assemble refreshStatus group).counts.dismissedIssues
        = (b.sorted group).countP fun i => i.loggable && i.dismissed := rfl
    simp only [hopen, hdismissed, hsorted, hsorted', List.countP_append, List.countP_cons, hi]
    cases i.loggable <;> simp [Nat.add_assoc]

end Basis

end SafetyHub
