import SafetyHub.Proofs.Overview.Reading
import Mathlib.Data.Set.Card
import Mathlib.Order.Bounds.Basic

/-!
# The summary of an overview

The severity of an overview is that of the greatest level that counts towards it, and is unknown
as long as nothing is reported.  Its counts are of what is reported under the keys of the sources
that count in statistics.
-/

namespace SafetyHub

open Std

/-! ### The scale of levels -/

instance : IsLinearOrder Severity where
  le_refl _ := Nat.le_refl _
  le_trans _ _ _ := Nat.le_trans
  le_antisymm _ _ h h' := Severity.rank_injective (Nat.le_antisymm h h')
  le_total _ _ := Nat.le_total _ _

instance : LawfulOrderMax Severity where
  max_eq_or a b := (ite_eq_or_eq (a ≤ b) b a).symm
  max_le_iff a b c := by
    show (if a ≤ b then b else a) ≤ c ↔ a ≤ c ∧ b ≤ c
    symm
    split
    next hle => apply and_iff_right_of_imp (Nat.le_trans hle)
    next hlt => apply and_iff_left_of_imp (Nat.le_trans (Nat.le_of_not_le hlt))

/-- The maximum of levels is the greatest of them. -/
theorem Severity.maximum_eq_some_iff {levels : List Severity} {level : Severity} :
  maximum levels = some level ↔ IsGreatest {l | l ∈ levels} level
  := List.max?_eq_some_iff

namespace Basis

variable {b : Basis} {group : ProfileGroup}

/-! ### Levels that count -/

/-- The levels that count towards the severity of an overview: those of the statuses that are
reported, and those of the issues that are not dismissed. -/
inductive Grades (b : Basis) (group : ProfileGroup) : Severity → Prop
  | status {s : Source} {key : SourceKey} {report : Report} {status : SourceStatus}
      (happlies : b.catalog.Applies s group key)
      (hreport : b.reports.report? key = some report) (hstatus : report.status = some status) :
    Grades b group status.severity
  | issue {s : Source} {key : SourceKey} {report : Report} {issue : Issue}
      (happlies : b.catalog.Applies s group key)
      (hreport : b.reports.report? key = some report) (hissue : issue ∈ report.issues)
      (hshown :
        b.dismissals.isDismissed (key.issue issue.id) issue.severity b.policy b.now = false) :
    Grades b group issue.severity

theorem statusSeverity?_eq_some_iff {c : Cell} {level : Severity} :
  b.statusSeverity? c = some level
    ↔ ∃ report status, b.reports.report? c.key = some report ∧ report.status = some status
      ∧ status.severity = level
  := by
  simp [statusSeverity?, report?, Option.bind_eq_some_iff]

/-- The severities that a cell contributes to are those that count towards that of the overview. -/
theorem mem_levels_iff {level : Severity} :
  level ∈ (b.cells group).filterMap b.statusSeverity?
      ++ ((b.sorted group).filter (!·.dismissed)).map (·.view.severity)
    ↔ b.Grades group level
  := by
  simp only [List.mem_append, List.mem_filterMap, List.mem_map, List.mem_filter, mem_sorted_iff,
    statusSeverity?_eq_some_iff, Bool.not_eq_true']
  constructor
  · rintro (⟨c, hc, report, status, hreport, hstatus, rfl⟩ | ⟨i, ⟨hi, hshown⟩, rfl⟩)
    · apply Grades.status (applies_of_mem_cells hc) hreport hstatus
    · obtain ⟨c, hc, hi⟩ := List.mem_flatMap.mp hi
      obtain ⟨report, issue, hreport, hissue, hview, hdismissed, -⟩ := mem_issuesIn_iff.mp hi
      rw [hdismissed, hview] at hshown
      rw [hview]
      apply Grades.issue (applies_of_mem_cells hc) hreport (List.mem_of_getElem? hissue) hshown
  · rintro (@⟨s, key, report, status, happlies, hreport, hstatus⟩
      | @⟨s, key, report, issue, happlies, hreport, hissue, hshown⟩)
    · obtain ⟨c, hc, -, rfl⟩ := exists_cell_iff.mpr happlies
      exact .inl ⟨c, hc, report, status, hreport, hstatus, rfl⟩
    · obtain ⟨c, hc, -, rfl⟩ := exists_cell_iff.mpr happlies
      obtain ⟨index, hindex⟩ := List.mem_iff_getElem?.mp hissue
      right
      let i : RankedIssue :=
        { view := b.issueView (c.key.issue issue.id) issue, dismissed := false,
          loggable := c.source.loggable, order := c.order, user := c.user, index }
      have hi : i ∈ b.issuesIn c :=
        mem_issuesIn_iff.mpr ⟨report, issue, hreport, hindex, rfl, hshown.symm, rfl, rfl, rfl⟩
      exact ⟨i, ⟨List.mem_flatMap.mpr ⟨c, hc, hi⟩, rfl⟩, rfl⟩

/-! ### Overall severity -/

theorem severity_assemble (b : Basis) (refreshStatus : RefreshStatus) (group : ProfileGroup) :
  (b.assemble refreshStatus group).status.severity
    = b.severity (b.cells group) (b.sorted group)
  := rfl

/-- Nothing is known of a group as long as nothing is reported under a key that concerns it. -/
theorem severity_assemble_eq_unknown_iff {refreshStatus : RefreshStatus} :
  (b.assemble refreshStatus group).status.severity = .unknown
    ↔ ∀ s key, b.catalog.Applies s group key → b.reports.report? key = none
  := by
  rw [severity_assemble, severity_eq_unknown_iff]
  constructor
  · intro hnone s key happlies
    obtain ⟨c, hc, -, rfl⟩ := exists_cell_iff.mpr happlies
    apply hnone c hc
  · intro hnone c hc
    apply hnone c.source c.key (applies_of_mem_cells hc)

/-- Once something is reported the severity is that of the greatest level that counts, if any
does. -/
theorem severity_assemble_of_ne_unknown {refreshStatus : RefreshStatus}
    (hknown : (b.assemble refreshStatus group).status.severity ≠ .unknown) :
  (∀ level, ¬ b.Grades group level) ∧ (b.assemble refreshStatus group).status.severity = .ok
    ∨ ∃ level, IsGreatest {l | b.Grades group l} level
      ∧ (b.assemble refreshStatus group).status.severity = .ofSeverity level
  := by
  simp only [← mem_levels_iff]
  rw [severity_assemble, severity] at hknown ⊢
  split
  next hsome =>
    dsimp only
    split
    next hnone =>
      left
      rw [Severity.maximum, List.max?_eq_none_iff] at hnone
      rw [hnone]
      exact ⟨fun level => List.not_mem_nil, rfl⟩
    next level hlevel =>
      right
      exact ⟨level, Severity.maximum_eq_some_iff.mp hlevel, rfl⟩
  next hnone =>
    rw [if_neg hnone] at hknown
    exact absurd rfl hknown

/-! ### Counts -/

/-- A source that counts in statistics concerns a group by a key. -/
def IsCounted (b : Basis) (group : ProfileGroup) (key : SourceKey) : Prop :=
  ∃ s, b.catalog.Applies s group key ∧ s.loggable = true

/-- The source of a key is known from the key. -/
theorem isCounted_iff {s : Source} {key : SourceKey} (happlies : b.catalog.Applies s group key) :
  b.IsCounted group key ↔ s.loggable = true
  := by
  constructor
  · rintro ⟨t, happlies', hloggable⟩
    have hid : s.id = t.id := happlies.id_eq.trans happlies'.id_eq.symm
    rwa [Catalog.eq_of_id_eq happlies.mem_sources happlies'.mem_sources hid]
  · intro hloggable
    exact ⟨s, happlies, hloggable⟩

theorem activeSources_assemble (hnormal : group.Normal) (refreshStatus : RefreshStatus) :
  ((b.assemble refreshStatus group).counts.activeSources : ℕ∞)
    = {key | b.IsCounted group key ∧ (b.reports.report? key).isSome = true}.encard
  := by
  let active := (b.cells group).filter fun c => c.source.loggable && (b.report? c).isSome
  have hnodup : (active.map (·.key)).Nodup :=
    List.pairwise_map.mpr ((pairwise_cells hnormal).filter _)
  have hset : {key | b.IsCounted group key ∧ (b.reports.report? key).isSome = true}
      = (active.map (·.key)).toFinset := by
    ext key
    simp only [active, Set.mem_ofPred_eq, List.coe_toFinset, List.mem_map, List.mem_filter,
      Bool.and_eq_true]
    constructor
    · rintro ⟨⟨s, happlies, hloggable⟩, hreport⟩
      obtain ⟨c, hc, rfl, rfl⟩ := exists_cell_iff.mpr happlies
      exact ⟨c, ⟨hc, hloggable, hreport⟩, rfl⟩
    · rintro ⟨c, ⟨hc, hloggable, hreport⟩, rfl⟩
      exact ⟨⟨c.source, applies_of_mem_cells hc, hloggable⟩, hreport⟩
  rw [hset, Set.encard_coe_eq_coe_finsetCard, List.toFinset_card_of_nodup hnodup, List.length_map,
    ← List.countP_eq_length_filter]
  rfl

open scoped Classical in
/-- Of the sorted issues with a given fate, those that count are the ones of the keys that do. -/
theorem countP_sorted (dismissed : Bool) :
  (((b.sorted group).filter (·.dismissed == dismissed)).map (·.view)).countP
      (fun v => b.IsCounted group v.key.sourceKey)
    = (b.sorted group).countP fun i => i.loggable && i.dismissed == dismissed
  := by
  rw [List.countP_map, List.countP_filter]
  apply List.countP_congr
  intro i hi
  obtain ⟨c, hc, hi⟩ := List.mem_flatMap.mp (mem_sorted_iff.mp hi)
  obtain ⟨-, -, -, -, -, -, hloggable, -⟩ := mem_issuesIn_iff.mp hi
  have happlies := applies_of_mem_cells hc
  rw [← key_of_mem_issuesIn hi] at happlies
  simp [isCounted_iff happlies, hloggable]

open scoped Classical in
/-- The severity of an overview is unknown as long as there is no report under the keys that
concern its group; after that it is the severity of the greatest level among the statuses and the
issues that are not dismissed, or unremarkable if there is none.  The counts are those of the
reports, of the shown issues and of the dismissed issues under the keys that count. -/
theorem assemble_summary (b : Basis) (refreshStatus : RefreshStatus) (parent : UserId)
    (members : List (UserId × Bool)) :
  let group := ProfileGroup.ofMembers parent members
  let o := b.assemble refreshStatus group
  (o.status.severity = .unknown
      ↔ ∀ s key, b.catalog.Applies s group key → b.reports.report? key = none)
    ∧ (o.status.severity = .unknown
      ∨ (∀ level, ¬ b.Grades group level) ∧ o.status.severity = .ok
      ∨ ∃ level, IsGreatest {l | b.Grades group l} level
        ∧ o.status.severity = .ofSeverity level)
    ∧ (o.counts.activeSources : ℕ∞)
      = {key | b.IsCounted group key ∧ (b.reports.report? key).isSome = true}.encard
    ∧ o.counts.openIssues = o.issues.countP (fun v => b.IsCounted group v.key.sourceKey)
    ∧ o.counts.dismissedIssues
      = o.dismissedIssues.countP (fun v => b.IsCounted group v.key.sourceKey)
  := by
  intro group o
  refine ⟨severity_assemble_eq_unknown_iff, ?_, ?_, ?_, ?_⟩
  · apply or_iff_not_imp_left.mpr severity_assemble_of_ne_unknown
  · apply activeSources_assemble (ProfileGroup.normal_ofMembers parent members)
  · rw [issues_assemble, countP_sorted]
    simp only [beq_false]
    rfl
  · rw [dismissedIssues_assemble, countP_sorted]
    simp only [beq_true]
    rfl

end Basis

end SafetyHub
