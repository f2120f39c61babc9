import SafetyHub.Overview.Assembly
import SafetyHub.Proofs.Catalog.Consistency
import SafetyHub.Proofs.Profile.Groups
import SafetyHub.Proofs.Report.Store
import Mathlib.Data.Prod.Lex

/-!
# The issues of an overview

An overview of a profile group draws every issue that is reported in it once, either as shown or
as dismissed, and nothing else.  Both lists ascend strictly in the places of their issues,
`Basis.place`: the more severe issue first, then that of the source declared first, then that of
the lesser user, then the one that its source reports first.
-/

namespace SafetyHub

theorem Source.mem_usersIn_iff {s : Source} {group : ProfileGroup} {user : UserId} :
  user ∈ s.usersIn group
    ↔ user = group.parent ∨ s.appliesToManaged = true ∧ user ∈ group.running
  := by
  rw [usersIn, List.mem_cons]
  cases s.appliesToManaged <;> simp

theorem Source.nodup_usersIn (s : Source) {group : ProfileGroup} (hnormal : group.Normal) :
  (s.usersIn group).Nodup
  := by
  rw [usersIn]
  cases s.appliesToManaged
  · simp
  · exact List.nodup_cons.mpr ⟨hnormal.parent_not_mem_running, hnormal.nodup_running⟩

namespace Basis

variable {b : Basis} {group : ProfileGroup}

/-! ### What an overview is to draw -/

/-- A view draws an issue that is reported under a key. -/
structure Draws (b : Basis) (v : IssueView) (key : IssueKey) (issue : Issue) : Prop where
  key_eq : v.key = key
  title_eq : v.title = issue.title
  summary_eq : v.summary = issue.summary
  severity_eq : v.severity = issue.severity
  category_eq : v.category = issue.category
  actions_eq : v.actions.map (fun a => ⟨a.id, a.label, a.willResolve⟩) = issue.actions
  inFlight_iff : ∀ a ∈ v.actions, a.inFlight = true ↔ ⟨key, a.id⟩ ∈ b.inFlight

/-- A view draws an issue of a profile group: one that an external source reports for a user of
the group that it applies to. -/
def Lists (b : Basis) (group : ProfileGroup) (v : IssueView) : Prop :=
  ∃ s ∈ b.catalog.sources, s.isExternal = true ∧ ∃ user,
    (user = group.parent ∨ s.appliesToManaged = true ∧ user ∈ group.running)
      ∧ ∃ report, b.reports.report? ⟨s.id, user⟩ = some report
        ∧ ∃ issue ∈ report.issues, b.Draws v ⟨s.id, issue.id, user⟩ issue

/-- Whether a view draws an issue that is dismissed. -/
def isDismissed (b : Basis) (v : IssueView) : Bool :=
  b.dismissals.isDismissed v.key v.severity b.policy b.now

/-- What decides the place of an issue in an overview: its severity, the position of its source
among those declared, its user, and its position in its report. -/
def place (b : Basis) (v : IssueView) : Natᵒᵈ ×ₗ Nat ×ₗ Int ×ₗ Nat :=
  toLex (OrderDual.toDual v.severity.rank,
    toLex ((b.catalog.sources.map (·.id)).idxOf v.key.sourceId,
      toLex (v.key.userId.toInt,
        (b.reports.report? v.key.sourceKey).elim 0 (·.issueIds.idxOf v.key.issueId))))

theorem draws_iff {v : IssueView} {key : IssueKey} {issue : Issue} :
  b.Draws v key issue ↔ v = b.issueView key issue
  := by
  constructor
  · rintro ⟨hkey, htitle, hsummary, hseverity, hcategory, hactions, hinFlight⟩
    obtain ⟨k, title, summary, severity, category, actions⟩ := v
    subst hkey htitle hsummary hseverity hcategory
    simp only [issueView, ← hactions, List.map_map, IssueView.mk.injEq, true_and]
    nth_rewrite 1 [← List.map_id actions]
    apply List.map_congr_left
    intro a ha
    have hcontains := Bool.eq_iff_iff.mpr ((hinFlight a ha).trans
      Std.ExtTreeSet.contains_iff_mem.symm)
    simp [← hcontains]
  · rintro rfl
    constructor
    all_goals simp [issueView, Function.comp_def]

/-! ### The order of ranked issues -/

end Basis

namespace RankedIssue

theorem le_iff {a b : RankedIssue} :
  a.le b = true
    ↔ b.view.severity.rank < a.view.severity.rank
      ∨ a.view.severity.rank = b.view.severity.rank ∧ (a.order < b.order
        ∨ a.order = b.order ∧ (a.user.toInt < b.user.toInt
          ∨ a.user.toInt = b.user.toInt ∧ a.index ≤ b.index))
  := by
  have severity : a.view.severity.rank = b.view.severity.rank
      ↔ a.view.severity = b.view.severity := ⟨Severity.rank_injective, congrArg _⟩
  simp only [le, bne_iff_ne, ite_not, severity, Int32.toInt_inj, ← Int32.lt_iff_toInt_lt]
  split
  next heq =>
    simp only [heq, lt_irrefl, true_and, false_or]
    split
    next heq =>
      simp only [heq, lt_irrefl, true_and, false_or]
      split
      next heq => simp [heq, Int32.lt_irrefl]
      next hne => simp [hne]
    next hne => simp [hne]
  next hne =>
    simp only [hne, false_and, or_false, decide_eq_true_eq]
    rfl

theorem le_trans (a b c : RankedIssue) (hab : a.le b = true) (hbc : b.le c = true) :
  a.le c = true
  := by
  rw [le_iff] at *
  omega

theorem le_total (a b : RankedIssue) : (a.le b || b.le a) = true := by
  rw [Bool.or_eq_true, le_iff, le_iff]
  omega

end RankedIssue

namespace Basis

variable {b : Basis} {group : ProfileGroup}

/-! ### What is ranked -/

/-- The issues of a group before they are sorted. -/
def ranked (b : Basis) (group : ProfileGroup) : List RankedIssue :=
  (b.cells group).flatMap b.issuesIn

/-- The place of an issue in what an overview is drawn from. -/
structure Placed (b : Basis) (group : ProfileGroup) (i : RankedIssue) (s : Source)
    (report : Report) (issue : Issue) : Prop where
  source_eq : b.catalog.externalSources[i.order]? = some s
  mem_users : i.user ∈ s.usersIn group
  report_eq : b.reports.report? ⟨s.id, i.user⟩ = some report
  issue_eq : report.issues[i.index]? = some issue
  view_eq : i.view = b.issueView ⟨s.id, issue.id, i.user⟩ issue
  dismissed_eq : i.dismissed = b.isDismissed i.view
  loggable_eq : i.loggable = s.loggable

/-- The cells of a source at a position among the external ones. -/
def cellsOf (b : Basis) (group : ProfileGroup) (s : Source) (order : Nat) : List Cell :=
  match b.catalog.groupOf? s.id with
  | none => []
  | some g => (s.usersIn group).map fun user => ⟨order, s, g.id, user⟩

theorem cells_eq :
  b.cells group = b.catalog.externalSources.zipIdx.flatMap fun p => b.cellsOf group p.1 p.2
  := rfl

theorem mem_cellsOf_iff {s : Source} {order : Nat} {c : Cell} :
  c ∈ b.cellsOf group s order
    ↔ c.source = s ∧ c.order = order ∧ c.user ∈ s.usersIn group
      ∧ (b.catalog.groupOf? s.id).map (·.id) = some c.groupId
  := by
  obtain ⟨cellOrder, source, groupId, user⟩ := c
  rw [cellsOf]
  cases b.catalog.groupOf? s.id with
  | none => simp
  | some g =>
    simp only [List.mem_map, Cell.mk.injEq, Option.map_some, Option.some_inj]
    constructor
    · rintro ⟨user, huser, rfl, rfl, rfl, rfl⟩
      exact ⟨rfl, rfl, huser, rfl⟩
    · rintro ⟨rfl, rfl, huser, rfl⟩
      exact ⟨user, huser, rfl, rfl, rfl, rfl⟩

theorem mem_cells_iff {c : Cell} :
  c ∈ b.cells group
    ↔ b.catalog.externalSources[c.order]? = some c.source ∧ c.user ∈ c.source.usersIn group
      ∧ (b.catalog.groupOf? c.source.id).map (·.id) = some c.groupId
  := by
  simp only [cells_eq, List.mem_flatMap, mem_cellsOf_iff, List.mem_zipIdx_iff_getElem?]
  constructor
  · rintro ⟨⟨s, order⟩, hs, rfl, rfl, hc⟩
    exact ⟨hs, hc⟩
  · rintro ⟨hs, hc⟩
    exact ⟨(c.source, c.order), hs, rfl, rfl, hc⟩

theorem mem_issuesIn_iff {c : Cell} {i : RankedIssue} :
  i ∈ b.issuesIn c
    ↔ ∃ report issue, b.reports.report? c.key = some report ∧ report.issues[i.index]? = some issue
      ∧ i.view = b.issueView (c.key.issue issue.id) issue
      ∧ i.dismissed = b.isDismissed i.view ∧ i.loggable = c.source.loggable
      ∧ i.order = c.order ∧ i.user = c.user
  := by
  obtain ⟨view, dismissed, loggable, order, user, index⟩ := i
  dsimp only
  rw [issuesIn, report?]
  split
  next hnone => simp [hnone]
  next report hreport =>
    rw [List.mem_map]
    constructor
    · rintro ⟨⟨issue, j⟩, hissue, heq⟩
      cases heq
      exact ⟨report, issue, hreport, List.mk_mem_zipIdx_iff_getElem?.mp hissue,
        rfl, rfl, rfl, rfl, rfl⟩
    · rintro ⟨report', issue, hreport', hissue, rfl, rfl, rfl, rfl, rfl⟩
      obtain rfl := Option.some_inj.mp (hreport.symm.trans hreport')
      use (issue, index), List.mk_mem_zipIdx_iff_getElem?.mpr hissue
      rfl

theorem mem_ranked_iff {i : RankedIssue} :
  i ∈ b.ranked group ↔ ∃ s report issue, b.Placed group i s report issue
  := by
  rw [ranked, List.mem_flatMap]
  constructor
  · rintro ⟨c, hc, hi⟩
    obtain ⟨hs, hu, -⟩ := mem_cells_iff.mp hc
    obtain ⟨report, issue, hreport, hissue, hview, hdismissed, hloggable, horder, huser⟩ :=
      mem_issuesIn_iff.mp hi
    use c.source, report, issue
    rw [Cell.key, ← huser] at hreport hview
    rw [← horder] at hs
    rw [← huser] at hu
    exact ⟨hs, hu, hreport, hissue, hview, hdismissed, hloggable⟩
  · rintro ⟨s, report, issue, hplaced⟩
    have hs : s ∈ b.catalog.sources :=
      (List.mem_filter.mp (List.mem_of_getElem? hplaced.source_eq)).1
    obtain ⟨g, hg⟩ := Catalog.exists_groupOf? hs
    let c : Cell := ⟨i.order, s, g.id, i.user⟩
    have hc : c ∈ b.cells group :=
      mem_cells_iff.mpr ⟨hplaced.source_eq, hplaced.mem_users, by rw [hg]; rfl⟩
    use c, hc
    exact mem_issuesIn_iff.mpr ⟨report, issue, hplaced.report_eq, hplaced.issue_eq,
      hplaced.view_eq, hplaced.dismissed_eq, hplaced.loggable_eq, rfl, rfl⟩

/-! ### Keys of what is ranked -/

theorem nodup_externalIds (c : Catalog) : (c.externalSources.map (·.id)).Nodup :=
  c.nodup_sourceIds.sublist (List.filter_sublist.map _)

theorem pairwise_cells (hnormal : group.Normal) :
  (b.cells group).Pairwise fun c d => c.key ≠ d.key
  := by
  rw [cells_eq, List.pairwise_flatMap]
  constructor
  · rintro ⟨s, order⟩ -
    rw [cellsOf]
    split
    next => simp
    next g _ =>
      rw [List.pairwise_map]
      apply (s.nodup_usersIn hnormal).imp
      intro u v hne heq
      apply hne (congrArg SourceKey.userId heq)
  · have hids := nodup_externalIds b.catalog
    rw [← List.zipIdx_map_fst 0 b.catalog.externalSources, List.map_map] at hids
    apply (List.pairwise_map.mp hids).imp
    rintro ⟨s, i⟩ ⟨t, j⟩ hne c hc d hd heq
    obtain ⟨rfl, -⟩ := mem_cellsOf_iff.mp hc
    obtain ⟨rfl, -⟩ := mem_cellsOf_iff.mp hd
    apply hne (congrArg SourceKey.sourceId heq)

theorem key_of_mem_issuesIn {c : Cell} {i : RankedIssue} (hi : i ∈ b.issuesIn c) :
  i.view.key.sourceKey = c.key
  := by
  obtain ⟨report, issue, -, -, hview, -⟩ := mem_issuesIn_iff.mp hi
  rw [hview]
  rfl

theorem keys_issuesIn (b : Basis) (c : Cell) :
  (b.issuesIn c).map (·.view.key)
    = (b.reports.report? c.key).elim [] fun report => report.issueIds.map c.key.issue
  := by
  rw [issuesIn, report?]
  cases b.reports.report? c.key with
  | none => rfl
  | some report =>
    simp only [Option.elim_some, Report.issueIds, List.map_map]
    nth_rewrite 2 [← List.zipIdx_map_fst 0 report.issues]
    rw [List.map_map]
    rfl

/-- No two ranked issues have one key, when no report has two issues of one name. -/
theorem nodup_keys_ranked (hnormal : group.Normal)
    (hdistinct : ∀ key report, b.reports.report? key = some report → report.issueIds.Nodup) :
  ((b.ranked group).map (·.view.key)).Nodup
  := by
  rw [ranked, List.map_flatMap, List.nodup_flatMap]
  constructor
  · intro c _
    rw [keys_issuesIn]
    cases hreport : b.reports.report? c.key with
    | none => exact List.nodup_nil
    | some report =>
      apply (hdistinct c.key report hreport).map
      intro id id' heq
      apply congrArg IssueKey.issueId heq
  · apply (pairwise_cells hnormal).imp
    intro c d hne
    apply List.disjoint_left.mpr
    intro key hc hd
    obtain ⟨i, hi, rfl⟩ := List.mem_map.mp hc
    obtain ⟨j, hj, heq⟩ := List.mem_map.mp hd
    apply hne
    rw [← key_of_mem_issuesIn hi, ← key_of_mem_issuesIn hj, heq]

/-! ### Sorting -/

/-- The issues of a group as they are sorted. -/
def sorted (b : Basis) (group : ProfileGroup) : List RankedIssue :=
  (b.ranked group).mergeSort RankedIssue.le

theorem mem_sorted_iff {i : RankedIssue} : i ∈ b.sorted group ↔ i ∈ b.ranked group :=
  (List.mergeSort_perm _ _).mem_iff

theorem pair_sublist {α : Type} {l : List α} {i j : Nat} {x y : α} (hx : l[i]? = some x)
    (hy : l[j]? = some y) (h : i < j) :
  [x, y].Sublist l
  := by
  have hpairwise : l.Pairwise fun x y => [x, y].Sublist l :=
    List.pairwise_iff_forall_sublist.mpr id
  obtain ⟨hi, rfl⟩ := List.getElem?_eq_some_iff.mp hx
  obtain ⟨hj, rfl⟩ := List.getElem?_eq_some_iff.mp hy
  apply List.pairwise_iff_getElem.mp hpairwise i j hi hj h

theorem idxOf_lt_of_pair_sublist {l : List String} {x y : String} (hnodup : l.Nodup)
    (h : [x, y].Sublist l) :
  l.idxOf x < l.idxOf y
  := by
  obtain ⟨before, after, rfl, hx, hy⟩ := List.cons_sublist_iff.mp h
  have hy : y ∉ before :=
    fun hin => List.disjoint_of_nodup_append hnodup hin (List.singleton_sublist.mp hy)
  rw [List.idxOf_append_of_mem hx, List.idxOf_append_of_notMem hy]
  have hlt := List.idxOf_lt_length_iff.mpr hx
  omega

/-- Of two external sources the one at the lesser position is declared first. -/
theorem idxOf_source_lt {c : Catalog} {s t : Source} {i j : Nat}
    (hs : c.externalSources[i]? = some s) (ht : c.externalSources[j]? = some t) (h : i < j) :
  (c.sources.map (·.id)).idxOf s.id < (c.sources.map (·.id)).idxOf t.id
  := by
  apply idxOf_lt_of_pair_sublist c.nodup_sourceIds
  apply ((pair_sublist hs ht h).trans List.filter_sublist).map (·.id)

/-- The place of an issue that is ranked. -/
theorem Placed.place_eq {i : RankedIssue} {s : Source} {report : Report} {issue : Issue}
    (h : b.Placed group i s report issue) (hdistinct : report.issueIds.Nodup) :
  b.place i.view = toLex (OrderDual.toDual i.view.severity.rank,
    toLex ((b.catalog.sources.map (·.id)).idxOf s.id, toLex (i.user.toInt, i.index)))
  := by
  have hkey : i.view.key = ⟨s.id, issue.id, i.user⟩ := by
    rw [h.view_eq]
    rfl
  have hindex : report.issueIds.idxOf issue.id = i.index := by
    obtain ⟨hlt, rfl⟩ := List.getElem?_eq_some_iff.mp h.issue_eq
    have hlt : i.index < report.issueIds.length := by
      rwa [Report.issueIds, List.length_map]
    simpa [Report.issueIds] using hdistinct.idxOf_getElem i.index hlt
  rw [place, hkey]
  simp only [IssueKey.sourceKey, h.report_eq, Option.elim_some, hindex]

/-- Of two issues the one that is ranked first has the lesser place. -/
theorem Placed.place_lt {i j : RankedIssue} {s t : Source} {r q : Report} {x y : Issue}
    (hi : b.Placed group i s r x) (hj : b.Placed group j t q y) (hr : r.issueIds.Nodup)
    (hq : q.issueIds.Nodup) (hle : i.le j = true) (hne : i.view.key ≠ j.view.key) :
  b.place i.view < b.place j.view
  := by
  rw [hi.place_eq hr, hj.place_eq hq]
  simp only [Prod.Lex.toLex_lt_toLex, OrderDual.toDual_lt_toDual, OrderDual.toDual_inj]
  obtain hseverity | ⟨hseverity, hrest⟩ := RankedIssue.le_iff.mp hle
  · left
    exact hseverity
  right
  use hseverity
  obtain horder | ⟨horder, hrest⟩ := hrest
  · left
    apply idxOf_source_lt hi.source_eq hj.source_eq horder
  right
  obtain rfl : s = t := by
    apply Option.some_inj.mp
    rw [← hi.source_eq, ← hj.source_eq, horder]
  use rfl
  obtain huser | ⟨huser, hindex⟩ := hrest
  · left
    exact huser
  right
  use huser
  apply lt_of_le_of_ne hindex
  -- Two issues at one position of one report are one issue, and have one key.
  intro heq
  have huser : i.user = j.user := Int32.toInt_inj.mp huser
  obtain rfl : r = q := by
    apply Option.some_inj.mp
    rw [← hi.report_eq, ← hj.report_eq, huser]
  obtain rfl : x = y := by
    apply Option.some_inj.mp
    rw [← hi.issue_eq, ← hj.issue_eq, heq]
  apply hne
  rw [hi.view_eq, hj.view_eq, huser]

theorem nodup_keys_sorted (hnormal : group.Normal)
    (hdistinct : ∀ key report, b.reports.report? key = some report → report.issueIds.Nodup) :
  ((b.sorted group).map (·.view.key)).Nodup
  := ((List.mergeSort_perm _ _).map _).nodup_iff.mpr (nodup_keys_ranked hnormal hdistinct)

theorem pairwise_sorted (hnormal : group.Normal)
    (hdistinct : ∀ key report, b.reports.report? key = some report → report.issueIds.Nodup) :
  (b.sorted group).Pairwise fun i j => b.place i.view < b.place j.view
  := by
  have hle : (b.sorted group).Pairwise fun i j => i.le j = true :=
    List.pairwise_mergeSort RankedIssue.le_trans RankedIssue.le_total _
  have hne : (b.sorted group).Pairwise fun i j => i.view.key ≠ j.view.key :=
    List.pairwise_map.mp (nodup_keys_sorted hnormal hdistinct)
  apply (hle.and hne).imp_of_mem
  rintro i j hi hj ⟨hle, hne⟩
  obtain ⟨s, r, x, hi⟩ := mem_ranked_iff.mp (mem_sorted_iff.mp hi)
  obtain ⟨t, q, y, hj⟩ := mem_ranked_iff.mp (mem_sorted_iff.mp hj)
  apply hi.place_lt hj (hdistinct _ r hi.report_eq) (hdistinct _ q hj.report_eq) hle hne

/-! ### What an overview draws -/

/-- What the group is listed with is what is ranked. -/
theorem lists_iff {v : IssueView} : b.Lists group v ↔ ∃ i ∈ b.ranked group, i.view = v := by
  simp only [Lists, mem_ranked_iff]
  constructor
  · rintro ⟨s, hs, hexternal, user, huser, report, hreport, issue, hissue, hdraws⟩
    obtain ⟨order, horder⟩ := List.mem_iff_getElem?.mp (List.mem_filter.mpr ⟨hs, hexternal⟩)
    obtain ⟨index, hindex⟩ := List.mem_iff_getElem?.mp hissue
    let i : RankedIssue :=
      { view := v, dismissed := b.isDismissed v, loggable := s.loggable, order, user, index }
    use i
    refine ⟨⟨s, report, issue, ?_⟩, rfl⟩
    exact ⟨horder, Source.mem_usersIn_iff.mpr huser, hreport, hindex, draws_iff.mp hdraws, rfl, rfl⟩
  · rintro ⟨i, ⟨s, report, issue, hplaced⟩, rfl⟩
    obtain ⟨hs, hexternal⟩ := List.mem_filter.mp (List.mem_of_getElem? hplaced.source_eq)
    use s, hs, hexternal, i.user, Source.mem_usersIn_iff.mp hplaced.mem_users, report,
      hplaced.report_eq, issue, List.mem_of_getElem? hplaced.issue_eq
    apply draws_iff.mpr hplaced.view_eq

/-- An overview draws the sorted issues that are not dismissed, and those that are. -/
theorem mem_views_iff {dismissed : Bool} {v : IssueView} :
  v ∈ ((b.sorted group).filter (·.dismissed == dismissed)).map (·.view)
    ↔ b.Lists group v ∧ b.isDismissed v = dismissed
  := by
  simp only [List.mem_map, List.mem_filter, mem_sorted_iff, lists_iff, beq_iff_eq]
  constructor
  · rintro ⟨i, ⟨hi, hdismissed⟩, rfl⟩
    obtain ⟨s, report, issue, hplaced⟩ := mem_ranked_iff.mp hi
    exact ⟨⟨i, hi, rfl⟩, by rw [← hplaced.dismissed_eq, hdismissed]⟩
  · rintro ⟨⟨i, hi, rfl⟩, hdismissed⟩
    obtain ⟨s, report, issue, hplaced⟩ := mem_ranked_iff.mp hi
    exact ⟨i, ⟨hi, by rw [hplaced.dismissed_eq, hdismissed]⟩, rfl⟩

theorem issues_assemble (b : Basis) (refreshStatus : RefreshStatus) (group : ProfileGroup) :
  (b.assemble refreshStatus group).issues
    = ((b.sorted group).filter (·.dismissed == false)).map (·.view)
  := by
  simp only [beq_false]
  rfl

theorem dismissedIssues_assemble (b : Basis) (refreshStatus : RefreshStatus)
    (group : ProfileGroup) :
  (b.assemble refreshStatus group).dismissedIssues
    = ((b.sorted group).filter (·.dismissed == true)).map (·.view)
  := by
  simp only [beq_true]
  rfl

/-- An overview of a profile group draws every issue that its sources report for its users once
and nothing else.  It shows the issues that are not dismissed, and lists those that are; either
list is in strictly ascending order of places.  An action is drawn as in flight if it is. -/
theorem assemble_draws_once (b : Basis) (refreshStatus : RefreshStatus) (parent : UserId)
    (members : List (UserId × Bool))
    (hdistinct : ∀ key report, b.reports.report? key = some report → report.issueIds.Nodup) :
  let group := ProfileGroup.ofMembers parent members
  let o := b.assemble refreshStatus group
  (∀ v, v ∈ o.issues ++ o.dismissedIssues ↔ b.Lists group v)
    ∧ ((o.issues ++ o.dismissedIssues).map (·.key)).Nodup
    ∧ (∀ v ∈ o.issues, b.isDismissed v = false)
    ∧ (∀ v ∈ o.dismissedIssues, b.isDismissed v = true)
    ∧ o.issues.Pairwise (fun v w => b.place v < b.place w)
    ∧ o.dismissedIssues.Pairwise (fun v w => b.place v < b.place w)
    ∧ ∀ v ∈ o.issues ++ o.dismissedIssues, ∀ a ∈ v.actions,
        a.inFlight = true ↔ ⟨v.key, a.id⟩ ∈ b.inFlight
  := by
  intro group o
  have hnormal : group.Normal := ProfileGroup.normal_ofMembers parent members
  have hissues : o.issues = _ := issues_assemble b refreshStatus group
  have hdismissed : o.dismissedIssues = _ := dismissedIssues_assemble b refreshStatus group
  have hlists (v : IssueView) : v ∈ o.issues ++ o.dismissedIssues ↔ b.Lists group v := by
    rw [List.mem_append, hissues, hdismissed, mem_views_iff, mem_views_iff, ← and_or_left]
    simp
  have hsorted (dismissed : Bool) :
      (((b.sorted group).filter (·.dismissed == dismissed)).map (·.view)).Pairwise
        fun v w => b.place v < b.place w :=
    List.pairwise_map.mpr ((pairwise_sorted hnormal hdistinct).filter _)
  refine ⟨hlists, ?once, ?shown, ?dismissed, ?sorted, ?sortedDismissed, ?inFlight⟩
  case once =>
    rw [hissues, hdismissed, ← List.map_append, List.map_map]
    have hparts := List.filter_append_perm (·.dismissed == false) (b.sorted group)
    simp only [beq_false, Bool.not_not] at hparts
    simp only [beq_false, beq_true]
    apply (hparts.map _).nodup_iff.mpr (nodup_keys_sorted hnormal hdistinct)
  case shown =>
    intro v hv
    rw [hissues] at hv
    apply (mem_views_iff.mp hv).2
  case dismissed =>
    intro v hv
    rw [hdismissed] at hv
    apply (mem_views_iff.mp hv).2
  case sorted =>
    rw [hissues]
    apply hsorted
  case sortedDismissed =>
    rw [hdismissed]
    apply hsorted
  case inFlight =>
    intro v hv
    obtain ⟨s, -, -, user, -, report, -, issue, -, hdraws⟩ := (hlists v).mp hv
    rw [hdraws.key_eq]
    apply hdraws.inFlight_iff

/-- A source reports two issues for a parent and for a running profile; one that it reports for
the profile is drawn, and none is drawn twice. -/
theorem assemble_two_profiles :
  let source : Source :=
    { id := "s", kind := .dynamic, package := some "p", reach := .allProfiles }
  let minor : Issue :=
    { id := "i", title := "Minor", severity := .information, category := .device }
  let major : Issue :=
    { id := "j", title := "Major", severity := .criticalWarning, category := .device }
  let report : Report := { issues := [minor, major] }
  let b : Basis := {
    catalog := ⟨[.titled "g" [source]], by decide⟩, policy := {}, dismissals := {}, inFlight := ∅
    reports := (ReportStore.set {} ⟨"s", 0⟩ report .epoch).set ⟨"s", 10⟩ report .epoch
    now := .epoch }
  let o := b.assemble .none (.ofMembers 0 [(10, true)])
  (∀ key report, b.reports.report? key = some report → report.issueIds.Nodup)
    ∧ b.issueView ⟨"s", "j", 10⟩ major ∈ o.issues ++ o.dismissedIssues
    ∧ ((o.issues ++ o.dismissedIssues).map (·.key)).Nodup
  := by
  intro source minor major report b o
  have hreport (key : SourceKey) : b.reports.report? key
      = if key = ⟨"s", 10⟩ then some report else if key = ⟨"s", 0⟩ then some report else none := by
    simp only [b, ReportStore.report?_set]
    rfl
  have hdistinct : ∀ key report, b.reports.report? key = some report → report.issueIds.Nodup := by
    intro key r hr
    obtain rfl : report = r := by
      rw [hreport] at hr
      split at hr
      next => exact Option.some_inj.mp hr
      next =>
        split at hr
        next => exact Option.some_inj.mp hr
        next => cases hr
    decide
  obtain ⟨hlists, hnodup, -⟩ := assemble_draws_once b .none 0 [(10, true)] hdistinct
  refine ⟨hdistinct, ?_, hnodup⟩
  apply (hlists _).mpr
  have hrunning : (10 : UserId) ∈ (ProfileGroup.ofMembers 0 [(10, true)]).running := by decide
  have hin : source ∈ b.catalog.sources := List.mem_singleton_self source
  use source, hin, rfl, 10, .inr ⟨rfl, hrunning⟩, report, by rw [hreport, if_pos rfl], major,
    by simp [report]
  exact draws_iff.mpr rfl

end Basis

end SafetyHub
