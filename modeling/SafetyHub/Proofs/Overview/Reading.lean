import SafetyHub.Proofs.Overview.Issues

/-!
# What an overview is drawn from

An overview of a profile group reads the reports and the marks of the keys of its cells, and of
no other key: it is the same for stores that agree on those, and for each of those keys there
are stores that differ in its report alone, or in its mark alone, and give different overviews.
-/

namespace SafetyHub

/-- A source concerns a profile group by what it reports under a key: it is an external one, the
key is its own, and its user is the parent of the group, or a running profile if the source
applies to managed ones. -/
structure Catalog.Applies (c : Catalog) (s : Source) (group : ProfileGroup) (key : SourceKey) :
    Prop where
  mem_sources : s ∈ c.sources
  isExternal : s.isExternal = true
  id_eq : s.id = key.sourceId
  user : key.userId = group.parent ∨ s.appliesToManaged = true ∧ key.userId ∈ group.running

namespace Basis

variable {b : Basis} {group : ProfileGroup} {key : SourceKey}

/-! ### Keys that are read -/

/-- Overviews depend on the report of a key: two stores that agree on every other report, and on
every mark, give different ones. -/
def ReadsReport (b : Basis) (group : ProfileGroup) (key : SourceKey) : Prop :=
  ∃ reports reports' : ReportStore,
    (∀ k, k ≠ key → reports.report? k = reports'.report? k)
      ∧ (∀ k, reports.isFailed k = reports'.isFailed k)
      ∧ ∃ refreshStatus, { b with reports }.assemble refreshStatus group
          ≠ { b with reports := reports' }.assemble refreshStatus group

/-- Overviews depend on the mark of a key: two stores that agree on every report, and on every
other mark, give different ones. -/
def ReadsMark (b : Basis) (group : ProfileGroup) (key : SourceKey) : Prop :=
  ∃ reports reports' : ReportStore,
    (∀ k, reports.report? k = reports'.report? k)
      ∧ (∀ k, k ≠ key → reports.isFailed k = reports'.isFailed k)
      ∧ ∃ refreshStatus, { b with reports }.assemble refreshStatus group
          ≠ { b with reports := reports' }.assemble refreshStatus group

/-- There is a cell for every key by which a source concerns the group, and for no other. -/
theorem exists_cell_iff {s : Source} :
  (∃ c ∈ b.cells group, c.source = s ∧ c.key = key) ↔ b.catalog.Applies s group key
  := by
  obtain ⟨sourceId, user⟩ := key
  simp only [mem_cells_iff]
  constructor
  · rintro ⟨c, ⟨hsource, huser, -⟩, rfl, heq⟩
    cases heq
    obtain ⟨hs, hexternal⟩ := List.mem_filter.mp (List.mem_of_getElem? hsource)
    exact ⟨hs, hexternal, rfl, Source.mem_usersIn_iff.mp huser⟩
  · rintro ⟨hs, hexternal, rfl, huser⟩
    obtain ⟨order, horder⟩ := List.getElem?_of_mem (List.mem_filter.mpr ⟨hs, hexternal⟩)
    obtain ⟨g, hg⟩ := Catalog.exists_groupOf? hs
    use ⟨order, s, g.id, user⟩
    refine ⟨⟨horder, Source.mem_usersIn_iff.mpr huser, ?_⟩, rfl, rfl⟩
    rw [hg]
    rfl

theorem applies_of_mem_cells {c : Cell} (hc : c ∈ b.cells group) :
  b.catalog.Applies c.source group c.key
  := exists_cell_iff.mp ⟨c, hc, rfl, rfl⟩

/-- The keys of the cells are those by which sources concern the group. -/
theorem mem_keys_cells_iff_applies :
  key ∈ (b.cells group).map (·.key) ↔ ∃ s, b.catalog.Applies s group key
  := by
  simp only [List.mem_map, ← exists_cell_iff]
  constructor
  · rintro ⟨c, hc, heq⟩
    exact ⟨c.source, c, hc, rfl, heq⟩
  · rintro ⟨s, c, hc, -, heq⟩
    exact ⟨c, hc, heq⟩

/-- The keys of the cells are those of the external sources, for the users that they apply to. -/
theorem mem_keys_cells_iff :
  key ∈ (b.cells group).map (·.key)
    ↔ ∃ s ∈ b.catalog.sources, s.isExternal = true ∧ s.id = key.sourceId
      ∧ key.userId ∈ s.usersIn group
  := by
  simp only [mem_keys_cells_iff_applies, Source.mem_usersIn_iff]
  apply exists_congr
  intro s
  constructor
  · rintro ⟨hs, hexternal, hid, huser⟩
    exact ⟨hs, hexternal, hid, huser⟩
  · rintro ⟨hs, hexternal, hid, huser⟩
    exact ⟨hs, hexternal, hid, huser⟩

/-! ### Other keys are not read -/

/-- Two bases agree on all that there is under a key: the report and the mark, the dismissals of
its issues, and which of their actions are in flight. -/
structure Agrees (b b' : Basis) (key : SourceKey) : Prop where
  report_eq : b'.reports.report? key = b.reports.report? key
  failed_eq : b'.reports.isFailed key = b.reports.isFailed key
  record_eq : ∀ id, b'.dismissals.record? (key.issue id) = b.dismissals.record? (key.issue id)
  inFlight_iff : ∀ id actionId,
    ⟨key.issue id, actionId⟩ ∈ b'.inFlight ↔ ⟨key.issue id, actionId⟩ ∈ b.inFlight

/-- Bases that differ in their reports at most agree under a key if those do. -/
theorem Agrees.ofReports {reports : ReportStore}
    (hreport : reports.report? key = b.reports.report? key)
    (hfailed : reports.isFailed key = b.reports.isFailed key) :
  b.Agrees { b with reports } key
  where
  report_eq := hreport
  failed_eq := hfailed
  record_eq _ := rfl
  inFlight_iff _ _ := Iff.rfl

section

variable {b' : Basis} {cells : List Cell} {issues : List RankedIssue}

theorem severity_congr (h : ∀ c ∈ cells, b'.report? c = b.report? c) :
  b'.severity cells issues = b.severity cells issues
  := by
  have hany : (cells.any fun c => (b'.report? c).isSome)
      = cells.any fun c => (b.report? c).isSome := by
    rw [Bool.eq_iff_iff]
    simp only [List.any_eq_true]
    apply exists_congr
    intro c
    apply and_congr_right
    intro hc
    rw [h c hc]
  have hstatus : cells.filterMap b'.statusSeverity? = cells.filterMap b.statusSeverity? := by
    apply List.filterMap_congr
    intro c hc
    rw [statusSeverity?, statusSeverity?, h c hc]
  rw [severity, severity, hany, hstatus]

theorem counts_congr (h : ∀ c ∈ cells, b'.report? c = b.report? c) :
  b'.counts cells issues = b.counts cells issues
  := by
  have hactive : (cells.countP fun c => c.source.loggable && (b'.report? c).isSome)
      = cells.countP fun c => c.source.loggable && (b.report? c).isSome := by
    apply List.countP_congr
    intro c hc
    rw [h c hc]
  rw [counts, counts, hactive]

theorem issueView_congr {issueKey : IssueKey} {issue : Issue}
    (h : ∀ actionId, ⟨issueKey, actionId⟩ ∈ b'.inFlight ↔ ⟨issueKey, actionId⟩ ∈ b.inFlight) :
  b'.issueView issueKey issue = b.issueView issueKey issue
  := by
  have hcontains (actionId : String) :
      b'.inFlight.contains ⟨issueKey, actionId⟩ = b.inFlight.contains ⟨issueKey, actionId⟩ := by
    rw [Bool.eq_iff_iff, Std.ExtTreeSet.contains_iff_mem, Std.ExtTreeSet.contains_iff_mem]
    apply h
  rw [issueView, issueView]
  simp only [hcontains]

end

/-- What is ranked of a cell is the same for bases that agree on its key. -/
theorem issuesIn_congr {c : Cell} {reports : ReportStore} {dismissals : Dismissals}
    {inFlight : InFlight} (hagrees : b.Agrees { b with reports, dismissals, inFlight } c.key) :
  { b with reports, dismissals, inFlight }.issuesIn c = b.issuesIn c
  := by
  have hreport : { b with reports, dismissals, inFlight }.report? c = b.report? c :=
    hagrees.report_eq
  have hdismissed (issue : Issue) :
      dismissals.isDismissed (c.key.issue issue.id) issue.severity b.policy b.now
        = b.dismissals.isDismissed (c.key.issue issue.id) issue.severity b.policy b.now := by
    rw [Dismissals.isDismissed, Dismissals.isDismissed, hagrees.record_eq]
  have hview (issue : Issue) :
      { b with reports, dismissals, inFlight }.issueView (c.key.issue issue.id) issue
        = b.issueView (c.key.issue issue.id) issue :=
    issueView_congr (hagrees.inFlight_iff issue.id)
  rw [issuesIn, issuesIn, hreport]
  simp only [hdismissed, hview]

/-- An overview is the same for bases that agree on the keys of its cells. -/
theorem assemble_congr_cells {reports : ReportStore} {dismissals : Dismissals}
    {inFlight : InFlight}
    (hagrees : ∀ c ∈ b.cells group, b.Agrees { b with reports, dismissals, inFlight } c.key)
    (refreshStatus : RefreshStatus) :
  { b with reports, dismissals, inFlight }.assemble refreshStatus group
    = b.assemble refreshStatus group
  := by
  let b' : Basis := { b with reports, dismissals, inFlight }
  have hcells : b'.cells group = b.cells group := rfl
  have hreport : ∀ c ∈ b.cells group, b'.report? c = b.report? c :=
    fun c hc => (hagrees c hc).report_eq
  have hissues : (b.cells group).flatMap b'.issuesIn = (b.cells group).flatMap b.issuesIn := by
    apply List.flatMap_congr
    intro c hc
    apply issuesIn_congr (hagrees c hc)
  have hentries : (b.cells group).filterMap b'.entry? = (b.cells group).filterMap b.entry? := by
    apply List.filterMap_congr
    intro c hc
    simp only [Basis.entry?, entryState?, hreport c hc, (hagrees c hc).failed_eq, b']
  have hmarked : ((b.cells group).countP fun c => b'.reports.isFailed c.key)
      = (b.cells group).countP fun c => b.reports.isFailed c.key := by
    apply List.countP_congr
    intro c hc
    rw [(hagrees c hc).failed_eq]
  show b'.assemble refreshStatus group = b.assemble refreshStatus group
  simp only [assemble, hcells, hissues, hentries, hmarked, severity_congr hreport,
    counts_congr hreport]

/-! ### The keys of the cells are read -/

/-- The overall severity is unknown as long as no cell has a report. -/
theorem severity_eq_unknown_iff {cells : List Cell} {issues : List RankedIssue} :
  b.severity cells issues = .unknown ↔ ∀ c ∈ cells, b.report? c = none
  := by
  rw [severity]
  split
  next hsome =>
    obtain ⟨c, hc, hreport⟩ := List.any_eq_true.mp hsome
    apply iff_of_false
    · dsimp only
      split
      next => simp
      next level _ => cases level <;> simp [OverallSeverity.ofSeverity]
    · intro hnone
      rw [hnone c hc] at hreport
      cases hreport
  next hnone => simpa using hnone

theorem readsReport_of_mem (hkey : key ∈ (b.cells group).map (·.key)) :
  b.ReadsReport group key
  := by
  obtain ⟨c, hc, rfl⟩ := List.mem_map.mp hkey
  use {}, ({} : ReportStore).set c.key (some {}) default
  refine ⟨?_, ?_, .none, ?_⟩
  · intro k hne
    rw [ReportStore.report?_set, if_neg hne]
  · intro k
    rw [ReportStore.isFailed_set]
    simp [ReportStore.isFailed]
  · intro heq
    -- Nothing is known without reports, and something is with an empty one in the cell.
    have hunknown := (congrArg (·.status.severity) heq).symm.trans
      (severity_eq_unknown_iff.mpr fun _ _ => rfl)
    have hnone := severity_eq_unknown_iff.mp hunknown c hc
    simp [report?, ReportStore.report?_set] at hnone

theorem readsMark_of_mem (hkey : key ∈ (b.cells group).map (·.key)) :
  b.ReadsMark group key
  := by
  obtain ⟨c, hc, rfl⟩ := List.mem_map.mp hkey
  use {}, ({} : ReportStore).markFailed c.key
  refine ⟨?_, ?_, .none, ?_⟩
  · intro k
    rfl
  · intro k hne
    simp [ReportStore.isFailed_markFailed, hne]
  · intro heq
    have hentries := congrArg (·.status.errorEntries) heq
    have hnone : ((b.cells group).countP fun c => ({} : ReportStore).isFailed c.key) = 0 := by
      simp [ReportStore.isFailed]
    have hmarked : 0 < (b.cells group).countP fun d =>
        (({} : ReportStore).markFailed c.key).isFailed d.key := by
      rw [List.countP_pos_iff]
      exact ⟨c, hc, by simp [ReportStore.isFailed_markFailed]⟩
    exact absurd (hnone.symm.trans hentries) hmarked.ne

/-- The reports that an overview depends on are those of its cells. -/
theorem readsReport_iff :
  b.ReadsReport group key ↔ key ∈ (b.cells group).map (·.key)
  := by
  constructor
  · rintro ⟨reports, reports', hreports, hfailed, refreshStatus, hne⟩
    by_contra hkey
    apply hne
    let b' : Basis := { b with reports := reports' }
    apply assemble_congr_cells (b := b')
    intro c hc
    apply Agrees.ofReports _ (hfailed c.key)
    apply hreports
    rintro rfl
    exact hkey (List.mem_map_of_mem hc)
  · apply readsReport_of_mem

/-- The marks that an overview depends on are those of its cells. -/
theorem readsMark_iff :
  b.ReadsMark group key ↔ key ∈ (b.cells group).map (·.key)
  := by
  constructor
  · rintro ⟨reports, reports', hreports, hfailed, refreshStatus, hne⟩
    by_contra hkey
    apply hne
    let b' : Basis := { b with reports := reports' }
    apply assemble_congr_cells (b := b')
    intro c hc
    apply Agrees.ofReports (hreports c.key)
    apply hfailed
    rintro rfl
    exact hkey (List.mem_map_of_mem hc)
  · apply readsMark_of_mem

end Basis

end SafetyHub
