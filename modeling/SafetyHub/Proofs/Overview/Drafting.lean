import SafetyHub.Proofs.Overview.Summary

/-!
# An overview in one pass

An overview puts together what is read off its cells.  A `Draft` is what one pass over the external
sources, over the users that each applies to, and over the issues of each report gathers on the way:
entries and issues as they come, the greatest level so far, and what is counted.  The issues are
sorted and parted at the end.  The overview of a draft is the one that is assembled,
`Basis.overview_draft`.
-/

namespace SafetyHub

/-- A greatest level so far, with one more. -/
def Severity.raise (greatest : Option Severity) (level : Severity) : Option Severity :=
  some (greatest.elim level (max · level))

theorem Severity.foldl_raise_some (level : Severity) (levels : List Severity) :
  levels.foldl raise (some level) = some (levels.foldl max level)
  := by
  induction levels generalizing level with
  | nil => rfl
  | cons other levels ih => apply ih

/-- Taking in levels one after the other gives the greatest of them. -/
theorem Severity.foldl_raise (levels : List Severity) :
  levels.foldl raise none = maximum levels
  := by
  cases levels with
  | nil => rfl
  | cons level levels => apply foldl_raise_some

/-- The greatest level of a list depends on its elements alone. -/
theorem Severity.maximum_congr {levels levels' : List Severity}
    (h : ∀ level, level ∈ levels ↔ level ∈ levels') :
  maximum levels = maximum levels'
  := by
  have hset : {l | l ∈ levels} = {l | l ∈ levels'} := Set.ext h
  apply Option.ext
  intro level
  rw [maximum_eq_some_iff, maximum_eq_some_iff, hset]

namespace Basis

/-- What a pass has gathered. -/
structure Draft where
  entries : List EntryView := []
  ranked : List RankedIssue := []
  maxLevel : Option Severity := none
  /-- Whether anything is reported. -/
  hasData : Bool := false
  errorEntries : Nat := 0
  counts : IssueCounts := {}

namespace Draft

/-- Takes in the issue at a position of the report in a cell. -/
def takeIssue (d : Draft) (b : Basis) (c : Cell) (issue : Issue) (index : Nat) : Draft :=
  let key := c.key.issue issue.id
  let dismissed := b.dismissals.isDismissed key issue.severity b.policy b.now
  let d :=
    if dismissed then
      if c.source.loggable then
        { d with counts.dismissedIssues := d.counts.dismissedIssues + 1 }
      else d
    else
      let d := { d with maxLevel := Severity.raise d.maxLevel issue.severity }
      if c.source.loggable then { d with counts.openIssues := d.counts.openIssues + 1 } else d
  { d with
    ranked := d.ranked ++ [{
      view := b.issueView key issue
      dismissed
      loggable := c.source.loggable
      order := c.order
      user := c.user
      index }] }

/-- Takes in the issues of the report in a cell from a position on. -/
def takeIssues (d : Draft) (b : Basis) (c : Cell) (index : Nat) : List Issue → Draft
  | [] => d
  | issue :: rest => (d.takeIssue b c issue index).takeIssues b c (index + 1) rest

/-- Takes in the report in a cell. -/
def takeReport (d : Draft) (b : Basis) (c : Cell) (r : Report) : Draft :=
  let d := { d with hasData := true }
  let d :=
    if c.source.loggable then { d with counts.activeSources := d.counts.activeSources + 1 } else d
  let d := match r.status with
    | some status => { d with maxLevel := Severity.raise d.maxLevel status.severity }
    | none => d
  d.takeIssues b c 0 r.issues

/-- Puts an entry for a cell last. -/
def enter (d : Draft) (c : Cell) (state : EntryState) : Draft :=
  { d with entries := d.entries ++ [{ sourceKey := c.key, groupId := c.groupId, state }] }

/-- Enters a cell, if it is to have an entry. -/
def takeEntry (d : Draft) (b : Basis) (c : Cell) : Draft :=
  if c.source.isIssueOnly then d
  else if b.reports.isFailed c.key then d.enter c .error
  else match (b.reports.report? c.key).bind (·.status) with
    | some status => d.enter c (.status status)
    | none => match c.source.initialDisplay with
      | .hidden => d
      | .enabled => d.enter c (.noData true)
      | .disabled => d.enter c (.noData false)

/-- Takes in a cell: whether it is marked, its report, and its entry. -/
def takeCell (d : Draft) (b : Basis) (c : Cell) : Draft :=
  let d :=
    if b.reports.isFailed c.key then { d with errorEntries := d.errorEntries + 1 } else d
  let d := match b.reports.report? c.key with
    | some r => d.takeReport b c r
    | none => d
  d.takeEntry b c

/-- Takes in a source at a position for the users of a group that it applies to, unless no group
declares it. -/
def takeSource (d : Draft) (b : Basis) (group : ProfileGroup) (source : Source) (order : Nat) :
    Draft :=
  match b.catalog.groupOf? source.id with
  | none => d
  | some g =>
    (source.usersIn group).foldl (fun d user => d.takeCell b ⟨order, source, g.id, user⟩) d

/-- Takes in sources from a position on. -/
def takeSources (d : Draft) (b : Basis) (group : ProfileGroup) (order : Nat) :
    List Source → Draft
  | [] => d
  | source :: rest => (d.takeSource b group source order).takeSources b group (order + 1) rest

/-- The overall severity of what a pass has gathered. -/
def severity (d : Draft) : OverallSeverity :=
  if d.hasData then d.maxLevel.elim .ok .ofSeverity else .unknown

/-- The overview of what a pass has gathered. -/
def overview (d : Draft) (refreshStatus : RefreshStatus) : Overview :=
  let (dismissed, visible) := (d.ranked.mergeSort RankedIssue.le).partition (·.dismissed)
  { status := { severity := d.severity, refreshStatus, errorEntries := d.errorEntries }
    issues := visible.map (·.view)
    dismissedIssues := dismissed.map (·.view)
    entries := d.entries
    counts := d.counts }

end Draft

/-- One pass over the sources of a catalog. -/
def draft (b : Basis) (group : ProfileGroup) : Draft :=
  Draft.takeSources {} b group 0 b.catalog.externalSources

/-! ### Levels -/

/-- The levels in a cell that count, in the order of the pass. -/
def levelsIn (b : Basis) (c : Cell) : List Severity :=
  (b.statusSeverity? c).toList ++ ((b.issuesIn c).filter (!·.dismissed)).map (·.view.severity)

/-! ### What is gathered -/

namespace Draft

variable {b : Basis} {c : Cell}

/-- A draft with more issues. -/
def withIssues (d : Draft) (issues : List RankedIssue) : Draft :=
  { d with
    ranked := d.ranked ++ issues
    maxLevel :=
      ((issues.filter (!·.dismissed)).map (·.view.severity)).foldl Severity.raise d.maxLevel
    counts.openIssues := d.counts.openIssues + issues.countP fun i => i.loggable && !i.dismissed
    counts.dismissedIssues :=
      d.counts.dismissedIssues + issues.countP fun i => i.loggable && i.dismissed }

/-- A draft with more cells. -/
def withCells (d : Draft) (b : Basis) (cells : List Cell) : Draft where
  entries := d.entries ++ cells.filterMap b.entry?
  ranked := d.ranked ++ cells.flatMap b.issuesIn
  maxLevel := (cells.flatMap b.levelsIn).foldl Severity.raise d.maxLevel
  hasData := d.hasData || cells.any fun c => (b.report? c).isSome
  errorEntries := d.errorEntries + cells.countP fun c => b.reports.isFailed c.key
  counts := {
    activeSources := d.counts.activeSources
      + cells.countP fun c => c.source.loggable && (b.report? c).isSome
    openIssues := d.counts.openIssues
      + (cells.flatMap b.issuesIn).countP fun i => i.loggable && !i.dismissed
    dismissedIssues := d.counts.dismissedIssues
      + (cells.flatMap b.issuesIn).countP fun i => i.loggable && i.dismissed }

theorem withIssues_withIssues (d : Draft) (issues more : List RankedIssue) :
  (d.withIssues issues).withIssues more = d.withIssues (issues ++ more)
  := by
  simp [withIssues, Nat.add_assoc]

theorem withCells_withCells (d : Draft) (b : Basis) (cells more : List Cell) :
  (d.withCells b cells).withCells b more = d.withCells b (cells ++ more)
  := by
  simp [withCells, Nat.add_assoc, Bool.or_assoc]

/-- The issue at a position of the report in a cell. -/
def rankedAt (b : Basis) (c : Cell) (issue : Issue) (index : Nat) : RankedIssue where
  view := b.issueView (c.key.issue issue.id) issue
  dismissed :=
    b.dismissals.isDismissed (c.key.issue issue.id) issue.severity b.policy b.now
  loggable := c.source.loggable
  order := c.order
  user := c.user
  index := index

theorem takeIssue_eq (d : Draft) (b : Basis) (c : Cell) (issue : Issue) (index : Nat) :
  d.takeIssue b c issue index = d.withIssues [rankedAt b c issue index]
  := by
  cases hdismissed :
      b.dismissals.isDismissed (c.key.issue issue.id) issue.severity b.policy b.now <;>
    cases hloggable : c.source.loggable <;>
    simp [takeIssue, withIssues, rankedAt, hdismissed, hloggable, issueView]

theorem takeIssues_eq (d : Draft) (b : Basis) (c : Cell) (index : Nat) (issues : List Issue) :
  d.takeIssues b c index issues
    = d.withIssues ((issues.zipIdx index).map fun (issue, index) => rankedAt b c issue index)
  := by
  induction issues generalizing d index with
  | nil => simp [takeIssues, withIssues]
  | cons issue rest ih =>
    rw [takeIssues, takeIssue_eq, ih, withIssues_withIssues]
    rfl

theorem takeReport_eq {r : Report} (hreport : b.report? c = some r) (d : Draft) :
  d.takeReport b c r = { d with
    ranked := d.ranked ++ b.issuesIn c
    maxLevel := (b.levelsIn c).foldl Severity.raise d.maxLevel
    hasData := true
    counts := {
      activeSources := d.counts.activeSources + if c.source.loggable then 1 else 0
      openIssues := d.counts.openIssues
        + (b.issuesIn c).countP fun i => i.loggable && !i.dismissed
      dismissedIssues := d.counts.dismissedIssues
        + (b.issuesIn c).countP fun i => i.loggable && i.dismissed } }
  := by
  have hissues : b.issuesIn c
      = (r.issues.zipIdx 0).map fun (issue, index) => rankedAt b c issue index := by
    rw [issuesIn, hreport]
    rfl
  rw [takeReport, takeIssues_eq, ← hissues, levelsIn, statusSeverity?, hreport]
  cases hstatus : r.status <;> cases hloggable : c.source.loggable <;>
    simp [withIssues, hstatus]

theorem takeEntry_eq (d : Draft) (b : Basis) (c : Cell) :
  d.takeEntry b c = { d with entries := d.entries ++ [c].filterMap b.entry? }
  := by
  rw [List.filterMap_cons, entry?, entryState?, takeEntry, report?]
  split
  next => simp
  next =>
    split
    next => simp [enter]
    next =>
      cases (b.reports.report? c.key).bind (·.status) with
      | some status => simp [enter]
      | none => cases c.source.initialDisplay <;> simp [enter]

theorem takeCell_eq (d : Draft) (b : Basis) (c : Cell) : d.takeCell b c = d.withCells b [c] := by
  rw [takeCell, takeEntry_eq]
  cases hreport : b.reports.report? c.key with
  | none =>
    have hnone : b.report? c = none := hreport
    cases hfailed : b.reports.isFailed c.key <;>
      simp [withCells, levelsIn, statusSeverity?, issuesIn, hnone, hfailed]
  | some r =>
    have hsome : b.report? c = some r := hreport
    simp only [takeReport_eq hsome]
    cases hfailed : b.reports.isFailed c.key <;> cases hloggable : c.source.loggable <;>
      simp [withCells, hsome, hfailed, hloggable]

theorem foldl_takeCell (d : Draft) (b : Basis) (cells : List Cell) :
  cells.foldl (fun d c => d.takeCell b c) d = d.withCells b cells
  := by
  induction cells generalizing d with
  | nil => simp [withCells]
  | cons c cells ih =>
    rw [List.foldl_cons, takeCell_eq, ih, withCells_withCells]
    rfl

theorem takeSource_eq (d : Draft) (b : Basis) (group : ProfileGroup) (source : Source)
    (order : Nat) :
  d.takeSource b group source order = d.withCells b (b.cellsOf group source order)
  := by
  rw [takeSource, cellsOf]
  cases b.catalog.groupOf? source.id with
  | none => simp [withCells]
  | some g => rw [← foldl_takeCell, List.foldl_map]

theorem takeSources_eq (d : Draft) (b : Basis) (group : ProfileGroup) (order : Nat)
    (sources : List Source) :
  d.takeSources b group order sources
    = d.withCells b ((sources.zipIdx order).flatMap fun p => b.cellsOf group p.1 p.2)
  := by
  induction sources generalizing d order with
  | nil => simp [takeSources, withCells]
  | cons source rest ih =>
    rw [takeSources, takeSource_eq, ih, withCells_withCells]
    rfl

end Draft

theorem draft_eq (b : Basis) (group : ProfileGroup) :
  b.draft group = Draft.withCells {} b (b.cells group)
  := Draft.takeSources_eq {} b group 0 b.catalog.externalSources

/-! ### The overview -/

variable {b : Basis} {group : ProfileGroup}

/-- The levels that the pass meets are those that the severity is assembled from. -/
theorem maximum_levels :
  Severity.maximum ((b.cells group).flatMap b.levelsIn)
    = Severity.maximum ((b.cells group).filterMap b.statusSeverity?
      ++ ((b.sorted group).filter (!·.dismissed)).map (·.view.severity))
  := by
  apply Severity.maximum_congr
  intro level
  simp only [levelsIn, List.mem_flatMap, List.mem_append, Option.mem_toList, List.mem_map,
    List.mem_filter, List.mem_filterMap, mem_sorted_iff, ranked]
  constructor
  · rintro ⟨c, hc, hstatus | ⟨i, ⟨hi, hshown⟩, rfl⟩⟩
    · exact .inl ⟨c, hc, hstatus⟩
    · exact .inr ⟨i, ⟨⟨c, hc, hi⟩, hshown⟩, rfl⟩
  · rintro (⟨c, hc, hstatus⟩ | ⟨i, ⟨⟨c, hc, hi⟩, hshown⟩, rfl⟩)
    · exact ⟨c, hc, .inl hstatus⟩
    · exact ⟨c, hc, .inr ⟨i, ⟨hi, hshown⟩, rfl⟩⟩

theorem severity_draft (b : Basis) (group : ProfileGroup) :
  (b.draft group).severity = b.severity (b.cells group) (b.sorted group)
  := by
  have hlevel :
      (b.draft group).maxLevel = Severity.maximum ((b.cells group).flatMap b.levelsIn) := by
    rw [draft_eq]
    apply Severity.foldl_raise
  have hdata : (b.draft group).hasData = (b.cells group).any fun c => (b.report? c).isSome := by
    rw [draft_eq, Draft.withCells, Bool.false_or]
  rw [Draft.severity, severity, hdata, hlevel, maximum_levels]
  dsimp only
  cases Severity.maximum _ <;> rfl

theorem counts_draft (b : Basis) (group : ProfileGroup) :
  (b.draft group).counts = b.counts (b.cells group) (b.sorted group)
  := by
  have hcount (p : RankedIssue → Bool) : (b.sorted group).countP p = (b.ranked group).countP p :=
    (List.mergeSort_perm _ _).countP_eq p
  rw [draft_eq, counts, hcount, hcount]
  simp [Draft.withCells, ranked]

/-- The overview of the pass is the one that is assembled. -/
theorem overview_draft (b : Basis) (refreshStatus : RefreshStatus) (group : ProfileGroup) :
  (b.draft group).overview refreshStatus = b.assemble refreshStatus group
  := by
  have hranked : (b.draft group).ranked = b.ranked group := by
    rw [draft_eq]
    rfl
  have herrors : (b.draft group).errorEntries
      = (b.cells group).countP fun c => b.reports.isFailed c.key := by
    rw [draft_eq, Draft.withCells, Nat.zero_add]
  have hentries : (b.draft group).entries = (b.cells group).filterMap b.entry? := by
    rw [draft_eq]
    rfl
  rw [Draft.overview, hranked, severity_draft, counts_draft, herrors, hentries,
    List.partition_eq_filter_filter]
  rfl

end Basis

end SafetyHub
