import SafetyHub.Dismissal.Basic
import SafetyHub.InFlight
import SafetyHub.Overview.Basic
import SafetyHub.Profile
import SafetyHub.Report.Store

/-!
# Assembling overviews

`Basis.assemble` draws the overview of a profile group.  The cells of the overview are the
external sources in declaration order, each with the users of the group that it applies to.
Every issue of the report in a cell appears once, among the shown issues or the dismissed ones;
both lists are in the order of `RankedIssue.le`: severity, highest first, then the order of the
cells' sources, then users, then the order in the report.
-/

namespace SafetyHub

/-- The users of a group that a source reports for. -/
def Source.usersIn (s : Source) (group : ProfileGroup) : List UserId :=
  group.parent :: if s.appliesToManaged then group.running else []

/-- What overviews are drawn from. -/
structure Basis where
  catalog : Catalog
  policy : Policy
  reports : ReportStore
  dismissals : Dismissals
  inFlight : InFlight
  now : Instant

/-- A place of an overview: a source, for a user that it applies to. -/
structure Cell where
  /-- The position of the source among the external ones. -/
  order : Nat
  source : Source
  groupId : String
  user : UserId
deriving DecidableEq, Repr

/-- The source key of a cell. -/
def Cell.key (c : Cell) : SourceKey := ⟨c.source.id, c.user⟩

/-- An issue with what decides its place in an overview. -/
structure RankedIssue where
  view : IssueView
  /-- Whether the issue is dismissed. -/
  dismissed : Bool
  /-- Whether the issue counts in statistics. -/
  loggable : Bool
  order : Nat
  user : UserId
  /-- The position of the issue in its report. -/
  index : Nat
deriving DecidableEq, Repr

/-- Whether an issue stands before another one, or in its place. -/
def RankedIssue.le (a b : RankedIssue) : Bool :=
  if a.view.severity != b.view.severity then b.view.severity < a.view.severity
  else if a.order != b.order then a.order < b.order
  else if a.user != b.user then a.user < b.user
  else a.index ≤ b.index

namespace Basis

variable (b : Basis)

/-- The cells of the overview of a group. -/
def cells (group : ProfileGroup) : List Cell :=
  b.catalog.externalSources.zipIdx.flatMap fun (source, order) =>
    match b.catalog.groupOf? source.id with
    | none => []
    | some g => (source.usersIn group).map fun user => ⟨order, source, g.id, user⟩

/-- The report in a cell. -/
def report? (c : Cell) : Option Report :=
  b.reports.report? c.key

/-- An issue of a source key as it is shown. -/
def issueView (key : IssueKey) (issue : Issue) : IssueView where
  key
  title := issue.title
  summary := issue.summary
  severity := issue.severity
  category := issue.category
  actions := issue.actions.map fun a =>
    { id := a.id, label := a.label, willResolve := a.willResolve
      inFlight := b.inFlight.contains ⟨key, a.id⟩ }

/-- The issues of the report in a cell. -/
def issuesIn (c : Cell) : List RankedIssue :=
  match b.report? c with
  | none => []
  | some r => r.issues.zipIdx.map fun (issue, index) =>
    let key := c.key.issue issue.id
    { view := b.issueView key issue
      dismissed := b.dismissals.isDismissed key issue.severity b.policy b.now
      loggable := c.source.loggable
      order := c.order
      user := c.user
      index }

/-- The severity of the status in a cell. -/
def statusSeverity? (c : Cell) : Option Severity :=
  ((b.report? c).bind (·.status)).map (·.severity)

/-- What the entry of a cell shows, if there is one. -/
def entryState? (c : Cell) : Option EntryState :=
  if c.source.isIssueOnly then none
  else if b.reports.isFailed c.key then some .error
  else match (b.report? c).bind (·.status) with
    | some status => some (.status status)
    | none => match c.source.initialDisplay with
      | .hidden => none
      | .enabled => some (.noData true)
      | .disabled => some (.noData false)

/-- The entry of a cell, if there is one. -/
def entry? (c : Cell) : Option EntryView :=
  (b.entryState? c).map fun state => { sourceKey := c.key, groupId := c.groupId, state }

/-- The overall severity of cells whose issues are given. -/
def severity (cells : List Cell) (issues : List RankedIssue) : OverallSeverity :=
  if cells.any fun c => (b.report? c).isSome then
    let levels := cells.filterMap b.statusSeverity?
      ++ (issues.filter (!·.dismissed)).map (·.view.severity)
    match Severity.maximum levels with
    | none => .ok
    | some level => .ofSeverity level
  else .unknown

/-- The counts of cells whose issues are given. -/
def counts (cells : List Cell) (issues : List RankedIssue) : IssueCounts where
  activeSources := cells.countP fun c => c.source.loggable && (b.report? c).isSome
  openIssues := issues.countP fun i => i.loggable && !i.dismissed
  dismissedIssues := issues.countP fun i => i.loggable && i.dismissed

/-- The overview of a group, given what it shows of the refresh in flight. -/
def assemble (refreshStatus : RefreshStatus) (group : ProfileGroup) : Overview :=
  let cells := b.cells group
  let issues := (cells.flatMap b.issuesIn).mergeSort RankedIssue.le
  { status := {
      severity := b.severity cells issues
      refreshStatus
      errorEntries := cells.countP fun c => b.reports.isFailed c.key }
    issues := (issues.filter (!·.dismissed)).map (·.view)
    dismissedIssues := (issues.filter (·.dismissed)).map (·.view)
    entries := cells.filterMap b.entry?
    counts := b.counts cells issues }

end Basis

end SafetyHub
