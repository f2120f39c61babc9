import SafetyHub.Refresh.Reason
import SafetyHub.Report.Basic

/-!
# Overviews

What the hub shows of one profile group: the overall status, the issues that are shown and
those that are dismissed, an entry for each source and user, and counts for statistics.
-/

namespace SafetyHub

/-- An action as it is shown. -/
structure ActionView where
  id : String
  label : String
  willResolve : Bool
  /-- Whether the source has been asked to carry it out and has not answered. -/
  inFlight : Bool
deriving DecidableEq, Repr, Inhabited

instance : Encode ActionView :=
  ⟨fun a => .record [("id", encode a.id), ("label", encode a.label),
    ("will_resolve", encode a.willResolve), ("in_flight", encode a.inFlight)]⟩

/-- An issue as it is shown. -/
structure IssueView where
  key : IssueKey
  title : String
  summary : String
  severity : Severity
  category : IssueCategory
  actions : List ActionView
deriving DecidableEq, Repr, Inhabited

instance : Encode IssueView :=
  ⟨fun i => .record [("key", encode i.key), ("title", encode i.title),
    ("summary", encode i.summary), ("severity_level", encode i.severity),
    ("category", encode i.category), ("actions", encode i.actions)]⟩

/-- What an entry shows. -/
inductive EntryState where
  /-- The status that the source reports. -/
  | status (status : SourceStatus)
  /-- The source reports no status. -/
  | noData (enabled : Bool)
  /-- The source failed. -/
  | error
deriving DecidableEq, Repr, Inhabited

instance : Encode EntryState where
  encode
    | .status s => .record [("state", encode "data"), ("title", encode s.title),
        ("summary", encode s.summary), ("severity_level", encode s.severity),
        ("enabled", encode s.enabled)]
    | .noData enabled => .record [("state", encode "no_data"), ("enabled", encode enabled)]
    | .error => .record [("state", encode "error")]

/-- The entry of one source for one user. -/
structure EntryView where
  sourceKey : SourceKey
  groupId : String
  state : EntryState
deriving DecidableEq, Repr, Inhabited

instance : Encode EntryView :=
  ⟨fun e => .record [("source_key", encode e.sourceKey), ("group_id", encode e.groupId),
    ("state", encode e.state)]⟩

/-- Counts over the sources that count in statistics. -/
structure IssueCounts where
  /-- Source keys with a report. -/
  activeSources : Nat := 0
  /-- Issues that are shown. -/
  openIssues : Nat := 0
  /-- Issues that are dismissed. -/
  dismissedIssues : Nat := 0
deriving DecidableEq, Repr, Inhabited

/-- The members of the counts. -/
def IssueCounts.fields (s : IssueCounts) : List (String × Json) :=
  [("active_sources", .nat s.activeSources), ("open_issues", .nat s.openIssues),
    ("dismissed_issues", .nat s.dismissedIssues)]

instance : Encode IssueCounts := ⟨fun s => .record s.fields⟩

/-- The status of a profile group as a whole. -/
structure GroupStatus where
  severity : OverallSeverity := .unknown
  refreshStatus : RefreshStatus := .none
  /-- The number of source keys that are marked as failed. -/
  errorEntries : Nat := 0
deriving DecidableEq, Repr, Inhabited

instance : Encode GroupStatus :=
  ⟨fun s => .record [("severity", encode s.severity),
    ("refresh_status", encode s.refreshStatus),
    ("error_entry_count", .nat s.errorEntries)]⟩

/-- What the hub shows of one profile group. -/
structure Overview where
  status : GroupStatus := {}
  issues : List IssueView := []
  dismissedIssues : List IssueView := []
  entries : List EntryView := []
  counts : IssueCounts := {}
deriving DecidableEq, Repr, Inhabited

namespace Overview

/-- The issue with a key, if it is shown. -/
def issue? (o : Overview) (key : IssueKey) : Option IssueView :=
  o.issues.find? (·.key == key)

instance : Encode Overview :=
  ⟨fun o => .record [("status", encode o.status), ("issues", encode o.issues),
    ("dismissed_issues", encode o.dismissedIssues), ("entries", encode o.entries),
    ("stats", encode o.counts)]⟩

end Overview

end SafetyHub
