import SafetyHub.Catalog.Basic
import SafetyHub.Instant.Basic
import SafetyHub.Report.Basic

/-!
# The latest reports

`ReportStore` holds the latest report of every source key, with the instant at which it came,
and marks the keys whose source failed since.  A new report, or its withdrawal, clears the mark.
-/

namespace SafetyHub

open Std

/-- A report and when it came. -/
structure StoredReport where
  report : Report
  receivedAt : Instant
deriving DecidableEq, Repr, Inhabited

/-- The latest reports and the marks of failed sources. -/
structure ReportStore where
  reports : ExtTreeMap SourceKey StoredReport := ∅
  failed : ExtTreeSet SourceKey := ∅

namespace ReportStore

instance : Inhabited ReportStore := ⟨{}⟩

/-- The stored report of a key, with when it came. -/
def get? (s : ReportStore) (key : SourceKey) : Option StoredReport :=
  s.reports[key]?

/-- The report of a key. -/
def report? (s : ReportStore) (key : SourceKey) : Option Report :=
  (s.get? key).map (·.report)

/-- An issue, if its source reports it. -/
def issue? (s : ReportStore) (key : IssueKey) : Option Issue :=
  (s.report? key.sourceKey).bind (·.issue? key.issueId)

/-- Stores a report, or withdraws the one there is, and clears the mark of the key. -/
def set (s : ReportStore) (key : SourceKey) (report : Option Report) (now : Instant) :
    ReportStore :=
  { reports := match report with
      | some report => s.reports.insert key ⟨report, now⟩
      | none => s.reports.erase key
    failed := s.failed.erase key }

/-- Whether storing a report changes what is shown of the key. -/
def changes (s : ReportStore) (key : SourceKey) (report : Option Report) : Bool :=
  s.failed.contains key || s.report? key != report

/-- Marks a key as failed. -/
def markFailed (s : ReportStore) (key : SourceKey) : ReportStore :=
  { s with failed := s.failed.insert key }

/-- Whether a key is marked as failed. -/
def isFailed (s : ReportStore) (key : SourceKey) : Bool :=
  s.failed.contains key

/-- Whether a key has no report, or one that is at least the given age.  A report from the
future is not stale. -/
def isStale (s : ReportStore) (key : SourceKey) (now : Instant) (maxAge : Millis) : Bool :=
  match s.get? key with
  | none => true
  | some stored =>
    let age := now.since stored.receivedAt
    0 ≤ age && (maxAge.nanos : Int) ≤ age

/-- Whether a key has a report or is marked as failed. -/
def isActive (s : ReportStore) (key : SourceKey) : Bool :=
  s.reports.contains key || s.failed.contains key

/-- The keys with a report, in order. -/
def keys (s : ReportStore) : List SourceKey :=
  s.reports.keys

/-- Whether there is neither a report nor a mark. -/
def isBlank (s : ReportStore) : Bool :=
  s.reports.isEmpty && s.failed.isEmpty

/-- Whether a report or a mark belongs to a user. -/
def hasUser (s : ReportStore) (user : UserId) : Bool :=
  s.reports.keys.any (·.userId == user) || s.failed.toList.any (·.userId == user)

/-- Drops the reports and marks of a user. -/
def clearForUser (s : ReportStore) (user : UserId) : ReportStore :=
  { reports := s.reports.filter fun key _ => key.userId != user
    failed := s.failed.filter fun key => key.userId != user }

/-- Drops the reports and marks of sources that are not in the catalog or do not report. -/
def retainConfigured (s : ReportStore) (catalog : Catalog) : ReportStore :=
  { reports := s.reports.filter fun key _ => catalog.isExternal key.sourceId
    failed := s.failed.filter fun key => catalog.isExternal key.sourceId }

end ReportStore

end SafetyHub
