import SafetyHub.Catalog.Basic
import SafetyHub.Dismissal.Record

/-!
# Dismissals

`Dismissals` holds a record for every issue that is reported, and whether the records differ
from those last saved.  Only `reconcile` adds records; it and the bulk operations remove them.
-/

namespace SafetyHub

open Std

/-- The dismissal records of all reported issues. -/
structure Dismissals where
  records : ExtTreeMap IssueKey DismissalRecord := ∅
  /-- Whether the records differ from those last saved. -/
  dirty : Bool := false

namespace Dismissals

instance : Inhabited Dismissals := ⟨{}⟩

/-- The record of an issue. -/
def record? (d : Dismissals) (key : IssueKey) : Option DismissalRecord :=
  d.records[key]?

/-- Whether an issue of a severity is away at an instant. -/
def isDismissed (d : Dismissals) (key : IssueKey) (level : Severity) (policy : ResurfacePolicy)
    (now : Instant) : Bool :=
  match d.record? key with
  | none => false
  | some r => r.isDismissed level policy now

/-- When an issue of a severity will come back, if it is away and will. -/
def resurfaceAt? (d : Dismissals) (key : IssueKey) (level : Severity) (policy : ResurfacePolicy)
    (now : Instant) : Option Instant :=
  (d.record? key).bind (·.resurfaceAt? level policy now)

/-- Dismisses an issue, if it has a record. -/
def dismiss? (d : Dismissals) (key : IssueKey) (now : Instant) : Option Dismissals :=
  (d.record? key).map fun r =>
    { records := d.records.insert key (r.dismiss now), dirty := true }

/-- Keeps of a source key's records those of the reported issues, and adds a record for every
reported issue that has none. -/
def reconcile (d : Dismissals) (source : SourceKey) (reported : List String) (now : Instant) :
    Dismissals :=
  let kept := d.records.filter fun key _ =>
    !key.belongsTo source || reported.contains key.issueId
  let records := reported.foldl
    (fun records issueId => records.insertIfNew (source.issue issueId) (.fresh now)) kept
  { records
    dirty := d.dirty || kept.size != d.records.size || records.size != kept.size }

/-- The records as they are saved. -/
def saved (d : Dismissals) : List SavedRecord :=
  d.records.toList.map fun (key, record) => ⟨key, record⟩

/-- The dismissals once their records are handed over to be saved. -/
def clean (d : Dismissals) : Dismissals := { d with dirty := false }

/-- The dismissals once it is known that they could not be saved. -/
def markDirty (d : Dismissals) : Dismissals := { d with dirty := true }

/-- The dismissals of saved records.  Those of sources that are not in the catalog, or do not
report, are left out, which makes a difference from what is saved; of several records of one
issue the last counts. -/
def load (saved : List SavedRecord) (catalog : Catalog) : Dismissals :=
  let known := saved.filter fun s => catalog.isExternal s.key.sourceId
  { records := known.foldl (fun records s => records.insert s.key s.record) ∅
    dirty := known.length != saved.length }

/-- Drops the records of sources that are not in the catalog or do not report. -/
def retainConfigured (d : Dismissals) (catalog : Catalog) : Dismissals :=
  let records := d.records.filter fun key _ => catalog.isExternal key.sourceId
  { records, dirty := d.dirty || records.size != d.records.size }

/-- Drops every record. -/
def clear (_ : Dismissals) : Dismissals := { records := ∅, dirty := true }

/-- Drops every record of a user. -/
def clearForUser (d : Dismissals) (user : UserId) : Dismissals :=
  { records := d.records.filter fun key _ => key.userId != user, dirty := true }

end Dismissals

end SafetyHub
