import SafetyHub.Dismissal.Record

/-!
# The archive of dismissals

An `Archive` keeps dismissal records over restarts.  What it keeps may be unreadable, until
records are saved in it.  While nothing can be saved in it, it keeps what it has.
-/

namespace SafetyHub

/-- Why records cannot be loaded or saved. -/
inductive ArchiveError where
  /-- The document is of a version that is not known. -/
  | unsupportedVersion (version : UInt32)
  /-- The document is not of the form that is known. -/
  | malformed
  /-- The document's place cannot be read or written. -/
  | inaccessible
deriving DecidableEq, Repr, Inhabited

/-- The wording of an error. -/
def ArchiveError.message : ArchiveError → String
  | .unsupportedVersion version => "unsupported store version " ++ toString version
  | .malformed => "serialization failed"
  | .inaccessible => "io error"

/-- What is kept of the dismissals. -/
structure Archive where
  records : List SavedRecord := []
  /-- How often records have been saved. -/
  saves : Nat := 0
  /-- Why the records cannot be loaded, if they cannot. -/
  unreadable : Option ArchiveError := none
  /-- Why nothing can be saved at the moment, if nothing can. -/
  unwritable : Option ArchiveError := none
deriving DecidableEq, Repr, Inhabited

namespace Archive

/-- The records kept, as far as they can be loaded. -/
def load (a : Archive) : Except ArchiveError (List SavedRecord) :=
  match a.unreadable with
  | some e => .error e
  | none => .ok a.records

/-- Keeps records in place of what there is. -/
def save (a : Archive) (records : List SavedRecord) : Except ArchiveError Archive :=
  match a.unwritable with
  | some e => .error e
  | none => .ok { a with records, saves := a.saves + 1, unreadable := none }

end Archive

end SafetyHub
