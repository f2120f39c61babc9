import SafetyHub.Archive.Basic
import SafetyHub.Json.Printer
import SafetyHub.Json.Reader

/-!
# The archive document

Dismissal records are written as a JSON document with a version.  `ArchiveDocument.write` and
`ArchiveDocument.read` are the two directions; the version is looked at once the whole document
is decoded.  `ArchiveFile` is the place of a document: there may be nothing, a document, or a
directory in its way.
-/

namespace SafetyHub

/-- A version and dismissal records. -/
structure ArchiveDocument where
  version : UInt32
  records : List SavedRecord
deriving DecidableEq, Repr

namespace ArchiveDocument

/-- The version that is written, and the only one that is read. -/
def currentVersion : UInt32 := 1

instance : Encode ArchiveDocument :=
  ⟨fun doc => .record [("version", encode doc.version), ("records", encode doc.records)]⟩

instance : Decode ArchiveDocument where
  decode? d v := do
    let r ← v.record? d ["version", "records"]
    some {
      version := ← r.required "version" (decode? d)
      records := ← r.required "records" (decode? d) }

/-- The text of a document that holds records. -/
def write (records : List SavedRecord) : String :=
  (encode ({ version := currentVersion, records } : ArchiveDocument)).pretty

/-- The records of a document's text. -/
def read (text : String) : Except ArchiveError (List SavedRecord) :=
  match (Json.parse? text).bind (decode? .json) with
  | none => .error .malformed
  | some (doc : ArchiveDocument) =>
    if doc.version == currentVersion then .ok doc.records
    else .error (.unsupportedVersion doc.version)

end ArchiveDocument

/-- What there is at the place of an archive document. -/
inductive ArchiveFile where
  | absent
  | document (text : String)
  | directory
deriving DecidableEq, Repr, Inhabited

namespace ArchiveFile

/-- The records at a place: none, where there is nothing. -/
def load : ArchiveFile → Except ArchiveError (List SavedRecord)
  | .absent => .ok []
  | .document text => ArchiveDocument.read text
  | .directory => .error .inaccessible

/-- The place after records are saved. -/
def save (records : List SavedRecord) : ArchiveFile → Except ArchiveError ArchiveFile
  | .directory => .error .inaccessible
  | _ => .ok (.document (ArchiveDocument.write records))

/-- The text at a place. -/
def text? : ArchiveFile → Option String
  | .document text => some text
  | _ => none

end ArchiveFile

end SafetyHub
