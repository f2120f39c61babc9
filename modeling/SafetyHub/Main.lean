import SafetyHub.CommandLine.Invocation

/-!
# The program

Reads the places that an invocation names, runs the invocation and writes back what it left in
the place of the archive.  The clock counts from the start of the device: of what the program
prints, only the token of a refresh depends on it.
-/

namespace SafetyHub.Program

/-- The content of a file, if it can be read. -/
def content? (path : String) : IO (Option ByteArray) :=
  try some <$> IO.FS.readBinFile path
  catch _ => pure none

/-- What there is at the place of an archive document.  Bytes that are no text count as an empty
document. -/
def archiveAt (path : String) : IO ArchiveFile := do
  let place ← IO.FS.realPath path
  if ← place.isDir then return .directory
  match ← content? path with
  | some bytes => return .document ((String.fromUTF8? bytes).getD "")
  | none => return .absent

/-- The directory part of a path, if it has one. -/
def parent? (path : String) : Option String :=
  match (path.toList.reverse.dropWhile (· != '/')).dropWhile (· == '/') with
  | [] => none
  | cs => some (String.ofList cs.reverse)

/-- Puts a document at a place in one step, making the directories that are missing. -/
def replace (path text : String) : IO Unit := do
  if let some directory := parent? path then IO.FS.createDirAll directory
  let fresh := path ++ ".tmp"
  IO.FS.writeFile fresh text
  IO.FS.rename fresh path

/-- Runs an invocation. -/
def invoke (i : Invocation) : IO UInt32 := do
  let configuration ← match i.config with
    | none => pure (.ok {})
    | some path => Configuration.ofContent <$> content? path
  let file ← match i.state with
    | none => pure .absent
    | some path => archiveAt path
  let ended := i.run configuration file (.nearestMillis (← IO.monoMsNow))
  IO.print ended.output
  if let some path := i.state then
    if ended.state != file then
      if let .document text := ended.state then replace path text
  return UInt32.ofNat ended.status

end SafetyHub.Program

open SafetyHub in
/-- Runs the program. -/
def main (args : List String) : IO UInt32 := do
  match Invocation.parse args with
  | .wrong =>
    IO.eprintln "error: the arguments are not understood; try --help"
    return 2
  | .print text =>
    IO.print text
    return 0
  | .invoke i => Program.invoke i
