import SafetyHub.Archive.Document
import SafetyHub.CommandLine.Help
import SafetyHub.Configuration

/-!
# Invocations of the program

`Invocation.parse` says what the arguments ask for: a text to print, nothing sensible, or an
`Invocation`, which is a shell command and the places of the configuration and of the dismissal
archive.  `Invocation.run` carries an invocation out on the content of these places.
-/

namespace SafetyHub

/-- A run of one shell command. -/
structure Invocation where
  command : ShellCommand
  /-- The place of the configuration document. -/
  config : Option String := none
  /-- The place of the archive document. -/
  state : Option String := none
  /-- Whether log lines are JSON. -/
  logJson : Bool := false
deriving DecidableEq, Repr, Inhabited

/-- What arguments ask for. -/
inductive Request where
  /-- They are not understood. -/
  | wrong
  | print (text : String)
  | invoke (invocation : Invocation)
deriving DecidableEq, Repr

/-- What is left when the program has ended. -/
structure Ended where
  /-- 0 for success, 1 for a failed command, 2 for arguments that are not understood. -/
  status : Nat
  /-- What is printed. -/
  output : String := ""
  /-- The place of the archive document. -/
  state : ArchiveFile
deriving DecidableEq, Repr

namespace Invocation

/-- The options of the program as a whole. -/
def programLevel : Level where
  options := [.config, .state, .logJson]
  hasVersion := true
  commands := Help.helpCommand :: CommandName.all.map (·.name)

/-- The options of a command. -/
def commandLevel (c : CommandName) : Level where
  options := c.options

/-- The shell command of a command's name and options. -/
def shellCommand (c : CommandName) (given : GivenOptions) : ShellCommand :=
  let user : UserId := (((given.lookup .user).map UserId.parse).bind (·.toOption)).getD 0
  match c with
  | .enabled => .enabled
  | .supported => .supported
  | .refresh =>
    .refresh ((((given.lookup .reason).map RefreshReason.parse).bind (·.toOption)).getD .other) user
  | .clearData => .clearData
  | .packageName => .packageName
  | .status => .status user

/-- An option's value, as the command has it, or else as the program has it. -/
def value? (outer inner : GivenOptions) (o : CommandOption) : Option String :=
  (inner.lookup o).or (outer.lookup o)

/-- What the arguments after a command's name ask for, given the state of the options before
it. -/
def parseCommand (c : CommandName) (before : LevelState) (rest : List String) : Request :=
  match (commandLevel c).scan {} rest with
  | .help => .print (Help.commandPage c)
  | .done inner =>
    match before.settle? with
    | none => .wrong
    | some outer => .invoke {
        command := shellCommand c inner
        config := value? outer.given inner .config
        state := value? outer.given inner .state
        logJson := (value? outer.given inner .logJson).isSome }
  | _ => .wrong

/-- What arguments ask for. -/
def parse (args : List String) : Request :=
  match programLevel.scan {} args with
  | .help => .print Help.programPage
  | .version => .print Help.version
  | .command name rest before =>
    if name == Help.helpCommand then
      match Help.pageFor? rest with
      | some page => .print page
      | none => .wrong
    else match CommandName.all.find? (·.name == name) with
      | some c => parseCommand c before rest
      | none => .wrong
  | _ => .wrong

/-- The archive of a place. -/
def archiveAt (file : ArchiveFile) : Archive :=
  match file.load with
  | .ok records => { records }
  | .error e =>
    { unreadable := some e, unwritable := if file == .directory then some e else none }

/-- A place after what has been saved in its archive. -/
def savedAt (file : ArchiveFile) (archive : Archive) : ArchiveFile :=
  if archive.saves == 0 then file else .document (ArchiveDocument.write archive.records)

/-- Carries out an invocation at an instant, on the configuration and the archive at its places.
The only user of the device is user 0. -/
def run (i : Invocation) (configuration : Except ConfigurationError Configuration)
    (file : ArchiveFile) (now : Instant) : Ended :=
  match configuration with
  | .error _ => { status := 1, state := file }
  | .ok c =>
    let hub := Hub.start c.catalog c.policy (archiveAt file) file.load 0
    match i.command.run hub { users := [.full 0], now, digest := RefreshOrigin.digest } with
    | (.error _, change) => { status := 1, state := savedAt file change.hub.archive }
    | (.ok text, change) =>
      let (flushed, change) := change.hub.flush
      { status := if flushed.isOk then 0 else 1
        output := text ++ "\n"
        state := savedAt file change.hub.archive }

end Invocation

end SafetyHub
