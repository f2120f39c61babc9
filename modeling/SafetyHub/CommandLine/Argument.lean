import SafetyHub.Shell

/-!
# Arguments

The arguments of the program are options and the name of a command, which has options of its
own.  `Level.scan` reads the arguments of one level from left to right.  An option with a value
takes it after an equals sign or from the next argument, which then may not begin with a dash;
no option is given twice on one level.  The value that comes in the next argument is checked
when the next option is met or when the level ends; an option that asks for help counts as soon
as all before it is in order.
-/

namespace SafetyHub

/-- An option of the program. -/
inductive CommandOption where
  | config
  | state
  | logJson
  | reason
  | user
deriving DecidableEq, Repr, Inhabited

namespace CommandOption

/-- Every option. -/
def all : List CommandOption := [.config, .state, .logJson, .reason, .user]

/-- The name of an option. -/
def name : CommandOption → String
  | .config => "config"
  | .state => "state"
  | .logJson => "log-json"
  | .reason => "reason"
  | .user => "user"

/-- Whether an option has a value. -/
def hasValue : CommandOption → Bool
  | .logJson => false
  | _ => true

/-- Whether a text is a value of an option. -/
def admits (o : CommandOption) (value : String) : Bool :=
  match o with
  | .config | .state => value != ""
  | .logJson => true
  | .reason => (RefreshReason.parse value).isOk
  | .user => (UserId.parse value).isOk

end CommandOption

/-- An argument by its dashes. -/
inductive Argument where
  /-- Two dashes alone: no option follows. -/
  | separator
  /-- Two dashes and a name, and what follows an equals sign. -/
  | long (name : String) (value : Option String)
  /-- A dash and letters. -/
  | short (letters : List Char)
  | plain (text : String)
deriving DecidableEq, Repr

/-- The kind of an argument. -/
def Argument.ofString (text : String) : Argument :=
  match text.toList with
  | ['-', '-'] => .separator
  | '-' :: '-' :: cs =>
    let name := String.ofList (cs.takeWhile (· != '='))
    match cs.dropWhile (· != '=') with
    | [] => .long name none
    | _ :: value => .long name (some (String.ofList value))
  | '-' :: c :: cs => .short (c :: cs)
  | _ => .plain text

/-- The options given on one level, with their values. -/
abbrev GivenOptions := List (CommandOption × String)

/-- A level: the options it knows, whether it knows the version, and the names of commands. -/
structure Level where
  options : List CommandOption
  hasVersion : Bool := false
  commands : List String := []

/-- The options of a level as far as they are read. -/
structure LevelState where
  given : GivenOptions := []
  /-- The last option, unless it has been checked, and its value, unless it is yet to come. -/
  last : Option (CommandOption × Option String) := none

namespace LevelState

/-- Adds an option with its value. -/
def give? (s : LevelState) (o : CommandOption) (value : String) : Option LevelState :=
  if (s.given.lookup o).isSome || !o.admits value then none
  else some { s with given := (o, value) :: s.given }

/-- Checks the last option. -/
def settle? (s : LevelState) : Option LevelState :=
  match s.last with
  | none => some s
  | some (_, none) => none
  | some (o, some value) => { s with last := none }.give? o value

/-- Whether the last option still waits for its value. -/
def isWaiting (s : LevelState) : Bool :=
  s.last.any (·.2.isNone)

/-- The options after one more. -/
def take? (s : LevelState) (o : CommandOption) (value : Option String) : Option LevelState := do
  let s ← s.settle?
  match value with
  | some v => if o.hasValue then s.give? o v else none
  | none => if o.hasValue then some { s with last := some (o, none) } else s.give? o ""

end LevelState

/-- What the arguments of a level come to. -/
inductive Scanned where
  /-- They break a rule. -/
  | wrong
  | help
  | version
  /-- A command's name, after which its arguments follow. -/
  | command (name : String) (rest : List String) (state : LevelState)
  | done (given : GivenOptions)

namespace Level

/-- Reads an argument that asks for help or for the version. -/
def ask (l : Level) (s : LevelState) (isHelp isVersion : Bool) : Scanned :=
  if s.settle?.isNone then .wrong
  else if isHelp then .help
  else if isVersion && l.hasVersion then .version
  else .wrong

/-- Reads the arguments of a level. -/
def scan (l : Level) (s : LevelState) : List String → Scanned
  | [] => match s.settle? with
    | some s => .done s.given
    | none => .wrong
  | a :: rest =>
    match Argument.ofString a with
    | .plain text =>
      if s.isWaiting then l.scan { s with last := s.last.map fun o => (o.1, some text) } rest
      else if l.commands.contains text then .command text rest s
      else .wrong
    | .separator => if s.isWaiting || !rest.isEmpty then .wrong else l.scan s rest
    | .short letters => l.ask s (letters.head? == some 'h') (letters.head? == some 'V')
    | .long name value =>
      match l.options.find? (·.name == name) with
      | some o => match s.take? o value with
        | some s => l.scan s rest
        | none => .wrong
      | none => if value.isSome then .wrong else l.ask s (name == "help") (name == "version")

end Level

end SafetyHub
