import SafetyHub.CommandLine.Argument

/-!
# Help

The texts that describe the program, each of its commands and their options.  Options stand in
the order of their positions among the options of their kind, those at one position in the order
of their names; their descriptions are aligned.
-/

namespace SafetyHub

/-- A command of the program. -/
inductive CommandName where
  | enabled
  | supported
  | refresh
  | clearData
  | packageName
  | status
deriving DecidableEq, Repr, Inhabited

namespace CommandName

/-- Every command. -/
def all : List CommandName :=
  [.enabled, .supported, .refresh, .clearData, .packageName, .status]

/-- The name of a command. -/
def name : CommandName → String
  | .enabled => "enabled"
  | .supported => "supported"
  | .refresh => "refresh"
  | .clearData => "clear-data"
  | .packageName => "package-name"
  | .status => "status"

/-- What a command does. -/
def description : CommandName → String
  | .enabled => "Print whether the safety center is enabled"
  | .supported => "Print whether the safety center is supported"
  | .refresh => "Start a refresh"
  | .clearData => "Clear all data and dismissals"
  | .packageName => "Print the owning package name"
  | .status => "Print the aggregated view as JSON"

/-- The options of a command, those that every command has among them. -/
def options : CommandName → List CommandOption
  | .refresh => [.config, .reason, .state, .user, .logJson]
  | .status => [.config, .user, .state, .logJson]
  | _ => [.config, .state, .logJson]

end CommandName

/-- What an option does. -/
def CommandOption.description : CommandOption → String
  | .config => "TOML file with flags and source groups"
  | .state => "JSON file holding dismissal state"
  | .logJson => "Emit logs as JSON lines"
  | .reason => "Refresh reason, by name or numeric value [default: other]"
  | .user => "User whose profile group to use [default: 0]"

namespace Help

/-- The name of the program. -/
def program : String := "safety-center"

/-- The version of the program. -/
def version : String := program ++ " 0.1.0\n"

/-- The name of the command that prints help. -/
def helpCommand : String := "help"

/-- What the command that prints help does. -/
def helpDescription : String :=
  "Print this message or the help of the given subcommand(s)"

/-- Lines of terms and their descriptions, the descriptions aligned. -/
def table (rows : List (String × String)) : String :=
  let width := (rows.map fun r => r.1.length).foldl max 0
  String.join (rows.map fun (term, text) =>
    "  " ++ term ++ String.ofList (List.replicate (width - term.length) ' ') ++ "  " ++ text ++ "\n")

/-- An option as it is typed. -/
def term (o : CommandOption) : String :=
  "    --" ++ o.name ++ if o.hasValue then s!" <{o.name}>" else ""

/-- The rows of options and of the option that asks for help. -/
def optionRows (options : List CommandOption) : List (String × String) :=
  options.map (fun o => (term o, o.description)) ++ [("-h, --help", "Print help")]

/-- A description, a usage line and sections. -/
def page (description usage : String) (sections : List (String × List (String × String))) :
    String :=
  description ++ "\n\nUsage: " ++ program ++ " " ++ usage ++ "\n"
    ++ String.join (sections.map fun (title, rows) => "\n" ++ title ++ ":\n" ++ table rows)

/-- The page of the program. -/
def programPage : String :=
  page "Safety center shell commands" "[OPTIONS] <COMMAND>" [
    ("Commands", CommandName.all.map (fun c => (c.name, c.description))
      ++ [(helpCommand, helpDescription)]),
    ("Options", optionRows [.config, .state, .logJson] ++ [("-V, --version", "Print version")])]

/-- The page of a command. -/
def commandPage (c : CommandName) : String :=
  page c.description (c.name ++ " [OPTIONS]") [("Options", optionRows c.options)]

/-- The page of the command that prints help. -/
def helpPage : String :=
  page helpDescription (helpCommand ++ " [COMMAND]...")
    [("Arguments", [("[COMMAND]...", "Print help for the subcommand(s)")])]

/-- The page that is asked for by the arguments of the command that prints help. -/
def pageFor? : List String → Option String
  | [] => some programPage
  | [name] =>
    if name == helpCommand then some helpPage
    else (CommandName.all.find? (·.name == name)).map commandPage
  | _ => none

end Help

end SafetyHub
