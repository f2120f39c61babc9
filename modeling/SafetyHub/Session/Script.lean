import SafetyHub.Configuration
import SafetyHub.Shell

/-!
# Scripts

A script is a list of steps: calls on a hub, changes of the device around it, and waiting.  A
listener brings a queue of replies with it; each overview that it takes makes it perform the
next one.  `Answer` is what a step comes to.
-/

namespace SafetyHub

/-- Where a script finds the token of a refresh. -/
inductive TokenPlace where
  /-- The token of the refresh in flight. -/
  | current
  /-- The token that was handed out at a position, counted from 1. -/
  | issued (position : Nat)
deriving DecidableEq, Repr

/-- A token in a script: one that is found in a place, or the text itself where the place holds
none. -/
structure TokenRef where
  text : String
  place : Option TokenPlace := none
deriving DecidableEq, Repr

namespace TokenRef

/-- The token that a text means: `$cur` and `$` with a position name places. -/
def ofText (text : String) : TokenRef where
  text
  place := match text.toList with
    | ['$', 'c', 'u', 'r'] => some .current
    | '$' :: digits => (Text.readNat? (String.ofList digits)).map .issued
    | _ => none

/-- The token that is meant, given the token of the refresh in flight and those handed out, in
order. -/
def resolve (t : TokenRef) (current : Option BroadcastId) (issued : List BroadcastId) :
    BroadcastId :=
  let found := match t.place with
    | some .current => current
    | some (.issued (position + 1)) => issued[position]?
    | _ => none
  found.getD ⟨t.text⟩

end TokenRef

/-- An event in a script. -/
inductive ScriptEvent where
  | plain (event : Event)
  /-- The answer to a refresh. -/
  | answers (token : TokenRef)
deriving DecidableEq, Repr

/-- A step of a script other than waiting. -/
inductive Step where
  | refresh (reason : RefreshReason) (user : UserId)
  | submit (package sourceId : String) (user : UserId) (report : Option Report)
    (event : ScriptEvent)
  | reportFailure (package sourceId : String) (user : UserId) (event : ScriptEvent)
  | reportOf (package sourceId : String) (user : UserId)
  | view (user : UserId)
  /-- A listener registers; the replies count if it is seen for the first time. -/
  | listen (listener package : String) (user : UserId) (replies : List (Option Step))
  | unlisten (listener : String)
  | dismiss (issue : IssueKey)
  | execute (issue : IssueKey) (actionId : String)
  | flush
  | clear
  | removeUser (user : UserId)
  | reload (document : ConfigurationDocument)
  /-- A new hub takes the place of the old one. -/
  | restart (document : ConfigurationDocument)
  | shell (command : ShellCommand)
  /-- The clock is set forward, or back. -/
  | shiftClock (ms : Int)
  /-- A user is added to the device, in place of those with its name. -/
  | setUser (info : UserInfo)
  | setQuiet (user : UserId) (quiet : Bool)
  /-- A user disappears from the device. -/
  | dropUser (user : UserId)
  /-- The archive goes out of order, or works again. -/
  | breakArchive (broken : Bool)
  /-- What the archive holds. -/
  | archive
  /-- What the hub says of itself. -/
  | info
  /-- A step that cannot be read. -/
  | unreadable

/-- What a step comes to. -/
inductive Answer where
  | nothing
  /-- The call is accepted and has nothing to answer. -/
  | accepted
  | refused (error : HubError)
  | inconsistent (error : ConfigurationError)
  | unreadable
  | token (id : BroadcastId)
  | report (report : Option Report)
  | view (view : Overview)
  /-- Whether a listener was not registered before. -/
  | registered (isNew : Bool)
  | flag (value : Bool)
  | archive (saves : Nat) (records : List SavedRecord)
  | info (enabled supported : Bool) (owningPackage : String)
  /-- The time in milliseconds. -/
  | time (ms : Nat)
  | text (text : String)
  | shellFailed (error : ShellError)

mutual

/-- The number of steps that a step can bring about by its replies, itself included. -/
def Step.weight : Step → Nat
  | .listen _ _ _ replies => replyWeights replies + 1
  | _ => 1

/-- The number of replies in a queue and of steps that they can bring about. -/
def replyWeights : List (Option Step) → Nat
  | [] => 0
  | none :: rest => replyWeights rest + 1
  | some step :: rest => step.weight + replyWeights rest + 1

end

end SafetyHub
