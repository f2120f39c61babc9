import SafetyHub.Hub.Turn
import SafetyHub.Json.Printer

/-!
# Shell commands

A shell command asks the hub something or has it do something, and is answered by a text or by an
error that names what was attempted and what came in the way.  `ShellCommand.run` carries a
command out at once.  Clearing has two parts, clearing and saving; what listeners do when they
are offered the cleared overviews comes between them, and `ShellCommand.start` and
`ShellCommand.save` are the parts.
-/

namespace SafetyHub

/-- A shell command. -/
inductive ShellCommand where
  /-- Whether the hub is turned on. -/
  | enabled
  /-- Whether the device supports the hub. -/
  | supported
  | refresh (reason : RefreshReason) (user : UserId)
  | clearData
  /-- The package that shows the hub's page. -/
  | packageName
  /-- The overview of a user's group. -/
  | status (user : UserId)
deriving DecidableEq, Repr, Inhabited

/-- Why a shell command failed. -/
structure ShellError where
  /-- What was attempted. -/
  attempt : String
  cause : HubError
deriving DecidableEq, Repr

/-- The wording of an error: what was attempted, then the causes from the outermost one on. -/
def ShellError.message (e : ShellError) : String :=
  String.intercalate ": " (e.attempt :: e.cause.chain)

/-- How far a shell command is. -/
inductive ShellProgress where
  | answered (answer : Except ShellError String)
  /-- A refresh has been started and answers with its token. -/
  | started (id : BroadcastId) (answer : String)
  /-- What is cleared is yet to be saved. -/
  | cleared

namespace ShellCommand

/-- The first part of a shell command. -/
def start (c : ShellCommand) (h : Hub) (env : Surroundings) : ShellProgress × Change :=
  match c with
  | .enabled => (.answered (.ok (toString h.policy.isActive)), { hub := h })
  | .supported => (.answered (.ok (toString h.policy.supported)), { hub := h })
  | .packageName => (.answered (.ok h.policy.owningPackage), { hub := h })
  | .refresh reason user =>
    match h.refresh env reason user with
    | .ok (id, change) =>
      (.started id s!"Started refresh {id} ({reason.name}, user {user})", change)
    | .error cause =>
      (.answered (.error ⟨s!"refresh for {reason.name} as user {user} failed", cause⟩),
        { hub := h })
  | .status user =>
    (.answered (match h.view env user with
      | .ok view => .ok (encode view).pretty
      | .error cause => .error ⟨s!"no view for user {user}", cause⟩), { hub := h })
  | .clearData => (.cleared, h.clear env)

/-- The second part of clearing. -/
def save (h : Hub) : Except ShellError String × Change :=
  match h.flush with
  | (.ok (), change) => (.ok "Cleared all safety center data", change)
  | (.error cause, change) => (.error ⟨"writing cleared dismissal state", cause⟩, change)

/-- Carries out a shell command. -/
def run (c : ShellCommand) (h : Hub) (env : Surroundings) :
    Except ShellError String × Change :=
  match c.start h env with
  | (.answered answer, change) => (answer, change)
  | (.started _ answer, change) => (.ok answer, change)
  | (.cleared, change) =>
    let (answer, saved) := save change.hub
    (answer, { saved with effects := change.effects ++ saved.effects })

end ShellCommand

end SafetyHub
