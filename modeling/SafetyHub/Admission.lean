import SafetyHub.Archive.Basic
import SafetyHub.Catalog.Basic
import SafetyHub.Policy
import SafetyHub.Profile
import SafetyHub.Text.Quoted

/-!
# Admission of reports

`Catalog.checkCaller` says whether a package may report for a source and a user, and
`Source.checkReport` whether a report is one that the source may make; both give the first
reason against it.  `HubError` lists every reason for which the hub refuses a call.
-/

namespace SafetyHub

/-- What is wrong with the names in a report. -/
inductive ReportFault where
  | emptyIssueId
  | duplicateIssueId (issueId : String)
  /-- An action's name is empty, or used twice in its issue. -/
  | badActionId (actionId issueId : String)
deriving DecidableEq, Repr

/-- The wording of a fault. -/
def ReportFault.message : ReportFault → String
  | .emptyIssueId => "empty issue id"
  | .duplicateIssueId issueId => s!"duplicate issue id {issueId}"
  | .badActionId actionId issueId =>
    "bad action id " ++ Text.quoted actionId ++ s!" on issue {issueId}"

/-- Why the hub refuses a call. -/
inductive HubError where
  | notEnabled
  | unknownSource (sourceId : String)
  | fixedSource (sourceId : String)
  | packageMismatch (sourceId expected actual : String)
  | unknownUser (userId : UserId)
  | notApplicableToUser (sourceId : String) (userId : UserId)
  | statusNotAllowed (sourceId : String)
  | severityTooHigh (sourceId : String) (level greatest : Severity)
  | disallowedCategory (sourceId : String) (category : IssueCategory)
  | invalidReport (sourceId : String) (fault : ReportFault)
  | unknownIssue (issue : IssueKey)
  | unknownAction (issue : IssueKey) (actionId : String)
  | actionInFlight (issue : IssueKey) (actionId : String)
  | archive (error : ArchiveError)
deriving DecidableEq, Repr

namespace HubError

/-- The wording of a refusal. -/
def message : HubError → String
  | .notEnabled => "safety center is not enabled"
  | .unknownSource sourceId => s!"unknown source: {sourceId}"
  | .fixedSource sourceId => s!"source {sourceId} is static and cannot report data"
  | .packageMismatch sourceId expected actual =>
    s!"package {actual} cannot report for source {sourceId} (owned by {expected})"
  | .unknownUser userId => s!"unknown user: {userId}"
  | .notApplicableToUser sourceId userId =>
    s!"source {sourceId} does not apply to user {userId}"
  | .statusNotAllowed sourceId => s!"source {sourceId} is issue-only and cannot report a status"
  | .severityTooHigh sourceId level greatest =>
    s!"source {sourceId} reported {level.name} above its maximum {greatest.name}"
  | .disallowedCategory sourceId category =>
    s!"source {sourceId} is not allowed to report {category.logName} issues"
  | .invalidReport sourceId fault => s!"invalid data from {sourceId}: {fault.message}"
  | .unknownIssue issue => s!"unknown issue: {issue}"
  | .unknownAction issue actionId => s!"unknown action {actionId} for issue {issue}"
  | .actionInFlight issue actionId =>
    s!"action {actionId} for issue {issue} is already in flight"
  | .archive error => s!"persistence error: {error.message}"

/-- What an error was caused by, the error itself first. -/
def chain : HubError → List String
  | .archive error => [message (.archive error), error.message]
  | e => [e.message]

/-- Whether the caller broke the rules of the hub. -/
def isProtocolViolation : HubError → Bool
  | .notEnabled | .archive _ => false
  | _ => true

end HubError

/-- The source that a package may report for on behalf of a user. -/
def Catalog.checkCaller (c : Catalog) (users : Roster) (package sourceId : String)
    (userId : UserId) : Except HubError Source :=
  match c.source? sourceId with
  | none => .error (.unknownSource sourceId)
  | some source =>
    let expected := source.package.getD ""
    if !source.isExternal then .error (.fixedSource sourceId)
    else if expected != package then .error (.packageMismatch sourceId expected package)
    else match users.user? userId with
      | none => .error (.unknownUser userId)
      | some user =>
        if user.isManaged && !source.appliesToManaged then
          .error (.notApplicableToUser sourceId userId)
        else .ok source

namespace Source

/-- Checks the actions of an issue against the names of those before them. -/
def checkActions (s : Source) (issueId : String) (seen : List String) :
    List IssueAction → Except HubError Unit
  | [] => .ok ()
  | a :: rest =>
    if a.id == "" || seen.contains a.id then
      .error (.invalidReport s.id (.badActionId a.id issueId))
    else s.checkActions issueId (a.id :: seen) rest

/-- Checks issues against the names of those before them. -/
def checkIssues (s : Source) (policy : Policy) (seen : List String) :
    List Issue → Except HubError Unit
  | [] => .ok ()
  | i :: rest =>
    if i.id == "" then .error (.invalidReport s.id .emptyIssueId)
    else if seen.contains i.id then .error (.invalidReport s.id (.duplicateIssueId i.id))
    else if s.maxSeverity < i.severity then
      .error (.severityTooHigh s.id i.severity s.maxSeverity)
    else if !policy.allows i.category s.id then
      .error (.disallowedCategory s.id i.category)
    else match s.checkActions i.id [] i.actions with
      | .error e => .error e
      | .ok () => s.checkIssues policy (i.id :: seen) rest

/-- Checks the status of a report. -/
def checkStatus (s : Source) : Option SourceStatus → Except HubError Unit
  | none => .ok ()
  | some status =>
    if s.isIssueOnly then .error (.statusNotAllowed s.id)
    else if s.maxSeverity < status.severity then
      .error (.severityTooHigh s.id status.severity s.maxSeverity)
    else .ok ()

/-- Checks a report of the source. -/
def checkReport (s : Source) (policy : Policy) (r : Report) : Except HubError Unit := do
  s.checkStatus r.status
  s.checkIssues policy [] r.issues

/-- Checks what is submitted for the source: a report, or nothing in place of one. -/
def checkSubmission (s : Source) (policy : Policy) : Option Report → Except HubError Unit
  | none => .ok ()
  | some r => s.checkReport policy r

end Source

end SafetyHub
