import SafetyHub.Key
import SafetyHub.Severity

/-!
# Reports

What a source reports for one user: a status of the source as a whole, or none, and a list of
issues, each with the actions it offers.  A report replaces the one before it.
-/

namespace SafetyHub

/-- The status of a source as a whole. -/
structure SourceStatus where
  title : String
  summary : String
  severity : Severity
  /-- Whether the entry that shows the status can be opened. -/
  enabled : Bool := true
deriving DecidableEq, Repr, Inhabited

instance : Encode SourceStatus :=
  ⟨fun s => .record [("title", encode s.title), ("summary", encode s.summary),
    ("severity_level", encode s.severity), ("enabled", encode s.enabled)]⟩

instance : Decode SourceStatus where
  decode? d v := do
    let r ← v.record? d ["title", "summary", "severity_level", "enabled"]
    some {
      title := ← r.required "title" (decode? d)
      summary := ← r.required "summary" (decode? d)
      severity := ← r.required "severity_level" (decode? d)
      enabled := ← r.defaulted "enabled" true (decode? d) }

/-- What an issue is about. -/
inductive IssueCategory where
  | device
  | account
  | general
  | data
  | passwords
  | personalSafety
deriving DecidableEq, Repr, Inhabited

namespace IssueCategory

/-- Every category. -/
def all : List IssueCategory :=
  [.device, .account, .general, .data, .passwords, .personalSafety]

/-- The name of a category. -/
def name : IssueCategory → String
  | .device => "device"
  | .account => "account"
  | .general => "general"
  | .data => "data"
  | .passwords => "passwords"
  | .personalSafety => "personal_safety"

/-- The name of a category in a refusal. -/
def logName : IssueCategory → String
  | .device => "Device"
  | .account => "Account"
  | .general => "General"
  | .data => "Data"
  | .passwords => "Passwords"
  | .personalSafety => "PersonalSafety"

instance : Encode IssueCategory := ⟨fun c => .string c.name⟩
instance : Decode IssueCategory := ⟨fun d => Json.constant? d (all.map fun c => (c.name, c))⟩

end IssueCategory

/-- An action that a user can take on an issue. -/
structure IssueAction where
  /-- Names the action within its issue. -/
  id : String
  label : String
  /-- Whether the action is carried out in place and reports back. -/
  willResolve : Bool := false
deriving DecidableEq, Repr, Inhabited

instance : Encode IssueAction :=
  ⟨fun a => .record [("id", encode a.id), ("label", encode a.label),
    ("will_resolve", encode a.willResolve)]⟩

instance : Decode IssueAction where
  decode? d v := do
    let r ← v.record? d ["id", "label", "will_resolve"]
    some {
      id := ← r.required "id" (decode? d)
      label := ← r.required "label" (decode? d)
      willResolve := ← r.defaulted "will_resolve" false (decode? d) }

/-- One finding of a source. -/
structure Issue where
  /-- Names the issue within its source. -/
  id : String
  title : String
  summary : String := ""
  severity : Severity
  category : IssueCategory
  actions : List IssueAction := []
deriving DecidableEq, Repr, Inhabited

namespace Issue

/-- The action with the given name. -/
def action? (i : Issue) (actionId : String) : Option IssueAction :=
  i.actions.find? (·.id == actionId)

instance : Encode Issue :=
  ⟨fun i => .record [("id", encode i.id), ("title", encode i.title),
    ("summary", encode i.summary), ("severity_level", encode i.severity),
    ("category", encode i.category), ("actions", encode i.actions)]⟩

instance : Decode Issue where
  decode? d v := do
    let r ← v.record? d ["id", "title", "summary", "severity_level", "category", "actions"]
    some {
      id := ← r.required "id" (decode? d)
      title := ← r.required "title" (decode? d)
      summary := ← r.defaulted "summary" "" (decode? d)
      severity := ← r.required "severity_level" (decode? d)
      category := ← r.required "category" (decode? d)
      actions := ← r.defaulted "actions" [] (decode? d) }

end Issue

/-- What a source reports for one user. -/
structure Report where
  status : Option SourceStatus := none
  /-- The issues in the order in which the source reports them. -/
  issues : List Issue := []
deriving DecidableEq, Repr, Inhabited

namespace Report

/-- The issue with the given name. -/
def issue? (r : Report) (issueId : String) : Option Issue :=
  r.issues.find? (·.id == issueId)

/-- The names of all issues, in order. -/
def issueIds (r : Report) : List String :=
  r.issues.map (·.id)

/-- The greatest severity of the status and of all issues. -/
def maxSeverity (r : Report) : Option Severity :=
  Severity.maximum (r.status.toList.map (·.severity) ++ r.issues.map (·.severity))

instance : Encode Report :=
  ⟨fun r => .record
    ((r.status.map fun s => ("status", encode s)).toList ++ [("issues", encode r.issues)])⟩

instance : Decode Report where
  decode? d v := do
    let r ← v.record? d ["status", "issues"]
    some {
      status := ← r.defaulted "status" none (decode? d)
      issues := ← r.defaulted "issues" [] (decode? d) }

end Report

end SafetyHub
