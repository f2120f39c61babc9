import SafetyHub.Severity

/-!
# Source declarations

A `Source` is declared with the way it contributes, the package that may report for it and the
profiles it applies to; a `SourceGroup` is a named list of sources.
-/

namespace SafetyHub

/-- How a source contributes. -/
inductive SourceKind where
  /-- A fixed entry that never reports. -/
  | fixed
  /-- Reports a status and issues. -/
  | dynamic
  /-- Reports issues only. -/
  | issueOnly
deriving DecidableEq, Repr, Inhabited

namespace SourceKind

/-- Every kind. -/
def all : List SourceKind := [.fixed, .dynamic, .issueOnly]

/-- The name of a kind. -/
def name : SourceKind → String
  | .fixed => "static"
  | .dynamic => "dynamic"
  | .issueOnly => "issue_only"

instance : Encode SourceKind := ⟨fun k => .string k.name⟩
instance : Decode SourceKind := ⟨fun d => Json.constant? d (all.map fun k => (k.name, k))⟩

end SourceKind

/-- The profiles that a source reports for. -/
inductive Reach where
  /-- The profile parent. -/
  | parentOnly
  /-- The profile parent and every managed profile. -/
  | allProfiles
deriving DecidableEq, Repr, Inhabited

namespace Reach

/-- Every reach. -/
def all : List Reach := [.parentOnly, .allProfiles]

/-- The name of a reach. -/
def name : Reach → String
  | .parentOnly => "primary_profile_only"
  | .allProfiles => "all_profiles"

instance : Encode Reach := ⟨fun r => .string r.name⟩
instance : Decode Reach := ⟨fun d => Json.constant? d (all.map fun r => (r.name, r))⟩

end Reach

/-- How an entry is shown before its source reports. -/
inductive InitialDisplay where
  | enabled
  | disabled
  | hidden
deriving DecidableEq, Repr, Inhabited

namespace InitialDisplay

/-- Every way. -/
def all : List InitialDisplay := [.enabled, .disabled, .hidden]

/-- The name of a way. -/
def name : InitialDisplay → String
  | .enabled => "enabled"
  | .disabled => "disabled"
  | .hidden => "hidden"

instance : Encode InitialDisplay := ⟨fun s => .string s.name⟩
instance : Decode InitialDisplay := ⟨fun d => Json.constant? d (all.map fun s => (s.name, s))⟩

end InitialDisplay

/-- A declared source. -/
structure Source where
  id : String
  kind : SourceKind
  /-- The package that may report for the source. -/
  package : Option String := none
  reach : Reach := .parentOnly
  /-- The greatest severity that the source may report. -/
  maxSeverity : Severity := .criticalWarning
  /-- Whether the source is asked when the page is opened. -/
  askedOnPageOpen : Bool := false
  /-- Whether the source counts in statistics. -/
  loggable : Bool := true
  initialDisplay : InitialDisplay := .enabled
deriving DecidableEq, Repr, Inhabited

namespace Source

/-- Whether the source reports at all. -/
def isExternal (s : Source) : Bool := s.kind != .fixed

/-- Whether the source may not report a status. -/
def isIssueOnly (s : Source) : Bool := s.kind == .issueOnly

/-- Whether the source reports for managed profiles. -/
def appliesToManaged (s : Source) : Bool := s.reach == .allProfiles

instance : Encode Source :=
  ⟨fun s => .record
    ([("id", encode s.id), ("kind", encode s.kind)]
      ++ (s.package.map fun p => ("package_name", encode p)).toList
      ++ [("profile", encode s.reach), ("max_severity_level", encode s.maxSeverity),
        ("refresh_on_page_open_allowed", encode s.askedOnPageOpen),
        ("logging_allowed", encode s.loggable),
        ("initial_display_state", encode s.initialDisplay)])⟩

instance : Decode Source where
  decode? d v := do
    let r ← v.record? d ["id", "kind", "package_name", "profile", "max_severity_level",
      "refresh_on_page_open_allowed", "logging_allowed", "initial_display_state"]
    some {
      id := ← r.required "id" (decode? d)
      kind := ← r.required "kind" (decode? d)
      package := ← r.defaulted "package_name" none (decode? d)
      reach := ← r.defaulted "profile" .parentOnly (decode? d)
      maxSeverity := ← r.defaulted "max_severity_level" .criticalWarning (decode? d)
      askedOnPageOpen := ← r.defaulted "refresh_on_page_open_allowed" false (decode? d)
      loggable := ← r.defaulted "logging_allowed" true (decode? d)
      initialDisplay := ← r.defaulted "initial_display_state" .enabled (decode? d) }

end Source

/-- A named list of sources. -/
structure SourceGroup where
  id : String
  title : String := ""
  sources : List Source := []
deriving DecidableEq, Repr, Inhabited

namespace SourceGroup

/-- A group whose title is its name. -/
def titled (id : String) (sources : List Source) : SourceGroup :=
  { id, title := id, sources }

instance : Encode SourceGroup :=
  ⟨fun g => .record [("id", encode g.id), ("title", encode g.title),
    ("sources", encode g.sources)]⟩

instance : Decode SourceGroup where
  decode? d v := do
    let r ← v.record? d ["id", "title", "sources"]
    some {
      id := ← r.required "id" (decode? d)
      title := ← r.defaulted "title" "" (decode? d)
      sources := ← r.defaulted "sources" [] (decode? d) }

end SourceGroup

end SafetyHub
