import SafetyHub.Instant.Basic
import SafetyHub.Refresh.Reason
import SafetyHub.Report.Basic

/-!
# Policy

The values that tune the hub.  Each has a default, so that a document states only what differs.
Of several timeouts for a reason, and of several allowlists for a category, the first counts.

A `ResurfacePolicy` is what dismissals ask of a policy: how often an issue of a severity comes
back, and after how long.
-/

namespace SafetyHub

/-- A value for each severity. -/
structure PerSeverity (α : Type) where
  unspecified : α
  information : α
  recommendation : α
  criticalWarning : α
deriving DecidableEq, Repr, Inhabited

namespace PerSeverity

variable {α : Type}

/-- The same value for each severity. -/
def uniform (a : α) : PerSeverity α := ⟨a, a, a, a⟩

/-- The value for a severity. -/
def get (v : PerSeverity α) : Severity → α
  | .unspecified => v.unspecified
  | .information => v.information
  | .recommendation => v.recommendation
  | .criticalWarning => v.criticalWarning

/-- The values with one replaced. -/
def set (v : PerSeverity α) (level : Severity) (a : α) : PerSeverity α :=
  match level with
  | .unspecified => { v with unspecified := a }
  | .information => { v with information := a }
  | .recommendation => { v with recommendation := a }
  | .criticalWarning => { v with criticalWarning := a }

instance [Encode α] : Encode (PerSeverity α) :=
  ⟨fun v => .record [("unspecified", encode v.unspecified),
    ("information", encode v.information), ("recommendation", encode v.recommendation),
    ("critical_warning", encode v.criticalWarning)]⟩

instance [Decode α] : Decode (PerSeverity α) where
  decode? d v := do
    let r ← v.record? d ["unspecified", "information", "recommendation", "critical_warning"]
    some {
      unspecified := ← r.required "unspecified" (decode? d)
      information := ← r.required "information" (decode? d)
      recommendation := ← r.required "recommendation" (decode? d)
      criticalWarning := ← r.required "critical_warning" (decode? d) }

end PerSeverity

/-- How long a refresh for one reason may take. -/
structure ReasonTimeout where
  reason : RefreshReason
  millis : Millis
deriving DecidableEq, Repr, Inhabited

instance : Encode ReasonTimeout :=
  ⟨fun t => .record [("reason", encode t.reason), ("millis", encode t.millis)]⟩

instance : Decode ReasonTimeout where
  decode? d v := do
    let r ← v.record? d ["reason", "millis"]
    some {
      reason := ← r.required "reason" (decode? d)
      millis := ← r.required "millis" (decode? d) }

/-- The sources that may report issues of one category. -/
structure CategoryAllowlist where
  category : IssueCategory
  sourceIds : SourceIds

instance : Encode CategoryAllowlist :=
  ⟨fun a => .record [("category", encode a.category), ("source_ids", encode a.sourceIds)]⟩

instance : Decode CategoryAllowlist where
  decode? d v := do
    let r ← v.record? d ["category", "source_ids"]
    some {
      category := ← r.required "category" (decode? d)
      sourceIds := ← r.required "source_ids" (decode? d) }

/-- The milliseconds of a day. -/
def Millis.day : Millis := 24 * 60 * 60 * 1000

/-- A length of time in seconds and nanoseconds, cut to whole milliseconds and to the greatest
number of them that 64 bits hold. -/
def Millis.ofSeconds (seconds nanos : Nat) : Millis :=
  UInt64.ofNat (min (seconds * 1000 + nanos / Instant.millisecond) (UInt64.size - 1))

/-- How often and when dismissed issues come back. -/
structure ResurfacePolicy where
  /-- How often a dismissed issue of a severity comes back. -/
  maxCount : Severity → UInt32
  /-- How long a dismissed issue of a severity stays away. -/
  delay : Severity → Duration

/-- The values that tune the hub. -/
structure Policy where
  /-- Whether the hub is turned on. -/
  enabled : Bool := true
  /-- Whether the device supports the hub at all. -/
  supported : Bool := true
  /-- The package that shows the hub's page. -/
  owningPackage : String := "com.android.permissioncontroller"
  /-- Whether sources that miss a refresh are shown as failed. -/
  showErrorsOnTimeout : Bool := false
  /-- How often a dismissed issue of each severity comes back. -/
  resurfaceMaxCount : PerSeverity UInt32 := .uniform 0
  /-- How long a dismissed issue of each severity stays away. -/
  resurfaceDelay : PerSeverity Millis := .uniform (180 * Millis.day)
  /-- How long a refresh may take, unless its reason has a timeout of its own. -/
  refreshTimeout : Millis := 15000
  refreshTimeouts : List ReasonTimeout := [⟨.rescanButtonClick, 60000⟩]
  /-- How long an action may stay in flight. -/
  resolveActionTimeout : Millis := 10000
  /-- How long changed dismissals wait before they are saved. -/
  persistWriteDelay : Millis := 500
  /-- The age at which a report counts as stale. -/
  staleDataAge : Millis := Millis.day
  /-- The sources that a refresh asks but does not wait for. -/
  untrackedSources : SourceIds := ∅
  allowlists : List CategoryAllowlist := []

namespace Policy

instance : Inhabited Policy := ⟨{}⟩

/-- How often and when dismissed issues come back. -/
def resurfacing (p : Policy) : ResurfacePolicy where
  maxCount := p.resurfaceMaxCount.get
  delay level := (p.resurfaceDelay.get level).duration

instance : Coe Policy ResurfacePolicy := ⟨resurfacing⟩

/-- Whether the hub answers calls. -/
def isActive (p : Policy) : Bool := p.supported && p.enabled

/-- How long a refresh for a reason may take. -/
def timeoutFor (p : Policy) (reason : RefreshReason) : Millis :=
  match p.refreshTimeouts.find? (·.reason == reason) with
  | some t => t.millis
  | none => p.refreshTimeout

/-- Whether a refresh waits for a source. -/
def isTracked (p : Policy) (sourceId : String) : Bool :=
  !p.untrackedSources.contains sourceId

/-- Whether a source may report issues of a category. -/
def allows (p : Policy) (category : IssueCategory) (sourceId : String) : Bool :=
  match p.allowlists.find? (·.category == category) with
  | some a => a.sourceIds.contains sourceId
  | none => true

/-! ### Changes -/

/-- Shows sources that miss a refresh as failed, or not. -/
def withErrorsOnTimeout (p : Policy) (shown : Bool) : Policy :=
  { p with showErrorsOnTimeout := shown }

/-- Sets how often and when a dismissed issue of a severity comes back. -/
def withResurface (p : Policy) (level : Severity) (maxCount : UInt32) (delay : Millis) :
    Policy :=
  { p with
    resurfaceMaxCount := p.resurfaceMaxCount.set level maxCount
    resurfaceDelay := p.resurfaceDelay.set level delay }

/-- Sets the timeout for a reason, in place of all there were. -/
def withTimeout (p : Policy) (reason : RefreshReason) (millis : Millis) : Policy :=
  { p with
    refreshTimeouts := p.refreshTimeouts.filter (·.reason != reason) ++ [⟨reason, millis⟩] }

/-- Leaves a source out of the ones waited for. -/
def withUntracked (p : Policy) (sourceId : String) : Policy :=
  { p with untrackedSources := p.untrackedSources.insert sourceId }

/-- Allows a category to some sources alone, in place of all its allowlists. -/
def withAllowlist (p : Policy) (category : IssueCategory) (sourceIds : SourceIds) : Policy :=
  { p with
    allowlists := p.allowlists.filter (·.category != category) ++ [⟨category, sourceIds⟩] }

/-! ### Document form -/

instance : Encode Policy :=
  ⟨fun p => .record [("enabled", encode p.enabled), ("supported", encode p.supported),
    ("owning_package_name", encode p.owningPackage),
    ("show_error_entries_on_timeout", encode p.showErrorsOnTimeout),
    ("resurface_max_count", encode p.resurfaceMaxCount),
    ("resurface_delay_millis", encode p.resurfaceDelay),
    ("refresh_timeout_millis", encode p.refreshTimeout),
    ("refresh_timeouts", encode p.refreshTimeouts),
    ("resolve_action_timeout_millis", encode p.resolveActionTimeout),
    ("persist_write_delay_millis", encode p.persistWriteDelay),
    ("stale_data_age_millis", encode p.staleDataAge),
    ("untracked_sources", encode p.untrackedSources),
    ("issue_category_allowlists", encode p.allowlists)]⟩

/-- The names of the fields of a policy. -/
def fieldNames : List String :=
  ["enabled", "supported", "owning_package_name", "show_error_entries_on_timeout",
    "resurface_max_count", "resurface_delay_millis", "refresh_timeout_millis",
    "refresh_timeouts", "resolve_action_timeout_millis", "persist_write_delay_millis",
    "stale_data_age_millis", "untracked_sources", "issue_category_allowlists"]

instance : Decode Policy where
  decode? d v := do
    let r ← v.record? d fieldNames
    let p : Policy := {}
    some {
      enabled := ← r.defaulted "enabled" p.enabled (decode? d)
      supported := ← r.defaulted "supported" p.supported (decode? d)
      owningPackage := ← r.defaulted "owning_package_name" p.owningPackage (decode? d)
      showErrorsOnTimeout :=
        ← r.defaulted "show_error_entries_on_timeout" p.showErrorsOnTimeout (decode? d)
      resurfaceMaxCount := ← r.defaulted "resurface_max_count" p.resurfaceMaxCount (decode? d)
      resurfaceDelay := ← r.defaulted "resurface_delay_millis" p.resurfaceDelay (decode? d)
      refreshTimeout := ← r.defaulted "refresh_timeout_millis" p.refreshTimeout (decode? d)
      refreshTimeouts := ← r.defaulted "refresh_timeouts" p.refreshTimeouts (decode? d)
      resolveActionTimeout :=
        ← r.defaulted "resolve_action_timeout_millis" p.resolveActionTimeout (decode? d)
      persistWriteDelay :=
        ← r.defaulted "persist_write_delay_millis" p.persistWriteDelay (decode? d)
      staleDataAge := ← r.defaulted "stale_data_age_millis" p.staleDataAge (decode? d)
      untrackedSources := ← r.defaulted "untracked_sources" p.untrackedSources (decode? d)
      allowlists := ← r.defaulted "issue_category_allowlists" p.allowlists (decode? d) }

end Policy

end SafetyHub
