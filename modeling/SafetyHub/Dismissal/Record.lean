import SafetyHub.Instant.Written
import SafetyHub.Policy

/-!
# Dismissal records

A record says when an issue was first reported, when it was last dismissed and how often.  A
dismissed issue comes back after the delay of its severity, unless it has been dismissed more
often than its severity allows: then it stays away.
-/

namespace SafetyHub

/-- The dismissals of one issue. -/
structure DismissalRecord where
  firstSeenAt : Instant
  /-- The last dismissal. -/
  dismissedAt : Option Instant := none
  dismissCount : UInt32 := 0
deriving DecidableEq, Repr, Inhabited

namespace DismissalRecord

/-- The record of an issue that is reported for the first time. -/
def fresh (now : Instant) : DismissalRecord := { firstSeenAt := now }

/-- The record after a dismissal; the greatest count stays. -/
def dismiss (r : DismissalRecord) (now : Instant) : DismissalRecord :=
  { r with
    dismissedAt := some now
    dismissCount := if r.dismissCount.toNat + 1 < UInt32.size then r.dismissCount + 1
      else r.dismissCount }

/-- Whether the issue has been dismissed too often to come back. -/
def isSpent (r : DismissalRecord) (level : Severity) (policy : ResurfacePolicy) : Bool :=
  policy.maxCount level < r.dismissCount

/-- Whether the issue is away at an instant. -/
def isDismissed (r : DismissalRecord) (level : Severity) (policy : ResurfacePolicy)
    (now : Instant) : Bool :=
  match r.dismissedAt with
  | none => false
  | some last =>
    r.isSpent level policy
      || decide (now.since last < ((policy.delay level).clamped : Nat))

/-- When the issue will come back, if it is away and will. -/
def resurfaceAt? (r : DismissalRecord) (level : Severity) (policy : ResurfacePolicy)
    (now : Instant) : Option Instant := do
  let last ← r.dismissedAt
  if r.isSpent level policy then none
  else
    let back ← last.add? (policy.delay level).clamped
    if now < back then some back else none

end DismissalRecord

/-- A dismissal record as it is kept over restarts. -/
structure SavedRecord where
  key : IssueKey
  record : DismissalRecord
deriving DecidableEq, Repr, Inhabited

instance : Encode SavedRecord :=
  ⟨fun s => .record
    ([("key", encode s.key), ("first_seen_at", encode s.record.firstSeenAt)]
      ++ (s.record.dismissedAt.map fun t => ("dismissed_at", encode t)).toList
      ++ [("dismiss_count", encode s.record.dismissCount)])⟩

instance : Decode SavedRecord where
  decode? d v := do
    let r ← v.record? d ["key", "first_seen_at", "dismissed_at", "dismiss_count"]
    some {
      key := ← r.required "key" (decode? d)
      record := {
        firstSeenAt := ← r.required "first_seen_at" (decode? d)
        dismissedAt := ← r.defaulted "dismissed_at" none (decode? d)
        dismissCount := ← r.defaulted "dismiss_count" 0 (decode? d) } }

end SafetyHub
