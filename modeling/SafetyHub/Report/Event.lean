import SafetyHub.Key

/-!
# Events

Why a source reports: its state changed, it answers a refresh, an action on one of its issues
ended, or the device changed.  An event is written as an object whose member `type` may stand
anywhere, or as an array that begins with it.
-/

namespace SafetyHub

/-- Why a source reports. -/
inductive Event where
  | sourceStateChanged
  | refreshRequested (broadcastId : BroadcastId)
  | resolvingActionSucceeded (issueId actionId : String)
  | resolvingActionFailed (issueId actionId : String)
  | deviceRebooted
  | deviceLocaleChanged
deriving DecidableEq, Repr, Inhabited

namespace Event

/-- The refresh that the event answers. -/
def broadcastId? : Event → Option BroadcastId
  | .refreshRequested id => some id
  | _ => none

/-- The name of the kind of event. -/
def typeName : Event → String
  | .sourceStateChanged => "source_state_changed"
  | .refreshRequested _ => "refresh_requested"
  | .resolvingActionSucceeded _ _ => "resolving_action_succeeded"
  | .resolvingActionFailed _ _ => "resolving_action_failed"
  | .deviceRebooted => "device_rebooted"
  | .deviceLocaleChanged => "device_locale_changed"

/-- The fields of an event beside its type. -/
def fields : Event → List (String × Json)
  | .refreshRequested id => [("broadcast_id", encode id)]
  | .resolvingActionSucceeded issueId actionId
  | .resolvingActionFailed issueId actionId =>
    [("issue_id", encode issueId), ("action_id", encode actionId)]
  | _ => []

instance : Encode Event :=
  ⟨fun e => .record (("type", encode e.typeName) :: e.fields)⟩

/-- A kind of event without fields: any members are ignored, but no array elements. -/
def bare? (e : Event) : Json → Option Event
  | .array (_ :: _) => none
  | _ => some e

/-- The two fields of the end of an action. -/
def actionFields? (d : Json.Dialect) (v : Json) : Option (String × String) := do
  let r ← v.record? d ["issue_id", "action_id"]
  some (← r.required "issue_id" (decode? d), ← r.required "action_id" (decode? d))

/-- The event of a type, from the value that holds its other fields. -/
def ofFields? (d : Json.Dialect) (type : String) (v : Json) : Option Event :=
  match type with
  | "source_state_changed" => bare? .sourceStateChanged v
  | "refresh_requested" => do
    let r ← v.record? d ["broadcast_id"]
    some (.refreshRequested (← r.required "broadcast_id" (decode? d)))
  | "resolving_action_succeeded" => do
    let (issueId, actionId) ← actionFields? d v
    some (.resolvingActionSucceeded issueId actionId)
  | "resolving_action_failed" => do
    let (issueId, actionId) ← actionFields? d v
    some (.resolvingActionFailed issueId actionId)
  | "device_rebooted" => bare? .deviceRebooted v
  | "device_locale_changed" => bare? .deviceLocaleChanged v
  | _ => none

/-- The type of an event and the value that holds its other fields. -/
def split? : Json → Option (String × Json)
  | .array (.string type :: rest) => some (type, .array rest)
  | .object ms =>
    match ms.filter (·.1 == some "type") with
    | [(_, .string type)] => some (type, .object (ms.filter (·.1 != some "type")))
    | _ => none
  | _ => none

instance : Decode Event where
  decode? d v := do
    if !v.isHoldable Json.heldDepth then none
    else
      let (type, rest) ← split? v
      ofFields? d type rest

end Event

end SafetyHub
