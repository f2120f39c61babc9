import SafetyHub.Json.Decode
import SafetyHub.Text.Blank

/-!
# Users

A user, or profile, of the device is a signed number of 32 bits.  `UserId.parse` reads one as
it is typed: decimal digits with an optional sign, blanks around it.
-/

namespace SafetyHub

/-- A user or profile. -/
abbrev UserId := Int32

/-- Why a typed word is refused. -/
inductive WordError where
  | invalidUserId (text : String)
  | unknownReason (text : String)
  | unknownSeverity (value : UInt16)
deriving DecidableEq, Repr

/-- The wording of a refusal. -/
def WordError.message : WordError → String
  | .invalidUserId text => "invalid user id: " ++ text
  | .unknownReason text => "unknown refresh reason: " ++ text
  | .unknownSeverity value => "unknown severity level: " ++ toString value

/-- The user that a text names. -/
def UserId.parse (text : String) : Except WordError UserId :=
  match Text.readInt? (Text.trim text) with
  | some n =>
    if Int32.minValue.toInt ≤ n ∧ n ≤ Int32.maxValue.toInt then .ok (Int32.ofInt n)
    else .error (.invalidUserId text)
  | none => .error (.invalidUserId text)

end SafetyHub
