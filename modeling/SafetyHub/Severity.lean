import SafetyHub.User

/-!
# Severity

Sources grade their statuses and issues by a `Severity`; an overview shows an
`OverallSeverity`, whose lowest rank means that nothing has been reported.
-/

namespace SafetyHub

/-- The severity of a status or an issue, in ascending order. -/
inductive Severity where
  | unspecified
  | information
  | recommendation
  | criticalWarning
deriving DecidableEq, Repr, Inhabited

namespace Severity

/-- Every level in ascending order. -/
def all : List Severity :=
  [.unspecified, .information, .recommendation, .criticalWarning]

/-- The position of a level on the scale. -/
def rank : Severity → Nat
  | .unspecified => 0
  | .information => 1
  | .recommendation => 2
  | .criticalWarning => 3

instance : LE Severity := ⟨fun a b => a.rank ≤ b.rank⟩
instance : LT Severity := ⟨fun a b => a.rank < b.rank⟩
instance (a b : Severity) : Decidable (a ≤ b) := inferInstanceAs (Decidable (a.rank ≤ b.rank))
instance (a b : Severity) : Decidable (a < b) := inferInstanceAs (Decidable (a.rank < b.rank))
instance : Max Severity := maxOfLe

theorem rank_injective {a b : Severity} (h : a.rank = b.rank) :
  a = b
  := by
  cases a <;> cases b <;> simp_all [rank]

/-- The number that stands for a level. -/
def value : Severity → UInt16
  | .unspecified => 100
  | .information => 200
  | .recommendation => 300
  | .criticalWarning => 400

/-- The level that a number stands for. -/
def ofValue (n : UInt16) : Except WordError Severity :=
  match all.find? (·.value == n) with
  | some level => .ok level
  | none => .error (.unknownSeverity n)

/-- The name of a level. -/
def name : Severity → String
  | .unspecified => "unspecified"
  | .information => "information"
  | .recommendation => "recommendation"
  | .criticalWarning => "critical_warning"

instance : Encode Severity := ⟨fun level => .string level.name⟩
instance : Decode Severity := ⟨fun d => Json.constant? d (all.map fun level => (level.name, level))⟩

/-- The greatest level of a list, if it has any. -/
def maximum (levels : List Severity) : Option Severity :=
  levels.max?

end Severity

/-- The severity of an overview, in ascending order. -/
inductive OverallSeverity where
  /-- No source has reported anything. -/
  | unknown
  /-- Nothing above information is reported. -/
  | ok
  | recommendation
  | criticalWarning
deriving DecidableEq, Repr, Inhabited

namespace OverallSeverity

/-- The position of a rank on the scale. -/
def rank : OverallSeverity → Nat
  | .unknown => 0
  | .ok => 1
  | .recommendation => 2
  | .criticalWarning => 3

instance : LE OverallSeverity := ⟨fun a b => a.rank ≤ b.rank⟩
instance (a b : OverallSeverity) : Decidable (a ≤ b) :=
  inferInstanceAs (Decidable (a.rank ≤ b.rank))

/-- Every rank in ascending order. -/
def all : List OverallSeverity :=
  [.unknown, .ok, .recommendation, .criticalWarning]

/-- The rank of a report whose highest level is the given one. -/
def ofSeverity : Severity → OverallSeverity
  | .unspecified | .information => .ok
  | .recommendation => .recommendation
  | .criticalWarning => .criticalWarning

/-- The name of a rank. -/
def name : OverallSeverity → String
  | .unknown => "unknown"
  | .ok => "ok"
  | .recommendation => "recommendation"
  | .criticalWarning => "critical_warning"

/-- The name of a rank in the log of statistics. -/
def logName : OverallSeverity → String
  | .unknown => "Unknown"
  | .ok => "Ok"
  | .recommendation => "Recommendation"
  | .criticalWarning => "CriticalWarning"

instance : Encode OverallSeverity := ⟨fun rank => .string rank.name⟩
instance : Decode OverallSeverity :=
  ⟨fun d => Json.constant? d (all.map fun rank => (rank.name, rank))⟩

end OverallSeverity

end SafetyHub
