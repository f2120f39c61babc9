import SafetyHub.Json.Decode
import SafetyHub.User
import Std.Data.ExtTreeMap
import Std.Data.ExtTreeSet

/-!
# Keys

`SourceKey` names what one source reports for one user, `IssueKey` one issue of such a report
and `ActionKey` one action of an issue.  Keys are ordered by their fields from left to right,
texts by code point and users as signed numbers; each order decides equality.
-/

namespace SafetyHub

open Std

/-- What one source reports for one user. -/
structure SourceKey where
  sourceId : String
  userId : UserId
deriving DecidableEq, Repr, Inhabited

namespace SourceKey

instance : Ord SourceKey :=
  ⟨compareLex (compareOn (·.sourceId)) (compareOn (·.userId))⟩

instance : TransOrd SourceKey :=
  inferInstanceAs (TransCmp (compareLex (compareOn SourceKey.sourceId)
    (compareOn SourceKey.userId)))

instance : LawfulEqOrd SourceKey where
  eq_of_compare {a b} h := by
    obtain ⟨h₁, h₂⟩ := compareLex_eq_eq.1 h
    cases a
    cases b
    cases LawfulEqOrd.eq_of_compare h₁
    cases LawfulEqOrd.eq_of_compare h₂
    rfl

instance : ToString SourceKey := ⟨fun k => s!"{k.sourceId}/u{k.userId}"⟩

instance : Encode SourceKey :=
  ⟨fun k => .record [("source_id", encode k.sourceId), ("user_id", encode k.userId)]⟩

instance : Decode SourceKey where
  decode? d v := do
    let r ← v.record? d ["source_id", "user_id"]
    some {
      sourceId := ← r.required "source_id" (decode? d)
      userId := ← r.required "user_id" (decode? d) }

end SourceKey

/-- One issue that a source reports for one user. -/
structure IssueKey where
  sourceId : String
  issueId : String
  userId : UserId
deriving DecidableEq, Repr, Inhabited

namespace IssueKey

instance : Ord IssueKey :=
  ⟨compareLex (compareOn (·.sourceId))
    (compareLex (compareOn (·.issueId)) (compareOn (·.userId)))⟩

instance : TransOrd IssueKey :=
  inferInstanceAs (TransCmp (compareLex (compareOn IssueKey.sourceId)
    (compareLex (compareOn IssueKey.issueId) (compareOn IssueKey.userId))))

instance : LawfulEqOrd IssueKey where
  eq_of_compare {a b} h := by
    obtain ⟨h₁, h₂⟩ := compareLex_eq_eq.1 h
    obtain ⟨h₂, h₃⟩ := compareLex_eq_eq.1 h₂
    cases a
    cases b
    cases LawfulEqOrd.eq_of_compare h₁
    cases LawfulEqOrd.eq_of_compare h₂
    cases LawfulEqOrd.eq_of_compare h₃
    rfl

/-- The key of the report that holds the issue. -/
def sourceKey (k : IssueKey) : SourceKey := ⟨k.sourceId, k.userId⟩

/-- Whether the issue is reported under a source key. -/
def belongsTo (k : IssueKey) (s : SourceKey) : Bool :=
  k.sourceId == s.sourceId && k.userId == s.userId

theorem belongsTo_iff {k : IssueKey} {s : SourceKey} :
  k.belongsTo s = true ↔ k.sourceKey = s
  := by
  cases k
  cases s
  simp [belongsTo, sourceKey]

instance : ToString IssueKey := ⟨fun k => s!"{k.sourceId}/{k.issueId}/u{k.userId}"⟩

instance : Encode IssueKey :=
  ⟨fun k => .record [("source_id", encode k.sourceId), ("issue_id", encode k.issueId),
    ("user_id", encode k.userId)]⟩

instance : Decode IssueKey where
  decode? d v := do
    let r ← v.record? d ["source_id", "issue_id", "user_id"]
    some {
      sourceId := ← r.required "source_id" (decode? d)
      issueId := ← r.required "issue_id" (decode? d)
      userId := ← r.required "user_id" (decode? d) }

end IssueKey

/-- The key of an issue reported under a source key. -/
def SourceKey.issue (k : SourceKey) (issueId : String) : IssueKey :=
  ⟨k.sourceId, issueId, k.userId⟩

/-- One action of one issue. -/
structure ActionKey where
  issue : IssueKey
  actionId : String
deriving DecidableEq, Repr, Inhabited

namespace ActionKey

instance : Ord ActionKey :=
  ⟨compareLex (compareOn (·.issue)) (compareOn (·.actionId))⟩

instance : TransOrd ActionKey :=
  inferInstanceAs (TransCmp (compareLex (compareOn ActionKey.issue)
    (compareOn ActionKey.actionId)))

instance : LawfulEqOrd ActionKey where
  eq_of_compare {a b} h := by
    obtain ⟨h₁, h₂⟩ := compareLex_eq_eq.1 h
    cases a
    cases b
    cases LawfulEqOrd.eq_of_compare h₁
    cases LawfulEqOrd.eq_of_compare h₂
    rfl

instance : ToString ActionKey := ⟨fun k => s!"{k.issue}#{k.actionId}"⟩

end ActionKey

/-- The token that ties the answers of sources to the refresh that asked for them. -/
structure BroadcastId where
  text : String
deriving DecidableEq, Repr, Inhabited

namespace BroadcastId

instance : ToString BroadcastId := ⟨BroadcastId.text⟩
instance : Encode BroadcastId := ⟨fun id => encode id.text⟩
instance : Decode BroadcastId := ⟨fun d v => (decode? d v).map (⟨·⟩)⟩

end BroadcastId

/-- A set of names of sources, without order or repetition. -/
abbrev SourceIds := ExtTreeSet String

instance : Encode SourceIds := ⟨fun ids => encode ids.toList⟩
instance : Decode SourceIds where
  decode? d v := do
    let ids : List String ← decode? d v
    some (ExtTreeSet.ofList ids)

end SafetyHub
