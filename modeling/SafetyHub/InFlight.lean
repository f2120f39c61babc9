import SafetyHub.Report.Basic

/-!
# Actions in flight

An action is in flight from when its source is asked to carry it out until the source says how
it ended, its time is over, or its issue no longer offers it.  The operations that drop actions
say which, in order, so that their deadlines can be dropped too.
-/

namespace SafetyHub

open Std

/-- The actions in flight. -/
abbrev InFlight := ExtTreeSet ActionKey

/-- Whether a report offers an action on an issue. -/
def Report.offers (r : Report) (issueId actionId : String) : Bool :=
  ((r.issue? issueId).bind (·.action? actionId)).isSome

namespace InFlight

/-- Whether an action of an issue is in flight. -/
def hasIssue (a : InFlight) (issue : IssueKey) : Bool :=
  a.toList.any (·.issue == issue)

/-- The actions that do not satisfy a condition. -/
def outside (a : InFlight) (keep : ActionKey → Bool) : List ActionKey :=
  a.toList.filter (!keep ·)

/-- Whether an action of another source key, or one that the report offers. -/
def isOffered (source : SourceKey) (report : Option Report) (key : ActionKey) : Bool :=
  !key.issue.belongsTo source || report.any (·.offers key.issue.issueId key.actionId)

/-- Whether an action of another user. -/
def isOfOther (user : UserId) (key : ActionKey) : Bool :=
  key.issue.userId != user

end InFlight

end SafetyHub
