import SafetyHub.Hub.Calls

/-!
# When deadlines pass

`Hub.turn` is what the hub does when the turn of a deadline has come and the deadline has been
dropped.
-/

namespace SafetyHub.Hub

/-- The time of a refresh is over.  Its listeners hear which sources did not answer, and where
the policy says so these sources are marked as failed. -/
def refreshOverdue (h : Hub) (env : Surroundings) (id : BroadcastId) : Change :=
  match h.tracker.current with
  | none => { hub := h }
  | some r =>
    let (missing, tracker) := h.tracker.timeOutAll id
    if missing.isEmpty then { hub := h }
    else
      let reports := if h.policy.showErrorsOnTimeout
        then missing.foldl ReportStore.markFailed h.reports else h.reports
      let h := { h with tracker, reports }
      let names := String.intercalate ", " (missing.map toString)
      let published := h.publish env
      { published with
        effects := h.statsOf env.now r.group :: published.effects
          ++ [.notice r.group.parent ⟨.refreshTimeout, s!"no answer from {names}"⟩] }

/-- The time of an action is over. -/
def actionOverdue (h : Hub) (env : Surroundings) (action : ActionKey) : Change :=
  match h.endAction? action with
  | none => { hub := h }
  | some h =>
    let published := h.publish env
    { published with
      effects := published.effects ++ [noticeFor env action.issue.userId
        ⟨.actionTimeout, s!"action {action} did not complete"⟩] }

/-- A dismissed issue comes back. -/
def resurface (h : Hub) (env : Surroundings) : Change :=
  (h.scheduleResurface env.now).publish env

/-- What the hub does when a deadline has passed. -/
def turn (h : Hub) (env : Surroundings) : DeadlineKey → Change
  | .refresh id => h.refreshOverdue env id
  | .resolveAction action => h.actionOverdue env action
  | .resurface => h.resurface env
  | .persistWrite => h.write.2

end SafetyHub.Hub
