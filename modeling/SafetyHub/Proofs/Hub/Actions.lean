import SafetyHub.Proofs.Hub.Notices
import Mathlib.Data.List.Chain

/-!
# The course of an action

An action is sent to a package, ends, and may be sent again.  `Hub.milestones` are what a move
is to an action: that it is sent, that it ends, and the error that listeners hear of when it
ends; `Hub.record` lists those of a run.  An action in flight is one that was sent and has not
ended since, so sends and ends alternate, and an error comes with an end.  The deadline that is
armed for an action is that of when it was last sent, so no action is overdue before its time.
-/

namespace SafetyHub

/-- A point in the course of an action. -/
inductive Milestone where
  /-- The action is sent to a package. -/
  | sent (package : String)
  | ended
  /-- Listeners hear of an error. -/
  | heard (notice : Notice)
deriving DecidableEq, Repr

/-- Whether a point comes right after another one: an action that is sent ends, an error comes
with an end, and an action that has ended is sent again. -/
def Milestone.Precedes : Milestone → Milestone → Prop
  | .sent _, .ended | .ended, .heard _ | .ended, .sent _ | .heard _, .sent _ => True
  | _, _ => False

namespace Milestone

def isSent : Milestone → Bool
  | .sent _ => true
  | .ended | .heard _ => false

/-- Points that come one right after the other, after a first one and up to a last one. -/
def Leads (first : Milestone) (points : List Milestone) (last : Milestone) : Prop :=
  (first :: points).IsChain Precedes ∧ (first :: points).getLast? = some last

namespace Leads

variable {first middle last : Milestone} {points points' : List Milestone}

theorem refl (point : Milestone) : point.Leads [] point := ⟨.singleton point, rfl⟩

theorem single (hprecedes : first.Precedes last) : first.Leads [last] last :=
  ⟨.cons_cons hprecedes (.singleton last), rfl⟩

theorem append (hleads : first.Leads points middle) (hleads' : middle.Leads points' last) :
  first.Leads (points ++ points') last
  := by
  obtain ⟨hchain, hmiddle⟩ := hleads
  obtain ⟨hchain', hlast⟩ := hleads'
  constructor
  · rw [← List.cons_append, List.isChain_append]
    refine ⟨hchain, hchain'.tail, ?_⟩
    intro x hx y hy
    cases hmiddle.symm.trans hx
    exact (List.isChain_cons.mp hchain').1 y hy
  · rw [← hlast, ← List.cons_append, List.getLast?_append, hmiddle, List.getLast?_cons]
    cases points'.getLast? <;> rfl

/-- After an error only a send may follow. -/
theorem isSent_head {notice : Notice} (hleads : (heard notice).Leads points last) :
  ∀ point ∈ points.head?, point.isSent = true
  := by
  intro point hpoint
  have hprecedes := (List.isChain_cons.mp hleads.1).1 point hpoint
  cases point with
  | sent _ => rfl
  | ended | heard _ => cases hprecedes

theorem isSent_last_iff {notice : Notice} (hleads : (heard notice).Leads points last) :
  last.isSent = true ↔ points.getLast?.any (·.isSent) = true
  := by
  have hlast := hleads.2
  rw [List.getLast?_cons, Option.some_inj] at hlast
  rw [← hlast]
  cases points.getLast? <;> rfl

end Leads

end Milestone

namespace Hub

variable {h h' : Hub} {env : Surroundings} {action : ActionKey} {m : Move}

/-- The errors about an action that a move lets listeners hear of. -/
def errors (h : Hub) (env : Surroundings) (m : Move) (action : ActionKey) : List Notice :=
  if m.subject? = some action then (h.outcome env m).notices.map (·.2) else []

/-- What a move is to an action. -/
def milestones (h : Hub) (env : Surroundings) (m : Move) (action : ActionKey) : List Milestone :=
  ((h.outcome env m).sends action).map .sent
    ++ (if h.endsAction env m action then [.ended] else [])
    ++ (h.errors env m action).map .heard

/-- What the moves of a run are to an action. -/
def record (h : Hub) (action : ActionKey) : List (Surroundings × Move) → List Milestone
  | [] => []
  | (env, m) :: moves => h.milestones env m action ++ (h.move env m).record action moves

/-! ### Actions in flight -/

theorem mem_inFlight_turn {key : DeadlineKey} :
  action ∈ (h.turn env key).hub.inFlight ↔ action ∈ h.inFlight ∧ key ≠ .resolveAction action
  := by
  cases key with
  | refresh id =>
    have hsame : (h.refreshOverdue env id).hub.inFlight = h.inFlight := by
      unfold refreshOverdue
      split
      · rfl
      · dsimp only
        split <;> rfl
    simp [turn, hsame]
  | resolveAction overdue =>
    rw [turn, actionOverdue]
    split
    next hend =>
      apply (and_iff_left_of_imp _).symm
      rintro hin ⟨⟩
      exact endAction?_eq_none_iff.mp hend hin
    next h' hend =>
      obtain ⟨-, rfl⟩ := endAction?_eq_some_iff.mp hend
      simp [publish, and_comm]
  | resurface =>
    have hlike := (Like.scheduleResurface h env.now).trans (Like.publish _ env)
    rw [turn, resurface, hlike.inFlight_eq]
    simp
  | persistWrite =>
    have hsame : h.write.2.hub.inFlight = h.inFlight := by
      obtain heq | ⟨-, archive, -, heq⟩ := hub_write_cases h
      · rw [heq]
      · rw [heq]
    rw [turn, hsame]
    simp

/-- What is in flight after a move that executes no action was in flight before, and the move
does not end it. -/
theorem mem_inFlight_move (hm : ∀ issue actionId, m ≠ .execute issue actionId) :
  action ∈ (h.move env m).inFlight ↔ action ∈ h.inFlight ∧ h.endsAction env m action = false
  := by
  have mem_iff {ends : Bool} {p : Prop} (hp : p ↔ ends = false) :
      action ∈ h.inFlight ∧ p
        ↔ action ∈ h.inFlight ∧ (h.inFlight.contains action && ends) = false := by
    apply and_congr_right
    intro hin
    rw [Std.ExtTreeSet.contains_iff_mem.mpr hin, Bool.true_and, hp]
  have unchanged {h' : Hub} (hsame : h'.inFlight = h.inFlight) :
      action ∈ h'.inFlight
        ↔ action ∈ h.inFlight ∧ (h.inFlight.contains action && false) = false := by
    simp [hsame]
  cases m with
  | refresh reason user =>
    apply unchanged
    apply afterCall_elim (P := fun h' => h'.inFlight = h.inFlight) rfl
    intro c hok
    obtain ⟨id, hok⟩ := map_snd_eq_ok_iff.mp hok
    obtain ⟨-, group, -, -, hlike⟩ := refresh_eq_ok hok
    rw [hlike.inFlight_eq]
    simp only [startRefresh]
    split <;> rfl
  | submit package sourceId user report event =>
    rw [move, endsAction]
    cases hok : h.submit env package sourceId user report event with
    | error e => apply unchanged rfl
    | ok c =>
      obtain ⟨-, -, rfl⟩ := submit_eq_ok hok
      have hlike := like_accept h env ⟨sourceId, user⟩ report event
      rw [afterCall, hlike.inFlight_eq, mem_inFlight_applyEvent, mem_inFlight_store, and_assoc]
      apply mem_iff
      simp [Except.isOk, Except.toBool]
  | reportFailure package sourceId user event =>
    rw [move, endsAction]
    cases hok : h.reportFailure env package sourceId user event with
    | error e => apply unchanged rfl
    | ok c =>
      obtain ⟨-, -, rfl⟩ := reportFailure_eq_ok hok
      have hlike := like_acceptFailure h env ⟨sourceId, user⟩ event
      rw [afterCall, hlike.inFlight_eq, mem_inFlight_applyEvent]
      apply mem_iff
      simp [Except.isOk, Except.toBool]
  | listen listener package user =>
    apply unchanged
    apply afterCall_elim (P := fun h' => h'.inFlight = h.inFlight) rfl
    intro c hok
    obtain ⟨isNew, hok⟩ := map_snd_eq_ok_iff.mp hok
    obtain ⟨-, group, -, hsame | ⟨audience, -, hnew⟩⟩ := listen_eq_ok hok
    · rw [hsame]
    · rw [hnew]
  | dismiss issue =>
    apply unchanged
    apply afterCall_elim (P := fun h' => h'.inFlight = h.inFlight) rfl
    intro c hok
    obtain ⟨-, -, rfl⟩ := dismiss_eq_ok_iff.mp hok
    apply (Like.settle _ env).inFlight_eq
  | execute issue actionId => exact absurd rfl (hm issue actionId)
  | flush =>
    apply unchanged
    obtain heq | ⟨-, archive, -, heq⟩ := hub_write_cases (h.disarm .persistWrite)
    · rw [move, flush, heq]
      rfl
    · rw [move, flush, heq]
      rfl
  | clear =>
    have hlike : h.cleared.Like (h.clear env).hub :=
      (Like.schedulePersist _).trans (Like.publish _ env)
    rw [move, endsAction, hlike.inFlight_eq]
    simp [cleared]
  | removeUser user =>
    rw [move, endsAction, removeUser, (Like.settle _ env).inFlight_eq]
    apply mem_filter_iff.trans
    apply mem_iff
    simp [InFlight.isOfOther]
  | reload catalog policy =>
    rw [move, endsAction, reload, (Like.settle _ env).inFlight_eq]
    apply mem_filter_iff.trans
    apply mem_iff
    simp
  | expire key =>
    rw [endsAction, move, ← hub_passed]
    by_cases harmed : h.deadlines.isArmed key = true
    · obtain ⟨e, -, -, hpassed⟩ := exists_passed_eq harmed env
      rw [hpassed, mem_inFlight_turn]
      apply mem_iff
      simp [harmed]
    · rw [passed_of_not_isArmed harmed]
      simp [harmed]
  | unlisten _ | offer _ _ _ | wait _ | setFault _ => apply unchanged rfl

/-! ### Milestones -/

/-- Listeners hear of no error about an action, or of one that comes with its end. -/
theorem errors_cases (h : Hub) (env : Surroundings) (m : Move) (action : ActionKey) :
  h.errors env m action = []
    ∨ h.endsAction env m action = true ∧ ∃ notice, h.errors env m action = [notice]
  := by
  by_cases hm : m.subject? = some action
  · have htelling := telling_notices h env m
    rw [errors, if_pos hm]
    generalize (h.outcome env m).notices = errors at htelling
    cases htelling with
    | nothing =>
      left
      rfl
    | refresh hnone => cases hnone.symm.trans hm
    | failed hsome hends =>
      cases hsome.symm.trans hm
      exact .inr ⟨hends, _, rfl⟩
    | overdue hexpire hends =>
      subst hexpire
      cases hm
      exact .inr ⟨hends, _, rfl⟩
  · left
    rw [errors, if_neg hm]

/-- An action that ends is not sent by the same move. -/
theorem milestones_of_endsAction (hends : h.endsAction env m action = true) :
  h.milestones env m action = .ended :: (h.errors env m action).map .heard
  := by
  have hm : ∀ issue actionId, m ≠ .execute issue actionId := by
    rintro issue actionId rfl
    simp [endsAction] at hends
  rw [milestones, sends_outcome_of_ne hm, if_pos hends]
  rfl

/-- A move is nothing to an action, or sends it, or ends it. -/
theorem milestones_cases (h : Hub) (env : Surroundings) (m : Move) (action : ActionKey) :
  (h.milestones env m action = []
      ∧ (action ∈ (h.move env m).inFlight ↔ action ∈ h.inFlight))
    ∨ (∃ package, h.milestones env m action = [.sent package]
      ∧ (h.catalog.source? action.issue.sourceId).bind (·.package) = some package
      ∧ action ∉ h.inFlight ∧ action ∈ (h.move env m).inFlight)
    ∨ ∃ error : Option Notice, h.milestones env m action = .ended :: error.toList.map .heard
      ∧ action ∈ h.inFlight ∧ action ∉ (h.move env m).inFlight
  := by
  by_cases hm : ∃ issue actionId, m = .execute issue actionId
  · obtain ⟨issue, actionId, rfl⟩ := hm
    have hmilestones : h.milestones env (.execute issue actionId) action
        = ((h.called (h.execute env issue actionId)).sends action).map .sent := by
      simp [milestones, endsAction, errors, Move.subject?, outcome]
    rw [hmilestones, move]
    cases hok : h.execute env issue actionId with
    | error e => exact .inl ⟨rfl, Iff.rfl⟩
    | ok c =>
      obtain ⟨package, rest, hpackage, heffects, hquiet⟩ := effects_execute hok
      obtain ⟨-, -, hlike⟩ := execute_eq_ok hok
      obtain ⟨-, howner, hidle⟩ := executor_eq_ok hpackage
      rw [called, Change.sends, heffects, List.filterMap_cons, Effect.filterMap_sent? hquiet,
        Effect.sent?, afterCall, hlike.inFlight_eq, mem_inFlight_beginAction]
      by_cases heq : (⟨issue, actionId⟩ : ActionKey) = action
      · subst heq
        right; left
        exact ⟨package, by simp, howner, hidle, .inl rfl⟩
      · left
        simp [heq, Ne.symm heq]
  · have hm : ∀ issue actionId, m ≠ .execute issue actionId :=
      fun issue actionId heq => hm ⟨issue, actionId, heq⟩
    rw [mem_inFlight_move hm]
    cases hends : h.endsAction env m action with
    | false =>
      left
      obtain herrors | ⟨hends', -⟩ := h.errors_cases env m action
      · simp [milestones, sends_outcome_of_ne hm, hends, herrors]
      · cases hends.symm.trans hends'
    | true =>
      right; right
      have hin : action ∈ h.inFlight := mem_of_endsAction hends
      rw [milestones_of_endsAction hends]
      obtain herrors | ⟨-, notice, herrors⟩ := h.errors_cases env m action
      · exact ⟨none, by simp [herrors], hin, by simp⟩
      · exact ⟨some notice, by simp [herrors], hin, by simp⟩

/-- What a move is to an action follows on what has been, and tells whether the action is in
flight. -/
theorem milestones_lead {prev : Milestone}
    (hprev : prev.isSent = true ↔ action ∈ h.inFlight) (env : Surroundings) (m : Move) :
  ∃ last, prev.Leads (h.milestones env m action) last
    ∧ (last.isSent = true ↔ action ∈ (h.move env m).inFlight)
  := by
  obtain ⟨hnone, hsame⟩ | ⟨package, hsent, -, hidle, hin⟩ | ⟨error, hended, hin, hidle⟩ :=
    h.milestones_cases env m action
  · rw [hnone, hsame]
    exact ⟨prev, .refl prev, hprev⟩
  · rw [hsent]
    refine ⟨.sent package, ?_, by simpa [Milestone.isSent] using hin⟩
    apply Milestone.Leads.single
    have hprev : prev.isSent = false := by simpa [hidle] using hprev
    cases prev with
    | sent _ => cases hprev
    | ended | heard _ => trivial
  · have hprev : prev.isSent = true := hprev.mpr hin
    have hends : prev.Precedes .ended := by
      cases prev with
      | sent _ => trivial
      | ended | heard _ => cases hprev
    rw [hended]
    cases error with
    | none => exact ⟨.ended, .single hends, by simpa [Milestone.isSent] using hidle⟩
    | some notice =>
      have hheard : Milestone.ended.Precedes (.heard notice) := trivial
      exact ⟨.heard notice, (Milestone.Leads.single hends).append (.single hheard),
        by simpa [Milestone.isSent] using hidle⟩

/-- What a run is to an action follows on what has been, and tells whether the action is in
flight. -/
theorem record_leads {prev : Milestone} (hprev : prev.isSent = true ↔ action ∈ h.inFlight)
    (moves : List (Surroundings × Move)) :
  ∃ last, prev.Leads (h.record action moves) last
    ∧ (last.isSent = true ↔ action ∈ (h.after moves).inFlight)
  := by
  induction moves generalizing h prev with
  | nil => exact ⟨prev, .refl prev, hprev⟩
  | cons m moves ih =>
    obtain ⟨env, m⟩ := m
    obtain ⟨next, hleads, hnext⟩ := milestones_lead hprev env m
    obtain ⟨last, hleads', hlast⟩ := ih hnext
    exact ⟨last, hleads.append hleads', hlast⟩

/-! ### Deadlines of actions -/

theorem record_append (h : Hub) (action : ActionKey) (moves rest : List (Surroundings × Move)) :
  h.record action (moves ++ rest) = h.record action moves ++ (h.after moves).record action rest
  := by
  induction moves generalizing h with
  | nil => rfl
  | cons m moves ih =>
    obtain ⟨env, m⟩ := m
    rw [List.cons_append, record, record, ih, List.append_assoc]
    rfl

/-- A run sends an action from a hub, and does not send it again after that. -/
def LastSent (h : Hub) (action : ActionKey) (moves : List (Surroundings × Move))
    (sender : Hub) : Prop :=
  ∃ before env m rest, moves = before ++ (env, m) :: rest ∧ sender = h.after before
    ∧ (∃ package, .sent package ∈ sender.milestones env m action)
    ∧ ∀ point ∈ (sender.move env m).record action rest, point.isSent = false

theorem LastSent.concat {moves : List (Surroundings × Move)} {sender : Hub}
    (hsent : h.LastSent action moves sender)
    (hquiet : ∀ point ∈ (h.after moves).milestones env m action, point.isSent = false) :
  h.LastSent action (moves ++ [(env, m)]) sender
  := by
  obtain ⟨before, env', m', rest, rfl, rfl, hsends, hnone⟩ := hsent
  refine ⟨before, env', m', rest ++ [(env, m)], by simp, rfl, hsends, ?_⟩
  rw [after_append] at hquiet
  rw [record_append, List.forall_mem_append, record, record, List.append_nil]
  exact ⟨hnone, hquiet⟩

/-- The deadline of an action is armed when the action begins, and not otherwise. -/
theorem Step.armed_action (hstep : h.Step env h') (hsound : h.tracker.Sound) {e : Armed Unit}
    (he : e ∈ h'.deadlines.bounded) (hkey : e.key = .resolveAction action) :
  e ∈ h.deadlines.bounded
    ∨ action ∉ h.inFlight ∧ e.armedAt = h.deadlines.now
      ∧ e.delay = h.policy.resolveActionTimeout.nanos
  := by
  obtain ⟨stays, -, hbounded⟩ | ⟨reason, group, hlike⟩ | ⟨begun, hidle, hlike⟩ :=
    hstep.waits_cases hsound
  · left
    rw [hbounded] at he
    apply (List.mem_filter.mp he).1
  · left
    rw [hlike.bounded_eq] at he
    simp only [Hub.startRefresh] at he
    split at he
    · rw [Deadlines.bounded_disarmMatching] at he
      apply (List.mem_filter.mp he).1
    · rw [arm, Deadlines.bounded_arm rfl, List.mem_append, List.mem_singleton] at he
      obtain hold | rfl := he
      · have hold := Deadlines.mem_bounded_of_mem_roomFor hold
        rw [Deadlines.bounded_disarmMatching] at hold
        apply (List.mem_filter.mp hold).1
      · cases hkey
  · rw [hlike.bounded_eq, Hub.beginAction, arm, Deadlines.bounded_arm rfl, List.mem_append,
      List.mem_singleton] at he
    obtain hold | rfl := he
    · left
      apply Deadlines.mem_bounded_of_mem_roomFor hold
    · right
      cases hkey
      exact ⟨hidle, rfl, rfl⟩

/-- The deadline of an action was armed when the action was last sent, under the policy of that
time. -/
theorem armed_since_sent (hsound : h.tracker.Sound) (htimed : h.Timed)
    (hidle : h.deadlines.bounded = []) (moves : List (Surroundings × Move)) {e : Armed Unit}
    (he : e ∈ (h.after moves).deadlines.bounded) (hkey : e.key = .resolveAction action) :
  ∃ sender, h.LastSent action moves sender ∧ e.armedAt = sender.deadlines.now
    ∧ e.delay = sender.policy.resolveActionTimeout.nanos
  := by
  induction moves using List.reverseRecOn with
  | nil =>
    rw [after, List.foldl_nil, hidle] at he
    cases he
  | append_singleton moves m ih =>
    obtain ⟨env, m⟩ := m
    obtain ⟨hsound', htimed'⟩ := timed_after hsound htimed moves
    obtain ⟨-, htimed''⟩ := timed_after hsound htimed (moves ++ [(env, m)])
    have awaited {h : Hub} (htimed : h.Timed) (he : e ∈ h.deadlines.bounded) :
        action ∈ h.inFlight := by
      apply htimed.inFlight_of_armed
      rw [← hkey]
      apply Deadlines.isArmed_of_mem_bounded he
    have hin := awaited htimed'' he
    rw [after_concat] at he hin
    obtain hold | ⟨hnew, hnow, hdelay⟩ := (step_move _ env m).armed_action hsound' he hkey
    · -- the action was in flight before the move, which cannot have sent it then
      have hin' := awaited htimed' hold
      obtain ⟨sender, hsent, harmed⟩ := ih hold
      use sender
      refine ⟨hsent.concat ?_, harmed⟩
      obtain ⟨hnone, -⟩ | ⟨package, -, -, hidle', -⟩ | ⟨error, -, -, hended⟩ :=
        (h.after moves).milestones_cases env m action
      · simp [hnone]
      · exact absurd hin' hidle'
      · exact absurd hin hended
    · obtain ⟨-, hsame⟩ | ⟨package, hsent, -, -, -⟩ | ⟨error, -, hin', -⟩ :=
        (h.after moves).milestones_cases env m action
      · exact absurd (hsame.mp hin) hnew
      · refine ⟨h.after moves, ⟨moves, env, m, [], rfl, rfl, ⟨package, ?_⟩, ?_⟩, hnow, hdelay⟩
        · simp [hsent]
        · simp [record]
      · exact absurd hin' hnew

theorem now_actionOverdue (h : Hub) (env : Surroundings) (action : ActionKey) :
  (h.actionOverdue env action).hub.deadlines.now = h.deadlines.now
  := by
  unfold actionOverdue
  split
  next => rfl
  next h' hend =>
    obtain ⟨-, rfl⟩ := endAction?_eq_some_iff.mp hend
    rfl

/-- The deadline of an action passes when the time is over that the policy gave the action when
it was last sent. -/
theorem timeout_le_now_expire (hsound : h.tracker.Sound) (htimed : h.Timed)
    (hidle : h.deadlines.bounded = []) (moves : List (Surroundings × Move))
    (harmed : (h.after moves).deadlines.isArmed (.resolveAction action) = true)
    (env : Surroundings) :
  ∃ sender, h.LastSent action moves sender
    ∧ sender.deadlines.now * Instant.millisecond + sender.policy.resolveActionTimeout.nanos
      ≤ ((h.after moves).expire env (.resolveAction action)).deadlines.now * Instant.millisecond
  := by
  obtain ⟨e, he, hkey, hpassed⟩ := exists_passed_eq harmed env
  have hbounded : e ∈ (h.after moves).deadlines.bounded := by
    apply Deadlines.mem_bounded_iff.mpr
    use he
    rw [hkey]
    rfl
  obtain ⟨sender, hsent, hnow, hdelay⟩ :=
    armed_since_sent hsound htimed hidle moves hbounded hkey
  have hturned : ((h.after moves).expire env (.resolveAction action)).deadlines.now
      = max (h.after moves).deadlines.now e.due := by
    rw [← hub_passed, hpassed, turn, now_actionOverdue]
    rfl
  use sender, hsent
  rw [hturned, ← hnow, ← hdelay]
  apply (Deadlines.delay_le_due e).trans
  apply Nat.mul_le_mul_right
  apply Nat.le_max_right

/-! ### The course of an action -/

/-- An error that is about no refresh comes with the end of an action. -/
theorem ends_of_notice {n : UserId × Notice} (hn : n ∈ (h.outcome env m).notices)
    (hkind : n.2.kind ≠ .refreshTimeout) :
  ∃ action, h.endsAction env m action = true ∧ h.milestones env m action = [.ended, .heard n.2]
    ∧ (n = failureOf env action ∨ m = .expire (.resolveAction action) ∧ n = overdueOf env action)
  := by
  have milestones {action : ActionKey} (hends : h.endsAction env m action = true)
      (hm : m.subject? = some action) (hnotices : (h.outcome env m).notices = [n]) :
      h.milestones env m action = [.ended, .heard n.2] := by
    rw [milestones_of_endsAction hends, errors, if_pos hm, hnotices]
    rfl
  have htelling := telling_notices h env m
  generalize hnotices : (h.outcome env m).notices = errors at htelling hn
  cases htelling with
  | nothing => cases hn
  | refresh _ parent message =>
    rw [List.mem_singleton] at hn
    rw [hn] at hkind
    exact absurd rfl hkind
  | failed hm hends =>
    cases List.mem_singleton.mp hn
    exact ⟨_, hends, milestones hends hm hnotices, .inl rfl⟩
  | overdue hm hends =>
    cases List.mem_singleton.mp hn
    have hsubject : m.subject? = some _ := congrArg Move.subject? hm
    exact ⟨_, hends, milestones hends hsubject hnotices, .inr ⟨hm, rfl⟩⟩

/-- In every run an action is sent, ends, and may then be sent again; it is in flight when it was
sent and has not ended since.  It is sent to the package that its source has in the catalog at
that time.  An error about an action comes with its end, one at most with each; one that the
action is overdue comes when the time that the policy gave it when it was last sent is over. -/
theorem actions_alternate_after (catalog : Catalog) (policy : Policy) (archive : Archive)
    (loaded : Except ArchiveError (List SavedRecord)) (time : Nat)
    (moves : List (Surroundings × Move)) :
  let first := start catalog policy archive loaded time
  let h := first.after moves
  (∀ action, (∀ point ∈ (first.record action moves).head?, point.isSent = true)
      ∧ (first.record action moves).IsChain Milestone.Precedes
      ∧ (action ∈ h.inFlight ↔ (first.record action moves).getLast?.any (·.isSent) = true))
    ∧ ∀ env m,
      (∀ action package, .sent package ∈ h.milestones env m action →
        (h.catalog.source? action.issue.sourceId).bind (·.package) = some package)
      ∧ ∀ n ∈ (h.outcome env m).notices, n.2.kind ≠ .refreshTimeout →
        ∃ action, h.milestones env m action = [.ended, .heard n.2]
          ∧ (n = failureOf env action ∨ n = overdueOf env action
            ∧ ∃ sender, first.LastSent action moves sender
              ∧ sender.deadlines.now * Instant.millisecond
                  + sender.policy.resolveActionTimeout.nanos
                ≤ (h.move env m).deadlines.now * Instant.millisecond)
  := by
  intro first h
  have hlike : Like _ first := Like.schedulePersist _
  have hsound : first.tracker.Sound := hlike.sound (.of_idle rfl)
  have htimed : first.Timed := timed_start catalog policy archive loaded time
  have hidle : first.deadlines.bounded = [] := hlike.bounded_eq
  constructor
  · intro action
    -- an action that is sent may follow an error, and nothing else may
    let error : Milestone := .heard ⟨.actionFailed, ""⟩
    have hstart : error.isSent = true ↔ action ∈ first.inFlight := by
      rw [hlike.inFlight_eq]
      simp [error, Milestone.isSent]
    obtain ⟨last, hleads, hlast⟩ := record_leads hstart moves
    exact ⟨hleads.isSent_head, hleads.1.tail, hlast.symm.trans hleads.isSent_last_iff⟩
  · intro env m
    constructor
    · intro action package hsent
      obtain ⟨hnone, -⟩ | ⟨owner, hmilestones, howner, -⟩ | ⟨error, hmilestones, -⟩ :=
        h.milestones_cases env m action
      · simp [hnone] at hsent
      · rw [hmilestones, List.mem_singleton] at hsent
        cases hsent
        exact howner
      · simp [hmilestones] at hsent
    · intro n hn hkind
      obtain ⟨action, hends, hmilestones, hfailed | ⟨rfl, hoverdue⟩⟩ := ends_of_notice hn hkind
      · exact ⟨action, hmilestones, .inl hfailed⟩
      · have harmed : h.deadlines.isArmed (.resolveAction action) = true := by
          simp only [endsAction, Bool.and_eq_true] at hends
          apply hends.2.2
        refine ⟨action, hmilestones, .inr ⟨hoverdue, ?_⟩⟩
        apply timeout_le_now_expire hsound htimed hidle moves harmed

/-- An action is overdue, once its ten seconds are over. -/
theorem course_of_overdue_action :
  let action : ActionKey := ⟨⟨"s", "i", 0⟩, "a"⟩
  let first := start Sample.catalog {} {} (.ok []) 0
  let moves := [(Sample.device, Sample.submission ["a"]),
    (Sample.device, .execute action.issue "a")]
  let h := first.after moves
  let expiry : Move := .expire (.resolveAction action)
  let n := overdueOf Sample.device action
  first.record action moves = [.sent "p"]
    ∧ action ∈ h.inFlight
    ∧ (h.outcome Sample.device expiry).notices = [n]
    ∧ n.2.kind ≠ .refreshTimeout
    ∧ ∃ ended sender, h.milestones Sample.device expiry ended = [.ended, .heard n.2]
      ∧ first.LastSent ended moves sender
      ∧ sender.deadlines.now * Instant.millisecond + sender.policy.resolveActionTimeout.nanos
        ≤ (h.move Sample.device expiry).deadlines.now * Instant.millisecond
  := by
  intro action first moves h expiry n
  obtain ⟨hcourse, hmoves⟩ := actions_alternate_after Sample.catalog {} {} (.ok []) 0 moves
  have hrecord : first.record action moves = [.sent "p"] := by decide
  have hnotices : (h.outcome Sample.device expiry).notices = [n] := by decide
  have hkind : n.2.kind ≠ .refreshTimeout := by decide
  have hn : n ∈ (h.outcome Sample.device expiry).notices := by
    rw [hnotices]
    apply List.mem_singleton_self
  obtain ⟨-, -, hin⟩ := hcourse action
  have haction : action ∈ h.inFlight := by
    apply hin.mpr
    rw [hrecord]
    rfl
  obtain ⟨-, herrors⟩ := hmoves Sample.device expiry
  obtain ⟨ended, hmilestones, hfailed | ⟨-, sender, hsent, htime⟩⟩ := herrors n hn hkind
  · have hother : n.2.kind = .actionFailed := congrArg (·.2.kind) hfailed
    cases hother
  · exact ⟨hrecord, haction, hnotices, hkind, ended, sender, hmilestones, hsent, htime⟩

end Hub

end SafetyHub
