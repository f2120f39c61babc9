import SafetyHub.Proofs.Hub.Expiry
import SafetyHub.Proofs.Hub.Sparing
import SafetyHub.Proofs.Audience.Tickets
import SafetyHub.Proofs.Dismissal.Records
import SafetyHub.Proofs.Report.Store

/-!
# Users that are removed

Removing a user leaves nothing of the user: no report, mark, record, action in flight, refresh of
a group with the user, registration for the user or deadline of any of these.  All else stays as
it is.
-/

namespace SafetyHub

/-! ### The refresh in flight -/

/-- The refresh in flight goes on if its group does not have the user. -/
theorem RefreshTracker.current_clearForUser_eq_some_iff {t : RefreshTracker} {user : UserId}
    {r : RefreshInProgress} :
  (t.clearForUser user).2.current = some r
    ↔ t.current = some r ∧ r.group.contains user = false
  := by
  rw [clearForUser]
  split
  next hdropped =>
    rw [Option.any_eq_true] at hdropped
    obtain ⟨r', hr', hcontains⟩ := hdropped
    apply iff_of_false (Option.some_ne_none r ∘ Eq.symm)
    rintro ⟨hr, hother⟩
    obtain rfl := Option.some_inj.mp (hr'.symm.trans hr)
    rw [hcontains] at hother
    cases hother
  next hkept =>
    rw [iff_self_and]
    intro hr
    rw [hr, Option.any_some] at hkept
    exact eq_false_of_ne_true hkept

namespace Hub

variable {h h' : Hub} {env : Surroundings} {user : UserId} {key : DeadlineKey}

/-! ### Deadlines of others -/

/-- Removing a user leaves the deadlines alone that are not of what it ends. -/
theorem Spares.without (h : Hub) (user : UserId)
    (hrefresh : ∀ id, (h.tracker.clearForUser user).1 = some id → key ≠ .refresh id)
    (haction : ∀ action ∈ h.inFlight, action.issue.userId = user → key ≠ .resolveAction action) :
  h.Spares key (h.without user)
  := by
  have hended : h.Spares key (h.disarmRefresh (h.tracker.clearForUser user).1) := by
    apply Deadlines.Spares.disarmEach
    intro hin
    obtain ⟨id, hid, rfl⟩ := List.mem_map.mp hin
    apply hrefresh id (Option.mem_toList.mp hid) rfl
  apply Deadlines.Spares.trans hended
  apply Deadlines.Spares.disarmEach
  intro hin
  obtain ⟨action, haction', rfl⟩ := List.mem_map.mp hin
  obtain ⟨hin, huser⟩ := List.mem_filter.mp haction'
  apply haction action (Std.ExtTreeSet.mem_toList.mp hin) _ rfl
  simpa [InFlight.isOfOther] using huser

/-! ### Everything of a user -/

/-- A hub is another one without anything of a user. -/
structure Forgets (h : Hub) (user : UserId) (h' : Hub) : Prop where
  stored : ∀ key,
    h'.reports.get? key = if key.userId != user then h.reports.get? key else none
  failed : ∀ key,
    h'.reports.isFailed key = (key.userId != user && h.reports.isFailed key)
  records : ∀ key,
    h'.dismissals.record? key = if key.userId != user then h.dismissals.record? key else none
  actions : ∀ action,
    action ∈ h'.inFlight ↔ action ∈ h.inFlight ∧ action.issue.userId ≠ user
  refresh : ∀ r,
    h'.tracker.current = some r ↔ h.tracker.current = some r ∧ r.group.contains user = false
  started : h'.tracker.started = h.tracker.started
  registrations : ∀ parent, h'.audience.registrations parent
    = if user = parent then [] else h.audience.registrations parent
  /-- The listeners that are left have been offered what they had been. -/
  offered : ∀ ticket, h'.audience.offeredTo ticket = h.audience.offeredTo ticket
  /-- A deadline of a refresh is that of the one in flight. -/
  refresh_of_armed : ∀ id, h'.deadlines.isArmed (.refresh id) = true →
    h'.tracker.current.map (·.id) = some id
  other_of_armed : ∀ action, h'.deadlines.isArmed (.resolveAction action) = true →
    action.issue.userId ≠ user
  spares_refresh : ∀ r, h'.tracker.current = some r → h.Spares (.refresh r.id) h'
  spares_action : ∀ action, action.issue.userId ≠ user → h.Spares (.resolveAction action) h'

/-- A user is removed with its deadlines when bounded deadlines are those of waits. -/
theorem forgets_removeUser (htimed : h.Timed) (env : Surroundings) (user : UserId) :
  h.Forgets user (h.removeUser env user).hub
  := by
  have hlike : (h.without user).Like (h.removeUser env user).hub := Like.settle _ env
  have htimed' : (h.removeUser env user).hub.Timed :=
    Ends.timed ((ends_without h user).trans (.of_like hlike)) htimed
  obtain ⟨deadlines, sequence, -, -, heq⟩ := id hlike
  have hactions (action : ActionKey) : action ∈ (h.removeUser env user).hub.inFlight
      ↔ action ∈ h.inFlight ∧ action.issue.userId ≠ user := by
    rw [heq]
    simp [without, keepActions, disarmRefresh, InFlight.isOfOther]
  have hrefresh (r : RefreshInProgress) :
      (h.removeUser env user).hub.tracker.current = some r
        ↔ h.tracker.current = some r ∧ r.group.contains user = false := by
    rw [heq]
    apply RefreshTracker.current_clearForUser_eq_some_iff
  constructor
  case actions => exact hactions
  case refresh => exact hrefresh
  case started =>
    rw [heq]
    show (h.tracker.clearForUser user).2.started = h.tracker.started
    unfold RefreshTracker.clearForUser
    split <;> rfl
  case stored =>
    rw [heq]
    apply ReportStore.get?_clearForUser
  case failed =>
    rw [heq]
    apply ReportStore.isFailed_clearForUser
  case records =>
    rw [heq]
    apply Dismissals.record?_clearForUser
  case registrations =>
    rw [heq]
    apply Audience.registrations_clearForUser
  case offered =>
    rw [heq]
    intro ticket
    rfl
  case refresh_of_armed =>
    intro id harmed
    apply htimed'.current_of_armed harmed
  case other_of_armed =>
    intro action harmed
    apply ((hactions action).mp (htimed'.inFlight_of_armed harmed)).2
  case spares_refresh =>
    intro r hr
    obtain ⟨hr, hother⟩ := (hrefresh r).mp hr
    apply Spares.trans (Spares.without h user _ _) (.of_like hlike rfl)
    · intro id hid
      simp [RefreshTracker.clearForUser, hr, hother] at hid
    · intro action _ _
      apply DeadlineKey.noConfusion
  case spares_action =>
    intro action hother
    apply Spares.trans (Spares.without h user _ _) (.of_like hlike rfl)
    · intro id _
      apply DeadlineKey.noConfusion
    · rintro other - huser ⟨⟩
      exact hother huser

/-- After every run, removing a user leaves nothing of the user, and all else as it is: no stored
report, mark, record or action in flight is the user's, no refresh of a group with the user is in
flight, no deadline is armed of such a refresh or for an action of the user, and nobody listens
to the user; the reports, marks, records, actions and registrations of others, the deadlines of
their actions, and a refresh of a group without the user, with its deadline, are as before. -/
theorem forgets_removeUser_after (catalog : Catalog) (policy : Policy) (archive : Archive)
    (loaded : Except ArchiveError (List SavedRecord)) (time : Nat)
    (moves : List (Surroundings × Move)) (env : Surroundings) (user : UserId) :
  let h := (start catalog policy archive loaded time).after moves
  h.Forgets user (h.removeUser env user).hub
  := by
  have hsound := sound_start catalog policy archive loaded time
  have htimed := timed_start catalog policy archive loaded time
  apply forgets_removeUser (timed_after hsound htimed moves).2

end Hub

end SafetyHub
