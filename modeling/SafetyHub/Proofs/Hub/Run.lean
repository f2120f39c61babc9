import SafetyHub.Proofs.Hub.Calls

/-!
# Runs of a hub

A `Move` is a call on a hub, an offer that a listener gets, a deadline that passes, time that
passes, or an archive that goes out of order; calls that only read are left out.  Any armed
deadline may pass, and the surroundings of each move are arbitrary.  `Hub.Step` says what a move
makes of a hub, with the checks that it has passed.  A run is a list of moves: what holds at the
start and is kept by every move holds after every run.
-/

namespace SafetyHub

/-- What can happen to a hub. -/
inductive Move where
  | refresh (reason : RefreshReason) (user : UserId)
  | submit (package sourceId : String) (user : UserId) (report : Option Report) (event : Event)
  | reportFailure (package sourceId : String) (user : UserId) (event : Event)
  | listen (listener package : String) (user : UserId)
  | unlisten (listener : String)
  /-- An overview reaches a registration. -/
  | offer (registration : Registration) (sequence : Nat) (view : Overview)
  | dismiss (issue : IssueKey)
  | execute (issue : IssueKey) (actionId : String)
  | flush
  | clear
  | removeUser (user : UserId)
  | reload (catalog : Catalog) (policy : Policy)
  /-- A deadline passes, if it is armed. -/
  | expire (key : DeadlineKey)
  /-- Time passes, up to a number of milliseconds after the beginning. -/
  | wait (time : Nat)
  /-- Nothing can be saved any more, or something can again. -/
  | setFault (fault : Option ArchiveError)

namespace Hub

variable {h h' : Hub} {env : Surroundings}

/-- The hub after a call that may have been refused. -/
def afterCall (h : Hub) : Except HubError Change → Hub
  | .ok c => c.hub
  | .error _ => h

/-- The hub after a deadline has passed, if it is armed. -/
def expire (h : Hub) (env : Surroundings) (key : DeadlineKey) : Hub :=
  match h.deadlines.armed.find? (·.key == key) with
  | none => h
  | some e => ({ h with deadlines := h.deadlines.take e }.turn env key).hub

/-- The hub after a move. -/
def move (h : Hub) (env : Surroundings) : Move → Hub
  | .refresh reason user => h.afterCall ((h.refresh env reason user).map (·.2))
  | .submit package sourceId user report event =>
    h.afterCall (h.submit env package sourceId user report event)
  | .reportFailure package sourceId user event =>
    h.afterCall (h.reportFailure env package sourceId user event)
  | .listen listener package user =>
    h.afterCall ((h.listen env listener package user).map (·.2))
  | .unlisten listener => (h.unlisten listener).2
  | .offer registration sequence view =>
    { h with audience := (h.audience.offer registration sequence view).2 }
  | .dismiss issue => h.afterCall (h.dismiss env issue)
  | .execute issue actionId => h.afterCall (h.execute env issue actionId)
  | .flush => h.flush.2.hub
  | .clear => (h.clear env).hub
  | .removeUser user => (h.removeUser env user).hub
  | .reload catalog policy => (h.reload env catalog policy).hub
  | .expire key => h.expire env key
  | .wait time => { h with deadlines := h.deadlines.moveTo time }
  | .setFault fault => { h with archive := { h.archive with unwritable := fault } }

/-- The hub after a run. -/
def after (h : Hub) (moves : List (Surroundings × Move)) : Hub :=
  moves.foldl (fun h (env, m) => h.move env m) h

theorem after_append (h : Hub) (moves rest : List (Surroundings × Move)) :
  h.after (moves ++ rest) = (h.after moves).after rest
  := List.foldl_append

theorem after_concat (h : Hub) (moves : List (Surroundings × Move)) (env : Surroundings)
    (m : Move) :
  h.after (moves ++ [(env, m)]) = (h.after moves).move env m
  := after_append h moves [(env, m)]

theorem after_induction {P : Hub → Prop} (start : P h)
    (step : ∀ h env m, P h → P (h.move env m)) (moves : List (Surroundings × Move)) :
  P (h.after moves)
  := by
  induction moves generalizing h with
  | nil => apply start
  | cons m moves ih =>
    obtain ⟨env, m⟩ := m
    apply ih
    apply step h env m start

theorem afterCall_elim {P : Hub → Prop} {x : Except HubError Change} (refused : P h)
    (accepted : ∀ c, x = .ok c → P c.hub) :
  P (h.afterCall x)
  := by
  cases x with
  | error e => apply refused
  | ok c => apply accepted c rfl

theorem map_snd_eq_ok_iff {α : Type} {x : Except HubError (α × Change)} {c : Change} :
  x.map (·.2) = .ok c ↔ ∃ a, x = .ok (a, c)
  := by
  cases x <;> simp [Except.map, Prod.ext_iff]

theorem expire_cases (h : Hub) (env : Surroundings) (key : DeadlineKey) :
  h.expire env key = h ∨ ∃ e ∈ h.deadlines.armed, e.key = key
    ∧ h.expire env key = ({ h with deadlines := h.deadlines.take e }.turn env key).hub
  := by
  unfold expire
  split
  · left
    rfl
  next e hfind =>
    right
    exact ⟨e, List.mem_of_find?_eq_some hfind, by simpa using List.find?_some hfind, rfl⟩

/-! ### What a move does -/

/-- What a move makes of a hub, up to `Hub.Like`. -/
inductive Step (h : Hub) (env : Surroundings) : Hub → Prop
  /-- The call is refused, or has nothing to do. -/
  | same : Step h env h
  | startRefresh {h' : Hub} {user : UserId} {group : ProfileGroup} (reason : RefreshReason)
      (hactive : h.policy.isActive = true) (hgroup : env.users.resolve? user = some group)
      (hlike : (h.startRefresh env reason group).2.Like h') : Step h env h'
  | accept {h' : Hub} {package : String} {source : Source} (key : SourceKey)
      (report : Option Report) (event : Event) (hactive : h.policy.isActive = true)
      (hcaller : h.catalog.checkCaller env.users package key.sourceId key.userId = .ok source)
      (hreport : source.checkSubmission h.policy report = .ok ())
      (hlike : ((h.store env.now key report).applyEvent env key event false).1.hub.Like h') :
      Step h env h'
  | acceptFailure {h' : Hub} {package : String} {source : Source} (key : SourceKey)
      (event : Event) (hactive : h.policy.isActive = true)
      (hcaller : h.catalog.checkCaller env.users package key.sourceId key.userId = .ok source)
      (hlike : ({ h with reports := h.reports.markFailed key }.applyEvent env key event
        true).1.hub.Like h') : Step h env h'
  | dismiss {h' : Hub} {issue : IssueKey} (hactive : h.policy.isActive = true)
      (hissue : (h.reports.issue? issue).isSome = true)
      (hlike : { h with
        dismissals := (h.dismissals.dismiss? issue env.now).getD h.dismissals }.Like h') :
      Step h env h'
  | beginAction {h' : Hub} {issue : IssueKey} {actionId package : String}
      (hactive : h.policy.isActive = true) (hpackage : h.executor issue actionId = .ok package)
      (hlike : (h.beginAction ⟨issue, actionId⟩).Like h') : Step h env h'
  | clear {h' : Hub} (hlike : h.cleared.Like h') : Step h env h'
  | without {h' : Hub} (user : UserId) (hlike : (h.without user).Like h') : Step h env h'
  | under {h' : Hub} (catalog : Catalog) (policy : Policy)
      (hlike : (h.under catalog policy).Like h') : Step h env h'
  | flush {h' : Hub} (hlike : h.Like h') : Step h env h'.write.2.hub
  /-- The turn of an armed deadline comes. -/
  | turn (e : Armed Unit) (harmed : e ∈ h.deadlines.armed) :
      Step h env ({ h with deadlines := h.deadlines.take e }.turn env e.key).hub
  /-- Registrations come, go or get an overview. -/
  | listeners (audience : Audience) (sequence : Nat) : Step h env { h with audience, sequence }
  | wait (time : Nat) : Step h env { h with deadlines := h.deadlines.moveTo time }
  | setFault (fault : Option ArchiveError) :
      Step h env { h with archive := { h.archive with unwritable := fault } }

/-- Every move is one of the steps of `Step`. -/
theorem step_move (h : Hub) (env : Surroundings) (m : Move) :
  h.Step env (h.move env m)
  := by
  have refused : h.Step env h := .same
  cases m with
  | refresh reason user =>
    apply afterCall_elim refused
    intro c hok
    obtain ⟨id, hok⟩ := map_snd_eq_ok_iff.mp hok
    obtain ⟨hactive, group, hgroup, -, hlike⟩ := refresh_eq_ok hok
    exact .startRefresh reason hactive hgroup hlike
  | submit package sourceId user report event =>
    apply afterCall_elim refused
    intro c hok
    obtain ⟨hactive, ⟨source, hcaller, hreport⟩, rfl⟩ := submit_eq_ok hok
    exact .accept ⟨sourceId, user⟩ report event hactive hcaller hreport
      (like_accept h env _ report event)
  | reportFailure package sourceId user event =>
    apply afterCall_elim refused
    intro c hok
    obtain ⟨hactive, ⟨source, hcaller⟩, rfl⟩ := reportFailure_eq_ok hok
    exact .acceptFailure ⟨sourceId, user⟩ event hactive hcaller (like_acceptFailure h env _ event)
  | listen listener package user =>
    apply afterCall_elim refused
    intro c hok
    obtain ⟨isNew, hok⟩ := map_snd_eq_ok_iff.mp hok
    obtain ⟨-, group, -, hsame | ⟨audience, -, hnew⟩⟩ := listen_eq_ok hok
    · rwa [hsame]
    · rw [hnew]
      apply Step.listeners
  | unlisten _ | offer _ _ _ => exact .listeners _ h.sequence
  | dismiss issue =>
    apply afterCall_elim refused
    intro c hok
    obtain ⟨hactive, hissue, rfl⟩ := dismiss_eq_ok_iff.mp hok
    exact .dismiss hactive hissue (Like.settle _ env)
  | execute issue actionId =>
    apply afterCall_elim refused
    intro c hok
    obtain ⟨hactive, ⟨package, hpackage⟩, hlike⟩ := execute_eq_ok hok
    exact .beginAction hactive hpackage hlike
  | flush => exact .flush (Like.disarm h rfl)
  | clear => exact .clear ((Like.schedulePersist _).trans (Like.publish _ env))
  | removeUser user => exact .without user (Like.settle _ env)
  | reload catalog policy => exact .under catalog policy (Like.settle _ env)
  | expire key =>
    obtain heq | ⟨e, harmed, rfl, heq⟩ := expire_cases h env key
    · rwa [move, heq]
    · rw [move, heq]
      exact .turn e harmed
  | wait time => exact .wait time
  | setFault fault => exact .setFault fault

/-- What a move makes of what a hub knows of issues. -/
inductive Affects (h : Hub) (env : Surroundings) : Hub → Prop
  | nothing {h' : Hub} (hkeeps : h.Keeps h') : Affects h env h'
  | store {h' : Hub} {package : String} {source : Source} (key : SourceKey)
      (report : Option Report)
      (hcaller : h.catalog.checkCaller env.users package key.sourceId key.userId = .ok source)
      (hreport : source.checkSubmission h.policy report = .ok ())
      (hkeeps : (h.store env.now key report).Keeps h') : Affects h env h'
  | dismiss {h' : Hub} {issue : IssueKey} (hissue : (h.reports.issue? issue).isSome = true)
      (hkeeps : { h with
        dismissals := (h.dismissals.dismiss? issue env.now).getD h.dismissals }.Keeps h') :
      Affects h env h'
  | execute {h' : Hub} {issue : IssueKey} {actionId package : String}
      (hpackage : h.executor issue actionId = .ok package)
      (hkeeps : (h.beginAction ⟨issue, actionId⟩).Keeps h') : Affects h env h'
  | clear {h' : Hub} (hkeeps : h.cleared.Keeps h') : Affects h env h'
  | without {h' : Hub} (user : UserId) (hkeeps : (h.without user).Keeps h') : Affects h env h'
  | under {h' : Hub} (catalog : Catalog) (policy : Policy)
      (hkeeps : (h.under catalog policy).Keeps h') : Affects h env h'
  | write {h' : Hub} (hkeeps : h.Keeps h') : Affects h env h'.write.2.hub
  | setFault (fault : Option ArchiveError) :
      Affects h env { h with archive := { h.archive with unwritable := fault } }

theorem affects_turn (h : Hub) (env : Surroundings) (e : Armed Unit) :
  h.Affects env ({ h with deadlines := h.deadlines.take e }.turn env e.key).hub
  := by
  have taken : h.Keeps { h with deadlines := h.deadlines.take e } := .elsewhere h _ _ _ _
  by_cases hkey : e.key = .persistWrite
  · rw [hkey]
    exact .write taken
  · exact .nothing (taken.trans (keeps_turn _ env hkey))

/-- Every step affects what a hub knows of issues in one of the ways of `Affects`. -/
theorem Step.affects (hstep : h.Step env h') : h.Affects env h' := by
  cases hstep with
  | same => exact .nothing (.refl h)
  | startRefresh reason _ _ hlike =>
    exact .nothing ((keeps_startRefresh h env reason _).trans hlike.keeps)
  | accept key report event _ hcaller hreport hlike =>
    apply Affects.store key report hcaller hreport
    apply (keeps_applyEvent _ env key event false).trans hlike.keeps
  | acceptFailure key event _ _ hlike =>
    apply Affects.nothing
    exact (keeps_markFailed h key).trans ((keeps_applyEvent _ env key event true).trans hlike.keeps)
  | dismiss _ hissue hlike => exact .dismiss hissue hlike.keeps
  | beginAction _ hpackage hlike => exact .execute hpackage hlike.keeps
  | clear hlike => exact .clear hlike.keeps
  | without user hlike => exact .without user hlike.keeps
  | under catalog policy hlike => exact .under catalog policy hlike.keeps
  | flush hlike => exact .write hlike.keeps
  | turn e _ => exact affects_turn h env e
  | listeners _ _ | wait _ => exact .nothing (.elsewhere h _ _ _ _)
  | setFault fault => exact .setFault fault

end Hub

/-! ### A small hub -/

namespace Sample

/-- One source that reports. -/
def catalog : Catalog where
  groups := [.titled "g" [{ id := "s", kind := .dynamic, package := some "p" }]]
  consistent := by decide

/-- One user, at the beginning of 1970. -/
def device : Surroundings where
  users := [.full 0]
  now := .epoch
  digest := RefreshOrigin.digest

/-- A report of one issue. -/
def report (actions : List String) : Report where
  issues := [{
    id := "i", title := "", severity := .recommendation, category := .device
    actions := actions.map fun id => { id, label := "" } }]

/-- The source reports. -/
def submission (actions : List String) : Move :=
  .submit "p" "s" 0 (some (report actions)) .sourceStateChanged

end Sample

end SafetyHub
