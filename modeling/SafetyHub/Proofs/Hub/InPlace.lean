import SafetyHub.Proofs.Hub.Run

/-!
# Calls carried out in place

The functions of a hub answer with an error or with a changed hub.  An `Attempt` is a call that
changes the hub and sends its effects as it goes: what is done when it is refused stays done.
`Call.attempt` carries out the calls that may be refused in this way, with each check where its
turn comes: a user's group is looked up before it is known whether the hub is turned on, and an
action is put in flight to find out whether it was in flight already.  A call comes to the same
in both ways, so one that is refused leaves the hub as it was and has sent nothing.
-/

namespace SafetyHub

/-- What there is, or a refusal. -/
def HubError.unless {α : Type} (e : HubError) : Option α → Except HubError α
  | some a => .ok a
  | none => .error e

/-- A call that changes the hub and sends its effects as it goes. -/
abbrev Attempt := ExceptT HubError (StateM Change)

namespace Attempt

variable {α β : Type}

/-- What an attempt comes to, from a hub and what has been sent so far. -/
def outcome (x : Attempt α) (c : Change) : Except HubError α × Change :=
  StateT.run (ExceptT.run x) c

/-- Changes the hub and sends the effects of the change. -/
def act (f : Hub → α × Change) : Attempt α :=
  ExceptT.mk fun c =>
    let (a, made) := f c.hub
    (.ok a, { hub := made.hub, effects := c.effects ++ made.effects })

/-- Changes the hub. -/
def alter (f : Hub → Hub) : Attempt Unit :=
  act fun h => ((), { hub := f h })

/-- Sends effects. -/
def send (effects : List Effect) : Attempt Unit :=
  act fun h => ((), { hub := h, effects })

/-- Publishes the overviews. -/
def publish (env : Surroundings) : Attempt Unit :=
  act fun h => ((), h.publish env)

/-- Reads something off the hub, or refuses the call. -/
def check (f : Hub → Except HubError α) : Attempt α :=
  ExceptT.mk fun c => (f c.hub, c)

/-- Reads something off the hub, and refuses the call if it is not there. -/
def find (e : HubError) (f : Hub → Option α) : Attempt α :=
  check fun h => e.unless (f h)

/-! ### The calls -/

/-- Asks the sources of a user's group to report. -/
def refresh (env : Surroundings) (reason : RefreshReason) (user : UserId) :
    Attempt BroadcastId := do
  let group ← check fun _ => Hub.groupOf env user
  check (·.ensureEnabled)
  let plan ← act fun h =>
    let (plan, tracker) :=
      h.tracker.start env.digest env.now (h.refreshOrder env.now reason group)
    (plan, { hub := { h with tracker } })
  alter fun h => { h with deadlines := h.deadlines.disarmMatching (·.isRefresh) }
  unless plan.isImmediate do
    alter fun h => h.arm (.refresh plan.id) (h.policy.timeoutFor reason).nanos
  send (plan.requests.map (.signal <| .request ·))
  publish env
  return plan.id

/-- Arms what dismissals call for, and publishes the overviews. -/
def settle (env : Surroundings) : Attempt Unit := do
  alter (·.schedulePersist)
  alter (·.scheduleResurface env.now)
  publish env

/-- Does what follows from an event.  Gives back the errors that listeners are to hear of. -/
def applyEvent (env : Surroundings) (key : SourceKey) (event : Event) (failed : Bool) :
    Attempt (List Effect) :=
  act fun h => (h.applyEvent env key event failed).swap

/-- Takes the report of a source, or its withdrawal. -/
def submit (env : Surroundings) (package sourceId : String) (user : UserId)
    (report : Option Report) (event : Event) : Attempt Unit := do
  check (·.ensureEnabled)
  let source ← check fun h => h.catalog.checkCaller env.users package sourceId user
  check fun h => source.checkSubmission h.policy report
  let key : SourceKey := ⟨sourceId, user⟩
  let issueIds := (report.map (·.issueIds)).getD []
  alter fun h => { h with dismissals := h.dismissals.reconcile key issueIds env.now }
  alter (·.keepActions (InFlight.isOffered key report))
  alter fun h => { h with reports := h.reports.set key report env.now }
  let notices ← applyEvent env key event false
  settle env
  send notices

/-- Takes a source's word that it failed to report. -/
def reportFailure (env : Surroundings) (package sourceId : String) (user : UserId)
    (event : Event) : Attempt Unit := do
  check (·.ensureEnabled)
  let _ ← check fun h => h.catalog.checkCaller env.users package sourceId user
  let key : SourceKey := ⟨sourceId, user⟩
  alter fun h => { h with reports := h.reports.markFailed key }
  let notices ← applyEvent env key event true
  publish env
  send notices

/-- The report of a source, as the package that may report for it sees it. -/
def reportOf (env : Surroundings) (package sourceId : String) (user : UserId) :
    Attempt (Option Report) := do
  check (·.ensureEnabled)
  let _ ← check fun h => h.catalog.checkCaller env.users package sourceId user
  check fun h => .ok (h.reports.report? ⟨sourceId, user⟩)

/-- The overview of a user's group. -/
def view (env : Surroundings) (user : UserId) : Attempt Overview := do
  let group ← check fun _ => Hub.groupOf env user
  check (·.ensureEnabled)
  check fun h => .ok (h.overview env.now group)

/-- Registers a listener for a group, unless it is registered there.  Answers whether it was
not. -/
def register (listener : String) (parent : UserId) (package : String) : Attempt Bool :=
  act fun h => match h.audience.register? listener parent package with
    | none => (false, { hub := h })
    | some audience => (true, { hub := { h with audience } })

/-- Registers a listener for a user's group and offers it the current overview. -/
def listen (env : Surroundings) (listener package : String) (user : UserId) :
    Attempt Bool := do
  let group ← check fun _ => Hub.groupOf env user
  check (·.ensureEnabled)
  if ← register listener group.parent package then
    alter fun h => { h with sequence := h.sequence + 1 }
    act fun h => ((), {
      hub := h
      effects := [.offerTo group.parent listener h.sequence (h.overview env.now group)] })
    return true
  else return false

/-- Dismisses an issue. -/
def dismiss (env : Surroundings) (issue : IssueKey) : Attempt Unit := do
  check (·.ensureEnabled)
  let _ ← find (.unknownIssue issue) (·.reports.issue? issue)
  alter fun h =>
    { h with dismissals := (h.dismissals.dismiss? issue env.now).getD h.dismissals }
  settle env

/-- Puts an action in flight, and refuses the call if it was in flight before. -/
def begin (action : ActionKey) : Attempt Unit := do
  let isNew ← act fun h =>
    (!h.inFlight.contains action, { hub := { h with inFlight := h.inFlight.insert action } })
  unless isNew do throw (.actionInFlight action.issue action.actionId)

/-- Asks the source of an issue to carry out an action on it. -/
def execute (env : Surroundings) (issue : IssueKey) (actionId : String) : Attempt Unit := do
  check (·.ensureEnabled)
  let reported ← find (.unknownIssue issue) (·.reports.issue? issue)
  let _ ← find (.unknownAction issue actionId) fun _ => reported.action? actionId
  let package ← find (.unknownSource issue.sourceId)
    fun h => (h.catalog.source? issue.sourceId).bind (·.package)
  let action : ActionKey := ⟨issue, actionId⟩
  begin action
  alter fun h => h.arm (.resolveAction action) h.policy.resolveActionTimeout.nanos
  send [.signal (.action package action)]
  publish env

/-! ### Attempts and calls -/

variable {γ : Type} {h : Hub} {env : Surroundings}

/-- What a call comes to that changes nothing when it is refused. -/
def verdict (h : Hub) (answer : β → α × Change) : Except HubError β → Except HubError α × Change
  | .ok b => (.ok (answer b).1, (answer b).2)
  | .error e => (.error e, { hub := h })

theorem outcome_bind (x : Attempt α) (f : α → Attempt β) (c : Change) :
  (x >>= f).outcome c = match x.outcome c with
    | (.ok a, c) => (f a).outcome c
    | (.error e, c) => (.error e, c)
  := by
  unfold outcome
  rw [ExceptT.run_bind, StateT.run_bind]
  rcases StateT.run (ExceptT.run x) c with ⟨_ | _, _⟩ <;> rfl

theorem outcome_act (f : Hub → α × Change) (c : Change) :
  (act f).outcome c = (.ok (f c.hub).1,
    { hub := (f c.hub).2.hub, effects := c.effects ++ (f c.hub).2.effects })
  := rfl

theorem outcome_act_bind (f : Hub → α × Change) (k : α → Attempt β) (c : Change) :
  (act f >>= k).outcome c = (k (f c.hub).1).outcome
    { hub := (f c.hub).2.hub, effects := c.effects ++ (f c.hub).2.effects }
  := outcome_bind (act f) k c

/-- An attempt that begins with a check comes to the same as a call that begins with it, if
this holds of what is left once the check is passed. -/
theorem outcome_check_bind {f : Hub → Except HubError α} {k : α → Attempt β}
    {g : α → Except HubError γ} {answer : γ → β × Change}
    (hrest : ∀ a, f h = .ok a → (k a).outcome { hub := h } = verdict h answer (g a)) :
  (check f >>= k).outcome { hub := h } = verdict h answer (f h >>= g)
  := by
  have hcheck : (check f).outcome { hub := h } = (f h, { hub := h }) := rfl
  rw [outcome_bind, hcheck]
  cases hf : f h with
  | error e => rfl
  | ok a => apply hrest a hf

theorem outcome_refresh (h : Hub) (env : Surroundings) (reason : RefreshReason)
    (user : UserId) :
  (refresh env reason user).outcome { hub := h } = verdict h id (h.refresh env reason user)
  := by
  apply outcome_check_bind
  intro group _
  apply outcome_check_bind
  intro _ _
  simp only [alter, send, publish, outcome_act_bind, Hub.startRefresh]
  split
  · rfl
  · rfl

theorem outcome_submit (h : Hub) (env : Surroundings) (package sourceId : String)
    (user : UserId) (report : Option Report) (event : Event) :
  (submit env package sourceId user report event).outcome { hub := h }
    = verdict h (((), ·)) (h.submit env package sourceId user report event)
  := by
  apply outcome_check_bind
  intro _ _
  apply outcome_check_bind
  intro source _
  apply outcome_check_bind
  intro _ _
  simp only [alter, applyEvent, settle, publish, send, bind_assoc, outcome_act_bind, outcome_act,
    Prod.fst_swap, Prod.snd_swap, List.nil_append, List.append_nil]
  rfl

theorem outcome_reportFailure (h : Hub) (env : Surroundings) (package sourceId : String)
    (user : UserId) (event : Event) :
  (reportFailure env package sourceId user event).outcome { hub := h }
    = verdict h (((), ·)) (h.reportFailure env package sourceId user event)
  := by
  apply outcome_check_bind
  intro _ _
  apply outcome_check_bind
  intro source _
  simp only [alter, applyEvent, publish, send, outcome_act_bind, outcome_act, Prod.fst_swap,
    Prod.snd_swap, List.nil_append]
  rfl

theorem outcome_reportOf (h : Hub) (env : Surroundings) (package sourceId : String)
    (user : UserId) :
  (reportOf env package sourceId user).outcome { hub := h }
    = verdict h ((·, { hub := h })) (h.reportOf env package sourceId user)
  := by
  apply outcome_check_bind
  intro _ _
  apply outcome_check_bind
  intro source _
  rfl

theorem outcome_view (h : Hub) (env : Surroundings) (user : UserId) :
  (view env user).outcome { hub := h } = verdict h ((·, { hub := h })) (h.view env user)
  := by
  apply outcome_check_bind
  intro group _
  apply outcome_check_bind
  intro _ _
  rfl

theorem outcome_listen (h : Hub) (env : Surroundings) (listener package : String)
    (user : UserId) :
  (listen env listener package user).outcome { hub := h }
    = verdict h id (h.listen env listener package user)
  := by
  apply outcome_check_bind
  intro group _
  apply outcome_check_bind
  intro _ _
  simp only [register, outcome_act_bind]
  cases h.audience.register? listener group.parent package <;> rfl

theorem outcome_dismiss (h : Hub) (env : Surroundings) (issue : IssueKey) :
  (dismiss env issue).outcome { hub := h } = verdict h (((), ·)) (h.dismiss env issue)
  := by
  have hcall : h.dismiss env issue = (do
      h.ensureEnabled
      let _ ← HubError.unless (.unknownIssue issue) (h.reports.issue? issue)
      .ok ({ h with
        dismissals := (h.dismissals.dismiss? issue env.now).getD h.dismissals }.settle env)) := by
    rw [Hub.dismiss]
    cases h.reports.issue? issue <;> rfl
  rw [hcall]
  apply outcome_check_bind
  intro _ _
  apply outcome_check_bind
  intro reported _
  simp only [alter, settle, publish, outcome_act_bind, outcome_act, List.nil_append]
  rfl

/-- The checks before an action begins, in turn. -/
theorem executor_eq (h : Hub) (issue : IssueKey) (actionId : String) :
  h.executor issue actionId = (do
    let reported ← HubError.unless (.unknownIssue issue) (h.reports.issue? issue)
    let _ ← HubError.unless (.unknownAction issue actionId) (reported.action? actionId)
    let package ← HubError.unless (.unknownSource issue.sourceId)
      ((h.catalog.source? issue.sourceId).bind (·.package))
    if h.inFlight.contains ⟨issue, actionId⟩ then .error (.actionInFlight issue actionId)
    else .ok package)
  := by
  unfold Hub.executor
  cases h.reports.issue? issue with
  | none => rfl
  | some reported =>
    dsimp only [HubError.unless, bind, Except.bind]
    cases reported.action? actionId with
    | none => rfl
    | some action => cases (h.catalog.source? issue.sourceId).bind (·.package) <;> rfl

theorem outcome_begin_of_mem {action : ActionKey} {c : Change}
    (hin : action ∈ c.hub.inFlight) :
  (begin action).outcome c = (.error (.actionInFlight action.issue action.actionId), c)
  := by
  rw [begin, outcome_act_bind, Std.ExtTreeSet.mem_iff_contains.mp hin, insert_of_mem hin]
  simp only [Bool.not_true, List.append_nil]
  rfl

theorem outcome_begin_of_not_mem {action : ActionKey} {c : Change}
    (hout : action ∉ c.hub.inFlight) :
  (begin action).outcome c
    = (.ok (), { c with hub := { c.hub with inFlight := c.hub.inFlight.insert action } })
  := by
  rw [Std.ExtTreeSet.mem_iff_contains, Bool.not_eq_true] at hout
  rw [begin, outcome_act_bind, hout]
  simp only [Bool.not_false, List.append_nil]
  rfl

theorem outcome_execute (h : Hub) (env : Surroundings) (issue : IssueKey) (actionId : String) :
  (execute env issue actionId).outcome { hub := h }
    = verdict h (((), ·)) (h.execute env issue actionId)
  := by
  rw [Hub.execute, executor_eq]
  simp only [bind_assoc]
  apply outcome_check_bind
  intro _ _
  apply outcome_check_bind
  intro reported _
  apply outcome_check_bind
  intro action _
  apply outcome_check_bind
  intro package _
  dsimp only
  rw [outcome_bind]
  by_cases hin : ⟨issue, actionId⟩ ∈ h.inFlight
  · rw [outcome_begin_of_mem hin, if_pos (Std.ExtTreeSet.mem_iff_contains.mp hin)]
    rfl
  · rw [outcome_begin_of_not_mem hin, if_neg (hin ∘ Std.ExtTreeSet.mem_iff_contains.mpr)]
    simp only [alter, send, publish, outcome_act_bind, outcome_act, List.nil_append]
    rfl

end Attempt

/-! ### Refused calls -/

/-- The calls that may be refused, by what they answer. -/
inductive Call : Type → Type
  | refresh (reason : RefreshReason) (user : UserId) : Call BroadcastId
  | submit (package sourceId : String) (user : UserId) (report : Option Report)
      (event : Event) : Call Unit
  | reportFailure (package sourceId : String) (user : UserId) (event : Event) : Call Unit
  | reportOf (package sourceId : String) (user : UserId) : Call (Option Report)
  | view (user : UserId) : Call Overview
  | listen (listener package : String) (user : UserId) : Call Bool
  | dismiss (issue : IssueKey) : Call Unit
  | execute (issue : IssueKey) (actionId : String) : Call Unit

namespace Call

variable {α : Type}

/-- What a hub makes of a call. -/
def perform (h : Hub) (env : Surroundings) : Call α → Except HubError (α × Change)
  | .refresh reason user => h.refresh env reason user
  | .submit package sourceId user report event =>
    (h.submit env package sourceId user report event).map ((), ·)
  | .reportFailure package sourceId user event =>
    (h.reportFailure env package sourceId user event).map ((), ·)
  | .reportOf package sourceId user =>
    (h.reportOf env package sourceId user).map (·, { hub := h })
  | .view user => (h.view env user).map (·, { hub := h })
  | .listen listener package user => h.listen env listener package user
  | .dismiss issue => (h.dismiss env issue).map ((), ·)
  | .execute issue actionId => (h.execute env issue actionId).map ((), ·)

/-- The call carried out in place. -/
def attempt (env : Surroundings) : Call α → Attempt α
  | .refresh reason user => .refresh env reason user
  | .submit package sourceId user report event =>
    .submit env package sourceId user report event
  | .reportFailure package sourceId user event =>
    .reportFailure env package sourceId user event
  | .reportOf package sourceId user => .reportOf env package sourceId user
  | .view user => .view env user
  | .listen listener package user => .listen env listener package user
  | .dismiss issue => .dismiss env issue
  | .execute issue actionId => .execute env issue actionId

/-- In place, a call comes to what the hub makes of it. -/
theorem outcome_attempt (call : Call α) (h : Hub) (env : Surroundings) :
  (call.attempt env).outcome { hub := h } = Attempt.verdict h id (call.perform h env)
  := by
  have verdict_map {β γ : Type} (answer : β → γ × Change) (x : Except HubError β) :
      Attempt.verdict h id (x.map answer) = Attempt.verdict h answer x := by
    cases x <;> rfl
  cases call with
  | refresh reason user => apply Attempt.outcome_refresh
  | submit package sourceId user report event =>
    apply (Attempt.outcome_submit h env package sourceId user report event).trans
    rw [perform, verdict_map]
  | reportFailure package sourceId user event =>
    apply (Attempt.outcome_reportFailure h env package sourceId user event).trans
    rw [perform, verdict_map]
  | reportOf package sourceId user =>
    apply (Attempt.outcome_reportOf h env package sourceId user).trans
    rw [perform, verdict_map]
  | view user =>
    apply (Attempt.outcome_view h env user).trans
    rw [perform, verdict_map]
  | listen listener package user => apply Attempt.outcome_listen
  | dismiss issue =>
    apply (Attempt.outcome_dismiss h env issue).trans
    rw [perform, verdict_map]
  | execute issue actionId =>
    apply (Attempt.outcome_execute h env issue actionId).trans
    rw [perform, verdict_map]

/-- A call that a hub refuses changes nothing.  Carried out in place it is refused for the same
reason, wherever it has come to by then: the hub is as it was, and nothing has been sent.  One
that is not refused leaves and sends in place what the hub says. -/
theorem refused_changes_nothing (call : Call α) (h : Hub) (env : Surroundings) :
  let done := (call.attempt env).outcome { hub := h }
  (∀ e, call.perform h env = .error e →
      done.1 = .error e ∧ done.2.hub = h ∧ done.2.effects = [])
    ∧ ∀ reply change, call.perform h env = .ok (reply, change) →
      done.1 = .ok reply ∧ done.2 = change
  := by
  intro done
  have hdone : done = Attempt.verdict h id (call.perform h env) := call.outcome_attempt h env
  rw [hdone]
  constructor
  · intro e hrefused
    rw [hrefused]
    exact ⟨rfl, rfl, rfl⟩
  · intro reply change haccepted
    rw [haccepted]
    exact ⟨rfl, rfl⟩

/-- An action that is in flight is not begun once more. -/
theorem second_execution_changes_nothing :
  let execution := Call.execute ⟨"s", "i", 0⟩ "a"
  let h := (Hub.start Sample.catalog {} {} (.ok []) 0).after
    [(Sample.device, Sample.submission ["a"]), (Sample.device, .execute ⟨"s", "i", 0⟩ "a")]
  let done := (execution.attempt Sample.device).outcome { hub := h }
  execution.perform h Sample.device = .error (.actionInFlight ⟨"s", "i", 0⟩ "a")
    ∧ done.1 = .error (.actionInFlight ⟨"s", "i", 0⟩ "a")
    ∧ done.2.hub = h ∧ done.2.effects = []
  := by
  intro execution h done
  have hrefused : execution.perform h Sample.device = .error (.actionInFlight ⟨"s", "i", 0⟩ "a") :=
    rfl
  obtain ⟨hrefusal, -⟩ := refused_changes_nothing execution h Sample.device
  exact ⟨hrefused, hrefusal _ hrefused⟩

end Call

end SafetyHub
