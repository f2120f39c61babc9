import SafetyHub.Session.Script

/-!
# Scenes

A `Scene` is a hub with the device around it: the users, and a clock that runs with the time of
the hub's deadlines and can be set.  `Scene.act` performs one step and says what the step brings
about and how it is to be finished once that is carried out.
-/

namespace SafetyHub

/-- What is seen outside the hub. -/
inductive Occurrence where
  | signal (signal : Signal)
  /-- A listener takes an overview. -/
  | view (listener : String) (view : Overview)
  /-- A listener hears of an error. -/
  | notice (listener : String) (notice : Notice)
  /-- A listener has performed a reply. -/
  | reply (listener : String) (answer : Answer)

/-- What is seen, and when. -/
structure Entry where
  /-- The time in milliseconds. -/
  time : Nat
  occurrence : Occurrence

/-- A hub with the device around it. -/
structure Scene where
  hub : Hub
  users : Roster
  /-- The reading of the clock in milliseconds at time 0, as the clock is set now. -/
  clockStart : Int
  /-- The digest from which tokens are made. -/
  digest : RefreshOrigin → String := RefreshOrigin.digest
  /-- The tokens handed out so far, the latest one first. -/
  tokens : List BroadcastId := []
  /-- What has been seen, the latest first. -/
  log : List Entry := []
  /-- What the step in hand came to. -/
  answer : Answer := .nothing

/-- How a step is finished once its effects are carried out. -/
inductive Ending where
  | answer (answer : Answer)
  /-- A token is handed out. -/
  | issue (id : BroadcastId) (answer : Answer)
  /-- What a shell command cleared is saved. -/
  | saveCleared
  /-- The hub has been replaced. -/
  | replaced

/-- The answer of a shell command. -/
def Answer.ofShell : Except ShellError String → Answer
  | .ok answer => .text answer
  | .error e => .shellFailed e

namespace Scene

/-- The time in milliseconds. -/
def time (s : Scene) : Nat := s.hub.deadlines.now

/-- What the hub sees of the device. -/
def surroundings (s : Scene) : Surroundings where
  users := s.users
  now := .nearestMillis (s.clockStart + s.time)
  digest := s.digest

/-- Puts an occurrence on the log. -/
def record (s : Scene) (o : Occurrence) : Scene :=
  { s with log := ⟨s.time, o⟩ :: s.log }

/-- The token of the refresh in flight. -/
def refreshToken? (s : Scene) : Option BroadcastId :=
  s.hub.tracker.current.map (·.id)

/-- The event that a script means. -/
def eventOf (s : Scene) : ScriptEvent → Event
  | .plain event => event
  | .answers t => .refreshRequested (t.resolve s.refreshToken? s.tokens.reverse)

/-! ### Steps -/

/-- What a step leads to: the scene, the effects to carry out, and the ending. -/
abbrev Outcome := Scene × List Effect × Ending

/-- A step that only has an answer. -/
def answered (s : Scene) (a : Answer) : Outcome :=
  (s, [], .answer a)

/-- A step that changes the hub. -/
def changed (s : Scene) (c : Change) (e : Ending) : Outcome :=
  ({ s with hub := c.hub }, c.effects, e)

/-- A call that may be refused. -/
def called (s : Scene) : Except HubError Change → Outcome
  | .ok c => s.changed c (.answer .accepted)
  | .error e => s.answered (.refused e)

/-- A call that reads and may be refused. -/
def read {α : Type} (s : Scene) (answer : α → Answer) : Except HubError α → Outcome
  | .ok a => s.answered (answer a)
  | .error e => s.answered (.refused e)

/-- A step that needs a configuration. -/
def configured (s : Scene) (doc : ConfigurationDocument) (f : Configuration → Outcome) : Outcome :=
  match Configuration.ofDocument doc with
  | .ok c => f c
  | .error e => s.answered (.inconsistent e)

/-- Performs a step, given the listeners seen so far. -/
def act (s : Scene) (seen : List String) : Step → Outcome
  | .refresh reason user =>
    match s.hub.refresh s.surroundings reason user with
    | .ok (id, change) => s.changed change (.issue id (.token id))
    | .error e => s.answered (.refused e)
  | .submit package sourceId user report event =>
    s.called (s.hub.submit s.surroundings package sourceId user report (s.eventOf event))
  | .reportFailure package sourceId user event =>
    s.called (s.hub.reportFailure s.surroundings package sourceId user (s.eventOf event))
  | .reportOf package sourceId user =>
    s.read .report (s.hub.reportOf s.surroundings package sourceId user)
  | .view user => s.read .view (s.hub.view s.surroundings user)
  | .listen listener package user _ =>
    match s.hub.listen s.surroundings listener package user with
    | .ok (isNew, change) => s.changed change (.answer (.registered isNew))
    | .error e => s.answered (.refused e)
  | .unlisten listener =>
    if seen.contains listener then
      let (found, hub) := s.hub.unlisten listener
      ({ s with hub }, [], .answer (.flag found))
    else s.answered .nothing
  | .dismiss issue => s.called (s.hub.dismiss s.surroundings issue)
  | .execute issue actionId => s.called (s.hub.execute s.surroundings issue actionId)
  | .flush =>
    match s.hub.flush with
    | (.ok (), change) => s.changed change (.answer .accepted)
    | (.error e, change) => s.changed change (.answer (.refused e))
  | .clear => s.changed (s.hub.clear s.surroundings) (.answer .nothing)
  | .removeUser user => s.changed (s.hub.removeUser s.surroundings user) (.answer .nothing)
  | .reload doc => s.configured doc fun c =>
    s.changed (s.hub.reload s.surroundings c.catalog c.policy) (.answer .nothing)
  | .restart doc => s.configured doc fun c =>
    let archive := s.hub.archive
    let hub := Hub.start c.catalog c.policy archive archive.load s.time
    s.changed { hub := { hub with audience := s.hub.audience.clear } } .replaced
  | .shell command =>
    match command.start s.hub s.surroundings with
    | (.answered answer, change) => s.changed change (.answer (.ofShell answer))
    | (.started id answer, change) => s.changed change (.issue id (.text answer))
    | (.cleared, change) => s.changed change .saveCleared
  | .shiftClock ms => ({ s with clockStart := s.clockStart + ms }, [], .answer .nothing)
  | .setUser info => ({ s with users := s.users.upsert info }, [], .answer .nothing)
  | .setQuiet user quiet =>
    ({ s with users := s.users.setQuiet user quiet }, [], .answer .nothing)
  | .dropUser user =>
    ({ s with users := s.users.remove user }, [], .answer (.flag (s.users.user? user).isSome))
  | .breakArchive broken =>
    let fault := if broken then some (.unsupportedVersion 99) else none
    let archive := { s.hub.archive with unreadable := fault, unwritable := fault }
    ({ s with hub := { s.hub with archive } }, [], .answer .nothing)
  | .archive => s.answered (.archive s.hub.archive.saves s.hub.archive.records)
  | .info =>
    let policy := s.hub.policy
    s.answered (.info policy.isActive policy.supported policy.owningPackage)
  | .unreadable => s.answered .unreadable

end Scene

end SafetyHub
