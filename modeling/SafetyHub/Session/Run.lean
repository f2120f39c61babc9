import SafetyHub.Session.Basic

/-!
# Sessions

A `Session` plays a script.  The tasks at hand form a stack: a step, the effects to carry out,
the offers to make, the end of a step.  When a listener takes an overview it performs its next
reply at once, with all that follows from it, before the tasks below go on; an offer that is
made late by this is taken only if nothing newer was offered meanwhile.  When a reply replaces
the hub, the effects below still reach those who were registered with the hub before.  After
every step, and while time passes, the deadlines whose turn has come take it one by one.
-/

namespace SafetyHub

/-- A task at hand. -/
inductive Task where
  /-- Perform a step, as a listener's reply or as a step of the script. -/
  | perform (listener : Option String) (step : Step)
  | carryOut (effect : Effect)
  /-- Put something on the log. -/
  | record (occurrence : Occurrence)
  /-- Offer an overview to a registration. -/
  | offer (registration : Registration) (sequence : Nat) (view : Overview)
  /-- Finish a step. -/
  | finish (listener : Option String) (ending : Ending)

/-- A scene whose listeners reply. -/
structure Session where
  scene : Scene
  /-- The replies still to come from the listeners seen so far. -/
  replies : List (String × List (Option Step)) := []

/-- What a step of a script came to. -/
structure Played where
  answer : Answer
  /-- What was seen since the step before. -/
  entries : List Entry
  /-- The token of the refresh in flight after the step. -/
  refresh : Option BroadcastId

namespace Session

/-! ### Replies -/

/-- The replies still to come once a step is heard of. -/
def meet (replies : List (String × List (Option Step))) :
    Step → List (String × List (Option Step))
  | .listen listener _ _ queue =>
    if (replies.lookup listener).isSome then replies else (listener, queue) :: replies
  | _ => replies

/-- The next reply of a listener, if there is one, and the replies that are left. -/
def next? (listener : String) :
    List (String × List (Option Step)) → Option (Option Step × List (String × List (Option Step)))
  | [] => none
  | (name, queue) :: rest =>
    if name == listener then
      match queue with
      | [] => none
      | reply :: queue => some (reply, (name, queue) :: rest)
    else (next? listener rest).map fun (reply, rest) => (reply, (name, queue) :: rest)

/-- The number of replies still to come and of steps that they can bring about. -/
def pending : List (String × List (Option Step)) → Nat
  | [] => 0
  | (_, queue) :: rest => replyWeights queue + pending rest

theorem pending_meet_le (replies : List (String × List (Option Step))) (step : Step) :
  pending (meet replies step) + 1 ≤ pending replies + step.weight
  := by
  cases step with
  | listen listener package user queue =>
    simp only [meet, Step.weight]
    split
    · omega
    · simp only [pending]
      omega
  | _ => simp [meet, Step.weight]

/-- The weight of a reply. -/
def replyWeight : Option Step → Nat
  | none => 0
  | some step => step.weight

theorem replyWeights_cons (reply : Option Step) (queue : List (Option Step)) :
  replyWeights (reply :: queue) = replyWeight reply + replyWeights queue + 1
  := by
  cases reply with
  | none => simp [replyWeights, replyWeight]
  | some step => simp [replyWeights, replyWeight]

theorem pending_of_next? {listener : String} {replies rest : List (String × List (Option Step))}
    {reply : Option Step} (h : next? listener replies = some (reply, rest)) :
  pending replies = pending rest + replyWeight reply + 1
  := by
  induction replies generalizing rest with
  | nil => simp [next?] at h
  | cons r rs ih =>
    obtain ⟨name, queue⟩ := r
    unfold next? at h
    split at h
    · cases queue with
      | nil => simp at h
      | cons first queue =>
        obtain ⟨rfl, rfl⟩ : first = reply ∧ (name, queue) :: rs = rest := by simpa using h
        simp only [pending, replyWeights_cons]
        omega
    · obtain ⟨⟨reply', rest'⟩, hNext, hEq⟩ := Option.map_eq_some_iff.1 h
      obtain ⟨rfl, rfl⟩ : reply' = reply ∧ (name, queue) :: rest' = rest := by simpa using hEq
      have := ih hNext
      simp only [pending]
      omega

/-! ### Tasks -/

/-- How many more tasks of steps a task can bring about. -/
def taskWeight : Task → Nat
  | .perform _ step => 2 * step.weight
  | .finish _ .saveCleared => 1
  | _ => 0

/-- How many more tasks of steps a list of tasks can bring about. -/
def taskWeights : List Task → Nat
  | [] => 0
  | t :: ts => taskWeight t + taskWeights ts

/-- Whether a task is an effect. -/
def isEffect : Task → Bool
  | .carryOut _ => true
  | _ => false

theorem taskWeights_append (as bs : List Task) :
  taskWeights (as ++ bs) = taskWeights as + taskWeights bs
  := by
  induction as with
  | nil => simp [taskWeights]
  | cons a as ih =>
    simp only [List.cons_append, taskWeights, ih]
    omega

theorem taskWeights_carryOut (effects : List Effect) :
  taskWeights (effects.map .carryOut) = 0
  := by
  induction effects with
  | nil => rfl
  | cons e es ih => simpa [taskWeights, taskWeight] using ih

/-- What carrying out an effect comes to for an audience. -/
def reach (a : Audience) : Effect → List Task
  | .signal signal => [.record (.signal signal)]
  | .offer parent package sequence view =>
    (a.ofPackage parent package).map (.offer · sequence view)
  | .offerTo parent listener sequence view =>
    ((a.registrations parent).find? (·.listener == listener)).toList.map
      (.offer · sequence view)
  | .notice parent notice =>
    (a.registrations parent).map fun r => .record (.notice r.listener notice)

theorem taskWeights_map_eq_zero {α : Type} (task : α → Task) (as : List α)
    (h : ∀ a, taskWeight (task a) = 0) :
  taskWeights (as.map task) = 0
  := by
  induction as with
  | nil => rfl
  | cons a as ih => simp [taskWeights, h, ih]

theorem taskWeights_reach (a : Audience) (effect : Effect) :
  taskWeights (reach a effect) = 0
  := by
  cases effect with
  | signal signal => rfl
  | offer parent package sequence view => exact taskWeights_map_eq_zero _ _ fun _ => rfl
  | offerTo parent listener sequence view => exact taskWeights_map_eq_zero _ _ fun _ => rfl
  | notice parent notice => exact taskWeights_map_eq_zero _ _ fun _ => rfl

theorem countP_reach (a : Audience) (effect : Effect) :
  (reach a effect).countP isEffect = 0
  := by
  cases effect <;> simp [reach, isEffect, List.countP_map, Function.comp_def]

/-- The tasks below a step that replaces the hub: their effects reach the audience of before. -/
def address (a : Audience) : List Task → List Task
  | [] => []
  | .carryOut effect :: rest => reach a effect ++ address a rest
  | t :: rest => t :: address a rest

theorem taskWeights_address (a : Audience) (tasks : List Task) :
  taskWeights (address a tasks) = taskWeights tasks
  := by
  induction tasks with
  | nil => rfl
  | cons t ts ih =>
    cases t with
    | carryOut effect =>
      simp [address, taskWeights, taskWeights_append, taskWeights_reach, taskWeight, ih]
    | _ => simp [address, taskWeights, ih]

/-- The tasks that are left below a step. -/
def below (a : Audience) (ending : Ending) (rest : List Task) : List Task :=
  match ending with
  | .replaced => address a rest
  | _ => rest

theorem taskWeights_below (a : Audience) (ending : Ending) (rest : List Task) :
  taskWeights (below a ending rest) = taskWeights rest
  := by
  cases ending <;> simp [below, taskWeights_address]

theorem taskWeight_finish_le (listener : Option String) (ending : Ending) :
  taskWeight (.finish listener ending) ≤ 1
  := by
  cases ending <;> simp [taskWeight]

/-- The scene once a step has come to an answer. -/
def conclude (s : Scene) (listener : Option String) (answer : Answer) : Scene :=
  match listener with
  | none => { s with answer }
  | some name => s.record (.reply name answer)

/-- Carries out tasks, each with all that follows from it, in order. -/
def run (tasks : List Task) (s : Session) : Session :=
  match tasks with
  | [] => s
  | .perform listener step :: rest =>
    let replies := meet s.replies step
    let (scene, effects, ending) := s.scene.act (replies.map (·.1)) step
    let rest := below s.scene.hub.audience ending rest
    run (effects.map .carryOut ++ .finish listener ending :: rest) { scene, replies }
  | .carryOut effect :: rest => run (reach s.scene.hub.audience effect ++ rest) s
  | .record occurrence :: rest => run rest { s with scene := s.scene.record occurrence }
  | .offer r sequence view :: rest =>
    let (taken, audience) := s.scene.hub.audience.offer r sequence view
    let scene := { s.scene with hub.audience := audience }
    if taken then
      let scene := scene.record (.view r.listener view)
      match _h : next? r.listener s.replies with
      | some (some step, replies) =>
        run (.perform (some r.listener) step :: rest) { scene, replies }
      | some (none, replies) => run rest { scene, replies }
      | none => run rest { s with scene }
    else run rest { s with scene }
  | .finish listener (.answer answer) :: rest =>
    run rest { s with scene := conclude s.scene listener answer }
  | .finish listener (.issue id answer) :: rest =>
    let scene := { s.scene with tokens := id :: s.scene.tokens }
    run rest { s with scene := conclude scene listener answer }
  | .finish listener .replaced :: rest =>
    run rest { s with scene := conclude s.scene listener .nothing }
  | .finish listener .saveCleared :: rest =>
    let (answer, change) := ShellCommand.save s.scene.hub
    let scene := { s.scene with hub := change.hub }
    run (change.effects.map .carryOut ++ .finish listener (.answer (.ofShell answer)) :: rest)
      { s with scene }
termination_by
  (2 * pending s.replies + taskWeights tasks, tasks.countP isEffect, tasks.length)
decreasing_by
  all_goals simp only [Prod.lex_def, taskWeights_append, taskWeights, taskWeights_below,
    taskWeights_carryOut, taskWeights_reach, countP_reach, List.countP_append, List.countP_cons,
    List.countP_map, List.length_append, List.length_cons, List.length_map]
  · have met := pending_meet_le s.replies step
    have finishes := taskWeight_finish_le listener ending
    have performs : taskWeight (.perform listener step) = 2 * step.weight := rfl
    omega
  all_goals simp [taskWeight, isEffect, Function.comp_def]
  · have popped := pending_of_next? _h
    simp only [replyWeight] at popped
    omega
  · have popped := pending_of_next? _h
    omega

/-! ### Playing a script -/

/-- The time in milliseconds. -/
def time (s : Session) : Nat := s.scene.time

/-- Takes the turns of the deadlines that come by a time, at most `turns` of them. -/
def takeTurns : (turns : Nat) → (limit : Nat) → Session → Session
  | 0, _, s => s
  | turns + 1, limit, s =>
    match s.scene.hub.deadlines.next? limit with
    | none => s
    | some e =>
      let hub := { s.scene.hub with deadlines := s.scene.hub.deadlines.take e }
      let scene := { s.scene with hub }
      let change := hub.turn scene.surroundings e.key
      takeTurns turns limit (run (change.effects.map .carryOut)
        { s with scene := { scene with hub := change.hub } })

/-- No fewer turns than deadlines can take by a time: one for each that is armed, three for each
step that listeners still perform, and one in a millisecond for issues that come back. -/
def turnsBy (s : Session) (limit : Nat) : Nat :=
  s.scene.hub.deadlines.armed.length + 3 * pending s.replies + (limit - s.time) + 1

/-- Takes the turns of all deadlines that come by a time. -/
def settle (s : Session) (limit : Nat) : Session :=
  takeTurns (s.turnsBy limit) limit s

/-- What has been seen since the step before. -/
def look (s : Session) : Played × Session :=
  ({ answer := s.scene.answer
     entries := s.scene.log.reverse
     refresh := s.scene.refreshToken? },
    { s with scene := { s.scene with log := [] } })

/-- Plays a step. -/
def play (s : Session) (step : Step) : Played × Session :=
  let s := run [.perform none step] s
  (s.settle s.time).look

/-- Lets time pass, in milliseconds. -/
def wait (s : Session) (ms : Nat) : Played × Session :=
  let limit := s.time + ms
  let s := s.settle limit
  let hub := { s.scene.hub with deadlines := s.scene.hub.deadlines.moveTo limit }
  { s with scene := { s.scene with hub, answer := .time limit } }.look

/-- A session on a hub that starts at time 0, the clock at a number of milliseconds after the
beginning of 1970.  The first load of the archive may fail. -/
def start (c : Configuration) (users : Roster) (archive : Archive)
    (loaded : Except ArchiveError (List SavedRecord)) (clock : Int) : Session where
  scene := { hub := .start c.catalog c.policy archive loaded 0, users, clockStart := clock }

end Session

end SafetyHub
