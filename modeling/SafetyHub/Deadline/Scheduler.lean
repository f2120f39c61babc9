import SafetyHub.Deadline.Script

/-!
# The scheduler of deadlines

A scheduler arms a deadline by spawning a task that sleeps for its delay and then looks whether the
deadline is still armed.  Dropping a deadline removes its entry and aborts its task, which comes too
late for a task that has woken.  So each arming has a number of its own, which its entry and its
task bear: when the turn of a task has come and there is no entry with its key and its number, its
callback does not run, even where the key has been armed again.

The time is that of the runtime on which the tasks sleep.  A task wakes, `wake`, and takes its turn,
`turn`, in two steps; anything may happen between them.  `runDue` lets one task after the other do
both.  What a scheduler comes to for those who arm deadlines with it is `Deadlines`, where a turn
takes a deadline at once.
-/

namespace SafetyHub

/-- A callback and the number of its arming. -/
structure Numbered (α : Type) where
  number : Nat
  task : α
deriving DecidableEq, Repr

/-- A key that is armed and the number of its arming. -/
structure DeadlineEntry where
  key : DeadlineKey
  number : Nat
deriving DecidableEq, Repr

/-- The entry that a task is armed under. -/
def Armed.entry {α : Type} (t : Armed (Numbered α)) : DeadlineEntry :=
  { key := t.key, number := t.task.number }

/-- The entries of what is armed, in the order of arming, and the tasks that were spawned and have
neither ended nor been aborted, in the order of spawning. -/
structure Scheduler (α : Type) where
  /-- The time in milliseconds. -/
  now : Nat := 0
  /-- The number of the latest arming.  It counts the armings, so that 64 bits hold it as long as
  there are fewer than `2 ^ 64` of these. -/
  generation : Nat := 0
  entries : List DeadlineEntry := []
  tasks : List (Armed (Numbered α)) := []
  /-- The numbers of the tasks that have woken, in the order of waking. -/
  woken : List Nat := []
deriving Repr, Inhabited

namespace Scheduler

variable {α β : Type}

/-! ### Entries -/

/-- The entry of a key. -/
def entry? (s : Scheduler α) (key : DeadlineKey) : Option DeadlineEntry :=
  s.entries.find? (·.key == key)

/-- Whether a key is armed. -/
def isArmed (s : Scheduler α) (key : DeadlineKey) : Bool :=
  (s.entry? key).isSome

/-- The number of entries that count toward the capacity. -/
def boundedCount (s : Scheduler α) : Nat :=
  s.entries.countP (·.key.isBounded)

/-- The oldest entry that counts toward the capacity. -/
def oldestBounded? (s : Scheduler α) : Option DeadlineEntry :=
  s.entries.find? (·.key.isBounded)

/-- Aborts a task, unless it has woken. -/
def abort (s : Scheduler α) (number : Nat) : Scheduler α :=
  if s.woken.contains number then s
  else { s with tasks := s.tasks.filter (·.task.number != number) }

/-- Removes an entry and aborts its task. -/
def drop (s : Scheduler α) (e : DeadlineEntry) : Scheduler α :=
  { s with entries := s.entries.erase e }.abort e.number

theorem entries_drop (s : Scheduler α) (e : DeadlineEntry) :
  (s.drop e).entries = s.entries.erase e
  := by
  unfold drop abort
  split <;> rfl

/-! ### Arming and dropping -/

/-- Evicts the oldest entries that count toward the capacity until there is room for one. -/
def makeRoom (s : Scheduler α) : Scheduler α :=
  if Deadlines.capacity ≤ s.boundedCount then
    match _h : s.oldestBounded? with
    | none => s
    | some oldest => (s.drop oldest).makeRoom
  else s
termination_by s.entries.length
decreasing_by
  have hmem : oldest ∈ s.entries := List.mem_of_find?_eq_some _h
  rw [entries_drop, List.length_erase_of_mem hmem]
  have := List.length_pos_of_mem hmem
  omega

/-- Drops a deadline.  Answers whether it was armed. -/
def disarm (s : Scheduler α) (key : DeadlineKey) : Bool × Scheduler α :=
  match s.entry? key with
  | none => (false, s)
  | some e => (true, s.drop e)

/-- Spawns a task, under the number of the latest arming, and puts its entry last. -/
def spawn (s : Scheduler α) (t : Armed (Numbered α)) : Scheduler α :=
  { s with
    generation := t.task.number
    tasks := s.tasks ++ [t]
    entries := s.entries ++ [t.entry] }

/-- Drops the deadline under a key that is to be armed, and makes room for it. -/
def roomFor (s : Scheduler α) (key : DeadlineKey) : Scheduler α :=
  let s := (s.disarm key).2
  if key.isBounded then s.makeRoom else s

/-- Arms a deadline after a delay in nanoseconds, in place of the one under its key. -/
def arm (s : Scheduler α) (key : DeadlineKey) (delay : Nat) (task : α) : Scheduler α :=
  let s := s.roomFor key
  s.spawn { key, armedAt := s.now, delay, task := { number := s.generation + 1, task } }

/-- Drops the deadlines whose keys satisfy a condition.  Answers how many there were. -/
def disarmMatching (s : Scheduler α) (which : DeadlineKey → Bool) : Nat × Scheduler α :=
  let rest := (s.entries.filter (which ·.key)).foldl drop s
  (s.entries.length - rest.entries.length, rest)

/-- Drops all deadlines. -/
def disarmAll (s : Scheduler α) : Scheduler α :=
  s.entries.foldl drop s

/-! ### Waking and running -/

/-- The tasks that sleep. -/
def sleeping (s : Scheduler α) : List (Armed (Numbered α)) :=
  s.tasks.filter (!s.woken.contains ·.task.number)

/-- The task that wakes first, if it wakes by the given time. -/
def next? (s : Scheduler α) (limit : Nat) : Option (Armed (Numbered α)) :=
  (Deadlines.first? s.sleeping).filter (·.due ≤ limit)

/-- The scheduler when a task wakes: the time moves on to it. -/
def wake (s : Scheduler α) (t : Armed (Numbered α)) : Scheduler α :=
  { s with now := max s.now t.due, woken := s.woken ++ [t.task.number] }

/-- Removes an entry, if its key is armed under its number.  Answers whether it is. -/
def takeFired (s : Scheduler α) (e : DeadlineEntry) : Bool × Scheduler α :=
  if (s.entry? e.key).any (·.number == e.number) then
    (true, { s with entries := s.entries.erase e })
  else (false, s)

/-- The turn of a task: it looks for its entry, and ends.  Answers whether its callback runs. -/
def turn (s : Scheduler α) (t : Armed (Numbered α)) : Bool × Scheduler α :=
  { s with
    tasks := s.tasks.filter (·.task.number != t.task.number)
    woken := s.woken.filter (· != t.task.number) }.takeFired t.entry

/-- A task wakes and takes its turn at once.  Answers whether its callback runs. -/
def fire (s : Scheduler α) (t : Armed (Numbered α)) : Bool × Scheduler α :=
  (s.wake t).turn t

/-- The scheduler at a later time. -/
def moveTo (s : Scheduler α) (time : Nat) : Scheduler α :=
  { s with now := max s.now time }

/-! ### What dropping deadlines leaves -/

/-- Nothing has changed but for entries that were removed and tasks that were aborted. -/
structure Drops (s s' : Scheduler α) : Prop where
  now : s'.now = s.now
  generation : s'.generation = s.generation
  woken : s'.woken = s.woken
  tasks : s'.tasks.Sublist s.tasks

namespace Drops

theorem refl (s : Scheduler α) : s.Drops s := ⟨rfl, rfl, rfl, List.Sublist.refl s.tasks⟩

theorem trans {s s' s'' : Scheduler α} (hab : s.Drops s') (hbc : s'.Drops s'') : s.Drops s'' where
  now := hbc.now.trans hab.now
  generation := hbc.generation.trans hab.generation
  woken := hbc.woken.trans hab.woken
  tasks := hbc.tasks.trans hab.tasks

theorem drop (s : Scheduler α) (e : DeadlineEntry) : s.Drops (s.drop e) := by
  unfold Scheduler.drop abort
  split
  · exact ⟨rfl, rfl, rfl, List.Sublist.refl s.tasks⟩
  · exact ⟨rfl, rfl, rfl, List.filter_sublist⟩

theorem foldl_drop (s : Scheduler α) (gone : List DeadlineEntry) :
  s.Drops (gone.foldl Scheduler.drop s)
  := by
  induction gone generalizing s with
  | nil => apply refl
  | cons e gone ih => apply (drop s e).trans (ih (s.drop e))

theorem disarm (s : Scheduler α) (key : DeadlineKey) : s.Drops (s.disarm key).2 := by
  unfold Scheduler.disarm
  split
  · apply refl
  · apply drop

theorem makeRoom (s : Scheduler α) : s.Drops s.makeRoom := by
  fun_induction Scheduler.makeRoom s with
  | case1 s _ _ => apply refl
  | case2 s _ oldest _ ih => apply (drop s oldest).trans ih
  | case3 s _ => apply refl

theorem roomFor (s : Scheduler α) (key : DeadlineKey) : s.Drops (s.roomFor key) := by
  unfold Scheduler.roomFor
  split
  · apply (disarm s key).trans (makeRoom _)
  · apply disarm

end Drops

/-- What a turn leaves as it is, and that the task ends. -/
theorem turn_rest (s : Scheduler α) (t : Armed (Numbered α)) :
  (s.turn t).2.now = s.now ∧ (s.turn t).2.generation = s.generation
    ∧ (s.turn t).2.woken = s.woken.filter (· != t.task.number)
    ∧ (s.turn t).2.tasks = s.tasks.filter (·.task.number != t.task.number)
  := by
  unfold turn takeFired
  split <;> exact ⟨rfl, rfl, rfl, rfl⟩

/-! ### Scripted callbacks -/

/-- Carries out a command. -/
def apply (s : Scheduler (ScriptedTask β)) : DeadlineCommand β → Scheduler (ScriptedTask β)
  | .arm key delay label commands => s.arm key delay { label, commands }
  | .disarm key => (s.disarm key).2
  | .disarmMatching which => (s.disarmMatching which).2
  | .disarmAll => s.disarmAll

/-- The number of callbacks that tasks can still run. -/
def weight (tasks : List (Armed (Numbered (ScriptedTask β)))) : Nat :=
  Deadlines.weight (tasks.map (·.map (·.task)))

theorem weight_le_of_sublist {as bs : List (Armed (Numbered (ScriptedTask β)))}
    (h : as.Sublist bs) :
  weight as ≤ weight bs
  := Deadlines.weight_le_of_sublist (h.map _)

theorem weight_apply_le (s : Scheduler (ScriptedTask β)) (c : DeadlineCommand β) :
  weight (s.apply c).tasks ≤ weight s.tasks + c.weight
  := by
  cases c with
  | arm key delay label commands =>
    have hle := weight_le_of_sublist (Drops.roomFor s key).tasks
    simp only [weight, apply, arm, spawn, List.map_append, Deadlines.weight_append,
      DeadlineCommand.weight] at hle ⊢
    apply Nat.add_le_add hle
    simp [Deadlines.weight, Armed.map]
  | disarm key => exact weight_le_of_sublist (Drops.disarm s key).tasks
  | disarmMatching which => exact weight_le_of_sublist (Drops.foldl_drop s _).tasks
  | disarmAll => exact weight_le_of_sublist (Drops.foldl_drop s _).tasks

theorem weight_foldl_apply_le (commands : List (DeadlineCommand β))
    (s : Scheduler (ScriptedTask β)) :
  weight (commands.foldl apply s).tasks ≤ weight s.tasks + DeadlineCommand.weights commands
  := by
  induction commands generalizing s with
  | nil => simp [DeadlineCommand.weights]
  | cons c cs ih =>
    have h := weight_apply_le s c
    have h' := ih (s.apply c)
    simp only [List.foldl_cons, DeadlineCommand.weights]
    omega

theorem weight_turn_lt {s : Scheduler (ScriptedTask β)} {t : Armed (Numbered (ScriptedTask β))}
    (h : t ∈ s.tasks) :
  weight (s.turn t).2.tasks + DeadlineCommand.weights t.task.task.commands < weight s.tasks
  := by
  obtain ⟨front, back, hparts⟩ := List.append_of_mem h
  have hsub : (s.turn t).2.tasks.Sublist (front ++ back) := by
    rw [(turn_rest s t).2.2.2, hparts, List.filter_append]
    apply List.Sublist.append List.filter_sublist
    simp
  have hle := weight_le_of_sublist hsub
  rw [hparts]
  simp only [weight, List.map_append, List.map_cons, Deadlines.weight_append, Deadlines.weight,
    Armed.map] at *
  omega

theorem mem_tasks_of_next? {s : Scheduler α} {limit : Nat} {t : Armed (Numbered α)}
    (h : s.next? limit = some t) :
  t ∈ s.tasks
  := (List.mem_filter.mp (Deadlines.first?_mem (Option.eq_some_of_filter_eq_some h))).1

/-- Lets every task that wakes by a time take its turn, one after the other. -/
def runDue (s : Scheduler (ScriptedTask β)) (limit : Nat) :
    List (Turn β) × Scheduler (ScriptedTask β) :=
  match _h : s.next? limit with
  | none => ([], s)
  | some t =>
    if (s.fire t).1 then
      let (turns, s') := runDue (t.task.task.commands.foldl apply (s.fire t).2) limit
      (⟨t.key, t.task.task.label, (s.fire t).2.now⟩ :: turns, s')
    else runDue (s.fire t).2 limit
termination_by weight s.tasks
decreasing_by
  all_goals
    have hmem : t ∈ s.tasks := mem_tasks_of_next? _h
    have hturn : weight (s.fire t).2.tasks + _ < weight s.tasks :=
      weight_turn_lt (s := s.wake t) hmem
    have hcommands := weight_foldl_apply_le t.task.task.commands (s.fire t).2
    omega

/-- Lets time pass, in milliseconds, and every task that wakes take its turn. -/
def advance (s : Scheduler (ScriptedTask β)) (ms : Nat) :
    List (Turn β) × Scheduler (ScriptedTask β) :=
  let limit := s.now + ms
  let (turns, s) := s.runDue limit
  (turns, s.moveTo limit)

end Scheduler

end SafetyHub
