import SafetyHub.Deadline.Basic

/-!
# Deadlines with scripted tasks

A scripted task is a label and a list of commands that arm and drop deadlines when its turn
comes.  `Deadlines.runDue` takes every turn up to a time, also those of deadlines that are armed
meanwhile.  It ends because each turn takes a task out of the finite tree of tasks: what a
command adds to the deadlines weighs no more than the command.
-/

namespace SafetyHub

/-- A command on deadlines. -/
inductive DeadlineCommand (β : Type) where
  /-- Arms a deadline after a delay in nanoseconds, with a label and further commands. -/
  | arm (key : DeadlineKey) (delay : Nat) (label : β) (commands : List (DeadlineCommand β))
  | disarm (key : DeadlineKey)
  | disarmMatching (which : DeadlineKey → Bool)
  | disarmAll

/-- What is done when the turn of a deadline comes. -/
structure ScriptedTask (β : Type) where
  label : β
  commands : List (DeadlineCommand β)

/-- A turn that was taken. -/
structure Turn (β : Type) where
  key : DeadlineKey
  label : β
  time : Nat
deriving DecidableEq, Repr

variable {β : Type}

mutual

/-- The number of deadlines that a command arms, now or later. -/
def DeadlineCommand.weight : DeadlineCommand β → Nat
  | .arm _ _ _ commands => weights commands + 1
  | .disarm _ | .disarmMatching _ | .disarmAll => 0

/-- The number of deadlines that a list of commands arms, now or later. -/
def DeadlineCommand.weights : List (DeadlineCommand β) → Nat
  | [] => 0
  | c :: cs => c.weight + weights cs

end

namespace Deadlines

/-- Carries out a command. -/
def apply (d : Deadlines (ScriptedTask β)) : DeadlineCommand β → Deadlines (ScriptedTask β)
  | .arm key delay label commands => d.arm key delay ⟨label, commands⟩
  | .disarm key => d.disarm key
  | .disarmMatching p => d.disarmMatching p
  | .disarmAll => { d with armed := [] }

/-- The number of turns that armed tasks can still take. -/
def weight : List (Armed (ScriptedTask β)) → Nat
  | [] => 0
  | e :: rest => DeadlineCommand.weights e.task.commands + 1 + weight rest

theorem weight_le_of_sublist {as bs : List (Armed (ScriptedTask β))} (h : as.Sublist bs) :
  weight as ≤ weight bs
  := by
  induction h with
  | slnil => simp
  | cons e _ ih =>
    simp only [weight]
    omega
  | cons_cons e _ ih =>
    simp only [weight]
    omega

theorem weight_append (as bs : List (Armed (ScriptedTask β))) :
  weight (as ++ bs) = weight as + weight bs
  := by
  induction as with
  | nil => simp [weight]
  | cons a as ih =>
    simp only [List.cons_append, weight, ih]
    omega

theorem makeRoom_sublist {α : Type} (armed : List (Armed α)) :
  (makeRoom armed).Sublist armed
  := by
  unfold makeRoom
  generalize List.range (boundedCount armed + 1 - capacity) = turns
  suffices h : ∀ start : List (Armed α), start.Sublist armed →
      (turns.foldl (fun armed _ => evict armed) start).Sublist armed from
    h armed (List.Sublist.refl armed)
  induction turns with
  | nil => exact fun _ h => h
  | cons _ _ ih => exact fun _ h => ih _ (List.eraseP_sublist.trans h)

theorem weight_apply_le (d : Deadlines (ScriptedTask β)) (c : DeadlineCommand β) :
  weight (d.apply c).armed ≤ weight d.armed + c.weight
  := by
  cases c with
  | arm key delay label commands =>
    simp only [apply, arm, weight_append, DeadlineCommand.weight]
    have h : weight (if key.isBounded
        then makeRoom (d.armed.filter (·.key != key))
        else d.armed.filter (·.key != key)) ≤ weight d.armed := by
      split
      · exact weight_le_of_sublist ((makeRoom_sublist _).trans List.filter_sublist)
      · exact weight_le_of_sublist List.filter_sublist
    have := Nat.add_le_add_right h (DeadlineCommand.weights commands + 1)
    simpa [weight] using this
  | disarm key => exact weight_le_of_sublist List.filter_sublist
  | disarmMatching p => exact weight_le_of_sublist List.filter_sublist
  | disarmAll => simp [apply, weight, DeadlineCommand.weight]

theorem weight_foldl_apply_le (commands : List (DeadlineCommand β))
    (d : Deadlines (ScriptedTask β)) :
  weight (commands.foldl apply d).armed ≤ weight d.armed + DeadlineCommand.weights commands
  := by
  induction commands generalizing d with
  | nil => simp [DeadlineCommand.weights]
  | cons c cs ih =>
    have h := weight_apply_le d c
    have h' := ih (d.apply c)
    simp only [List.foldl_cons, DeadlineCommand.weights]
    omega

theorem first?_mem {α : Type} {armed : List (Armed α)} {e : Armed α}
    (h : first? armed = some e) :
  e ∈ armed
  := by
  induction armed generalizing e with
  | nil => simp [first?] at h
  | cons a rest ih =>
    unfold first? at h
    split at h
    · simp_all
    · rename_i e' h'
      split at h
      · simp_all
      · simp_all

theorem weight_take_lt {d : Deadlines (ScriptedTask β)} {e : Armed (ScriptedTask β)}
    (h : e ∈ d.armed) :
  weight (d.take e).armed + DeadlineCommand.weights e.task.commands < weight d.armed
  := by
  obtain ⟨front, back, parts⟩ := List.append_of_mem h
  have sub : (d.take e).armed.Sublist (front ++ back) := by
    simp only [take, parts, List.filter_append]
    apply List.Sublist.append List.filter_sublist
    simp
  have le := weight_le_of_sublist sub
  rw [parts]
  simp only [weight_append, weight] at *
  omega

/-- Takes every turn up to a time, in order. -/
def runDue (d : Deadlines (ScriptedTask β)) (limit : Nat) :
    List (Turn β) × Deadlines (ScriptedTask β) :=
  match _h : d.next? limit with
  | none => ([], d)
  | some e =>
    let (turns, d') := runDue (e.task.commands.foldl apply (d.take e)) limit
    (⟨e.key, e.task.label, max d.now e.due⟩ :: turns, d')
termination_by weight d.armed
decreasing_by
  have mem : e ∈ d.armed := first?_mem (Option.eq_some_of_filter_eq_some _h)
  have taken := weight_take_lt mem
  have added := weight_foldl_apply_le e.task.commands (d.take e)
  omega

/-- Lets time pass, in milliseconds, and takes every turn that comes. -/
def advance (d : Deadlines (ScriptedTask β)) (ms : Nat) :
    List (Turn β) × Deadlines (ScriptedTask β) :=
  let limit := d.now + ms
  let (turns, d) := d.runDue limit
  (turns, d.moveTo limit)

end Deadlines

end SafetyHub
