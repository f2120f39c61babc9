import SafetyHub.Proofs.Deadline.History

/-!
# The course of a scheduler

A scheduler whose callbacks are scripts takes a legal course: commands are carried out one by one,
and letting time pass wakes the tasks that are due, each of which takes its turn and carries out the
commands of its script.  So what is said of legal histories holds of it.  It does to its deadlines
what `Deadlines` says, where a turn takes a deadline at once.
-/

namespace SafetyHub

variable {α β : Type}

/-! ### Deadlines with other tasks -/

@[simp]
theorem Armed.due_map (f : α → β) (e : Armed α) : (e.map f).due = e.due := rfl

namespace Deadlines

/-- The deadlines with other tasks. -/
def map (f : α → β) (d : Deadlines α) : Deadlines β :=
  { now := d.now, armed := d.armed.map (.map f) }

variable {f : α → β}

theorem boundedCount_map (armed : List (Armed α)) :
  boundedCount (armed.map (.map f)) = boundedCount armed
  := List.countP_map

theorem makeRoom_map (armed : List (Armed α)) :
  makeRoom (armed.map (.map f)) = (makeRoom armed).map (.map f)
  := by
  rw [makeRoom, makeRoom, boundedCount_map]
  generalize List.range (boundedCount armed + 1 - capacity) = times
  induction times generalizing armed with
  | nil => rfl
  | cons _ times ih =>
    rw [List.foldl_cons, List.foldl_cons, ← ih, evict, evict, List.eraseP_map]
    rfl

theorem filter_map_key (armed : List (Armed α)) (p : DeadlineKey → Bool) :
  (armed.map (Armed.map f)).filter (p ·.key) = (armed.filter (p ·.key)).map (.map f)
  := List.filter_map

theorem map_arm (d : Deadlines α) (key : DeadlineKey) (delay : Nat) (task : α) :
  (d.arm key delay task).map f = (d.map f).arm key delay (f task)
  := by
  simp only [arm, map, filter_map_key d.armed (· != key)]
  split
  · rw [makeRoom_map, List.map_append]
    rfl
  · rw [List.map_append]
    rfl

theorem map_disarm (d : Deadlines α) (key : DeadlineKey) :
  (d.disarm key).map f = (d.map f).disarm key
  := by
  simp only [disarm, map, filter_map_key d.armed (· != key)]

theorem map_disarmMatching (d : Deadlines α) (which : DeadlineKey → Bool) :
  (d.disarmMatching which).map f = (d.map f).disarmMatching which
  := by
  simp only [disarmMatching, map, filter_map_key d.armed (!which ·)]

theorem map_take (d : Deadlines α) (e : Armed α) :
  (d.take e).map f = (d.map f).take (e.map f)
  := by
  simp only [take, map, Armed.map, filter_map_key d.armed (· != e.key)]
  rfl

theorem first?_map (armed : List (Armed α)) :
  first? (armed.map (.map f)) = (first? armed).map (.map f)
  := by
  induction armed with
  | nil => rfl
  | cons e rest ih =>
    rw [List.map_cons, first?, first?, ih]
    cases first? rest with
    | none => rfl
    | some e' =>
      by_cases hlt : e'.due < e.due <;> simp [hlt]

theorem next?_map (d : Deadlines α) (limit : Nat) :
  (d.map f).next? limit = (d.next? limit).map (.map f)
  := by
  rw [next?, next?]
  show (first? (d.armed.map (.map f))).filter _ = _
  rw [first?_map]
  cases first? d.armed with
  | none => rfl
  | some e =>
    by_cases hdue : e.due ≤ limit <;> simp [Option.filter_some, hdue]

/-- The deadlines without their numbers. -/
def plain (d : Deadlines (Numbered α)) : Deadlines α := d.map (·.task)

end Deadlines

/-! ### Scripts -/

/-- What a command does. -/
def Happening.ofCommand : DeadlineCommand β → Happening (ScriptedTask β)
  | .arm key delay label commands => .arm key delay ⟨label, commands⟩
  | .disarm key => .disarm key
  | .disarmMatching which => .disarmMatching which
  | .disarmAll => .disarmAll

namespace Scheduler

variable {s : Scheduler (ScriptedTask β)} {t : Armed (Numbered (ScriptedTask β))}
  {history : List (Happening (ScriptedTask β))}

/-- What happens when a task is due: it wakes, takes its turn, and the commands of its script are
carried out. -/
def script (t : Armed (Numbered (ScriptedTask β))) : List (Happening (ScriptedTask β)) :=
  .wake t :: .turn t :: t.task.task.commands.map .ofCommand

/-- A turn that is taken on time. -/
def turnOf (t : Armed (Numbered (ScriptedTask β))) : Turn β :=
  ⟨t.key, t.task.task.label, t.due⟩

theorem Legal.concat {α : Type} {history : List (Happening α)} {x : Happening α}
    (h : Legal history) (hadmits : (after history).Admits x) :
  Legal (history ++ [x])
  := by
  intro j y hy
  obtain hlt | heq := Nat.lt_or_ge j history.length
  · rw [List.getElem?_append_left hlt] at hy
    rw [List.take_append_of_le_length (Nat.le_of_lt hlt)]
    exact h j y hy
  · obtain ⟨hlt, rfl⟩ := List.getElem?_eq_some_iff.mp hy
    obtain rfl : j = history.length := by
      rw [List.length_append, List.length_singleton] at hlt
      omega
    simpa using hadmits

theorem happen_ofCommand (s : Scheduler (ScriptedTask β)) (c : DeadlineCommand β) :
  s.happen (.ofCommand c) = s.apply c
  := by
  cases c <;> rfl

theorem admits_ofCommand (s : Scheduler (ScriptedTask β)) (c : DeadlineCommand β) :
  s.Admits (.ofCommand c)
  := by
  cases c <;> trivial

theorem woken_apply (s : Scheduler (ScriptedTask β)) (c : DeadlineCommand β) :
  (s.apply c).woken = s.woken
  := by
  cases c with
  | arm key delay label commands => exact (Drops.roomFor s key).woken
  | disarm key => exact (Drops.disarm s key).woken
  | disarmMatching which => exact (Drops.foldl_drop s _).woken
  | disarmAll => exact (Drops.foldl_drop s _).woken

theorem Sound.apply (h : s.Sound) (c : DeadlineCommand β) : (s.apply c).Sound := by
  rw [← happen_ofCommand]
  exact h.happen (admits_ofCommand s c)

/-- Commands do to a scheduler what they do to its deadlines. -/
theorem plain_apply (h : s.Sound) (c : DeadlineCommand β) :
  (s.apply c).deadlines.plain = s.deadlines.plain.apply c
  := by
  rw [← happen_ofCommand, (deadlines_happen h.coherent (admits_ofCommand s c)).2]
  cases c with
  | arm key delay label commands => apply Deadlines.map_arm
  | disarm key => apply Deadlines.map_disarm
  | disarmMatching which => apply Deadlines.map_disarmMatching
  | disarmAll => rfl

theorem foldl_apply (h : s.Sound) (commands : List (DeadlineCommand β)) :
  (commands.foldl Scheduler.apply s).Sound ∧ (commands.foldl Scheduler.apply s).woken = s.woken
    ∧ (commands.foldl Scheduler.apply s).deadlines.plain
      = commands.foldl Deadlines.apply s.deadlines.plain
  := by
  induction commands generalizing s with
  | nil => exact ⟨h, rfl, rfl⟩
  | cons c commands ih =>
    obtain ⟨hsound, hwoken, hplain⟩ := ih (h.apply c)
    rw [List.foldl_cons, List.foldl_cons, hplain, hwoken, plain_apply h, woken_apply]
    exact ⟨hsound, rfl, rfl⟩

/-- Commands are always legal. -/
theorem Legal.commands (h : Legal history) (commands : List (DeadlineCommand β)) :
  Legal (history ++ commands.map .ofCommand)
    ∧ after (history ++ commands.map .ofCommand) = commands.foldl apply (after history)
  := by
  induction commands generalizing history with
  | nil => simpa using h
  | cons c commands ih =>
    obtain ⟨hlegal, hafter⟩ := ih (h.concat (admits_ofCommand _ c))
    rw [List.map_cons, List.append_cons, List.foldl_cons, ← happen_ofCommand, ← after_concat]
    exact ⟨hlegal, hafter⟩

/-! ### Letting time pass -/

/-- When no task has woken, all tasks sleep and their deadlines are armed. -/
theorem armed_of_woken_eq_nil (h : s.Coherent) (hwoken : s.woken = []) :
  s.deadlines.armed = s.tasks ∧ s.sleeping = s.tasks
  := by
  constructor
  · apply List.filter_eq_self.mpr
    intro t ht
    rw [List.contains_iff_mem]
    apply h.entry_mem t ht
    simp [hwoken]
  · apply List.filter_eq_self.mpr
    simp [hwoken]

theorem next?_eq (h : s.Coherent) (hwoken : s.woken = []) (limit : Nat) :
  s.next? limit = s.deadlines.next? limit
  := by
  obtain ⟨harmed, hsleeping⟩ := armed_of_woken_eq_nil h hwoken
  rw [next?, Deadlines.next?, harmed, hsleeping]

theorem quiet_of_next?_eq_none (h : s.Coherent) (hwoken : s.woken = []) {limit : Nat}
    (hnone : s.next? limit = none) :
  s.Quiet limit
  := by
  rw [next?_eq h hwoken, Deadlines.next?_eq_none_iff, (armed_of_woken_eq_nil h hwoken).1] at hnone
  exact ⟨hwoken, hnone⟩

/-- What is done for a task that is due while no other has woken: it wakes, it takes its turn, its
callback runs, and its deadline is taken. -/
structure Fires (s : Scheduler α) (t : Armed (Numbered α)) : Prop where
  wakes : s.Admits (.wake t)
  turns : (s.wake t).Admits (.turn t)
  runs : (s.fire t).1 = true
  woken : (s.fire t).2.woken = []
  now : (s.fire t).2.now = t.due
  deadlines : (s.fire t).2.deadlines = s.deadlines.take t

theorem fires_of_next? {s : Scheduler α} {t : Armed (Numbered α)} (h : s.Sound)
    (hwoken : s.woken = []) {limit : Nat} (hsome : s.next? limit = some t) :
  s.Fires t
  := by
  have hfirst : Deadlines.first? s.sleeping = some t := Option.eq_some_of_filter_eq_some hsome
  have htask := mem_tasks_of_next? hsome
  have hwakes : s.Admits (.wake t) := ⟨hfirst, .inl hwoken⟩
  have hawake : (s.wake t).woken = [t.task.number] := by rw [wake, hwoken, List.nil_append]
  have hturns : (s.wake t).Admits (.turn t) := ⟨htask, by rw [hawake, List.head?_cons]⟩
  have hsound : (s.wake t).Sound := h.happen hwakes
  have hin : t.entry ∈ (s.wake t).entries :=
    h.coherent.entry_mem t htask (by rw [hwoken]; exact List.not_mem_nil)
  have hruns := (turn_fst hsound.coherent t).mpr hin
  obtain ⟨hnow, -, hleft, -⟩ := turn_rest (s.wake t) t
  refine ⟨hwakes, hturns, hruns, ?_, ?_, ?_⟩
  · rw [fire, hleft, hawake]
    simp
  · rw [fire, hnow]
    exact Nat.max_eq_right (h.timely.now_le_due t htask)
  · rw [fire, (turn_of_mem hsound.coherent htask hin).2, (wake_eq h.coherent htask).2]
    rfl

theorem runDue_of_none {limit : Nat} (hnone : s.next? limit = none) :
  s.runDue limit = ([], s)
  := by
  rw [runDue, hnone]

theorem runDue_of_fires {limit : Nat} (hsome : s.next? limit = some t) (hfires : s.Fires t) :
  let rest := (t.task.task.commands.foldl apply (s.fire t).2).runDue limit
  s.runDue limit = (turnOf t :: rest.1, rest.2)
  := by
  intro rest
  rw [runDue, hsome]
  dsimp only
  rw [if_pos hfires.runs, hfires.now]
  rfl

/-- The deadlines take the turn of the task that is due. -/
theorem plain_runDue_of_fires {limit : Nat} (h : s.Sound) (hwoken : s.woken = [])
    (hsome : s.next? limit = some t) :
  let rest := (t.task.task.commands.foldl Deadlines.apply (s.deadlines.take t).plain).runDue limit
  s.deadlines.plain.runDue limit = (turnOf t :: rest.1, rest.2)
  := by
  intro rest
  have hdue := h.timely.now_le_due t (mem_tasks_of_next? hsome)
  have hfirst : s.deadlines.plain.next? limit = some (t.map (·.task)) := by
    rw [Deadlines.plain, Deadlines.next?_map, ← next?_eq h.coherent hwoken, hsome]
    rfl
  rw [Deadlines.runDue, hfirst]
  dsimp only
  rw [Deadlines.plain, ← Deadlines.map_take]
  show (Turn.mk t.key t.task.task.label (max s.now t.due) :: rest.1, rest.2) = _
  rw [Nat.max_eq_right hdue]
  rfl

/-- The tasks that are due by a time take a legal course, and their deadlines that of theirs. -/
theorem exists_runDue (h : Legal history) (hwoken : (after history).woken = []) (limit : Nat) :
  ∃ taken : List (Armed (Numbered (ScriptedTask β))),
    let history' := history ++ taken.flatMap script
    Legal history' ∧ (after history').Quiet limit
      ∧ (after history).runDue limit = (taken.map turnOf, after history')
      ∧ (after history).deadlines.plain.runDue limit
        = (taken.map turnOf, (after history').deadlines.plain)
  := by
  generalize hs : after history = s
  induction s using runDue.induct limit generalizing history with
  | case1 s hnone =>
    subst hs
    have hsound := sound_after h
    use []
    have hplain : (after history).deadlines.plain.next? limit = none := by
      rw [Deadlines.plain, Deadlines.next?_map, ← next?_eq hsound.coherent hwoken, hnone]
      rfl
    rw [List.flatMap_nil, List.append_nil, runDue_of_none hnone, Deadlines.runDue, hplain]
    exact ⟨h, quiet_of_next?_eq_none hsound.coherent hwoken hnone, rfl, rfl⟩
  | case2 s t hsome _ _ _ _ ih =>
    subst hs
    have hsound := sound_after h
    have hfires := fires_of_next? hsound hwoken hsome
    have hturn : Legal (history ++ [.wake t] ++ [.turn t]) := by
      apply (h.concat hfires.wakes).concat
      rw [after_concat]
      exact hfires.turns
    have hturned : after (history ++ [.wake t] ++ [.turn t]) = ((after history).fire t).2 := by
      rw [after_concat, after_concat]
      rfl
    obtain ⟨hlegal, hafter⟩ := hturn.commands t.task.task.commands
    rw [hturned] at hafter
    rw [List.append_assoc, List.append_assoc] at hlegal hafter
    obtain ⟨-, hleft, hplain⟩ := foldl_apply (hturned ▸ sound_after hturn) t.task.task.commands
    have hleft : (after (history ++ script t)).woken = [] := hafter ▸ hleft.trans hfires.woken
    obtain ⟨taken, hlegal, hquiet, hrun, hruns⟩ := @ih (history ++ script t) hlegal hleft hafter
    use t :: taken
    rw [List.flatMap_cons, ← List.append_assoc]
    refine ⟨hlegal, hquiet, ?_, ?_⟩
    · rw [runDue_of_fires hsome hfires, hrun]
      rfl
    · rw [plain_runDue_of_fires hsound hwoken hsome, ← hfires.deadlines, ← hplain, hruns]
      rfl
  | case3 s t hsome hrefused _ =>
    subst hs
    exact absurd (fires_of_next? (sound_after h) hwoken hsome).runs hrefused

/-- Letting time pass takes a legal course: the tasks that are due, and then the time. -/
theorem exists_advance (h : Legal history) (hwoken : (after history).woken = []) (ms : Nat) :
  ∃ taken : List (Armed (Numbered (ScriptedTask β))),
    let history' := history ++ taken.flatMap script ++ [.pass ((after history).now + ms)]
    Legal history' ∧ (after history').woken = []
      ∧ (after history).advance ms = (taken.map turnOf, after history')
      ∧ (after history).deadlines.plain.advance ms
        = (taken.map turnOf, (after history').deadlines.plain)
  := by
  obtain ⟨taken, hlegal, hquiet, hrun, hruns⟩ := exists_runDue h hwoken ((after history).now + ms)
  use taken
  have hnow : (after history).deadlines.plain.now = (after history).now := rfl
  intro history'
  have hafter : after history' = (after (history ++ taken.flatMap script)).moveTo _ :=
    after_concat _ _
  rw [advance, Deadlines.advance, hnow, hrun, hruns, hafter]
  exact ⟨hlegal.concat hquiet, hquiet.woken, rfl, rfl⟩

theorem legal_ofCommand (h : Legal history) (hwoken : (after history).woken = [])
    (c : DeadlineCommand β) :
  Legal (history ++ [.ofCommand c]) ∧ after (history ++ [.ofCommand c]) = (after history).apply c
    ∧ ((after history).apply c).woken = []
    ∧ ((after history).apply c).deadlines.plain = (after history).deadlines.plain.apply c
  := by
  obtain ⟨hlegal, hafter⟩ := h.commands [c]
  exact ⟨hlegal, hafter, (woken_apply _ c).trans hwoken, plain_apply (sound_after h) c⟩

/-! ### Arming -/

/-- The entry of a key is that of its latest arming. -/
theorem latest_of_mem {history : List (Happening α)} {e : DeadlineEntry} (h : Legal history)
    (he : e ∈ (after history).entries) :
  ∃ i t, ArmedAt history i t ∧ t.entry = e
    ∧ ∀ i' t', ArmedAt history i' t' → t'.key = e.key → i' ≤ i
  := by
  obtain ⟨t, ht, rfl⟩ := (sound_after h).coherent.exists_task he
  rw [← List.take_length (l := history)] at ht
  obtain ⟨i, hwaits⟩ := (mem_armed_take_iff h).mp ht
  refine ⟨i, t, hwaits.armedAt, rfl, ?_⟩
  intro i' t' harmed hkey
  by_contra hlater
  have hlt : i' < history.length := (List.getElem?_eq_some_iff.mp harmed.arm).1
  have hkept := hwaits.undisturbed i' (Nat.not_le.mp hlater) hlt _ harmed.arm
  exact hkept.1 (.inl hkey)

/-- The entries after an arming are the new one and those of the deadlines that are kept. -/
theorem mem_entries_arm_iff {s : Scheduler α} (h : s.Coherent) {key : DeadlineKey} {delay : Nat}
    {task : α} {P : DeadlineEntry → Prop}
    (hmem : ∀ t, t ∈ (s.arm key delay task).deadlines.armed
      ↔ t = ⟨key, s.now, delay, ⟨s.generation + 1, task⟩⟩
        ∨ t ∈ s.deadlines.armed ∧ P t.entry) (e : DeadlineEntry) :
  e ∈ (s.arm key delay task).entries ↔ e = ⟨key, s.generation + 1⟩ ∨ e ∈ s.entries ∧ P e
  := by
  rw [(arm_eq h key delay task).1.entries_eq, List.mem_map]
  constructor
  · rintro ⟨t, ht, rfl⟩
    obtain rfl | ⟨ht, hstays⟩ := (hmem t).mp ht
    · exact .inl rfl
    · exact .inr ⟨(mem_armed_iff.mp ht).2, hstays⟩
  · rintro (rfl | ⟨he, hstays⟩)
    · exact ⟨_, (hmem _).mpr (.inl rfl), rfl⟩
    · obtain ⟨t, ht, rfl⟩ := h.exists_task he
      exact ⟨t, (hmem t).mpr (.inr ⟨ht, hstays⟩), rfl⟩

/-- Arming a key that counts, when there is no room, evicts the oldest entry that counts. -/
theorem mem_entries_arm_of_full {s : Scheduler α} (h : s.Coherent) {key : DeadlineKey}
    (hbounded : key.isBounded = true) (hunarmed : s.isArmed key = false)
    (hfull : s.boundedCount = Deadlines.capacity) (delay : Nat) (task : α) :
  ∃ oldest ∈ s.entries, oldest.key.isBounded = true
    ∧ (∀ e ∈ s.entries, e.key.isBounded = true → e ≠ oldest → oldest.number < e.number)
    ∧ ∀ e, e ∈ (s.arm key delay task).entries
        ↔ e = ⟨key, s.generation + 1⟩ ∨ e ∈ s.entries ∧ e ≠ oldest
  := by
  rw [isArmed_eq h] at hunarmed
  rw [boundedCount_eq h] at hfull
  obtain ⟨t, ht, hcounts, holdest, hmem⟩ := Deadlines.mem_arm_of_full h.ordered hbounded hunarmed
    hfull delay (Numbered.mk (s.generation + 1) task)
  refine ⟨t.entry, (mem_armed_iff.mp ht).2, hcounts, ?_, ?_⟩
  · intro e he hcounts' hne
    obtain ⟨t', ht', rfl⟩ := h.exists_task he
    apply holdest t' ht' hcounts'
    rintro rfl
    exact hne rfl
  · apply mem_entries_arm_iff h
    intro t'
    rw [(arm_eq h key delay task).2, hmem]
    apply or_congr_right
    apply and_congr_right
    intro ht'
    apply not_congr ⟨congrArg _, ?_⟩
    intro hentry
    exact h.eq_of_number (mem_armed_iff.mp ht').1 (mem_armed_iff.mp ht).1
      (congrArg (·.number) hentry)

/-- Arming any other key removes nothing but its entry. -/
theorem mem_entries_arm_of_room {s : Scheduler α} (h : s.Coherent) {key : DeadlineKey}
    (hroom : key.isBounded = false ∨ s.isArmed key = true ∨ s.boundedCount < Deadlines.capacity)
    (delay : Nat) (task : α) (e : DeadlineEntry) :
  e ∈ (s.arm key delay task).entries
    ↔ e = ⟨key, s.generation + 1⟩ ∨ e ∈ s.entries ∧ e.key ≠ key
  := by
  rw [isArmed_eq h, boundedCount_eq h] at hroom
  apply mem_entries_arm_iff (P := (·.key ≠ key)) h
  intro t
  rw [(arm_eq h key delay task).2]
  apply Deadlines.mem_arm_of_room h.ordered hroom

/-- The course of a scheduler over a legal history.  No more refresh and action deadlines than the
capacity are armed.  The number of an arming counts the armings up to it, and the entry of a key
is that of its latest arming.  Arming a key that counts and is not armed, when as many are as the
capacity, drops the one of them that was armed first and nothing else; arming any other key drops
nothing but what it replaces.  Those of issues that come back and of saving are never evicted.  A
callback runs only for an arming, at most once, and not before the delay has elapsed; and once time
has passed the deadline, it has run if and only if the deadline was not cancelled before, by arming
its key again, by dropping it or by an eviction.  While no task has woken, commands and the passing
of time continue a legal history, and do to the deadlines that are armed what `Deadlines` says. -/
theorem course_of_deadlines (history : List (Happening (ScriptedTask β)))
    (hlegal : Legal history) :
  let s := after history
  s.boundedCount ≤ Deadlines.capacity
    ∧ s.generation = history.countP (·.arms)
    ∧ (∀ e ∈ s.entries, ∃ i t, ArmedAt history i t ∧ t.entry = e
        ∧ ∀ i' t', ArmedAt history i' t' → t'.key = e.key → i' ≤ i)
    ∧ (∀ key delay task,
        let new : DeadlineEntry := ⟨key, s.generation + 1⟩
        let s' := after (history ++ [.arm key delay task])
        (key.isBounded = true ∧ s.isArmed key = false ∧ s.boundedCount = Deadlines.capacity →
            ∃ oldest ∈ s.entries, oldest.key.isBounded = true
              ∧ (∀ e ∈ s.entries, e.key.isBounded = true → e ≠ oldest → oldest.number < e.number)
              ∧ ∀ e, e ∈ s'.entries ↔ e = new ∨ e ∈ s.entries ∧ e ≠ oldest)
          ∧ (key.isBounded = false ∨ s.isArmed key = true
                ∨ s.boundedCount < Deadlines.capacity →
              ∀ e, e ∈ s'.entries ↔ e = new ∨ e ∈ s.entries ∧ e.key ≠ key))
    ∧ (∀ key e, s.Evicts key e → e.key ≠ .resurface ∧ e.key ≠ .persistWrite)
    ∧ (∀ j t, RunsAt history j t → ∃ i, ArmedAt history i t)
    ∧ (∀ i t, ArmedAt history i t →
        (∀ j j', RunsAt history j t → RunsAt history j' t → j = j')
          ∧ (∀ j, RunsAt history j t → i < j
              ∧ t.armedAt * Instant.millisecond + t.delay
                ≤ (after (history.take (j + 1))).now * Instant.millisecond)
          ∧ (t.due < s.now ∨ t.due ≤ s.now ∧ s.Quiet s.now →
              ((∃ j, RunsAt history j t) ↔ ¬ CancelledIn history i t)))
    ∧ (s.woken = [] →
        (∀ c, Legal (history ++ [.ofCommand c]) ∧ after (history ++ [.ofCommand c]) = s.apply c
            ∧ (s.apply c).woken = [] ∧ (s.apply c).deadlines.plain = s.deadlines.plain.apply c)
          ∧ ∀ ms, ∃ taken : List (Armed (Numbered (ScriptedTask β))),
              let history' := history ++ taken.flatMap script ++ [.pass (s.now + ms)]
              Legal history' ∧ (after history').woken = []
                ∧ s.advance ms = (taken.map turnOf, after history')
                ∧ s.deadlines.plain.advance ms
                  = (taken.map turnOf, (after history').deadlines.plain))
  := by
  intro s
  have hcoherent : s.Coherent := (sound_after hlegal).coherent
  refine ⟨?room, generation_after history, fun e he => latest_of_mem hlegal he, ?arming,
    fun key e hevicts => hevicts.ne_unbounded, ?armed, ?runs,
    fun hwoken => ⟨legal_ofCommand hlegal hwoken, exists_advance hlegal hwoken⟩⟩
  case room =>
    rw [boundedCount_eq hcoherent]
    exact hcoherent.ordered.room
  case arming =>
    intro key delay task new s'
    have hs' : s' = s.arm key delay task := after_concat _ _
    rw [hs']
    constructor
    · rintro ⟨hbounded, hunarmed, hfull⟩
      exact mem_entries_arm_of_full hcoherent hbounded hunarmed hfull delay task
    · intro hroom
      exact mem_entries_arm_of_room hcoherent hroom delay task
  case armed =>
    intro j t hruns
    obtain ⟨i, hwaits⟩ := (runsAt_iff hlegal hruns.1).mp hruns
    exact ⟨i, hwaits.armedAt⟩
  case runs =>
    intro i t harmed
    refine ⟨fun j j' => RunsAt.unique hlegal, ?_, exists_runsAt_iff hlegal harmed⟩
    intro j hruns
    rw [now_of_turn hlegal hruns.1]
    exact ⟨(hruns.waits hlegal harmed).lt, Deadlines.delay_le_due t⟩

namespace Sample

/-- The task of a deadline that is armed twice, from its first arming. -/
def first : Armed (Numbered (ScriptedTask Unit)) := ⟨.resurface, 0, 1000000, ⟨1, ⟨(), []⟩⟩⟩

/-- The task of the second arming. -/
def second : Armed (Numbered (ScriptedTask Unit)) := ⟨.resurface, 1, 2000000, ⟨2, ⟨(), []⟩⟩⟩

/-- The deadline is armed again after its first task has woken, and before that takes its turn. -/
def rearmed : List (Happening (ScriptedTask Unit)) :=
  [.arm .resurface 1000000 ⟨(), []⟩, .wake first, .arm .resurface 2000000 ⟨(), []⟩, .turn first,
    .wake second, .turn second]

end Sample

/-- A task that has woken when its deadline is armed again finds another number, and its callback
does not run; that of the second task does. -/
theorem course_of_two_armings :
  Legal Sample.rearmed ∧ CancelledIn Sample.rearmed 0 Sample.first
    ∧ (∀ j, ¬ RunsAt Sample.rearmed j Sample.first)
    ∧ RunsAt Sample.rearmed 5 Sample.second ∧ ¬ CancelledIn Sample.rearmed 2 Sample.second
  := by
  have hlegal : Legal Sample.rearmed := by
    intro j x hx
    match j with
    | 0 | 2 =>
      cases hx
      trivial
    | 1 | 4 =>
      cases hx
      exact ⟨rfl, .inl rfl⟩
    | 3 | 5 =>
      cases hx
      exact ⟨List.mem_cons_self, rfl⟩
    | j + 6 => cases hx
  obtain ⟨-, -, -, -, -, -, hruns, -⟩ := course_of_deadlines Sample.rearmed hlegal
  obtain ⟨-, -, hfirst⟩ := hruns 0 Sample.first ⟨rfl, rfl, rfl⟩
  obtain ⟨-, -, hsecond⟩ := hruns 2 Sample.second ⟨rfl, rfl, rfl⟩
  have hcancelled : CancelledIn Sample.rearmed 0 Sample.first :=
    ⟨2, _, by decide, rfl, .inl rfl, by simp [Sample.rearmed], by decide⟩
  have hrun : RunsAt Sample.rearmed 5 Sample.second := ⟨rfl, rfl⟩
  refine ⟨hlegal, hcancelled, ?_, hrun, ?_⟩
  · intro j hj
    exact (hfirst (.inl (by decide))).mp ⟨j, hj⟩ hcancelled
  · exact (hsecond (.inr ⟨by decide, rfl, by rintro t ⟨⟩⟩)).mp ⟨5, hrun⟩

end Scheduler

end SafetyHub
