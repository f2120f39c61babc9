import SafetyHub.Proofs.Deadline.Scheduling
import Mathlib.Data.List.Induction

/-!
# Histories of a scheduler

A history lists what happens to a scheduler: deadlines are armed and dropped, also by callbacks,
tasks wake and take their turns, and time passes.  It is legal if tasks wake in the order in which
they are due, take their turns in the order of waking, and are not passed over.

What is armed is read off the history (`mem_armed_take_iff`): a deadline is armed as long as it has
not been cancelled, that is armed again, dropped or evicted, and its task has not taken its turn.
So the number of an arming tells a task apart from one that replaced it, and a task that takes its
turn runs its callback just if its deadline has not been cancelled.
-/

namespace SafetyHub

/-- What happens to a scheduler. -/
inductive Happening (α : Type) where
  /-- A deadline is armed after a delay in nanoseconds. -/
  | arm (key : DeadlineKey) (delay : Nat) (task : α)
  | disarm (key : DeadlineKey)
  | disarmMatching (which : DeadlineKey → Bool)
  | disarmAll
  | wake (t : Armed (Numbered α))
  /-- A task that has woken takes its turn. -/
  | turn (t : Armed (Numbered α))
  | pass (time : Nat)

/-- Whether a deadline is armed. -/
def Happening.arms {α : Type} : Happening α → Bool
  | .arm _ _ _ => true
  | _ => false

namespace Scheduler

variable {α : Type} {s s' : Scheduler α} {t t' : Armed (Numbered α)} {x : Happening α}
  {history : List (Happening α)} {key : DeadlineKey} {i j : Nat}

/-! ### What happens -/

/-- The scheduler after something happens. -/
def happen (s : Scheduler α) : Happening α → Scheduler α
  | .arm key delay task => s.arm key delay task
  | .disarm key => (s.disarm key).2
  | .disarmMatching which => (s.disarmMatching which).2
  | .disarmAll => s.disarmAll
  | .wake t => s.wake t
  | .turn t => (s.turn t).2
  | .pass time => s.moveTo time

/-- No task has woken, and none wakes by a time. -/
structure Quiet (s : Scheduler α) (time : Nat) : Prop where
  woken : s.woken = []
  lt_due : ∀ t ∈ s.tasks, time < t.due

/-- Whether something can happen.  Of the tasks that sleep the one wakes that is due first, and, as
long as others have woken and not ended, only if it is due by now.  The one that woke first takes
its turn.  Time passes no task over. -/
def Admits (s : Scheduler α) : Happening α → Prop
  | .wake t => Deadlines.first? s.sleeping = some t ∧ (s.woken = [] ∨ t.due ≤ s.now)
  | .turn t => t ∈ s.tasks ∧ s.woken.head? = some t.task.number
  | .pass time => s.Quiet time
  | _ => True

/-- Arming a key evicts an entry: the key counts toward the capacity and is not armed, as many
entries that count are there as the capacity, and of those the one has the least number. -/
structure Evicts (s : Scheduler α) (key : DeadlineKey) (e : DeadlineEntry) : Prop where
  isBounded : key.isBounded = true
  unarmed : s.isArmed key = false
  full : s.boundedCount = Deadlines.capacity
  mem : e ∈ s.entries
  counts : e.key.isBounded = true
  oldest : ∀ e' ∈ s.entries, e'.key.isBounded = true → e' ≠ e → e.number < e'.number

/-- A deadline is cancelled: its key is armed again or dropped, or another one evicts it. -/
def Cancels (s : Scheduler α) (t : Armed (Numbered α)) : Happening α → Prop
  | .arm key _ _ => key = t.key ∨ s.Evicts key t.entry
  | .disarm key => key = t.key
  | .disarmMatching which => which t.key = true
  | .disarmAll => True
  | .wake _ | .turn _ | .pass _ => False

/-- The scheduler after a history. -/
def after (history : List (Happening α)) : Scheduler α :=
  history.foldl happen {}

/-- Everything that happens in a history can happen. -/
def Legal (history : List (Happening α)) : Prop :=
  ∀ j x, history[j]? = some x → (after (history.take j)).Admits x

/-- A task is spawned at a position of a history, which arms its deadline. -/
structure ArmedAt (history : List (Happening α)) (i : Nat) (t : Armed (Numbered α)) : Prop where
  arm : history[i]? = some (.arm t.key t.delay t.task.task)
  armedAt : t.armedAt = (after (history.take i)).now
  number : t.task.number = (after (history.take i)).generation + 1

/-- A task takes its turn at a position of a history, and its callback runs. -/
def RunsAt (history : List (Happening α)) (j : Nat) (t : Armed (Numbered α)) : Prop :=
  history[j]? = some (.turn t) ∧ ((after (history.take j)).turn t).1 = true

/-- A deadline that is armed at a position is cancelled later, before its task takes its turn and
before time passes it. -/
def CancelledIn (history : List (Happening α)) (i : Nat) (t : Armed (Numbered α)) : Prop :=
  ∃ j x, i < j ∧ history[j]? = some x ∧ (after (history.take j)).Cancels t x
    ∧ .turn t ∉ history.take j ∧ (after (history.take j)).now ≤ t.due

/-! ### Eviction -/

theorem evicts_iff (h : s.Coherent) (ht : t ∈ s.deadlines.armed) :
  s.Evicts key t.entry ↔ s.deadlines.Evicts key t
  := by
  constructor
  · rintro ⟨hbounded, hunarmed, hfull, -, hcounts, holdest⟩
    rw [isArmed_eq h] at hunarmed
    rw [boundedCount_eq h] at hfull
    refine ⟨hbounded, hunarmed, hfull, Deadlines.mem_bounded_iff.mpr ⟨ht, hcounts⟩, ?_⟩
    intro t' ht' hne
    obtain ⟨ht', hcounts'⟩ := Deadlines.mem_bounded_iff.mp ht'
    obtain ⟨htask, hin⟩ := mem_armed_iff.mp ht'
    apply holdest t'.entry hin hcounts'
    intro hentry
    exact hne (h.eq_of_number htask (mem_armed_iff.mp ht).1 (congrArg (·.number) hentry))
  · rintro ⟨hbounded, hunarmed, hfull, hmem, holdest⟩
    rw [← isArmed_eq h] at hunarmed
    rw [← boundedCount_eq h] at hfull
    have hcounts := (Deadlines.mem_bounded_iff.mp hmem).2
    refine ⟨hbounded, hunarmed, hfull, (mem_armed_iff.mp ht).2, hcounts, ?_⟩
    intro e' he' hcounts' hne
    obtain ⟨t', ht', rfl⟩ := h.exists_task he'
    apply holdest t' (Deadlines.mem_bounded_iff.mpr ⟨ht', hcounts'⟩)
    rintro rfl
    exact hne rfl

/-- What does not count is never evicted. -/
theorem Evicts.ne_unbounded {e : DeadlineEntry} (h : s.Evicts key e) :
  e.key ≠ .resurface ∧ e.key ≠ .persistWrite
  := by
  have hcounts := h.counts
  constructor
  all_goals
    intro heq
    rw [heq] at hcounts
    cases hcounts

/-! ### One step -/

theorem mem_tasks_of_admits_wake (hadmits : s.Admits (.wake t)) : t ∈ s.tasks :=
  (List.mem_filter.mp (Deadlines.first?_mem hadmits.1)).1

/-- A scheduler does to the deadlines that are armed what it is told to: a task that wakes moves the
time on, and one that takes its turn takes its deadline if its callback runs. -/
theorem deadlines_happen (h : s.Coherent) (hadmits : s.Admits x) :
  (s.happen x).Coherent ∧ (s.happen x).deadlines = match x with
    | .arm key delay task => s.deadlines.arm key delay ⟨s.generation + 1, task⟩
    | .disarm key => s.deadlines.disarm key
    | .disarmMatching which => s.deadlines.disarmMatching which
    | .disarmAll => { now := s.now, armed := [] }
    | .wake t => s.deadlines.moveTo t.due
    | .turn t => if (s.turn t).1 then s.deadlines.disarm t.key else s.deadlines
    | .pass time => s.deadlines.moveTo time
  := by
  cases x with
  | arm key delay task => exact arm_eq h key delay task
  | disarm key => exact disarm_snd h key
  | disarmMatching which => exact disarmMatching_snd h which
  | disarmAll => exact disarmAll_eq h
  | wake t => exact wake_eq h (mem_tasks_of_admits_wake hadmits)
  | turn t =>
    dsimp only
    split
    next hruns => exact turn_of_mem h hadmits.1 ((turn_fst h t).mp hruns)
    next hrefused =>
      apply turn_of_not_mem h hadmits.1
      intro hin
      exact hrefused ((turn_fst h t).mpr hin)
  | pass time =>
    exact ⟨⟨h.ascending, h.le_generation, h.entries_eq, h.ordered.moveTo time, h.entry_mem,
      h.exists_woken⟩, rfl⟩

/-- What is armed after something happens is what it arms, and what it neither cancels nor is the
turn of. -/
theorem mem_happen_iff (h : s.Coherent) (hadmits : s.Admits x) :
  t ∈ (s.happen x).deadlines.armed
    ↔ (x = .arm t.key t.delay t.task.task ∧ t.armedAt = s.now
        ∧ t.task.number = s.generation + 1)
      ∨ t ∈ s.deadlines.armed ∧ ¬ s.Cancels t x ∧ x ≠ .turn t
  := by
  rw [(deadlines_happen h hadmits).2]
  cases x with
  | arm key delay task =>
    have hevicts (ht : t ∈ s.deadlines.armed) : s.Evicts key t.entry ↔ s.deadlines.Evicts key t :=
      evicts_iff h ht
    have hnow : s.deadlines.now = s.now := rfl
    obtain ⟨ownKey, armedAt, ownDelay, ownNumber, ownTask⟩ := t
    rw [Deadlines.mem_arm_iff h.ordered, hnow]
    simp only [Armed.mk.injEq, Numbered.mk.injEq, Happening.arm.injEq, Cancels]
    grind
  | disarm key => simp [Deadlines.disarm, Cancels, eq_comm (a := key)]
  | disarmMatching which => simp [Deadlines.disarmMatching, Cancels]
  | disarmAll => simp [Cancels]
  | wake t' => simp [Deadlines.moveTo, Cancels]
  | turn t' =>
    have hruns := turn_fst h t'
    have heq (ht : t ∈ s.deadlines.armed) (hin : t'.entry ∈ s.entries) :
        t.key = t'.key ↔ t' = t := by
      constructor
      · intro hkey
        exact (h.ordered.eq_of_key_eq ht (mem_armed_iff.mpr ⟨hadmits.1, hin⟩) hkey).symm
      · rintro rfl
        rfl
    have hin (ht : t ∈ s.deadlines.armed) : t' = t → t'.entry ∈ s.entries := by
      rintro rfl
      exact (mem_armed_iff.mp ht).2
    simp only [Cancels, Deadlines.disarm]
    grind
  | pass time => simp [Deadlines.moveTo, Cancels]

theorem generation_happen (s : Scheduler α) (x : Happening α) :
  (s.happen x).generation = s.generation + if x.arms then 1 else 0
  := by
  cases x with
  | arm key delay task => exact congrArg (· + 1) (Drops.roomFor s key).generation
  | disarm key => exact (Drops.disarm s key).generation
  | disarmMatching which => exact (Drops.foldl_drop s _).generation
  | disarmAll => exact (Drops.foldl_drop s _).generation
  | wake t | pass time => rfl
  | turn t => exact (turn_rest s t).2.1

/-! ### Time -/

/-- No task is overdue: none is due before now, and those that have woken are due now. -/
structure Timely (s : Scheduler α) : Prop where
  now_le_due : ∀ t ∈ s.tasks, s.now ≤ t.due
  due_le_now : ∀ t ∈ s.tasks, t.task.number ∈ s.woken → t.due ≤ s.now

namespace Timely

theorem drops (h : s.Timely) (hdrops : s.Drops s') : s'.Timely where
  now_le_due t ht := by
    rw [hdrops.now]
    exact h.now_le_due t (hdrops.tasks.subset ht)
  due_le_now t ht hwoken := by
    rw [hdrops.woken] at hwoken
    rw [hdrops.now]
    exact h.due_le_now t (hdrops.tasks.subset ht) hwoken

theorem arm (h : s.Timely) (hcoherent : s.Coherent) (key : DeadlineKey) (delay : Nat) (task : α) :
  (s.arm key delay task).Timely
  := by
  have hdrops := Drops.roomFor s key
  have hleft := h.drops hdrops
  constructor
  · intro t ht
    obtain ht | ht := List.mem_append.mp ht
    · exact hleft.now_le_due t ht
    · rw [List.mem_singleton.mp ht]
      apply Nat.le_add_right
  · intro t ht hwoken
    obtain ht | ht := List.mem_append.mp ht
    · exact hleft.due_le_now t ht hwoken
    · -- A task that has woken has been armed before.
      obtain ⟨hleft, -⟩ := roomFor_eq hcoherent key
      obtain ⟨t', ht', hnumber⟩ := hleft.exists_woken _ hwoken
      have hle := hleft.le_generation t' ht'
      rw [hnumber, List.mem_singleton.mp ht] at hle
      exact absurd hle (Nat.not_succ_le_self _)

theorem wake (h : s.Timely) (hcoherent : s.Coherent) (hadmits : s.Admits (.wake t)) :
  (s.wake t).Timely
  where
  now_le_due t' ht' := by
    apply Nat.max_le.mpr ⟨h.now_le_due t' ht', ?_⟩
    obtain ⟨hfirst, hwoken | hdue⟩ := hadmits
    · apply Deadlines.due_le_of_first? hfirst
      rw [sleeping, hwoken]
      exact List.mem_filter.mpr ⟨ht', rfl⟩
    · exact Nat.le_trans hdue (h.now_le_due t' ht')
  due_le_now t' ht' hwoken := by
    obtain hwoken | hwoken := List.mem_append.mp hwoken
    · exact Nat.le_trans (h.due_le_now t' ht' hwoken) (Nat.le_max_left _ _)
    · have ht := mem_tasks_of_admits_wake hadmits
      rw [hcoherent.eq_of_number ht' ht (List.mem_singleton.mp hwoken)]
      apply Nat.le_max_right

theorem turn (h : s.Timely) (t : Armed (Numbered α)) : (s.turn t).2.Timely := by
  obtain ⟨hnow, -, hwoken, htasks⟩ := turn_rest s t
  constructor
  · intro t' ht'
    rw [htasks] at ht'
    rw [hnow]
    exact h.now_le_due t' (List.mem_filter.mp ht').1
  · intro t' ht' hin
    rw [htasks] at ht'
    rw [hwoken] at hin
    rw [hnow]
    exact h.due_le_now t' (List.mem_filter.mp ht').1 (List.mem_filter.mp hin).1

theorem happen (h : s.Timely) (hcoherent : s.Coherent) (hadmits : s.Admits x) :
  (s.happen x).Timely
  := by
  cases x with
  | arm key delay task => exact h.arm hcoherent key delay task
  | disarm key => exact h.drops (.disarm s key)
  | disarmMatching which => exact h.drops (.foldl_drop s _)
  | disarmAll => exact h.drops (.foldl_drop s _)
  | wake t => exact h.wake hcoherent hadmits
  | turn t => exact h.turn t
  | pass time =>
    constructor
    · intro t ht
      exact Nat.max_le.mpr ⟨h.now_le_due t ht, Nat.le_of_lt (hadmits.lt_due t ht)⟩
    · intro t _ hwoken
      replace hwoken : t.task.number ∈ s.woken := hwoken
      rw [hadmits.woken] at hwoken
      cases hwoken

end Timely

/-! ### Histories -/

theorem after_concat (history : List (Happening α)) (x : Happening α) :
  after (history ++ [x]) = (after history).happen x
  := by
  simp [after, List.foldl_append]

theorem after_take_succ (h : history[j]? = some x) :
  after (history.take (j + 1)) = (after (history.take j)).happen x
  := by
  obtain ⟨hlt, rfl⟩ := List.getElem?_eq_some_iff.mp h
  rw [List.take_succ_eq_append_getElem hlt, after_concat]

theorem take_succ_of_none (h : history[j]? = none) : history.take (j + 1) = history.take j := by
  rw [List.take_add_one, h]
  simp

/-- The number of the latest arming counts the armings. -/
theorem generation_after (history : List (Happening α)) :
  (after history).generation = history.countP (·.arms)
  := by
  induction history using List.reverseRecOn with
  | nil => rfl
  | append_singleton history x ih =>
    rw [after_concat, generation_happen, ih, List.countP_append, List.countP_singleton]

/-- What holds of a scheduler over a legal history. -/
structure Sound (s : Scheduler α) : Prop where
  coherent : s.Coherent
  timely : s.Timely

theorem Sound.happen (h : s.Sound) (hadmits : s.Admits x) : (s.happen x).Sound where
  coherent := (deadlines_happen h.coherent hadmits).1
  timely := h.timely.happen h.coherent hadmits

theorem sound_take (hlegal : Legal history) (j : Nat) : (after (history.take j)).Sound := by
  induction j with
  | zero => exact ⟨.initial, by rintro t ⟨⟩, by rintro t ⟨⟩⟩
  | succ j ih =>
    cases hx : history[j]? with
    | none => rwa [take_succ_of_none hx]
    | some x =>
      rw [after_take_succ hx]
      exact ih.happen (hlegal j x hx)

theorem sound_after (hlegal : Legal history) : (after history).Sound := by
  have hsound := sound_take hlegal history.length
  rwa [List.take_length] at hsound

theorem generation_take_mono (history : List (Happening α)) (hle : i ≤ j) :
  (after (history.take i)).generation ≤ (after (history.take j)).generation
  := by
  rw [generation_after, generation_after]
  exact (List.take_sublist_take_left hle).countP_le

theorem ArmedAt.lt_of_mem (hlegal : Legal history) (h : ArmedAt history i t)
    (ht : t ∈ (after (history.take j)).tasks) :
  i < j
  := by
  by_contra hle
  have hnumber := (sound_take hlegal j).coherent.le_generation t ht
  have hmono := generation_take_mono history (Nat.not_lt.mp hle)
  rw [h.number] at hnumber
  omega

/-- The numbers of armings tell their positions apart. -/
theorem ArmedAt.eq (h : ArmedAt history i t) (h' : ArmedAt history j t')
    (hnumber : t.task.number = t'.task.number) :
  i = j
  := by
  have wlog {i j : Nat} {t t' : Armed (Numbered α)} (h : ArmedAt history i t)
      (h' : ArmedAt history j t') (hnumber : t.task.number = t'.task.number) : ¬ i < j := by
    intro hlt
    have hgrows := generation_take_mono history (Nat.succ_le_of_lt hlt)
    rw [Nat.succ_eq_add_one, after_take_succ h.arm, generation_happen] at hgrows
    rw [h.number, h'.number] at hnumber
    simp only [Happening.arms, if_true] at hgrows
    omega
  exact Nat.le_antisymm (Nat.not_lt.mp (wlog h' h hnumber.symm)) (Nat.not_lt.mp (wlog h h' hnumber))

/-- A deadline has been armed before a position, and neither has it been cancelled since nor has
its task taken its turn. -/
structure Waits (history : List (Happening α)) (i : Nat) (t : Armed (Numbered α)) (j : Nat) :
    Prop where
  armedAt : ArmedAt history i t
  lt : i < j
  undisturbed : ∀ k, i < k → k < j → ∀ x, history[k]? = some x →
    ¬ (after (history.take k)).Cancels t x ∧ x ≠ .turn t

theorem waits_succ_iff (hx : history[j]? = some x) :
  Waits history i t (j + 1)
    ↔ (ArmedAt history i t ∧ i = j)
      ∨ Waits history i t j ∧ ¬ (after (history.take j)).Cancels t x ∧ x ≠ .turn t
  := by
  constructor
  · rintro ⟨harmed, hlt, hundisturbed⟩
    obtain hlt | heq := Nat.lt_succ_iff_lt_or_eq.mp hlt
    · right
      refine ⟨⟨harmed, hlt, ?_⟩, hundisturbed j hlt (Nat.lt_succ_self j) x hx⟩
      intro k hk hkj
      exact hundisturbed k hk (Nat.lt_succ_of_lt hkj)
    · exact .inl ⟨harmed, heq⟩
  · rintro (⟨harmed, rfl⟩ | ⟨⟨harmed, hlt, hundisturbed⟩, hkeeps⟩)
    · exact ⟨harmed, Nat.lt_succ_self _, fun k hk hkj => by omega⟩
    · refine ⟨harmed, Nat.lt_succ_of_lt hlt, ?_⟩
      intro k hk hkj y hy
      obtain hkj | rfl := Nat.lt_succ_iff_lt_or_eq.mp hkj
      · exact hundisturbed k hk hkj y hy
      · cases hx.symm.trans hy
        exact hkeeps

theorem waits_succ_iff_of_none (hnone : history[j]? = none) :
  Waits history i t (j + 1) ↔ Waits history i t j
  := by
  constructor
  · rintro ⟨harmed, hlt, hundisturbed⟩
    refine ⟨harmed, ?_, fun k hk hkj => hundisturbed k hk (Nat.lt_succ_of_lt hkj)⟩
    obtain hlt | rfl := Nat.lt_succ_iff_lt_or_eq.mp hlt
    · exact hlt
    · cases hnone.symm.trans harmed.arm
  · rintro ⟨harmed, hlt, hundisturbed⟩
    refine ⟨harmed, Nat.lt_succ_of_lt hlt, ?_⟩
    intro k hk hkj y hy
    obtain hkj | rfl := Nat.lt_succ_iff_lt_or_eq.mp hkj
    · exact hundisturbed k hk hkj y hy
    · cases hnone.symm.trans hy

/-- What is armed at a position of a legal history are the deadlines that wait there. -/
theorem mem_armed_take_iff (hlegal : Legal history) :
  t ∈ (after (history.take j)).deadlines.armed ↔ ∃ i, Waits history i t j
  := by
  induction j with
  | zero =>
    constructor
    · rintro ⟨⟩
    · rintro ⟨i, -, ⟨⟩, -⟩
  | succ j ih =>
    cases hx : history[j]? with
    | none =>
      rw [take_succ_of_none hx, ih]
      exact exists_congr fun i => (waits_succ_iff_of_none hx).symm
    | some x =>
      rw [after_take_succ hx, mem_happen_iff (sound_take hlegal j).coherent (hlegal j x hx), ih]
      simp only [waits_succ_iff hx, exists_or, exists_and_right]
      apply or_congr_left
      constructor
      · rintro ⟨rfl, harmedAt, hnumber⟩
        exact ⟨j, ⟨hx, harmedAt, hnumber⟩, rfl⟩
      · rintro ⟨i, ⟨harm, harmedAt, hnumber⟩, rfl⟩
        exact ⟨Option.some_inj.mp (hx.symm.trans harm), harmedAt, hnumber⟩

/-! ### Turns -/

/-- The callback of a task runs at its turn if and only if its deadline waits there. -/
theorem runsAt_iff (hlegal : Legal history) (hturn : history[j]? = some (.turn t)) :
  RunsAt history j t ↔ ∃ i, Waits history i t j
  := by
  have htask : t ∈ (after (history.take j)).tasks := (hlegal j _ hturn).1
  rw [← mem_armed_take_iff hlegal, mem_armed_iff, and_iff_right htask,
    ← turn_fst (sound_take hlegal j).coherent]
  apply and_iff_right hturn

/-- A task whose callback runs was armed and waited. -/
theorem RunsAt.waits (hlegal : Legal history) (hruns : RunsAt history j t)
    (harmed : ArmedAt history i t) :
  Waits history i t j
  := by
  obtain ⟨i', hwaits⟩ := (runsAt_iff hlegal hruns.1).mp hruns
  rwa [harmed.eq hwaits.armedAt rfl]

/-- A callback runs at most once. -/
theorem RunsAt.unique (hlegal : Legal history) (hi : RunsAt history i t) (hj : RunsAt history j t) :
  i = j
  := by
  have wlog {i j : Nat} (hi : RunsAt history i t) (hj : RunsAt history j t) : ¬ i < j := by
    intro hlt
    obtain ⟨k, hbefore⟩ := (runsAt_iff hlegal hi.1).mp hi
    have hwaits := hj.waits hlegal hbefore.armedAt
    exact (hwaits.undisturbed i hbefore.lt hlt _ hi.1).2 rfl
  exact Nat.le_antisymm (Nat.not_lt.mp (wlog hj hi)) (Nat.not_lt.mp (wlog hi hj))

/-- A task takes its turn when it is due. -/
theorem now_of_turn (hlegal : Legal history) (hturn : history[j]? = some (.turn t)) :
  (after (history.take (j + 1))).now = t.due
  := by
  have hsound := sound_take hlegal j
  obtain ⟨htask, hfirst⟩ := hlegal j _ hturn
  rw [after_take_succ hturn, happen, (turn_rest _ t).1]
  apply Nat.le_antisymm (hsound.timely.now_le_due t htask)
  apply hsound.timely.due_le_now t htask (List.mem_of_mem_head? hfirst)

theorem not_cancelledIn_of_runsAt (hlegal : Legal history) (harmed : ArmedAt history i t)
    (hruns : RunsAt history j t) :
  ¬ CancelledIn history i t
  := by
  rintro ⟨k, x, hlt, hx, hcancels, hbefore, -⟩
  have hwaits := hruns.waits hlegal harmed
  obtain hkj | rfl | hkj := Nat.lt_trichotomy k j
  · exact (hwaits.undisturbed k hlt hkj x hx).1 hcancels
  · cases hx.symm.trans hruns.1
    exact hcancels
  · have hin : (history.take k)[j]? = some (.turn t) := by
      rw [List.getElem?_take_of_lt hkj]
      exact hruns.1
    exact hbefore (List.mem_of_getElem? hin)

/-- A deadline that is not cancelled waits as long as its task has not taken its turn. -/
theorem waits_of_not_cancelledIn (hlegal : Legal history) (harmed : ArmedAt history i t)
    (hnot : ¬ CancelledIn history i t) (hlt : i < j) (hbefore : .turn t ∉ history.take j) :
  Waits history i t j
  := by
  induction hlt with
  | refl => exact ⟨harmed, Nat.lt_succ_self _, fun k hk hkj => by omega⟩
  | @step j hlt ih =>
    rw [Nat.succ_eq_add_one, List.take_add_one, List.mem_append, not_or] at hbefore
    have hwaits := ih hbefore.1
    cases hx : history[j]? with
    | none => exact (waits_succ_iff_of_none hx).mpr hwaits
    | some x =>
      apply (waits_succ_iff hx).mpr
      right
      refine ⟨hwaits, ?_, ?_⟩
      · intro hcancels
        have hmem := (mem_armed_take_iff hlegal).mpr ⟨i, hwaits⟩
        have hdue := (sound_take hlegal j).timely.now_le_due t (mem_armed_iff.mp hmem).1
        exact hnot ⟨j, x, hlt, hx, hcancels, hbefore.1, hdue⟩
      · rintro rfl
        exact hbefore.2 (by simp [hx])

/-- Once time has passed a deadline its callback has run unless it was cancelled. -/
theorem exists_runsAt_iff (hlegal : Legal history) (harmed : ArmedAt history i t)
    (hpassed : t.due < (after history).now
      ∨ t.due ≤ (after history).now ∧ (after history).Quiet (after history).now) :
  (∃ j, RunsAt history j t) ↔ ¬ CancelledIn history i t
  := by
  constructor
  · rintro ⟨j, hruns⟩
    exact not_cancelledIn_of_runsAt hlegal harmed hruns
  · intro hnot
    by_cases hturn : .turn t ∈ history
    · -- The first turn of the task finds its deadline waiting.
      obtain ⟨before, rest, heq, hbefore⟩ := List.eq_append_cons_of_mem hturn
      have hj : history[before.length]? = some (.turn t) := by simp [heq]
      have htake : history.take before.length = before := by simp [heq]
      have hlt := harmed.lt_of_mem hlegal (hlegal _ _ hj).1
      use before.length
      rw [runsAt_iff hlegal hj]
      exact ⟨i, waits_of_not_cancelledIn hlegal harmed hnot hlt (by rwa [htake])⟩
    · have hlt : i < history.length := (List.getElem?_eq_some_iff.mp harmed.arm).1
      have hwaits := waits_of_not_cancelledIn hlegal harmed hnot hlt (by rwa [List.take_length])
      have hmem := (mem_armed_take_iff hlegal).mpr ⟨i, hwaits⟩
      rw [List.take_length] at hmem
      have htask := (mem_armed_iff.mp hmem).1
      have hdue := (sound_after hlegal).timely.now_le_due t htask
      obtain hpassed | ⟨hpassed, hquiet⟩ := hpassed
      · omega
      · have := hquiet.lt_due t htask
        omega

end Scheduler

end SafetyHub
