import SafetyHub.Proofs.Deadline.Numbered

/-!
# What a scheduler has armed

The deadlines that a scheduler has armed are its tasks whose entries are there,
`Scheduler.deadlines`.  Whatever a scheduler does, it does to these what `Deadlines` says: arming
and dropping, with entries removed, tasks aborted and numbers given out, is arming and dropping
them; a task that wakes only moves the time on; and a task that finds its entry takes its deadline
out of them, while one that does not leaves them alone.
-/

namespace SafetyHub.Scheduler

variable {α : Type} {s : Scheduler α} {t t' : Armed (Numbered α)} {e : DeadlineEntry}
  {key : DeadlineKey}

/-- The deadlines that are armed: the tasks whose entries are there. -/
def deadlines (s : Scheduler α) : Deadlines (Numbered α) where
  now := s.now
  armed := s.tasks.filter (s.entries.contains ·.entry)

theorem mem_armed_iff : t ∈ s.deadlines.armed ↔ t ∈ s.tasks ∧ t.entry ∈ s.entries := by
  simp [deadlines]

/-- Tasks stand in the order of their numbers, which are no greater than that of the latest arming.
The entries are those of the deadlines that are armed.  A task that sleeps has its entry, and a
task that has woken has not ended. -/
structure Coherent (s : Scheduler α) : Prop where
  ascending : s.tasks.Pairwise fun t t' => t.task.number < t'.task.number
  le_generation : ∀ t ∈ s.tasks, t.task.number ≤ s.generation
  entries_eq : s.entries = s.deadlines.armed.map (·.entry)
  ordered : s.deadlines.Ordered
  entry_mem : ∀ t ∈ s.tasks, t.task.number ∉ s.woken → t.entry ∈ s.entries
  exists_woken : ∀ n ∈ s.woken, ∃ t ∈ s.tasks, t.task.number = n

namespace Coherent

theorem initial : ({} : Scheduler α).Coherent where
  ascending := List.Pairwise.nil
  le_generation := by rintro t ⟨⟩
  entries_eq := rfl
  ordered := ⟨List.Pairwise.nil, List.nodup_nil, Nat.zero_le _⟩
  entry_mem := by rintro t ⟨⟩
  exists_woken := by rintro n ⟨⟩

theorem eq_of_number (h : s.Coherent) (ht : t ∈ s.tasks) (ht' : t' ∈ s.tasks)
    (hnumber : t.task.number = t'.task.number) :
  t = t'
  := by
  have hnodup : (s.tasks.map (·.task.number)).Nodup :=
    List.pairwise_map.mpr (h.ascending.imp fun hlt => Nat.ne_of_lt hlt)
  exact List.inj_on_of_nodup_map hnodup ht ht' hnumber

theorem exists_task (h : s.Coherent) (he : e ∈ s.entries) :
  ∃ t ∈ s.deadlines.armed, t.entry = e
  := by
  rw [h.entries_eq] at he
  exact List.mem_map.mp he

theorem nodup_keys (h : s.Coherent) : (s.entries.map (·.key)).Nodup := by
  rw [h.entries_eq, List.map_map]
  exact h.ordered.nodup

theorem eq_of_key (h : s.Coherent) {e' : DeadlineEntry} (he : e ∈ s.entries) (he' : e' ∈ s.entries)
    (hkey : e.key = e'.key) :
  e = e'
  := List.inj_on_of_nodup_map h.nodup_keys he he' hkey

/-- Removing an entry leaves those of other keys. -/
theorem erase_eq (h : s.Coherent) (he : e ∈ s.entries) :
  s.entries.erase e = s.entries.filter (·.key != e.key)
  := by
  rw [h.nodup_keys.of_map.erase_eq_filter]
  apply List.filter_congr
  intro e' he'
  rw [Bool.eq_iff_iff, bne_iff_ne, bne_iff_ne]
  exact not_congr ⟨congrArg _, h.eq_of_key he' he⟩

end Coherent

/-! ### What is armed -/

theorem isArmed_eq (h : s.Coherent) (key : DeadlineKey) :
  s.isArmed key = s.deadlines.isArmed key
  := by
  rw [isArmed, entry?, List.isSome_find?, h.entries_eq, List.any_map]
  rfl

theorem boundedCount_eq (h : s.Coherent) :
  s.boundedCount = Deadlines.boundedCount s.deadlines.armed
  := by
  rw [boundedCount, h.entries_eq, List.countP_map]
  rfl

/-! ### Removing an entry -/

theorem mem_tasks_drop_iff :
  t ∈ (s.drop e).tasks ↔ t ∈ s.tasks ∧ (t.task.number ∈ s.woken ∨ t.task.number ≠ e.number)
  := by
  unfold drop abort
  split
  next hwoken =>
    rw [List.contains_iff_mem] at hwoken
    apply (and_iff_left_of_imp _).symm
    intro _
    by_cases heq : t.task.number = e.number
    · exact .inl (heq ▸ hwoken)
    · exact .inr heq
  next hasleep =>
    rw [List.contains_iff_mem] at hasleep
    rw [List.mem_filter, bne_iff_ne]
    apply and_congr_right
    intro _
    constructor
    · exact .inr
    · rintro (hwoken | hne) heq
      · exact hasleep (heq ▸ hwoken)
      · exact hne heq

/-- Removing an entry and aborting its task drops its deadline, also if the task cannot be aborted
any more. -/
theorem deadlines_drop (h : s.Coherent) (he : e ∈ s.entries) :
  (s.drop e).deadlines = s.deadlines.disarm e.key
  := by
  -- A task that has an entry, and the number of this one, is the task of this one.
  have hkey {t : Armed (Numbered α)} (ht : t ∈ s.tasks) (hnumber : t.task.number = e.number) :
      t.key = e.key := by
    obtain ⟨t', ht', rfl⟩ := h.exists_task he
    rw [h.eq_of_number ht (mem_armed_iff.mp ht').1 hnumber]
    rfl
  have hmem (t : Armed (Numbered α)) :
      t.entry ∈ s.entries.erase e ↔ t.entry ∈ s.entries ∧ t.key ≠ e.key := by
    rw [h.erase_eq he, List.mem_filter, bne_iff_ne]
    rfl
  rw [deadlines, Deadlines.disarm, entries_drop, (Drops.drop s e).now]
  congr 1
  rw [deadlines, List.filter_filter]
  unfold drop abort
  split
  · apply List.filter_congr
    intro t _
    rw [Bool.eq_iff_iff]
    simp [hmem, and_comm]
  · rw [List.filter_filter]
    apply List.filter_congr
    intro t ht
    rw [Bool.eq_iff_iff]
    simp only [Bool.and_eq_true, List.contains_iff_mem, hmem, bne_iff_ne]
    constructor
    · rintro ⟨⟨hin, hne⟩, -⟩
      exact ⟨hne, hin⟩
    · rintro ⟨hne, hin⟩
      exact ⟨⟨hin, hne⟩, fun hnumber => hne (hkey ht hnumber)⟩

theorem Coherent.drop (h : s.Coherent) (he : e ∈ s.entries) : (s.drop e).Coherent where
  ascending := h.ascending.sublist (Drops.drop s e).tasks
  le_generation t ht := by
    rw [(Drops.drop s e).generation]
    exact h.le_generation t (mem_tasks_drop_iff.mp ht).1
  entries_eq := by
    rw [deadlines_drop h he, entries_drop, h.erase_eq he, h.entries_eq, List.filter_map]
    rfl
  ordered := by
    rw [deadlines_drop h he]
    exact h.ordered.filter _ _
  entry_mem t ht hasleep := by
    rw [(Drops.drop s e).woken] at hasleep
    obtain ⟨ht, hwoken | hne⟩ := mem_tasks_drop_iff.mp ht
    · exact absurd hwoken hasleep
    · rw [entries_drop]
      apply (List.mem_erase_of_ne _).mpr (h.entry_mem t ht hasleep)
      rintro rfl
      exact hne rfl
  exists_woken n hn := by
    rw [(Drops.drop s e).woken] at hn
    obtain ⟨t, ht, rfl⟩ := h.exists_woken n hn
    exact ⟨t, mem_tasks_drop_iff.mpr ⟨ht, .inl hn⟩, rfl⟩

/-- Removing entries one after the other drops their deadlines. -/
theorem foldl_drop (h : s.Coherent) {gone : List DeadlineEntry} (hnodup : gone.Nodup)
    (hsubset : ∀ e ∈ gone, e ∈ s.entries) :
  (gone.foldl drop s).Coherent
    ∧ (gone.foldl drop s).deadlines
      = { now := s.now, armed := s.deadlines.armed.filter (!gone.contains ·.entry) }
  := by
  induction gone generalizing s with
  | nil => exact ⟨h, by simp [deadlines]⟩
  | cons e gone ih =>
    obtain ⟨hnew, hnodup⟩ := List.nodup_cons.mp hnodup
    obtain ⟨he, hsubset⟩ := List.forall_mem_cons.mp hsubset
    have hrest : ∀ e' ∈ gone, e' ∈ (s.drop e).entries := by
      intro e' he'
      rw [entries_drop]
      apply (List.mem_erase_of_ne _).mpr (hsubset e' he')
      rintro rfl
      exact hnew he'
    obtain ⟨hcoherent, hdeadlines⟩ := ih (h.drop he) hnodup hrest
    refine ⟨hcoherent, ?_⟩
    rw [List.foldl_cons, hdeadlines, (Drops.drop s e).now, deadlines_drop h he, Deadlines.disarm,
      List.filter_filter]
    congr 1
    apply List.filter_congr
    intro t ht
    have hkey : t.key = e.key ↔ t.entry = e :=
      ⟨h.eq_of_key (mem_armed_iff.mp ht).2 he, fun heq => heq ▸ rfl⟩
    rw [Bool.eq_iff_iff]
    simp [hkey, and_comm]

/-! ### Operations -/

theorem disarm_fst (h : s.Coherent) (key : DeadlineKey) :
  (s.disarm key).1 = s.deadlines.isArmed key
  := by
  rw [← isArmed_eq h, isArmed, disarm]
  split
  next hnone => rw [hnone]; rfl
  next e hsome => rw [hsome]; rfl

theorem disarm_snd (h : s.Coherent) (key : DeadlineKey) :
  (s.disarm key).2.Coherent ∧ (s.disarm key).2.deadlines = s.deadlines.disarm key
  := by
  unfold disarm
  split
  next hnone =>
    refine ⟨h, ?_⟩
    rw [Deadlines.disarm, List.filter_eq_self.mpr]
    intro t ht
    have hne := List.find?_eq_none.mp hnone t.entry (mem_armed_iff.mp ht).2
    rwa [bne, Bool.not_eq_true', ← Bool.not_eq_true]
  next e hsome =>
    have he := List.mem_of_find?_eq_some hsome
    have hkey : e.key = key := by simpa using List.find?_some hsome
    rw [← hkey]
    exact ⟨h.drop he, deadlines_drop h he⟩

theorem disarmMatching_snd (h : s.Coherent) (which : DeadlineKey → Bool) :
  (s.disarmMatching which).2.Coherent
    ∧ (s.disarmMatching which).2.deadlines = s.deadlines.disarmMatching which
  := by
  obtain ⟨hcoherent, hdeadlines⟩ := foldl_drop h
    (h.nodup_keys.of_map.filter fun e => which e.key) fun e he => (List.mem_filter.mp he).1
  refine ⟨hcoherent, hdeadlines.trans ?_⟩
  rw [Deadlines.disarmMatching]
  congr 1
  apply List.filter_congr
  intro t ht
  congr 1
  rw [Bool.eq_iff_iff, List.contains_iff_mem, List.mem_filter]
  apply and_iff_right (mem_armed_iff.mp ht).2

theorem disarmAll_eq (h : s.Coherent) :
  s.disarmAll.Coherent ∧ s.disarmAll.deadlines = { now := s.now, armed := [] }
  := by
  obtain ⟨hcoherent, hdeadlines⟩ := foldl_drop h h.nodup_keys.of_map fun e he => he
  refine ⟨hcoherent, hdeadlines.trans ?_⟩
  congr 1
  rw [List.filter_eq_nil_iff]
  intro t ht
  simpa using (mem_armed_iff.mp ht).2

/-! ### Arming -/

/-- Dropping the oldest entry that counts evicts the oldest deadline that counts. -/
theorem disarm_oldest (h : s.Coherent) (holdest : s.oldestBounded? = some e) :
  s.deadlines.disarm e.key = { now := s.now, armed := Deadlines.evict s.deadlines.armed }
  := by
  rw [oldestBounded?, h.entries_eq, List.find?_map, Option.map_eq_some_iff] at holdest
  obtain ⟨t, hfirst, rfl⟩ := holdest
  rw [Deadlines.evict_eq_filter h.ordered.nodup hfirst]
  rfl

theorem makeRoom_eq (h : s.Coherent) :
  s.makeRoom.Coherent
    ∧ s.makeRoom.deadlines = { now := s.now, armed := Deadlines.makeRoom s.deadlines.armed }
  := by
  fun_induction makeRoom s with
  | case1 s hfull hnone =>
    have hcount : s.boundedCount = 0 :=
      List.countP_eq_zero.mpr (List.find?_eq_none.mp hnone)
    rw [hcount] at hfull
    cases hfull
  | case2 s hfull oldest holdest ih =>
    have he := List.mem_of_find?_eq_some holdest
    obtain ⟨hcoherent, hdeadlines⟩ := ih (h.drop he)
    rw [boundedCount_eq h] at hfull
    refine ⟨hcoherent, ?_⟩
    rw [hdeadlines, deadlines_drop h he, disarm_oldest h holdest,
      (Drops.drop s oldest).now, Deadlines.makeRoom_of_le hfull]
  | case3 s hroom =>
    rw [boundedCount_eq h] at hroom
    refine ⟨h, ?_⟩
    rw [Deadlines.makeRoom_of_lt (Nat.not_le.mp hroom)]
    rfl

theorem roomFor_eq (h : s.Coherent) (key : DeadlineKey) :
  let others := s.deadlines.armed.filter (·.key != key)
  (s.roomFor key).Coherent ∧ (s.roomFor key).deadlines
    = { now := s.now, armed := if key.isBounded then Deadlines.makeRoom others else others }
  := by
  intro others
  obtain ⟨hdropped, hdeadlines⟩ := disarm_snd h key
  unfold roomFor
  split
  · obtain ⟨hcoherent, hroom⟩ := makeRoom_eq hdropped
    rw [hdeadlines] at hroom
    exact ⟨hcoherent, hroom.trans (congrArg (Deadlines.mk · _) (congrArg (·.now) hdeadlines))⟩
  · exact ⟨hdropped, hdeadlines⟩

theorem deadlines_spawn (hlt : ∀ t' ∈ s.tasks, t'.task.number < t.task.number) :
  (s.spawn t).deadlines = { now := s.now, armed := s.deadlines.armed ++ [t] }
  := by
  have hsame : ∀ t' ∈ s.tasks,
      (s.entries ++ [t.entry]).contains t'.entry = s.entries.contains t'.entry := by
    intro t' ht'
    have hne : t'.entry ≠ t.entry := by
      intro heq
      exact Nat.ne_of_lt (hlt t' ht') (congrArg (·.number) heq)
    simp [hne]
  rw [spawn, deadlines]
  dsimp only
  rw [List.filter_append, List.filter_congr hsame]
  simp [deadlines]

theorem Coherent.spawn (h : s.Coherent) (hlt : ∀ t' ∈ s.tasks, t'.task.number < t.task.number)
    (hordered : (s.spawn t).deadlines.Ordered) :
  (s.spawn t).Coherent
  where
  ascending := by
    apply List.pairwise_append.mpr ⟨h.ascending, List.pairwise_singleton _ _, ?_⟩
    intro t' ht' _ ht
    rw [List.mem_singleton.mp ht]
    exact hlt t' ht'
  le_generation t' ht' := by
    obtain ht' | ht' := List.mem_append.mp ht'
    · exact Nat.le_of_lt (hlt t' ht')
    · rw [List.mem_singleton.mp ht']
      exact Nat.le_refl _
  entries_eq := by
    rw [deadlines_spawn hlt, List.map_append, ← h.entries_eq]
    rfl
  ordered := hordered
  entry_mem t' ht' hasleep := by
    obtain ht' | ht' := List.mem_append.mp ht'
    · exact List.mem_append_left _ (h.entry_mem t' ht' hasleep)
    · rw [List.mem_singleton.mp ht']
      exact List.mem_append_right _ (List.mem_singleton_self _)
  exists_woken n hn := by
    obtain ⟨t', ht', hnumber⟩ := h.exists_woken n hn
    exact ⟨t', List.mem_append_left _ ht', hnumber⟩

/-- Arming a deadline arms it under the next number. -/
theorem arm_eq (h : s.Coherent) (key : DeadlineKey) (delay : Nat) (task : α) :
  (s.arm key delay task).Coherent
    ∧ (s.arm key delay task).deadlines = s.deadlines.arm key delay ⟨s.generation + 1, task⟩
  := by
  obtain ⟨hleft, hdeadlines⟩ := roomFor_eq h key
  have hdrops := Drops.roomFor s key
  rw [arm]
  rw [hdrops.generation, hdrops.now]
  have hlt : ∀ t' ∈ (s.roomFor key).tasks, t'.task.number < s.generation + 1 := by
    intro t' ht'
    exact Nat.lt_succ_of_le (h.le_generation t' (hdrops.tasks.subset ht'))
  have hall : ((s.roomFor key).spawn ⟨key, s.now, delay, ⟨s.generation + 1, task⟩⟩).deadlines
      = s.deadlines.arm key delay ⟨s.generation + 1, task⟩ := by
    rw [deadlines_spawn hlt, hdeadlines, hdrops.now]
    rfl
  refine ⟨hleft.spawn hlt ?_, hall⟩
  rw [hall]
  apply h.ordered.arm key delay
  intro t' ht'
  exact Nat.lt_succ_of_le (h.le_generation t' (mem_armed_iff.mp ht').1)

/-! ### Waking and running -/

/-- A task that wakes moves the time on. -/
theorem wake_eq (h : s.Coherent) (ht : t ∈ s.tasks) :
  (s.wake t).Coherent ∧ (s.wake t).deadlines = s.deadlines.moveTo t.due
  := by
  refine ⟨⟨h.ascending, h.le_generation, h.entries_eq, h.ordered.moveTo t.due, ?asleep, ?awake⟩,
    rfl⟩
  case asleep =>
    intro t' ht' hasleep
    apply h.entry_mem t' ht'
    intro hwoken
    exact hasleep (List.mem_append_left _ hwoken)
  case awake =>
    intro n hn
    obtain hn | hn := List.mem_append.mp hn
    · exact h.exists_woken n hn
    · exact ⟨t, ht, (List.mem_singleton.mp hn).symm⟩

/-- The callback of a task runs if and only if its entry is there. -/
theorem turn_fst (h : s.Coherent) (t : Armed (Numbered α)) :
  (s.turn t).1 = true ↔ t.entry ∈ s.entries
  := by
  have hfound : (s.turn t).1 = (s.entry? t.key).any (·.number == t.task.number) := by
    unfold turn takeFired
    split
    next hfound => exact hfound.symm
    next hmissing => exact (Bool.eq_false_iff.mpr hmissing).symm
  rw [hfound, Option.any_eq_true]
  constructor
  · rintro ⟨e, he, hnumber⟩
    have hentry : e = t.entry := by
      have hkey := List.find?_some he
      obtain ⟨key, number⟩ := e
      rw [beq_iff_eq] at hkey hnumber
      rw [Armed.entry, ← hkey, ← hnumber]
    rw [← hentry]
    exact List.mem_of_find?_eq_some he
  · intro hin
    cases hfirst : s.entry? t.key with
    | none => exact absurd (beq_self_eq_true _) (List.find?_eq_none.mp hfirst t.entry hin)
    | some e =>
      have hkey : e.key = t.key := by simpa using List.find?_some hfirst
      have hentry := h.eq_of_key (List.mem_of_find?_eq_some hfirst) hin hkey
      exact ⟨e, rfl, by rw [hentry]; exact beq_self_eq_true _⟩

theorem takeFired_snd (s : Scheduler α) (e : DeadlineEntry) :
  (s.takeFired e).2 = if (s.takeFired e).1 then { s with entries := s.entries.erase e } else s
  := by
  unfold takeFired
  split <;> rfl

/-- Once a task has ended, it is among those that have woken no more. -/
theorem Coherent.eq_of_ended (h : s.Coherent) (ht : t ∈ s.tasks) (ht' : t' ∈ s.tasks)
    (hended : t'.task.number ∉ s.woken.filter (· != t.task.number)) :
  t' = t ∨ t'.task.number ∉ s.woken
  := by
  by_cases hwoken : t'.task.number ∈ s.woken
  · left
    apply h.eq_of_number ht' ht
    by_contra hne
    exact hended (List.mem_filter.mpr ⟨hwoken, bne_iff_ne.mpr hne⟩)
  · exact .inr hwoken

/-- A task whose callback runs takes its deadline out of those that are armed. -/
theorem turn_of_mem (h : s.Coherent) (ht : t ∈ s.tasks) (hin : t.entry ∈ s.entries) :
  (s.turn t).2.Coherent ∧ (s.turn t).2.deadlines = s.deadlines.disarm t.key
  := by
  let ended : Scheduler α := { s with woken := s.woken.filter (· != t.task.number) }
  have hcoherent : ended.Coherent := by
    refine ⟨h.ascending, h.le_generation, h.entries_eq, h.ordered, ?asleep, ?awake⟩
    case asleep =>
      intro t' ht' hasleep
      obtain rfl | hasleep := h.eq_of_ended ht ht' hasleep
      · exact hin
      · exact h.entry_mem t' ht' hasleep
    case awake =>
      intro n hn
      exact h.exists_woken n (List.mem_filter.mp hn).1
  -- The turn removes the entry as dropping it does, and the task has ended as if aborted.
  have hturn : (s.turn t).2 = ended.drop t.entry := by
    have hruns : (s.turn t).1 = true := (turn_fst h t).mpr hin
    rw [turn] at hruns
    rw [turn, takeFired_snd, if_pos hruns, drop, abort]
    simp [ended, Armed.entry]
  rw [hturn]
  exact ⟨hcoherent.drop hin, deadlines_drop hcoherent hin⟩

/-- A task whose callback does not run leaves the deadlines alone that are armed. -/
theorem turn_of_not_mem (h : s.Coherent) (ht : t ∈ s.tasks) (hout : t.entry ∉ s.entries) :
  (s.turn t).2.Coherent ∧ (s.turn t).2.deadlines = s.deadlines
  := by
  have hrefused : ¬ (s.turn t).1 = true := fun hruns => hout ((turn_fst h t).mp hruns)
  rw [turn] at hrefused
  rw [turn, takeFired_snd, if_neg hrefused]
  have harmed : (s.tasks.filter (·.task.number != t.task.number)).filter
        (s.entries.contains ·.entry)
      = s.deadlines.armed := by
    rw [List.filter_filter, deadlines]
    apply List.filter_congr
    intro t' ht'
    rw [Bool.and_eq_left_iff_imp]
    intro hin
    rw [bne_iff_ne]
    intro hnumber
    rw [h.eq_of_number ht' ht hnumber, List.contains_iff_mem] at hin
    exact hout hin
  have hall : Scheduler.deadlines { s with
        tasks := s.tasks.filter (·.task.number != t.task.number)
        woken := s.woken.filter (· != t.task.number) }
      = s.deadlines := by
    rw [deadlines, harmed]
    rfl
  refine ⟨⟨?ascending, ?number, ?entries, ?ordered, ?asleep, ?awake⟩, hall⟩
  case ascending => exact h.ascending.sublist List.filter_sublist
  case number => exact fun t' ht' => h.le_generation t' (List.mem_filter.mp ht').1
  case entries =>
    rw [hall]
    exact h.entries_eq
  case ordered =>
    rw [hall]
    exact h.ordered
  case asleep =>
    intro t' ht' hasleep
    obtain ⟨ht', hne⟩ := List.mem_filter.mp ht'
    obtain rfl | hasleep := h.eq_of_ended ht ht' hasleep
    · simp at hne
    · exact h.entry_mem t' ht' hasleep
  case awake =>
    intro n hn
    obtain ⟨hn, hne⟩ := List.mem_filter.mp hn
    obtain ⟨t', ht', rfl⟩ := h.exists_woken n hn
    exact ⟨t', List.mem_filter.mpr ⟨ht', hne⟩, rfl⟩

end SafetyHub.Scheduler
