import SafetyHub.Proofs.Hub.Waits
import Mathlib.Data.List.Induction
import Mathlib.Data.List.Infix
import Mathlib.Data.List.Nodup

/-!
# Waits and their deadlines

Every bounded deadline that is armed is that of a wait.  The converse fails: when as many
deadlines as the capacity are armed, a wait that begins takes the place of the oldest one, and
the wait for which that was armed goes on without a deadline.  This is the only way in which a
wait comes to be without one, so as long as there are no more waits than the capacity each has
its deadline.
-/

namespace SafetyHub.Hub

open Deadlines

variable {h h' : Hub} {env : Surroundings}

/-- The keys of the bounded deadlines, in the order of arming. -/
def timers (h : Hub) : List DeadlineKey :=
  h.deadlines.bounded.map (·.key)

/-- The bounded deadlines are those of waits, one for each, and no more than the capacity. -/
structure Timed (h : Hub) : Prop where
  awaited : ∀ key ∈ h.timers, key ∈ h.waits
  nodup : h.timers.Nodup
  length_le : h.timers.length ≤ capacity

theorem isArmed_of_mem_timers {key : DeadlineKey} (hkey : key ∈ h.timers) :
  h.deadlines.isArmed key = true
  := by
  obtain ⟨e, he, rfl⟩ := List.mem_map.mp hkey
  apply isArmed_of_mem_bounded he

/-! ### Waits that end -/

theorem Ends.timers_eq (hends : h.Ends h') :
  ∃ stays : DeadlineKey → Bool, (∀ key, key ∈ h'.waits ↔ key ∈ h.waits ∧ stays key = true)
    ∧ h'.timers = h.timers.filter stays
  := by
  obtain ⟨stays, hwaits, hbounded⟩ := hends
  use stays, hwaits
  rw [timers, hbounded, timers, List.filter_map]
  rfl

theorem Ends.timed (hends : h.Ends h') (htimed : h.Timed) : h'.Timed := by
  obtain ⟨stays, hwaits, htimers⟩ := hends.timers_eq
  constructor
  · intro key hkey
    rw [htimers] at hkey
    obtain ⟨harmed, hstays⟩ := List.mem_filter.mp hkey
    apply (hwaits key).mpr ⟨htimed.awaited key harmed, hstays⟩
  · rw [htimers]
    apply htimed.nodup.filter stays
  · rw [htimers]
    apply Nat.le_trans (List.length_filter_le stays h.timers) htimed.length_le

/-! ### Waits that begin -/

/-- The deadline of a wait that begins comes last, and what is over the capacity is dropped. -/
theorem timers_eq_of_begun {e : Armed Unit} (hnew : e.key ∉ h.timers)
    (hbounded : h'.deadlines.bounded = h.deadlines.roomFor e.key ++ [e]) :
  h'.timers = h.timers.drop (h.timers.length + 1 - capacity) ++ [e.key]
  := by
  have others : h.deadlines.bounded.filter (·.key != e.key) = h.deadlines.bounded := by
    apply List.filter_eq_self.mpr
    intro e' he'
    rw [bne_iff_ne]
    intro heq
    apply hnew
    rw [← heq]
    apply List.mem_map_of_mem he'
  rw [timers, hbounded, roomFor, others, List.map_append, List.map_drop, timers,
    List.length_map]
  rfl

/-- A deadline stays when another is armed, unless it is the oldest of as many as the capacity. -/
theorem mem_timers_of_begun (htimed : h.Timed) {e : Armed Unit} (hnew : e.key ∉ h.timers)
    (hbounded : h'.deadlines.bounded = h.deadlines.roomFor e.key ++ [e]) {key : DeadlineKey}
    (hkey : key ∈ h.timers) :
  key ∈ h'.timers
    ∨ ∃ rest, h.timers = key :: rest ∧ h.timers.length = capacity ∧ h'.timers = rest ++ [e.key]
  := by
  have hafter := timers_eq_of_begun hnew hbounded
  by_cases hfull : h.timers.length = capacity
  · rw [hfull, Nat.add_sub_cancel_left, List.drop_one] at hafter
    obtain ⟨first, rest, hlist⟩ := List.exists_cons_of_ne_nil (List.ne_nil_of_mem hkey)
    rw [hlist, List.tail_cons] at hafter
    obtain rfl | hrest := List.mem_cons.mp (hlist ▸ hkey)
    · right
      exact ⟨rest, hlist, hfull, hafter⟩
    · left
      rw [hafter]
      apply List.mem_append_left _ hrest
  · left
    have hle := htimed.length_le
    rw [hafter, show h.timers.length + 1 - capacity = 0 by omega, List.drop_zero]
    apply List.mem_append_left _ hkey

theorem Begins.timed {key : DeadlineKey} (hbegins : h.Begins key h') (htimed : h.Timed) :
  h'.Timed
  := by
  obtain ⟨between, hends, hnew, hwaits, e, rfl, hbounded⟩ := hbegins
  have hbetween := hends.timed htimed
  have hunarmed : e.key ∉ between.timers := fun harmed => hnew (hbetween.awaited e.key harmed)
  have htimers := timers_eq_of_begun hunarmed hbounded
  constructor
  · intro key hkey
    rw [htimers, List.mem_append, List.mem_singleton] at hkey
    obtain harmed | rfl := hkey
    · apply (hwaits key).mpr (.inr (hbetween.awaited key (List.mem_of_mem_drop harmed)))
    · apply (hwaits e.key).mpr (.inl rfl)
  · rw [htimers]
    apply List.Nodup.append
    · apply hbetween.nodup.sublist (List.drop_sublist _ _)
    · apply List.nodup_singleton e.key
    · simpa using fun harmed => hunarmed (List.mem_of_mem_drop harmed)
  · have : 0 < capacity := by decide
    rw [htimers, List.length_append, List.length_drop, List.length_singleton]
    omega

/-- Every move keeps bounded deadlines to those of waits. -/
theorem Shifts.timed (hshifts : h.Shifts h') (htimed : h.Timed) : h'.Timed := by
  obtain hends | ⟨key, hbegins⟩ := hshifts
  · apply hends.timed htimed
  · apply hbegins.timed htimed

/-! ### Waits that go on -/

/-- A deadline gives way to that of a wait that begins: it is the oldest, and as many as the
capacity are armed. -/
def Displaces (h h' : Hub) (key : DeadlineKey) : Prop :=
  ∃ rest new, h.timers = key :: rest ∧ h.timers.length = capacity
    ∧ new ≠ key ∧ new ∈ h'.waits ∧ h'.timers = rest ++ [new]

/-- A wait that goes on keeps its deadline, unless it is displaced. -/
theorem Shifts.mem_timers_or (hshifts : h.Shifts h') (htimed : h.Timed) {key : DeadlineKey}
    (hkey : key ∈ h'.waits) :
  key ∈ h'.timers ∨ key ∈ h.waits ∧ (key ∉ h.timers ∨ h.Displaces h' key)
  := by
  obtain hends | ⟨new, between, hends, hnew, hwaits, e, rfl, hbounded⟩ := hshifts
  · obtain ⟨stays, hwaits, htimers⟩ := hends.timers_eq
    obtain ⟨hbefore, hstays⟩ := (hwaits key).mp hkey
    by_cases harmed : key ∈ h.timers
    · left
      rw [htimers, List.mem_filter]
      exact ⟨harmed, hstays⟩
    · right
      exact ⟨hbefore, .inl harmed⟩
  · obtain ⟨stays, hbetween, htimers⟩ := hends.timers_eq
    have hunarmed : e.key ∉ between.timers :=
      fun harmed => hnew ((hends.timed htimed).awaited e.key harmed)
    obtain rfl | hold := (hwaits key).mp hkey
    · left
      rw [timers_eq_of_begun hunarmed hbounded]
      apply List.mem_append_right _ List.mem_cons_self
    obtain ⟨hbefore, hstays⟩ := (hbetween key).mp hold
    by_cases harmed : key ∈ h.timers
    · have hkept : key ∈ between.timers := by
        rw [htimers, List.mem_filter]
        exact ⟨harmed, hstays⟩
      obtain hin | ⟨rest, hlist, hfull, hafter⟩ :=
        mem_timers_of_begun (hends.timed htimed) hunarmed hbounded hkept
      · left
        apply hin
      · right
        -- as many as the capacity are left, so none has been dropped with its wait
        have hall : between.timers = h.timers := by
          rw [htimers] at hfull ⊢
          apply List.filter_sublist.eq_of_length_le
          rw [hfull]
          apply htimed.length_le
        have hne : e.key ≠ key := fun heq => hunarmed (heq ▸ hkept)
        have hbegun := (hwaits e.key).mpr (.inl rfl)
        rw [hall] at hlist hfull
        exact ⟨hbefore, .inr ⟨rest, e.key, hlist, hfull, hne, hbegun, hafter⟩⟩
    · right
      exact ⟨hbefore, .inl harmed⟩

/-! ### Runs -/

theorem sound_start (catalog : Catalog) (policy : Policy) (archive : Archive)
    (loaded : Except ArchiveError (List SavedRecord)) (time : Nat) :
  (start catalog policy archive loaded time).tracker.Sound
  := (Like.schedulePersist _).sound (.of_idle rfl)

theorem timed_start (catalog : Catalog) (policy : Policy) (archive : Archive)
    (loaded : Except ArchiveError (List SavedRecord)) (time : Nat) :
  (start catalog policy archive loaded time).Timed
  := by
  apply Ends.timed (.of_like (Like.schedulePersist _))
  constructor
  · intro key hkey
    cases hkey
  · apply List.nodup_nil
  · apply Nat.zero_le capacity

theorem waits_start (catalog : Catalog) (policy : Policy) (archive : Archive)
    (loaded : Except ArchiveError (List SavedRecord)) (time : Nat) :
  (start catalog policy archive loaded time).waits = []
  := by
  apply (Like.schedulePersist _).waits_eq.trans
  simp [waits]

theorem timed_after (hsound : h.tracker.Sound) (htimed : h.Timed)
    (moves : List (Surroundings × Move)) :
  (h.after moves).tracker.Sound ∧ (h.after moves).Timed
  := by
  apply after_induction (P := fun h => h.tracker.Sound ∧ h.Timed) ⟨hsound, htimed⟩
  rintro h env m ⟨hsound, htimed⟩
  have hstep := step_move h env m
  exact ⟨hstep.sound hsound, (hstep.shifts hsound).timed htimed⟩

/-- A wait goes on without its deadline only after another wait has displaced it. -/
theorem armed_or_displaced (hsound : h.tracker.Sound) (htimed : h.Timed)
    (hstart : ∀ key ∈ h.waits, key ∈ h.timers) (moves : List (Surroundings × Move))
    {key : DeadlineKey} (hkey : key ∈ (h.after moves).waits) :
  key ∈ (h.after moves).timers ∨ ∃ before m rest, moves = before ++ m :: rest
    ∧ (h.after before).Displaces (h.after (before ++ [m])) key
    ∧ ∀ more, more <+: m :: rest → key ∈ (h.after (before ++ more)).waits
  := by
  induction moves using List.reverseRecOn with
  | nil => exact .inl (hstart key hkey)
  | append_singleton moves m ih =>
    obtain ⟨env, m⟩ := m
    obtain ⟨hsound, htimed⟩ := timed_after hsound htimed moves
    have hmove := after_concat h moves env m
    have hshifts := (step_move _ env m).shifts hsound
    rw [← hmove] at hshifts
    obtain harmed | ⟨hbefore, hunarmed | hdisplaces⟩ := hshifts.mem_timers_or htimed hkey
    · exact .inl harmed
    · right
      obtain harmed | ⟨before, first, rest, rfl, hdisplaces, hwaits⟩ := ih hbefore
      · exact absurd harmed hunarmed
      · use before, first, rest ++ [(env, m)], by simp, hdisplaces
        intro more hmore
        rw [← List.cons_append, List.prefix_concat_iff] at hmore
        obtain rfl | hmore := hmore
        · simpa using hkey
        · apply hwaits more hmore
    · right
      use moves, (env, m), [], rfl, hdisplaces
      rintro (_ | ⟨m', more⟩) hmore
      · rwa [List.append_nil]
      · obtain ⟨rfl, hnil⟩ := List.cons_prefix_cons.mp hmore
        rwa [List.prefix_nil.mp hnil]

/-- When a deadline is displaced and its wait goes on, there are more waits than the capacity. -/
theorem Displaces.lt_length_waits {key : DeadlineKey} (hdisplaces : h.Displaces h' key)
    (htimed : h.Timed) (htimed' : h'.Timed) (hkey : key ∈ h'.waits) :
  capacity < h'.waits.length
  := by
  obtain ⟨rest, new, hlist, hfull, hne, -, hafter⟩ := hdisplaces
  have hold : key ∉ h'.timers := by
    have nodup := htimed.nodup
    rw [hlist, List.nodup_cons] at nodup
    rw [hafter, List.mem_append, List.mem_singleton]
    rintro (hrest | heq)
    · apply nodup.1 hrest
    · apply hne heq.symm
  have hsubset : key :: h'.timers ⊆ h'.waits :=
    List.cons_subset.mpr ⟨hkey, htimed'.awaited⟩
  have hle := (List.nodup_cons.mpr ⟨hold, htimed'.nodup⟩).length_le_of_subset hsubset
  have hlength : h'.timers.length = h.timers.length := by simp [hafter, hlist]
  rw [List.length_cons] at hle
  omega

/-- After every run no more bounded deadlines than the capacity are armed, and a refresh or an
action in flight has its deadline, unless that has been displaced since the wait began: it was
the oldest of as many as the capacity when another wait began.  So each of them has its deadline
as long as there were never more at once than the capacity. -/
theorem deadlines_of_waits_after (catalog : Catalog) (policy : Policy) (archive : Archive)
    (loaded : Except ArchiveError (List SavedRecord)) (time : Nat)
    (moves : List (Surroundings × Move)) :
  let run := (start catalog policy archive loaded time).after
  (run moves).timers.length ≤ capacity
    ∧ (∀ key ∈ (run moves).waits, (run moves).deadlines.isArmed key = true
      ∨ ∃ before m rest, moves = before ++ m :: rest
        ∧ (run before).Displaces (run (before ++ [m])) key
        ∧ ∀ more, more <+: m :: rest → key ∈ (run (before ++ more)).waits)
    ∧ ((∀ before, before <+: moves → (run before).waits.length ≤ capacity) →
      ∀ key ∈ (run moves).waits, (run moves).deadlines.isArmed key = true)
  := by
  intro run
  have hsound := sound_start catalog policy archive loaded time
  have htimed := timed_start catalog policy archive loaded time
  have hstart : ∀ key ∈ (start catalog policy archive loaded time).waits,
      key ∈ (start catalog policy archive loaded time).timers := by
    intro key hkey
    rw [waits_start] at hkey
    cases hkey
  have hafter (moves : List (Surroundings × Move)) : (run moves).Timed :=
    (timed_after hsound htimed moves).2
  have hwaits {key : DeadlineKey} (hkey : key ∈ (run moves).waits) :=
    armed_or_displaced hsound htimed hstart moves hkey
  use (hafter moves).length_le
  constructor
  · intro key hkey
    obtain harmed | hdisplaced := hwaits hkey
    · exact .inl (isArmed_of_mem_timers harmed)
    · exact .inr hdisplaced
  · intro hfew key hkey
    obtain harmed | ⟨before, m, rest, rfl, hdisplaces, hgoing⟩ := hwaits hkey
    · apply isArmed_of_mem_timers harmed
    · have hpresent : key ∈ (run (before ++ [m])).waits :=
        hgoing [m] (List.cons_prefix_cons.mpr ⟨rfl, List.nil_prefix⟩)
      have hmany := hdisplaces.lt_length_waits (hafter before) (hafter (before ++ [m])) hpresent
      have hfit := hfew (before ++ [m]) (by simp)
      exact absurd hmany (Nat.not_lt.mpr hfit)

/-- One action is begun and has its deadline. -/
theorem deadline_of_one_action :
  let action : ActionKey := ⟨⟨"s", "i", 0⟩, "a"⟩
  let moves :=
    [(Sample.device, Sample.submission ["a"]), (Sample.device, .execute action.issue "a")]
  let h := (start Sample.catalog {} {} (.ok []) 0).after moves
  .resolveAction action ∈ h.waits ∧ h.deadlines.isArmed (.resolveAction action) = true
  := by
  intro action moves h
  have hwaits : .resolveAction action ∈ h.waits := by
    rw [resolveAction_mem_waits_iff]
    decide
  obtain ⟨-, -, hfew⟩ := deadlines_of_waits_after Sample.catalog {} {} (.ok []) 0 moves
  use hwaits
  apply hfew _ _ hwaits
  intro before hbefore
  have hall : ∀ before ∈ moves.inits,
      ((start Sample.catalog {} {} (.ok []) 0).after before).waits.length ≤ capacity := by
    decide
  apply hall before ((List.mem_inits before moves).mpr hbefore)

/-- Of eleven actions in flight the first has no deadline. -/
theorem not_all_waits_have_deadlines :
  ¬ ∀ (catalog : Catalog) (policy : Policy) (archive : Archive)
    (loaded : Except ArchiveError (List SavedRecord)) (time : Nat)
    (moves : List (Surroundings × Move)),
    let h := (start catalog policy archive loaded time).after moves
    ∀ key ∈ h.waits, h.deadlines.isArmed key = true
  := by
  intro hall
  let names := ["a", "b", "c", "d", "e", "f", "g", "h", "i", "j", "k"]
  let moves := (Sample.device, Sample.submission names)
    :: names.map fun name => (Sample.device, Move.execute ⟨"s", "i", 0⟩ name)
  have harmed := hall Sample.catalog {} {} (.ok []) 0 moves (.resolveAction ⟨⟨"s", "i", 0⟩, "a"⟩)
  rw [resolveAction_mem_waits_iff] at harmed
  exact absurd (harmed (by decide)) (by decide)

end SafetyHub.Hub
