import SafetyHub.Deadline.Scheduler
import SafetyHub.Proofs.Deadline.Arming
import Mathlib.Data.List.Nodup

/-!
# Numbered deadlines

The deadlines that are armed over time are told apart by numbers, which ascend from one arming
to the next also where a key is armed again.  `Deadlines.Evicts` says which deadline another one
displaces, and `mem_arm_iff` that arming a deadline drops nothing but this one and the one that
is armed under its key.
-/

namespace SafetyHub

namespace Deadlines

variable {α : Type}

/-! ### The first turn -/

theorem first?_eq_none_iff {armed : List (Armed α)} : first? armed = none ↔ armed = [] := by
  cases armed with
  | nil => simp [first?]
  | cons e rest =>
    rw [first?]
    split
    next => simp
    next => split <;> simp

/-- No turn comes before the first one. -/
theorem due_le_of_first? {armed : List (Armed α)} {e : Armed α} (h : first? armed = some e) :
  ∀ e' ∈ armed, e.due ≤ e'.due
  := by
  induction armed generalizing e with
  | nil => simp
  | cons a rest ih =>
    rw [List.forall_mem_cons]
    rw [first?] at h
    split at h
    next hnone =>
      cases h
      simp [first?_eq_none_iff.mp hnone]
    next earliest hfirst =>
      have hrest := ih hfirst
      split at h
      next hlt =>
        cases h
        exact ⟨Nat.le_of_lt hlt, hrest⟩
      next hle =>
        cases h
        exact ⟨Nat.le_refl _, fun e' he' => Nat.le_trans (Nat.not_lt.mp hle) (hrest e' he')⟩

/-- There is a turn to come by a time if and only if a deadline is due by then. -/
theorem next?_eq_none_iff {d : Deadlines α} {limit : Nat} :
  d.next? limit = none ↔ ∀ e ∈ d.armed, limit < e.due
  := by
  rw [next?]
  constructor
  · intro hnone e he
    by_contra hdue
    cases hfirst : first? d.armed with
    | none =>
      rw [first?_eq_none_iff.mp hfirst] at he
      cases he
    | some first =>
      have hle := due_le_of_first? hfirst e he
      simp only [hfirst, Option.filter_some] at hnone
      simp at hnone
      omega
  · intro hlate
    cases hfirst : first? d.armed with
    | none => rfl
    | some first =>
      have := hlate first (first?_mem hfirst)
      simp [Option.filter_some, this]

/-! ### Eviction -/

/-- The armed deadlines stand in the order of their numbers, under keys of their own, and those
that count are no more than the capacity. -/
structure Ordered (d : Deadlines (Numbered α)) : Prop where
  ascending : d.armed.Pairwise fun e e' => e.task.number < e'.task.number
  nodup : (d.armed.map (·.key)).Nodup
  room : boundedCount d.armed ≤ capacity

/-- Arming a key evicts a deadline: the key counts toward the capacity and is not armed, as many
deadlines that count are armed as the capacity, and of those the one has the least number. -/
structure Evicts (d : Deadlines (Numbered α)) (key : DeadlineKey) (e : Armed (Numbered α)) :
    Prop where
  isBounded : key.isBounded = true
  unarmed : d.isArmed key = false
  full : boundedCount d.armed = capacity
  mem : e ∈ d.bounded
  oldest : ∀ e' ∈ d.bounded, e' ≠ e → e.task.number < e'.task.number

variable {d : Deadlines (Numbered α)} {e e' : Armed (Numbered α)} {key : DeadlineKey}

theorem Ordered.eq_of_key_eq (h : d.Ordered) (he : e ∈ d.armed) (he' : e' ∈ d.armed)
    (hkey : e.key = e'.key) :
  e = e'
  := List.inj_on_of_nodup_map h.nodup he he' hkey

theorem boundedCount_eq (d : Deadlines α) : boundedCount d.armed = d.bounded.length :=
  List.countP_eq_length_filter

/-- The oldest of the deadlines that count. -/
theorem Ordered.exists_oldest (h : d.Ordered) (hne : d.bounded ≠ []) :
  ∃ e rest, d.bounded = e :: rest
    ∧ ∀ e' ∈ d.bounded, e' ≠ e → e.task.number < e'.task.number
  := by
  obtain ⟨e, rest, heq⟩ := List.exists_cons_of_ne_nil hne
  use e, rest, heq
  have hascending : d.bounded.Pairwise fun e e' => e.task.number < e'.task.number :=
    h.ascending.sublist List.filter_sublist
  rw [heq] at hascending ⊢
  rintro e' (_ | ⟨_, he'⟩) hne
  · exact absurd rfl hne
  · exact (List.pairwise_cons.mp hascending).1 e' he'

theorem Ordered.exists_evicted (h : d.Ordered) (hbounded : key.isBounded = true)
    (hunarmed : d.isArmed key = false) (hfull : boundedCount d.armed = capacity) :
  ∃ e, d.Evicts key e
  := by
  have hne : d.bounded ≠ [] := by
    rw [← List.length_pos_iff, ← boundedCount_eq, hfull]
    decide
  obtain ⟨e, rest, heq, holdest⟩ := h.exists_oldest hne
  use e
  exact ⟨hbounded, hunarmed, hfull, by rw [heq]; exact List.mem_cons_self, holdest⟩

theorem Evicts.unique (h : d.Evicts key e) (h' : d.Evicts key e') : e = e' := by
  by_contra hne
  have hlt := h.oldest e' h'.mem (Ne.symm hne)
  have hgt := h'.oldest e h.mem hne
  omega

theorem makeRoom_of_lt {armed : List (Armed α)} (h : boundedCount armed < capacity) :
  makeRoom armed = armed
  := by
  rw [makeRoom, show boundedCount armed + 1 - capacity = 0 by omega]
  rfl

theorem makeRoom_of_eq {armed : List (Armed α)} (h : boundedCount armed = capacity) :
  makeRoom armed = evict armed
  := by
  rw [makeRoom, show boundedCount armed + 1 - capacity = 1 by omega]
  rfl

/-- Evicting one takes a step toward room. -/
theorem makeRoom_of_le {armed : List (Armed α)} (h : capacity ≤ boundedCount armed) :
  makeRoom armed = makeRoom (evict armed)
  := by
  have hcount : boundedCount (evict armed) = boundedCount armed - 1 := by
    rw [boundedCount, boundedCount, List.countP_eq_length_filter, List.countP_eq_length_filter,
      evict, filter_eraseP, List.length_tail]
  have hpos : 0 < capacity := by decide
  have htimes : boundedCount armed + 1 - capacity
      = boundedCount (evict armed) + 1 - capacity + 1 := by
    omega
  rw [makeRoom, makeRoom, htimes, List.range_succ_eq_map, List.foldl_cons, List.foldl_map]

/-- The oldest deadline that counts is evicted. -/
theorem evict_eq_filter {armed : List (Armed α)} {e : Armed α}
    (hnodup : (armed.map (·.key)).Nodup) (hfirst : armed.find? (·.key.isBounded) = some e) :
  evict armed = armed.filter (·.key != e.key)
  := by
  rw [evict]
  induction armed with
  | nil => cases hfirst
  | cons a rest ih =>
    obtain ⟨hnew, hnodup⟩ := List.nodup_cons.mp hnodup
    cases hcounts : a.key.isBounded with
    | true =>
      simp only [List.find?_cons, hcounts] at hfirst
      cases hfirst
      simp only [List.eraseP_cons, hcounts, List.filter_cons, bne_self_eq_false,
        Bool.false_eq_true, if_false]
      symm
      apply List.filter_eq_self.mpr
      intro e he
      rw [bne_iff_ne]
      intro hkey
      exact hnew (List.mem_map.mpr ⟨e, he, hkey⟩)
    | false =>
      have hskips : ¬ a.key.isBounded = true := Bool.eq_false_iff.mp hcounts
      simp only [List.find?_cons, hcounts] at hfirst
      have hne : (a.key != e.key) = true := by
        rw [bne_iff_ne]
        intro hkey
        have hbounded := List.find?_some hfirst
        exact hskips (hkey ▸ hbounded)
      simp only [List.eraseP_cons, hcounts, List.filter_cons, hne, if_true, ih hnodup hfirst,
        cond_false]

theorem Evicts.mem_evict_iff (h : d.Ordered) (hevicts : d.Evicts key e) :
  e' ∈ evict d.armed ↔ e' ∈ d.armed ∧ e' ≠ e
  := by
  obtain ⟨hmem, hbounded⟩ := mem_bounded_iff.mp hevicts.mem
  obtain ⟨a, before, after, hbefore, ha, heq, herase⟩ :=
    List.exists_of_eraseP (p := (·.key.isBounded)) hmem hbounded
  have hnodup : d.armed.Nodup := h.nodup.of_map
  -- The deadline that is dropped comes first of those that count, so its number is the least.
  obtain rfl : a = e := by
    by_contra hne
    have hlt := hevicts.oldest a (mem_bounded_iff.mpr ⟨by simp [heq], ha⟩) hne
    have hascending := h.ascending
    rw [heq, List.pairwise_append] at hascending
    rw [heq, List.mem_append, List.mem_cons] at hmem
    obtain hin | rfl | hin := hmem
    · exact hbefore e hin hbounded
    · exact hne rfl
    · have hgt := (List.pairwise_cons.mp hascending.2.1).1 e hin
      omega
  rw [evict, herase, heq]
  rw [heq, List.nodup_middle, List.nodup_cons] at hnodup
  simp only [List.mem_append, List.mem_cons] at hnodup ⊢
  constructor
  · intro hin
    refine ⟨hin.imp_right .inr, ?_⟩
    rintro rfl
    exact hnodup.1 hin
  · rintro ⟨hin | rfl | hin, hne⟩
    · exact .inl hin
    · exact absurd rfl hne
    · exact .inr hin

/-- There is room for a key that is armed, and as long as fewer than the capacity count. -/
theorem Ordered.room_for (h : d.Ordered) (hbounded : key.isBounded = true)
    (hnotFull : d.isArmed key = true ∨ boundedCount d.armed ≠ capacity) :
  boundedCount (d.armed.filter (·.key != key)) < capacity
  := by
  have hroom := h.room
  have hcount : boundedCount (d.armed.filter (·.key != key))
      = (d.bounded.filter (·.key != key)).length := by
    rw [boundedCount, List.countP_eq_length_filter, filter_armed]
  rw [boundedCount_eq] at hroom hnotFull
  rw [hcount]
  have hle : (d.bounded.filter (·.key != key)).length ≤ d.bounded.length :=
    List.length_filter_le _ _
  obtain harmed | hne := hnotFull
  · obtain ⟨e, he, rfl⟩ := isArmed_iff.mp harmed
    have hlt : (d.bounded.filter (·.key != e.key)).length < d.bounded.length :=
      List.length_filter_lt_length_iff_exists.mpr
        ⟨e, mem_bounded_iff.mpr ⟨he, hbounded⟩, by simp⟩
    omega
  · omega

/-- Arming a deadline drops the one of its key and the one that it evicts, and no other. -/
theorem mem_arm_iff (h : d.Ordered) (key : DeadlineKey) (delay : Nat) (task : Numbered α) :
  e ∈ (d.arm key delay task).armed
    ↔ e = ⟨key, d.now, delay, task⟩ ∨ e ∈ d.armed ∧ e.key ≠ key ∧ ¬ d.Evicts key e
  := by
  let others := d.armed.filter (·.key != key)
  have hothers : e ∈ others ↔ e ∈ d.armed ∧ e.key ≠ key := by simp [others]
  have harm : (d.arm key delay task).armed
      = (if key.isBounded then makeRoom others else others) ++ [⟨key, d.now, delay, task⟩] := rfl
  rw [harm, List.mem_append, List.mem_singleton, or_comm]
  apply or_congr_right
  by_cases hfull : key.isBounded = true ∧ d.isArmed key = false ∧ boundedCount d.armed = capacity
  · obtain ⟨hbounded, hunarmed, hfull⟩ := hfull
    obtain ⟨oldest, holdest⟩ := h.exists_evicted hbounded hunarmed hfull
    have hall : others = d.armed := by
      apply List.filter_eq_self.mpr
      intro e he
      rw [bne_iff_ne]
      rintro rfl
      rw [isArmed_iff.mpr ⟨e, he, rfl⟩] at hunarmed
      cases hunarmed
    have hevicts : d.Evicts key e ↔ e = oldest :=
      ⟨fun hevicts => hevicts.unique holdest, fun heq => heq ▸ holdest⟩
    rw [if_pos hbounded, makeRoom_of_eq (by rw [hall, hfull]), hall, holdest.mem_evict_iff h,
      hevicts, ← and_assoc, ← hothers, hall]
  · have hnone : ¬ d.Evicts key e :=
      fun hevicts => hfull ⟨hevicts.isBounded, hevicts.unarmed, hevicts.full⟩
    have hkept : (if key.isBounded then makeRoom others else others) = others := by
      split
      next hbounded =>
        apply makeRoom_of_lt
        apply h.room_for hbounded
        by_contra hnotFull
        rw [not_or, not_not, Bool.not_eq_true] at hnotFull
        exact hfull ⟨hbounded, hnotFull⟩
      next => rfl
    rw [hkept, hothers, and_iff_left hnone]

/-- Arming one deadline more than the capacity drops the oldest of those that count, and nothing
else. -/
theorem mem_arm_of_full (h : d.Ordered) (hbounded : key.isBounded = true)
    (hunarmed : d.isArmed key = false) (hfull : boundedCount d.armed = capacity) (delay : Nat)
    (task : Numbered α) :
  ∃ oldest ∈ d.armed, oldest.key.isBounded = true
    ∧ (∀ e ∈ d.armed, e.key.isBounded = true → e ≠ oldest → oldest.task.number < e.task.number)
    ∧ ∀ e, e ∈ (d.arm key delay task).armed
        ↔ e = ⟨key, d.now, delay, task⟩ ∨ e ∈ d.armed ∧ e ≠ oldest
  := by
  obtain ⟨oldest, holdest⟩ := h.exists_evicted hbounded hunarmed hfull
  obtain ⟨hmem, hcounts⟩ := mem_bounded_iff.mp holdest.mem
  refine ⟨oldest, hmem, hcounts, ?_, ?_⟩
  · intro e he hcounts hne
    exact holdest.oldest e (mem_bounded_iff.mpr ⟨he, hcounts⟩) hne
  · intro e
    have hevicts : ¬ d.Evicts key e ↔ e ≠ oldest :=
      not_congr ⟨fun hevicts => hevicts.unique holdest, fun heq => heq ▸ holdest⟩
    rw [mem_arm_iff h, hevicts]
    apply or_congr_right
    apply and_congr_right
    intro he
    apply and_iff_right
    rintro rfl
    rw [isArmed_iff.mpr ⟨e, he, rfl⟩] at hunarmed
    cases hunarmed

/-- Arming any other deadline drops nothing but the one of its key. -/
theorem mem_arm_of_room (h : d.Ordered)
    (hroom : key.isBounded = false ∨ d.isArmed key = true ∨ boundedCount d.armed < capacity)
    (delay : Nat) (task : Numbered α) :
  e ∈ (d.arm key delay task).armed
    ↔ e = ⟨key, d.now, delay, task⟩ ∨ e ∈ d.armed ∧ e.key ≠ key
  := by
  have hnone : ¬ d.Evicts key e := by
    rintro ⟨hbounded, hunarmed, hfull, -, -⟩
    obtain hnot | harmed | hlt := hroom
    · cases hnot.symm.trans hbounded
    · cases harmed.symm.trans hunarmed
    · omega
  rw [mem_arm_iff h, and_iff_left hnone]

/-- A deadline that does not count is never evicted. -/
theorem Evicts.ne_unbounded (h : d.Evicts key e) : e.key ≠ .resurface ∧ e.key ≠ .persistWrite := by
  have hcounts := (mem_bounded_iff.mp h.mem).2
  constructor
  all_goals
    intro heq
    rw [heq] at hcounts
    cases hcounts

/-! ### Operations keep the order -/

/-- Dropping deadlines keeps the order of the others. -/
theorem Ordered.filter (h : d.Ordered) (p : Armed (Numbered α) → Bool) (now : Nat) :
  Ordered { now, armed := d.armed.filter p }
  where
  ascending := h.ascending.sublist List.filter_sublist
  nodup := h.nodup.sublist (List.filter_sublist.map _)
  room := Nat.le_trans List.filter_sublist.countP_le h.room

theorem Ordered.moveTo (h : d.Ordered) (time : Nat) : (d.moveTo time).Ordered :=
  ⟨h.ascending, h.nodup, h.room⟩

/-- Arming a deadline under a new number keeps the order. -/
theorem Ordered.arm (h : d.Ordered) (key : DeadlineKey) (delay : Nat) {task : Numbered α}
    (hnew : ∀ e ∈ d.armed, e.task.number < task.number) :
  (d.arm key delay task).Ordered
  := by
  let others := d.armed.filter (·.key != key)
  let left := if key.isBounded then makeRoom others else others
  have harm : (d.arm key delay task).armed = left ++ [⟨key, d.now, delay, task⟩] := rfl
  have hothers : left.Sublist others := by
    simp only [left]
    split
    next => apply makeRoom_sublist
    next => apply List.Sublist.refl
  have hleft : left.Sublist d.armed := hothers.trans List.filter_sublist
  constructor
  · rw [harm, List.pairwise_append]
    refine ⟨h.ascending.sublist hleft, List.pairwise_singleton _ _, ?_⟩
    rintro e he _ (_ | ⟨_, ⟨⟩⟩)
    apply hnew e (hleft.subset he)
  · rw [harm, List.map_append, List.nodup_append]
    refine ⟨h.nodup.sublist (hleft.map _), List.nodup_singleton _, ?_⟩
    rintro k hk _ (_ | ⟨_, ⟨⟩⟩) rfl
    obtain ⟨e, he, rfl⟩ := List.mem_map.mp hk
    have hne := (List.mem_filter.mp (hothers.subset he)).2
    simp at hne
  · rw [boundedCount_eq]
    cases hbounded : key.isBounded with
    | false =>
      rw [bounded_arm_of_not_isBounded hbounded, ← boundedCount_eq]
      exact h.room
    | true =>
      rw [bounded_arm hbounded, roomFor, List.length_append, List.length_drop]
      have : 0 < capacity := by decide
      simp only [List.length_singleton]
      omega

end Deadlines

end SafetyHub
