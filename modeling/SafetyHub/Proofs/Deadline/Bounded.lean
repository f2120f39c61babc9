import SafetyHub.Deadline.Basic
import Mathlib.Tactic.Common

/-!
# Bounded deadlines

The deadlines of refreshes and actions, in the order of arming, are `Deadlines.bounded`.  Every
operation on deadlines is described by what it makes of them: dropping deadlines filters the
list, and arming one puts it last and drops from the front what is over the capacity.
-/

namespace SafetyHub.Deadlines

variable {α : Type}

/-- The armed deadlines that count toward the capacity. -/
def bounded (d : Deadlines α) : List (Armed α) :=
  d.armed.filter (·.key.isBounded)

theorem mem_bounded_iff {d : Deadlines α} {e : Armed α} :
  e ∈ d.bounded ↔ e ∈ d.armed ∧ e.key.isBounded = true
  := List.mem_filter

theorem isArmed_iff {d : Deadlines α} {key : DeadlineKey} :
  d.isArmed key = true ↔ ∃ e ∈ d.armed, e.key = key
  := by
  simp [isArmed]

theorem isArmed_of_mem_bounded {d : Deadlines α} {e : Armed α} (h : e ∈ d.bounded) :
  d.isArmed e.key = true
  := isArmed_iff.mpr ⟨e, (mem_bounded_iff.mp h).1, rfl⟩

/-! ### Room -/

theorem filter_eraseP (p : α → Bool) (l : List α) :
  (l.eraseP p).filter p = (l.filter p).tail
  := by
  induction l with
  | nil => rfl
  | cons a l ih =>
    by_cases ha : p a = true
    · simp [ha]
    · simp [ha, ih]

/-- Evicting a number of times drops as many of the oldest bounded deadlines. -/
theorem filter_evictions (armed : List (Armed α)) (times : List Nat) :
  (times.foldl (fun armed _ => evict armed) armed).filter (·.key.isBounded)
    = (armed.filter (·.key.isBounded)).drop times.length
  := by
  induction times generalizing armed with
  | nil => rfl
  | cons _ times ih =>
    rw [List.foldl_cons, ih, evict, filter_eraseP, List.length_cons, List.drop_tail]

theorem filter_makeRoom (armed : List (Armed α)) :
  (makeRoom armed).filter (·.key.isBounded)
    = (armed.filter (·.key.isBounded)).drop
        ((armed.filter (·.key.isBounded)).length + 1 - capacity)
  := by
  rw [makeRoom, filter_evictions, List.length_range, boundedCount, List.countP_eq_length_filter]

/-! ### Operations -/

/-- Dropping deadlines drops the bounded ones among them. -/
theorem filter_armed (d : Deadlines α) (p : Armed α → Bool) :
  (d.armed.filter p).filter (·.key.isBounded) = d.bounded.filter p
  := by
  simp only [bounded, List.filter_filter, Bool.and_comm]

theorem filter_bounded_of_not_isBounded {d : Deadlines α} {key : DeadlineKey}
    (h : key.isBounded = false) :
  d.bounded.filter (·.key != key) = d.bounded
  := by
  apply List.filter_eq_self.mpr
  intro e he
  rw [bne_iff_ne]
  rintro rfl
  rw [(mem_bounded_iff.mp he).2] at h
  cases h

/-- The bounded deadlines without one that is to be armed, once there is room for it. -/
def roomFor (d : Deadlines α) (key : DeadlineKey) : List (Armed α) :=
  let others := d.bounded.filter (·.key != key)
  others.drop (others.length + 1 - capacity)

theorem mem_bounded_of_mem_roomFor {d : Deadlines α} {key : DeadlineKey} {e : Armed α}
    (h : e ∈ d.roomFor key) :
  e ∈ d.bounded
  := (List.mem_filter.mp (List.mem_of_mem_drop h)).1

theorem bounded_arm {d : Deadlines α} {key : DeadlineKey} (h : key.isBounded = true)
    (delay : Nat) (task : α) :
  (d.arm key delay task).bounded = d.roomFor key ++ [⟨key, d.now, delay, task⟩]
  := by
  rw [bounded, arm, if_pos h, List.filter_append, filter_makeRoom, filter_armed, roomFor]
  simp [h]

theorem bounded_arm_of_not_isBounded {d : Deadlines α} {key : DeadlineKey}
    (h : key.isBounded = false) (delay : Nat) (task : α) :
  (d.arm key delay task).bounded = d.bounded
  := by
  rw [bounded, arm, if_neg (by simp [h]), List.filter_append, filter_armed,
    filter_bounded_of_not_isBounded h]
  simp [h]

theorem bounded_disarmMatching (d : Deadlines α) (p : DeadlineKey → Bool) :
  (d.disarmMatching p).bounded = d.bounded.filter (!p ·.key)
  := filter_armed d _

theorem bounded_disarm (d : Deadlines α) (key : DeadlineKey) :
  (d.disarm key).bounded = d.bounded.filter (·.key != key)
  := filter_armed d _

theorem bounded_disarmEach (d : Deadlines α) (keys : List DeadlineKey) :
  (d.disarmEach keys).bounded = d.bounded.filter (!keys.contains ·.key)
  := by
  induction keys generalizing d with
  | nil => apply (List.filter_eq_self.mpr fun _ _ => rfl).symm
  | cons key keys ih =>
    rw [disarmEach, List.foldl_cons, ← disarmEach, ih, bounded_disarm, List.filter_filter]
    apply List.filter_congr
    intro e _
    rw [List.contains_cons, Bool.not_or, Bool.and_comm]
    rfl

theorem bounded_take (d : Deadlines α) (e : Armed α) :
  (d.take e).bounded = d.bounded.filter (·.key != e.key)
  := filter_armed d _

end SafetyHub.Deadlines
