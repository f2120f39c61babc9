import SafetyHub.Proofs.Deadline.Bounded

/-!
# What is armed

Operations on deadlines are described by the keys that are armed after them.  Arming a deadline
may drop others, but only bounded ones: those for saving and for issues that come back stay.
-/

namespace SafetyHub.Deadlines

variable {α : Type}

theorem isArmed_filter (d : Deadlines α) (p : DeadlineKey → Bool) (key : DeadlineKey) :
  (d.armed.filter (p ·.key)).any (·.key == key) = (d.isArmed key && p key)
  := by
  rw [Bool.eq_iff_iff, Bool.and_eq_true, isArmed_iff]
  simp only [List.any_eq_true, List.mem_filter, beq_iff_eq]
  constructor
  · rintro ⟨e, ⟨he, hp⟩, rfl⟩
    exact ⟨⟨e, he, rfl⟩, hp⟩
  · rintro ⟨⟨e, he, rfl⟩, hp⟩
    exact ⟨e, ⟨he, hp⟩, rfl⟩

theorem isArmed_disarm (d : Deadlines α) (key other : DeadlineKey) :
  (d.disarm key).isArmed other = (d.isArmed other && other != key)
  := isArmed_filter d (· != key) other

theorem isArmed_take (d : Deadlines α) (e : Armed α) (key : DeadlineKey) :
  (d.take e).isArmed key = (d.isArmed key && key != e.key)
  := isArmed_filter d (· != e.key) key

theorem isArmed_disarmMatching (d : Deadlines α) (p : DeadlineKey → Bool) (key : DeadlineKey) :
  (d.disarmMatching p).isArmed key = (d.isArmed key && !p key)
  := isArmed_filter d (!p ·) key

/-- Making room drops no deadline that is not bounded. -/
theorem mem_makeRoom_iff {armed : List (Armed α)} {e : Armed α} (h : e.key.isBounded = false) :
  e ∈ makeRoom armed ↔ e ∈ armed
  := by
  rw [makeRoom]
  generalize List.range (boundedCount armed + 1 - capacity) = times
  induction times generalizing armed with
  | nil => rfl
  | cons _ times ih =>
    rw [List.foldl_cons, ih, evict, List.mem_eraseP_of_neg (by simp [h])]

theorem mem_arm (d : Deadlines α) (key : DeadlineKey) (delay : Nat) (task : α) :
  { key, armedAt := d.now, delay, task } ∈ (d.arm key delay task).armed
  := List.mem_append_right _ (List.mem_singleton_self _)

theorem isArmed_arm (d : Deadlines α) (key : DeadlineKey) (delay : Nat) (task : α) :
  (d.arm key delay task).isArmed key = true
  := isArmed_iff.mpr ⟨_, mem_arm d key delay task, rfl⟩

/-- The delay of a deadline has elapsed when it is due. -/
theorem delay_le_due (e : Armed α) :
  e.armedAt * Instant.millisecond + e.delay ≤ e.due * Instant.millisecond
  := by
  have hpos : 0 < Instant.millisecond := by decide
  have hceil := Nat.lt_div_mul_add (a := e.delay + (Instant.millisecond - 1)) hpos
  rw [Armed.due, Nat.add_mul]
  omega

/-! ### Deadlines that are left alone -/

/-- The deadline of a key is left as it is. -/
def Spares (d : Deadlines α) (key : DeadlineKey) (d' : Deadlines α) : Prop :=
  ∀ e, e.key = key → (e ∈ d'.armed ↔ e ∈ d.armed)

namespace Spares

variable {d d' d'' : Deadlines α} {key : DeadlineKey}

theorem refl (d : Deadlines α) (key : DeadlineKey) : d.Spares key d := fun _ _ => Iff.rfl

theorem trans (hab : d.Spares key d') (hbc : d'.Spares key d'') : d.Spares key d'' := by
  intro e he
  apply (hbc e he).trans (hab e he)

theorem isArmed_eq (hspares : d.Spares key d') : d'.isArmed key = d.isArmed key := by
  rw [Bool.eq_iff_iff, isArmed_iff, isArmed_iff]
  apply exists_congr
  intro e
  rw [and_comm, and_comm (a := e ∈ d.armed)]
  apply and_congr_right (hspares e)

theorem filter (d : Deadlines α) {p : DeadlineKey → Bool} (hkey : p key = true) (now : Nat) :
  d.Spares key { now, armed := d.armed.filter (p ·.key) }
  := by
  rintro e rfl
  rw [List.mem_filter]
  apply and_iff_left hkey

theorem disarm (d : Deadlines α) {other : DeadlineKey} (hne : key ≠ other) :
  d.Spares key (d.disarm other)
  := filter d (p := (· != other)) (bne_iff_ne.mpr hne) d.now

theorem disarmMatching (d : Deadlines α) {p : DeadlineKey → Bool} (hkey : p key = false) :
  d.Spares key (d.disarmMatching p)
  := filter d (p := (!p ·)) (by rw [hkey]; rfl) d.now

theorem disarmEach (d : Deadlines α) {keys : List DeadlineKey} (hkeys : key ∉ keys) :
  d.Spares key (d.disarmEach keys)
  := by
  induction keys generalizing d with
  | nil => apply refl
  | cons other keys ih =>
    obtain ⟨hne, hrest⟩ := List.ne_and_not_mem_of_not_mem_cons hkeys
    apply (disarm d hne).trans
    apply ih _ hrest

theorem take (d : Deadlines α) {e : Armed α} (hne : key ≠ e.key) : d.Spares key (d.take e) :=
  filter d (p := (· != e.key)) (bne_iff_ne.mpr hne) _

/-- Arming a deadline leaves one alone that is not bounded. -/
theorem arm (d : Deadlines α) {other : DeadlineKey} (hne : key ≠ other)
    (hkey : key.isBounded = false) (delay : Nat) (task : α) :
  d.Spares key (d.arm other delay task)
  := by
  rintro e rfl
  have hother : e ≠ { key := other, armedAt := d.now, delay, task } := by
    rintro rfl
    apply hne rfl
  have hstays : e ∈ d.armed.filter (·.key != other) ↔ e ∈ d.armed := by
    rw [List.mem_filter]
    apply and_iff_left (bne_iff_ne.mpr hne)
  rw [Deadlines.arm, List.mem_append, List.mem_singleton, or_iff_left hother, ← hstays]
  split
  · apply mem_makeRoom_iff hkey
  · apply Iff.rfl

end Spares

end SafetyHub.Deadlines
