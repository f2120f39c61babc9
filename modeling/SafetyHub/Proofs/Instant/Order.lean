import SafetyHub.Instant.Basic
import Mathlib.Tactic.Common

/-!
# The order of instants

Instants are ordered by second and nanosecond.  Outside leap seconds the time that has passed
since an instant is less than a delay just before the instant that adding the delay comes to
(`since_lt_of_add?`, `add?_eq_some_iff`); since an instant in a leap second it may be so for one
second more (`le_since_of_add?`).

What is armed at one instant for a later one, to come when the time between them has passed, comes
by then (`exists_aim`).  This fails only for a later instant in a leap second that has not begun:
the time to it counts the second before the leap second, which is left out when that time is added
up again.
-/

namespace SafetyHub.Instant

open Std

variable {a b t u now : Instant}

theorem lt_iff : a < b ↔ a.seconds < b.seconds ∨ a.seconds = b.seconds ∧ a.nanos < b.nanos :=
  Iff.rfl

theorem le_iff : a ≤ b ↔ a.seconds < b.seconds ∨ a.seconds = b.seconds ∧ a.nanos ≤ b.nanos :=
  Iff.rfl

theorem min_eq_ite (a b : Instant) : min a b = if a ≤ b then a else b := rfl

instance : IsLinearOrder Instant where
  le_refl a := .inr ⟨rfl, Nat.le_refl a.nanos⟩
  le_trans a b c := by
    simp only [le_iff]
    omega
  le_antisymm a b := by
    simp only [le_iff]
    intro hab hba
    ext <;> omega
  le_total a b := by
    simp only [le_iff]
    omega

instance : LawfulOrderMin Instant where
  min_eq_or a b := by
    rw [min_eq_ite]
    split
    · exact .inl rfl
    · exact .inr rfl
  le_min_iff a b c := by
    rw [min_eq_ite]
    simp only [le_iff]
    split <;> omega

theorem lt_of_le_of_lt (hab : a ≤ b) (hbt : b < t) : a < t := by
  rw [le_iff] at hab
  rw [lt_iff] at hbt ⊢
  omega

theorem le_of_not_lt (h : ¬ a < b) : b ≤ a := by
  rw [lt_iff] at h
  rw [le_iff]
  omega

theorem not_lt_of_le (hle : a ≤ b) : ¬ b < a := by
  rw [le_iff] at hle
  rw [lt_iff]
  omega

/-! ### Adding time -/

theorem isLeap_iff : t.isLeap = true ↔ second ≤ t.nanos := decide_eq_true_iff

theorem ofParts?_eq_some_iff {seconds : Int} {nanos : Nat} :
  ofParts? seconds nanos = some t ↔ t.seconds = seconds ∧ t.nanos = nanos
  := by
  unfold ofParts?
  split
  next holds =>
    rw [Option.some_inj]
    constructor
    · rintro rfl
      exact ⟨rfl, rfl⟩
    · rintro ⟨rfl, rfl⟩
      rfl
  next hnone =>
    apply iff_of_false (Option.some_ne_none t).symm
    rintro ⟨rfl, rfl⟩
    apply hnone t.holds

/-- Adding time comes to a leap second only within it. -/
theorem isLeap_of_add? {delay : Nat} (hadd : a.add? delay = some t) (ht : t.isLeap = true) :
  a.isLeap = true ∧ a.seconds = t.seconds
  := by
  unfold add? at hadd
  split at hadd
  next hstays =>
    obtain ⟨hseconds, -⟩ := ofParts?_eq_some_iff.mp hadd
    exact ⟨(Bool.and_eq_true_iff.mp hstays).1, hseconds.symm⟩
  next =>
    obtain ⟨-, hnanos⟩ := ofParts?_eq_some_iff.mp hadd
    rw [isLeap_iff, hnanos] at ht
    have hlt := Nat.mod_lt (a.nanos % second + delay) (by decide : 0 < second)
    omega

theorem add?_of_stays {delay : Nat} (ha : a.isLeap = true)
    (hstays : a.nanos + delay < 2 * second) :
  a.add? delay = ofParts? a.seconds (a.nanos + delay)
  := by
  rw [add?, if_pos]
  rw [ha, Bool.true_and, decide_eq_true_eq]
  apply hstays

theorem add?_of_leaves {delay : Nat} (seconds nanos : Nat)
    (hleaves : a.isLeap = true → 2 * second ≤ a.nanos + delay)
    (hsum : a.nanos % second + delay = seconds * second + nanos) (hnanos : nanos < second) :
  a.add? delay = ofParts? (a.seconds + seconds) nanos
  := by
  have hstays : ¬ (a.isLeap && decide (a.nanos + delay < 2 * second)) = true := by
    rw [Bool.and_eq_true, decide_eq_true_eq]
    rintro ⟨hleap, hstays⟩
    apply absurd (hleaves hleap) (Nat.not_le.mpr hstays)
  have hseconds : (seconds * second + nanos) / second = seconds := by
    unfold second at hnanos ⊢
    omega
  have hrest : (seconds * second + nanos) % second = nanos := by
    unfold second at hnanos ⊢
    omega
  simp only [add?, if_neg hstays, hsum, hseconds, hrest]

/-! ### The time between instants -/

/-- The time between two instants within a second, or within a leap second. -/
theorem since_of_seconds_eq (hseconds : now.seconds = t.seconds) :
  t.since now = (t.nanos : Int) - now.nanos
  := by
  have hday : now.secondOfDay = t.secondOfDay := by rw [secondOfDay, hseconds, secondOfDay]
  simp [since, hday, hseconds]

/-- The time that has passed since a leap second leaves out its extra second or not. -/
theorem since_of_isLeap (hnow : now.isLeap = true) (ht : t.isLeap = false) :
  t.since now = (t.seconds - now.seconds) * second + ((t.nanos : Int) - now.nanos)
    ∨ t.since now = (t.seconds - now.seconds + 1) * second + ((t.nanos : Int) - now.nanos)
  := by
  simp only [since, hnow, ht, Bool.and_true, Bool.and_false, Bool.false_eq_true, if_false]
  split
  · exact .inr rfl
  · left
    rw [Int.add_zero]

/-- The time between instants can be told in milliseconds of 64 bits with a sign. -/
theorem natAbs_since_le (a b : Instant) :
  (a.since b).natAbs ≤ Duration.limit * millisecond
  := by
  have haholds := a.holds
  have hbholds := b.holds
  unfold Holds minSecond maxSecond at haholds hbholds
  unfold since Duration.limit millisecond second at *
  dsimp only
  split
  · omega
  · split <;> omega

/-- Before an instant there is one outside leap seconds. -/
theorem exists_le_of_not_isLeap (t : Instant) : ∃ u : Instant, u.isLeap = false ∧ u ≤ t := by
  obtain ⟨hmin, hmax, -⟩ := t.holds
  use ⟨t.seconds, 0, hmin, hmax, by decide⟩
  exact ⟨rfl, .inr ⟨rfl, Nat.zero_le _⟩⟩

/-! ### Counting nanoseconds -/

/-- The nanoseconds from the beginning of 1970, where those of a leap second are counted like
those of the second after it. -/
def count (t : Instant) : Int :=
  t.seconds * second + t.nanos

theorem nanos_lt (ht : t.isLeap = false) : t.nanos < second := by
  simpa [isLeap] using ht

theorem lt_iff_count_lt (ha : a.isLeap = false) (hb : b.isLeap = false) :
  a < b ↔ a.count < b.count
  := by
  have hnanos := nanos_lt ha
  have hnanos' := nanos_lt hb
  rw [lt_iff]
  unfold count second at *
  omega

theorem count_le_of_le (ha : a.isLeap = false) (hb : b.isLeap = false) (hle : a ≤ b) :
  a.count ≤ b.count
  := by
  have hnanos := nanos_lt ha
  have hnanos' := nanos_lt hb
  rw [le_iff] at hle
  unfold count second at *
  omega

theorem since_eq_count (ht : t.isLeap = false) (hnow : now.isLeap = false) :
  t.since now = t.count - now.count
  := by
  have hsince : t.since now
      = (t.seconds - now.seconds) * second + ((t.nanos : Int) - now.nanos) := by
    simp [since, ht, hnow]
  rw [hsince]
  unfold count second
  omega

/-- Adding time to an instant outside leap seconds adds to what it counts. -/
theorem add?_eq_some_iff (ha : a.isLeap = false) {delay : Nat} :
  a.add? delay = some t ↔ t.isLeap = false ∧ t.count = a.count + delay
  := by
  have hnanos := nanos_lt ha
  rw [add?_of_leaves ((a.nanos + delay) / second) ((a.nanos + delay) % second)
    (fun hleap => absurd hleap (by rw [ha]; decide))
    (by rw [Nat.mod_eq_of_lt hnanos, Nat.mul_comm, Nat.div_add_mod]) (Nat.mod_lt _ (by decide)),
    ofParts?_eq_some_iff]
  unfold count isLeap second at *
  rw [decide_eq_false_iff_not]
  omega

/-- Adding time fails only beyond every instant outside leap seconds. -/
theorem exists_add?_of_count_le (ha : a.isLeap = false) (hb : b.isLeap = false) (delay : Nat)
    (hle : a.count + delay ≤ b.count) :
  ∃ t, a.add? delay = some t
  := by
  have hnanos := nanos_lt ha
  have hnanos' := nanos_lt hb
  have hsum : Holds ((a.count + delay) / second) ((a.count + delay) % second).toNat := by
    have haholds := a.holds
    have hbholds := b.holds
    unfold Holds count minSecond maxSecond second at *
    omega
  use ⟨_, _, hsum⟩
  apply (add?_eq_some_iff ha).mpr
  unfold count isLeap second at *
  rw [decide_eq_false_iff_not]
  dsimp only
  omega

/-- Adding time to an instant in a leap second stays in it or leaves its extra second out. -/
theorem count_of_add?_of_isLeap (ha : a.isLeap = true) {delay : Nat}
    (hadd : a.add? delay = some t) :
  t.isLeap = true ∧ t.seconds = a.seconds ∧ t.count = a.count + delay
    ∨ t.isLeap = false ∧ t.count + second = a.count + delay
  := by
  have hnanos := isLeap_iff.mp ha
  have hholds := a.holds
  unfold Holds at hholds
  by_cases hstays : a.nanos + delay < 2 * second
  · left
    rw [add?_of_stays ha hstays, ofParts?_eq_some_iff] at hadd
    rw [isLeap_iff]
    unfold count second at *
    omega
  · right
    rw [add?_of_leaves ((a.nanos - second + delay) / second) ((a.nanos - second + delay) % second)
      (fun _ => Nat.not_lt.mp hstays) (by unfold second at *; omega) (Nat.mod_lt _ (by decide)),
      ofParts?_eq_some_iff] at hadd
    unfold count isLeap second at *
    rw [decide_eq_false_iff_not]
    omega

/-- Before the instant that adding time comes to, less than that time has passed. -/
theorem since_lt_of_add? {delay : Nat} (hadd : a.add? delay = some t)
    (hu : u.isLeap = false) (hlt : u < t) :
  u.since a < delay
  := by
  have hunanos := nanos_lt hu
  cases ha : a.isLeap with
  | false =>
    obtain ⟨ht, hcount⟩ := (add?_eq_some_iff ha).mp hadd
    rw [lt_iff_count_lt hu ht] at hlt
    rw [since_eq_count hu ha]
    omega
  | true =>
    have hnanos := isLeap_iff.mp ha
    have hsince := since_of_isLeap ha hu
    obtain ⟨-, hseconds, hcount⟩ | ⟨ht, hcount⟩ := count_of_add?_of_isLeap ha hadd
    · rw [lt_iff] at hlt
      by_cases hsame : u.seconds = a.seconds
      · rw [since_of_seconds_eq hsame.symm]
        unfold count second at *
        omega
      · unfold count second at *
        omega
    · rw [lt_iff_count_lt hu ht] at hlt
      unfold count second at *
      omega

/-- A second after the instant that adding time comes to, that time has passed. -/
theorem le_since_of_add? {later : Instant} {delay : Nat} (hadd : a.add? delay = some t)
    (hlater : t.add? second = some later) (hu : u.isLeap = false) (hle : later ≤ u) :
  delay ≤ u.since a
  := by
  cases ha : a.isLeap with
  | false =>
    obtain ⟨ht, hcount⟩ := (add?_eq_some_iff ha).mp hadd
    obtain ⟨hleap, hcount'⟩ := (add?_eq_some_iff ht).mp hlater
    have hle' := count_le_of_le hleap hu hle
    rw [since_eq_count hu ha]
    omega
  | true =>
    have hsince : u.count - a.count ≤ u.since a := by
      unfold count second
      obtain hsince | hsince := since_of_isLeap ha hu <;> rw [hsince] <;> unfold second <;> omega
    obtain ⟨ht, -, hcount⟩ | ⟨ht, hcount⟩ := count_of_add?_of_isLeap ha hadd
    · -- a second after an instant in a leap second lies beyond that leap second
      obtain ⟨hleap, hseconds, hcount'⟩ | ⟨hleap, hcount'⟩ := count_of_add?_of_isLeap ht hlater
      · have htnanos := isLeap_iff.mp ht
        have hholds := later.holds
        unfold Holds count second at *
        omega
      · have hle' := count_le_of_le hleap hu hle
        omega
    · obtain ⟨hleap, hcount'⟩ := (add?_eq_some_iff ht).mp hlater
      have hle' := count_le_of_le hleap hu hle
      omega

/-! ### What is armed -/

/-- What is armed within a leap second for an instant after it comes by then: at that instant,
within the leap second, or a second before that instant. -/
theorem exists_aim_of_isLeap (hnow : now.isLeap = true) (ht : t.isLeap = false)
    (hlt : now.seconds < t.seconds) :
  ∃ aim, now.add? (t.since now).toNat = some aim ∧ aim ≤ t
  := by
  have htholds := t.holds
  have hholds := now.holds
  have hleap := isLeap_iff.mp hnow
  have hnanos := nanos_lt ht
  obtain ⟨k, hk⟩ : ∃ k : Nat, t.seconds = now.seconds + k :=
    ⟨(t.seconds - now.seconds).toNat, by omega⟩
  have hsince := since_of_isLeap hnow ht
  unfold Holds second at *
  obtain hsince | hsince := hsince
  · by_cases hnext : k = 1
    · -- the time counted does not lead out of the leap second
      let aim : Instant := {
        seconds := now.seconds
        nanos := now.nanos + (t.since now).toNat
        holds := by unfold Holds second; omega }
      refine ⟨aim, ?_, .inl hlt⟩
      rw [add?_of_stays hnow (by unfold second; omega), ofParts?_eq_some_iff]
      exact ⟨rfl, rfl⟩
    · let aim : Instant := {
        seconds := t.seconds - 1
        nanos := t.nanos
        holds := by unfold Holds second; omega }
      refine ⟨aim, ?_, .inl (Int.sub_lt_self _ Int.one_pos)⟩
      rw [add?_of_leaves (k - 1) t.nanos (fun _ => by unfold second; omega)
        (by unfold second; omega) hnanos, ofParts?_eq_some_iff]
      have hseconds : t.seconds - 1 = now.seconds + (k - 1 : Nat) := by omega
      exact ⟨hseconds, rfl⟩
  · refine ⟨t, ?_, .inr ⟨rfl, Nat.le_refl _⟩⟩
    rw [add?_of_leaves k t.nanos (fun _ => by unfold second; omega) (by unfold second; omega)
      hnanos, ofParts?_eq_some_iff]
    exact ⟨hk, rfl⟩

/-- What is armed for a later instant comes by then, unless that instant lies in a leap second
that has not begun. -/
theorem exists_aim (hlt : now < t)
    (hleap : t.isLeap = true → now.isLeap = true ∧ now.seconds = t.seconds) :
  ∃ aim, now.add? (t.since now).toNat = some aim ∧ aim ≤ t
  := by
  have hself : t ≤ t := IsPreorder.le_refl t
  by_cases ht : t.isLeap = true
  · -- both lie in one leap second, and adding the time between them stays in it
    obtain ⟨hnow, hseconds⟩ := hleap ht
    have htholds := t.holds
    rw [lt_iff] at hlt
    refine ⟨t, ?_, hself⟩
    unfold Holds at htholds
    rw [since_of_seconds_eq hseconds, add?_of_stays hnow (by omega), ofParts?_eq_some_iff]
    omega
  rw [Bool.not_eq_true] at ht
  by_cases hnow : now.isLeap = true
  · have hnanos := isLeap_iff.mp hnow
    have htnanos := nanos_lt ht
    rw [lt_iff] at hlt
    apply exists_aim_of_isLeap hnow ht
    omega
  · rw [Bool.not_eq_true] at hnow
    rw [lt_iff_count_lt hnow ht] at hlt
    refine ⟨t, (add?_eq_some_iff hnow).mpr ⟨ht, ?_⟩, hself⟩
    rw [since_eq_count ht hnow]
    omega

end SafetyHub.Instant
