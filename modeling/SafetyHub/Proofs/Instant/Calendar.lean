import SafetyHub.Instant.Calendar
import Mathlib.Tactic.Common
import Mathlib.Tactic.IntervalCases

/-!
# Dates and days

Every day has a date of the calendar, `isValid_ofDays`, from which the number of the day is found
again, `toDays_ofDays`.  Both rest on a day's place in its year from March to February, where
`daysBefore` counts the days before a year and `daysBeforeMonth` those before a month.
-/

namespace SafetyHub.Date

/-- The days of a year from March are those of its calendar year, with the leap day, if any, of the
next. -/
theorem daysBefore_succ (y : Int) :
  daysBefore (y + 1) = daysBefore y + 365 + if isLeap (y + 1) then 1 else 0
  := by
  have hleap : isLeap (y + 1) = true
      ↔ (y + 1) % 4 = 0 ∧ ((y + 1) % 100 ≠ 0 ∨ (y + 1) % 400 = 0) := by
    simp [isLeap]
  unfold daysBefore
  split
  next h =>
    rw [hleap] at h
    omega
  next h =>
    rw [hleap] at h
    omega

/-- The months from March to January have as many days as there are to the next. -/
theorem daysBeforeMonth_succ (y : Int) {m : Nat} (hm : m < 11) :
  daysBeforeMonth (m + 1) = daysBeforeMonth m + daysIn y (if m < 10 then m + 3 else m - 9)
  := by
  interval_cases m <;> rfl

/-- The date of a day comes from the year from March that holds it, its place `n` in that year and
the month, counted from March, that holds that place. -/
theorem exists_ofDays_eq (days : Int) :
  ∃ (y : Int) (n m : Nat), daysBefore y + n = days + epochDay
    ∧ n < 365 + (if isLeap (y + 1) then 1 else 0) ∧ m < 12
    ∧ daysBeforeMonth m ≤ n ∧ n < daysBeforeMonth (m + 1)
    ∧ ofDays days = if m < 10 then ⟨y, m + 3, n - daysBeforeMonth m + 1⟩
        else ⟨y + 1, m - 9, n - daysBeforeMonth m + 1⟩
  := by
  have hle := daysBefore_yearOf_le (days + epochDay)
  have hlt := lt_daysBefore_yearOf (days + epochDay)
  rw [daysBefore_succ] at hlt
  refine ⟨yearOf (days + epochDay), (days + epochDay - daysBefore (yearOf (days + epochDay))).toNat,
    _, by omega, by split at hlt <;> split <;> first | contradiction | omega, ?_, ?_, ?_, rfl⟩
  · unfold monthOf
    split at hlt <;> omega
  · unfold daysBeforeMonth monthOf
    omega
  · unfold daysBeforeMonth monthOf
    omega

theorem toDays_ofDays (days : Int) : (ofDays days).toDays = days := by
  obtain ⟨y, n, m, hsum, -, hm, hle, -, heq⟩ := exists_ofDays_eq days
  rw [heq]
  split
  next hspring =>
    have hmonth : ¬ m + 3 ≤ 2 := by omega
    simp only [toDays, if_neg hmonth, Nat.add_sub_cancel]
    omega
  next hwinter =>
    have hmonth : m - 9 ≤ 2 := by omega
    have hback : m - 9 + 9 = m := by omega
    simp only [toDays, if_pos hmonth, Int.add_sub_cancel, hback]
    omega

theorem isValid_iff {d : Date} :
  d.isValid = true ↔ 1 ≤ d.month ∧ d.month ≤ 12 ∧ 1 ≤ d.day ∧ d.day ≤ daysIn d.year d.month
  := by
  simp only [isValid, Bool.and_eq_true, decide_eq_true_eq, and_assoc]

theorem daysIn_february (y : Int) : daysIn y 2 = 28 + if isLeap y then 1 else 0 := by
  simp only [daysIn, beq_self_eq_true, if_true]
  split <;> rfl

theorem daysIn_le (y : Int) (month : Nat) : daysIn y month ≤ 31 := by
  unfold daysIn
  split
  · split <;> decide
  · split <;> decide

theorem isValid_ofDays (days : Int) : (ofDays days).isValid = true := by
  obtain ⟨y, n, m, -, hyear, hm, hle, hlt, heq⟩ := exists_ofDays_eq days
  rw [heq, isValid_iff]
  by_cases hlast : m = 11
  · -- February, which a leap day makes longer
    have hdays := daysIn_february (y + 1)
    have hbefore : daysBeforeMonth 11 = 337 := rfl
    simp only [hlast, Nat.reduceLT, if_false, Nat.reduceSub]
    omega
  · have hlong := fun y => daysBeforeMonth_succ y (m := m) (by omega)
    split
    next hspring =>
      have hmonth := hlong y
      rw [if_pos hspring] at hmonth
      dsimp only
      omega
    next hwinter =>
      have hmonth := hlong (y + 1)
      rw [if_neg hwinter] at hmonth
      dsimp only
      omega

end SafetyHub.Date
