import SafetyHub.Proofs.Dismissal.Resurfacing

/-!
# When issues come back

An issue that is away says when it will come back, `resurfaceAt?`, by adding the delay of its
severity to its dismissal, and it says whether it is away, `isDismissed`, by comparing the time
since its dismissal with that delay.  Outside leap seconds the two agree at every instant: an issue
is away never, for ever, or until the instant at which it says it will come back.  In leap seconds,
or since one, the time that has passed may be counted a second short or long, and the two differ by
as much.
-/

namespace SafetyHub

open Std

namespace Instant

variable {p : Instant → Bool} {t t' u : Instant}

/-- Something is so at every instant before the given one and at none from it on, as far as
instants outside leap seconds go. -/
structure Ends (p : Instant → Bool) (t : Instant) : Prop where
  isLeap_eq : t.isLeap = false
  before : ∀ u, u.isLeap = false → u < t → p u = true
  after : ∀ u, u.isLeap = false → t ≤ u → p u = false

theorem Ends.at (h : Ends p t) : p t = false :=
  h.after t h.isLeap_eq (IsPreorder.le_refl t)

theorem Ends.le (h : Ends p t) (hu : u.isLeap = false) (hpu : p u = false) : t ≤ u := by
  apply le_of_not_lt
  intro hlt
  rw [h.before u hu hlt] at hpu
  cases hpu

theorem Ends.unique (h : Ends p t) (h' : Ends p t') : t = t' :=
  IsPartialOrder.le_antisymm t t' (h.le h'.isLeap_eq h'.at) (h'.le h.isLeap_eq h.at)

/-- What ends after some instant is so at an instant before. -/
theorem Ends.exists (h : Ends p t) {now : Instant} (hlt : now < t) : ∃ u, p u = true := by
  obtain ⟨u, hu, hle⟩ := now.exists_le_of_not_isLeap
  use u
  apply h.before u hu (lt_of_le_of_lt hle hlt)

end Instant

namespace DismissalRecord

variable {r : DismissalRecord} {level : Severity} {policy : ResurfacePolicy} {last u : Instant}

/-- Unless its issue is spent, the time since a dismissal says whether the issue is away. -/
theorem isDismissed_iff_since_lt (hlast : r.dismissedAt = some last)
    (hspent : r.isSpent level policy = false) :
  r.isDismissed level policy u = true
    ↔ u.since last < ((policy.delay level).clamped : Nat)
  := by
  simp only [isDismissed, hlast, hspent, Bool.false_or, decide_eq_true_eq]

end DismissalRecord

namespace Dismissals

variable {d : Dismissals} {issue : IssueKey} {level : Severity} {policy : ResurfacePolicy}
variable {r : DismissalRecord} {last earlier now t u : Instant}

/-- An issue comes back once the delay of its severity has passed, unless it is spent. -/
theorem resurfaceAt?_eq_some_iff :
  d.resurfaceAt? issue level policy now = some t
    ↔ ∃ r last, d.record? issue = some r ∧ r.dismissedAt = some last
      ∧ r.isSpent level policy = false
      ∧ last.add? (policy.delay level).clamped = some t ∧ now < t
  := by
  have of_record (r : DismissalRecord) : r.resurfaceAt? level policy now = some t
      ↔ ∃ last, r.dismissedAt = some last ∧ r.isSpent level policy = false
        ∧ last.add? (policy.delay level).clamped = some t ∧ now < t := by
    simp only [DismissalRecord.resurfaceAt?, Option.bind_eq_bind, Option.bind_eq_some_iff,
      Option.ite_none_left_eq_some, Bool.not_eq_true, Option.ite_none_right_eq_some,
      Option.some_inj]
    apply exists_congr
    intro last
    apply and_congr_right
    intro _
    apply and_congr_right
    intro _
    constructor
    · rintro ⟨back, hback, hlt, rfl⟩
      exact ⟨hback, hlt⟩
    · rintro ⟨hback, hlt⟩
      exact ⟨t, hback, hlt, rfl⟩
  rw [resurfaceAt?, Option.bind_eq_some_iff]
  simp only [of_record, exists_and_left]

/-- The clock decides only whether an issue has come back yet. -/
theorem resurfaceAt?_of_le (hle : earlier ≤ now)
    (hback : d.resurfaceAt? issue level policy now = some t) :
  d.resurfaceAt? issue level policy earlier = some t
  := by
  obtain ⟨r, last, hr, hlast, hspent, hadd, hlt⟩ := resurfaceAt?_eq_some_iff.mp hback
  apply resurfaceAt?_eq_some_iff.mpr
  exact ⟨r, last, hr, hlast, hspent, hadd, Instant.lt_of_le_of_lt hle hlt⟩

theorem isDismissed_eq (hr : d.record? issue = some r) :
  d.isDismissed issue level policy now = r.isDismissed level policy now
  := by
  rw [isDismissed, hr]

/-! ### How long an issue is away -/

/-- An issue whose dismissal is not dated in a leap second is away never, for ever, or until the
instant at which it says it will come back. -/
theorem away_cases (level : Severity) (policy : ResurfacePolicy)
    (hdated : ∀ r last, d.record? issue = some r → r.dismissedAt = some last →
      last.isLeap = false) :
  ((∀ u, d.isDismissed issue level policy u = false)
      ∧ ∀ now, d.resurfaceAt? issue level policy now = none)
    ∨ ((∀ u, u.isLeap = false → d.isDismissed issue level policy u = true)
      ∧ ∀ now, d.resurfaceAt? issue level policy now = none)
    ∨ ∃ t, Instant.Ends (d.isDismissed issue level policy) t
      ∧ ∀ now, d.resurfaceAt? issue level policy now = if now < t then some t else none
  := by
  cases hr : d.record? issue with
  | none =>
    left
    constructor
    · intro u
      rw [isDismissed, hr]
    · intro now
      rw [resurfaceAt?, hr, Option.bind_none]
  | some r =>
    cases hlast : r.dismissedAt with
    | none =>
      left
      constructor
      · intro u
        simp only [isDismissed, hr, DismissalRecord.isDismissed, hlast]
      · intro now
        simp [resurfaceAt?, hr, DismissalRecord.resurfaceAt?, hlast]
    | some last =>
      right
      have hordinary := hdated r last hr hlast
      cases hspent : r.isSpent level policy with
      | true =>
        left
        constructor
        · intro u _
          rw [isDismissed_eq hr]
          apply DismissalRecord.isDismissed_of_isSpent hlast hspent
        · intro now
          simp [resurfaceAt?, hr, DismissalRecord.resurfaceAt?, hlast, hspent]
      | false =>
        cases hadd : last.add? (policy.delay level).clamped with
        | none =>
          left
          constructor
          · intro u hu
            rw [isDismissed_eq hr, DismissalRecord.isDismissed_iff_since_lt hlast hspent,
              Instant.since_eq_count hu hordinary]
            by_contra hpassed
            obtain ⟨t, ht⟩ := Instant.exists_add?_of_count_le hordinary hu
              (policy.delay level).clamped (by omega)
            rw [hadd] at ht
            cases ht
          · intro now
            simp [resurfaceAt?, hr, DismissalRecord.resurfaceAt?, hlast, hspent, hadd]
        | some t =>
          right
          obtain ⟨ht, hcount⟩ := (Instant.add?_eq_some_iff hordinary).mp hadd
          have haway : ∀ u, u.isLeap = false →
              (d.isDismissed issue level policy u = true ↔ u < t) := by
            intro u hu
            rw [isDismissed_eq hr, DismissalRecord.isDismissed_iff_since_lt hlast hspent,
              Instant.since_eq_count hu hordinary, Instant.lt_iff_count_lt hu ht]
            omega
          refine ⟨t, ⟨ht, fun u hu => (haway u hu).mpr, fun u hu hle => ?_⟩, fun now => ?_⟩
          · rw [← Bool.not_eq_true, haway u hu]
            apply Instant.not_lt_of_le hle
          · simp [resurfaceAt?, hr, DismissalRecord.resurfaceAt?, hlast, hspent, hadd]

/-- An issue says that it will come back at the instant, later than now, at which being away
ends. -/
theorem resurfaceAt?_eq_some_iff_ends
    (hdated : ∀ r last, d.record? issue = some r → r.dismissedAt = some last →
      last.isLeap = false) :
  d.resurfaceAt? issue level policy now = some t
    ↔ now < t ∧ Instant.Ends (d.isDismissed issue level policy) t
  := by
  obtain ⟨hnever, hnone⟩ | ⟨halways, hnone⟩ | ⟨back, hends, hreturn⟩ :=
    away_cases level policy hdated
  · rw [hnone]
    apply iff_of_false (Option.some_ne_none t).symm
    rintro ⟨hlt, hends⟩
    obtain ⟨u, hu⟩ := hends.exists hlt
    rw [hnever] at hu
    cases hu
  · rw [hnone]
    apply iff_of_false (Option.some_ne_none t).symm
    rintro ⟨-, hends⟩
    have hgone := hends.at
    rw [halways t hends.isLeap_eq] at hgone
    cases hgone
  · rw [hreturn, Option.ite_none_right_eq_some, Option.some_inj]
    constructor
    · rintro ⟨hlt, rfl⟩
      exact ⟨hlt, hends⟩
    · rintro ⟨hlt, hends'⟩
      obtain rfl := hends.unique hends'
      exact ⟨hlt, rfl⟩

/-- An issue that says of no instant at which it will come back is away for ever, or neither now
nor later. -/
theorem of_resurfaceAt?_eq_none
    (hdated : ∀ r last, d.record? issue = some r → r.dismissedAt = some last →
      last.isLeap = false)
    (hnone : d.resurfaceAt? issue level policy now = none) :
  (∀ u, u.isLeap = false → now ≤ u → d.isDismissed issue level policy u = false)
    ∨ ∀ u, u.isLeap = false → d.isDismissed issue level policy u = true
  := by
  obtain ⟨hnever, -⟩ | ⟨halways, -⟩ | ⟨back, hends, hreturn⟩ :=
    away_cases level policy hdated
  · left
    intro u _ _
    apply hnever
  · right
    apply halways
  · left
    intro u hu hle
    have hpast : ¬ now < back := by
      intro hlt
      rw [hreturn, if_pos hlt] at hnone
      cases hnone
    apply hends.after u hu
    apply IsPreorder.le_trans back now u (Instant.le_of_not_lt hpast) hle

/-- An issue is away, outside leap seconds, until the instant at which it says it will come back,
and no longer than for a second after. -/
theorem away_of_resurfaceAt? (hreturn : d.resurfaceAt? issue level policy now = some t)
    (hu : u.isLeap = false) :
  (u < t → d.isDismissed issue level policy u = true)
    ∧ ∀ later, t.add? Instant.second = some later → later ≤ u →
      d.isDismissed issue level policy u = false
  := by
  obtain ⟨r, last, hr, hlast, hspent, hadd, -⟩ := resurfaceAt?_eq_some_iff.mp hreturn
  rw [isDismissed_eq hr, ← Bool.not_eq_true,
    DismissalRecord.isDismissed_iff_since_lt hlast hspent, Int.not_lt]
  exact ⟨Instant.since_lt_of_add? hadd hu,
    fun later hlater => Instant.le_since_of_add? hadd hlater hu⟩

/-- The instant at which an issue says it will come back is the one, later than now, at which being
away ends; and an issue that says of none is away for ever, or neither now nor later.  This goes
for instants outside leap seconds, and for dismissals that are not dated in one; since a dismissal
in a leap second, being away may end up to a second later than that.  The time between instants,
the delay and the second at which it ends never exceed what their types hold. -/
theorem away_until_return (d : Dismissals) (issue : IssueKey) (level : Severity)
    (policy : ResurfacePolicy) (now : Instant) :
  ((∀ r last, d.record? issue = some r → r.dismissedAt = some last → last.isLeap = false) →
      (∀ t, d.resurfaceAt? issue level policy now = some t
        ↔ now < t ∧ Instant.Ends (d.isDismissed issue level policy) t)
      ∧ (d.resurfaceAt? issue level policy now = none →
        (∀ u, u.isLeap = false → now ≤ u → d.isDismissed issue level policy u = false)
          ∨ ∀ u, u.isLeap = false → d.isDismissed issue level policy u = true))
    ∧ (∀ t, d.resurfaceAt? issue level policy now = some t → ∀ u, u.isLeap = false →
      (u < t → d.isDismissed issue level policy u = true)
        ∧ ∀ later, t.add? Instant.second = some later → later ≤ u →
          d.isDismissed issue level policy u = false)
    ∧ (∀ a b : Instant, (a.since b).natAbs ≤ Duration.limit * Instant.millisecond)
    ∧ (policy.delay level).clamped ≤ Duration.limit * Instant.millisecond
    ∧ ∀ a : Instant, a.seconds
        + ((a.nanos + (policy.delay level).clamped) / Instant.second : Nat)
      ≤ Duration.limit
  := by
  have hclamped : (policy.delay level).clamped ≤ Duration.limit * Instant.millisecond :=
    Nat.min_le_right _ _
  refine ⟨?_, ?_, Instant.natAbs_since_le, hclamped, ?_⟩
  · intro hdated
    exact ⟨fun _ => resurfaceAt?_eq_some_iff_ends hdated, of_resurfaceAt?_eq_none hdated⟩
  · intro t hreturn u hu
    apply away_of_resurfaceAt? hreturn hu
  · intro a
    have hholds := a.holds
    unfold Instant.Holds Instant.maxSecond Instant.second at hholds
    unfold Instant.second Duration.limit Instant.millisecond at *
    omega

/-- An issue that is dismissed at the beginning of 1970, for a second, says that it will come back
then, and does. -/
theorem away_for_one_second :
  let issue : IssueKey := ⟨"s", "i", 0⟩
  let policy : ResurfacePolicy := ⟨fun _ => 1, fun _ => ⟨1, 0, by decide⟩⟩
  let d : Dismissals := { records := ExtTreeMap.empty.insert issue ⟨.epoch, some .epoch, 1⟩ }
  let back := Instant.nearestMillis 1000
  d.resurfaceAt? issue .recommendation policy .epoch = some back
    ∧ Instant.Ends (d.isDismissed issue .recommendation policy) back
    ∧ d.resurfaceAt? issue .recommendation policy back = none
    ∧ ∀ u, u.isLeap = false → back ≤ u → d.isDismissed issue .recommendation policy u = false
  := by
  intro issue policy d back
  have hrecord : d.record? issue = some ⟨.epoch, some .epoch, 1⟩ := by decide +kernel
  have hdated : ∀ r last, d.record? issue = some r → r.dismissedAt = some last →
      last.isLeap = false := by
    intro r last hr hlast
    obtain rfl := Option.some.inj (hrecord.symm.trans hr)
    obtain rfl := Option.some.inj hlast
    rfl
  have hreturn : d.resurfaceAt? issue .recommendation policy .epoch = some back := by
    decide +kernel
  have hnone : d.resurfaceAt? issue .recommendation policy back = none := by decide +kernel
  obtain ⟨hsome, -⟩ := (away_until_return d issue .recommendation policy .epoch).1 hdated
  obtain ⟨-, hnext⟩ := (away_until_return d issue .recommendation policy back).1 hdated
  have hends := ((hsome back).mp hreturn).2
  obtain hgone | halways := hnext hnone
  · exact ⟨hreturn, hends, hnone, hgone⟩
  · have hgone := hends.at
    rw [halways back hends.isLeap_eq] at hgone
    cases hgone

/-- An issue that is dismissed in the leap second at the end of a day, for a second, is still away
at the instant at which it said it would come back, and then says that it will not; and an issue
that is dismissed before a leap second is not away late in it, though it says that it will come
back thereafter. -/
theorem not_all_agree_in_leap_seconds :
  let issue : IssueKey := ⟨"s", "i", 0⟩
  let policy : ResurfacePolicy := ⟨fun _ => 1, fun _ => ⟨1, 0, by decide⟩⟩
  let inLeap : Instant := ⟨86399, 1500000000, by decide⟩
  let d : Dismissals := { records := ExtTreeMap.empty.insert issue ⟨.epoch, some inLeap, 1⟩ }
  let back := Instant.nearestMillis 86400500
  let before := Instant.nearestMillis 86399100
  let d' : Dismissals := { records := ExtTreeMap.empty.insert issue ⟨.epoch, some before, 1⟩ }
  d.resurfaceAt? issue .recommendation policy .epoch = some back
    ∧ d.isDismissed issue .recommendation policy back = true
    ∧ d.resurfaceAt? issue .recommendation policy back = none
    ∧ d.isDismissed issue .recommendation policy (.nearestMillis 86401500) = false
    ∧ d'.resurfaceAt? issue .recommendation policy inLeap = some (.nearestMillis 86400100)
    ∧ inLeap < .nearestMillis 86400100
    ∧ d'.isDismissed issue .recommendation policy inLeap = false
  := by
  decide +kernel

end Dismissals

end SafetyHub
