import SafetyHub.Proofs.Dismissal.Records
import SafetyHub.Proofs.Instant.Order

/-!
# How often issues come back

`Dismissals.Dated` are dismissals with the reading of the clock, and a run of them is a list of
`DismissalMove`s: time that passes, dismissals, reports, and whatever else leaves the record of
the issue in question where it is.  As long as the clock loses no time, each time that the issue
comes back is paid for by one of the dismissals that its severity allows; once there were more
of them than that, it stays away.  A clock whose readings ascend outside leap seconds loses no time;
in leap seconds, or since one, it may.
-/

namespace SafetyHub

/-! ### Clocks that lose no time -/

namespace Instant

/-- Since no reading of the clock has less time passed at a later reading than at one in between.
This is asked of the time that has passed, and not of the order of the readings, because by
`since` less of it has passed at the beginning of a minute than late in a leap second before. -/
def LosesNoTime : List Instant → Prop
  | [] => True
  | t :: rest =>
    (t :: rest).Pairwise (fun a b => a.since t ≤ b.since t) ∧ LosesNoTime rest

theorem since_le_since {a b t : Instant} (hab : a ≤ b) (ha : a.isLeap = false)
    (hb : b.isLeap = false) (ht : t.isLeap = false) :
  a.since t ≤ b.since t
  := by
  have hcount := count_le_of_le ha hb hab
  rw [since_eq_count ha ht, since_eq_count hb ht]
  omega

/-- Outside leap seconds, a clock that shows no earlier instant than before loses no time. -/
theorem losesNoTime_of_pairwise_le {readings : List Instant}
    (hordered : readings.Pairwise (· ≤ ·)) (hleap : ∀ t ∈ readings, t.isLeap = false) :
  LosesNoTime readings
  := by
  induction readings with
  | nil => trivial
  | cons t rest ih =>
    constructor
    · apply hordered.imp_of_mem
      intro a b ha hb hab
      apply since_le_since hab (hleap a ha) (hleap b hb) (hleap t List.mem_cons_self)
    · apply ih (List.pairwise_cons.mp hordered).2
      intro a ha
      apply hleap a (List.mem_cons_of_mem t ha)

/-- The milliseconds from the beginning of 1970 to the nearest instant in the range. -/
def clampedMillis (ms : Int) : Int :=
  max (minSecond * 1000) (min ms (maxSecond * 1000 + 999))

theorem parts_nearestMillis (ms : Int) :
  (nearestMillis ms).seconds = clampedMillis ms / 1000
    ∧ (nearestMillis ms).nanos = (clampedMillis ms % 1000).toNat * millisecond
  := by
  have holds : Holds (clampedMillis ms / 1000) ((clampedMillis ms % 1000).toNat * millisecond) := by
    unfold Holds clampedMillis minSecond maxSecond second millisecond
    omega
  have hsome : nearestMillis ms = ⟨_, _, holds⟩ := by
    change (ofMillis? (clampedMillis ms)).getD epoch = _
    rw [ofMillis?, ofParts?, dif_pos holds, Option.getD_some]
  rw [hsome]
  exact ⟨rfl, rfl⟩

theorem isLeap_nearestMillis (ms : Int) : (nearestMillis ms).isLeap = false := by
  have hnanos := (parts_nearestMillis ms).2
  unfold millisecond at hnanos
  rw [isLeap, decide_eq_false_iff_not, second]
  omega

theorem nearestMillis_le_nearestMillis {a b : Int} (hab : a ≤ b) :
  nearestMillis a ≤ nearestMillis b
  := by
  obtain ⟨hsa, hna⟩ := parts_nearestMillis a
  obtain ⟨hsb, hnb⟩ := parts_nearestMillis b
  have hle : clampedMillis a ≤ clampedMillis b := by
    unfold clampedMillis
    omega
  unfold millisecond at hna hnb
  change _ < _ ∨ _ = _ ∧ _ ≤ _
  omega

/-- A clock that counts milliseconds loses no time unless it is set back. -/
theorem losesNoTime_nearestMillis {readings : List Int} (h : readings.Pairwise (· ≤ ·)) :
  LosesNoTime (readings.map nearestMillis)
  := by
  apply losesNoTime_of_pairwise_le
  · apply List.pairwise_map.mpr
    apply h.imp nearestMillis_le_nearestMillis
  · intro t ht
    obtain ⟨ms, -, rfl⟩ := List.mem_map.mp ht
    apply isLeap_nearestMillis

end Instant

/-! ### Runs -/

/-- What can happen to dismissals. -/
inductive DismissalMove where
  /-- The clock shows another instant. -/
  | tick (now : Instant)
  | dismiss (issue : IssueKey)
  | reconcile (source : SourceKey) (reported : List String)
  /-- The records are handed over to be saved. -/
  | save
  /-- The records could not be saved. -/
  | saveFailed
  | retainConfigured (catalog : Catalog)
  | clearForUser (user : UserId)
  | clear

namespace Dismissals

/-- Dismissals and the reading of the clock. -/
structure Dated where
  dismissals : Dismissals
  now : Instant

namespace Dated

/-- The dismissals after a move. -/
def move (s : Dated) : DismissalMove → Dated
  | .tick now => { s with now }
  | .dismiss issue =>
    { s with dismissals := (s.dismissals.dismiss? issue s.now).getD s.dismissals }
  | .reconcile source reported =>
    { s with dismissals := s.dismissals.reconcile source reported s.now }
  | .save => { s with dismissals := s.dismissals.clean }
  | .saveFailed => { s with dismissals := s.dismissals.markDirty }
  | .retainConfigured catalog => { s with dismissals := s.dismissals.retainConfigured catalog }
  | .clearForUser user => { s with dismissals := s.dismissals.clearForUser user }
  | .clear => { s with dismissals := s.dismissals.clear }

/-- The dismissals after a run. -/
def after (s : Dated) (moves : List DismissalMove) : Dated :=
  moves.foldl move s

/-- The readings of the clock in a run, from its beginning to its end. -/
def readings (s : Dated) : List DismissalMove → List Instant
  | [] => [s.now]
  | m :: rest => s.now :: (s.move m).readings rest

variable (key : IssueKey) (level : Severity) (policy : ResurfacePolicy)

/-- Whether an issue is away at the present instant. -/
def isAway (s : Dated) : Bool :=
  s.dismissals.isDismissed key level policy s.now

/-- How often an issue comes back in a run: it was away, and after a move it is not. -/
def resurfacings (s : Dated) : List DismissalMove → Nat
  | [] => 0
  | m :: rest =>
    (s.isAway key level policy && !(s.move m).isAway key level policy).toNat
      + (s.move m).resurfacings rest

/-- The record of an issue is there throughout a run. -/
def Keeps (s : Dated) : List DismissalMove → Prop
  | [] => (s.dismissals.record? key).isSome = true
  | m :: rest => (s.dismissals.record? key).isSome = true ∧ (s.move m).Keeps rest

end Dated

end Dismissals

/-! ### How often a record lets its issue come back -/

namespace DismissalRecord

variable {level : Severity} {policy : ResurfacePolicy}

theorem isSpent_iff {r : DismissalRecord} :
  r.isSpent level policy = true
    ↔ (policy.maxCount level).toNat < r.dismissCount.toNat
  := by
  rw [isSpent, decide_eq_true_iff, UInt32.lt_iff_toNat_lt]

theorem isDismissed_of_isSpent {r : DismissalRecord} {last : Instant}
    (hlast : r.dismissedAt = some last) (hspent : r.isSpent level policy = true) (now : Instant) :
  r.isDismissed level policy now = true
  := by
  simp [isDismissed, hlast, hspent]

/-- An issue that has come back does not go away by itself. -/
theorem isDismissed_of_later {r : DismissalRecord} {now later : Instant}
    (hsince : ∀ last, r.dismissedAt = some last → now.since last ≤ later.since last)
    (haway : r.isDismissed level policy later = true) :
  r.isDismissed level policy now = true
  := by
  cases hlast : r.dismissedAt with
  | none => simp [isDismissed, hlast] at haway
  | some last =>
    simp only [isDismissed, hlast, Bool.or_eq_true, decide_eq_true_eq] at haway ⊢
    apply haway.imp_right
    apply Int.lt_of_le_of_lt (hsince last hlast)

/-- How often an issue can come back from now on: once if it is away now, and once for each
dismissal that its severity still allows; not at all if there were more of them already. -/
def allowance (r : DismissalRecord) (level : Severity) (policy : ResurfacePolicy)
    (now : Instant) : Nat :=
  if r.isSpent level policy then 0
  else (policy.maxCount level).toNat - r.dismissCount.toNat
    + (r.isDismissed level policy now).toNat

/-- Time that passes takes from the allowance when the issue comes back. -/
theorem allowance_later (r : DismissalRecord) {now later : Instant}
    (hsince : ∀ last, r.dismissedAt = some last → now.since last ≤ later.since last) :
  (r.isDismissed level policy now && !r.isDismissed level policy later).toNat
      + r.allowance level policy later
    ≤ r.allowance level policy now
  := by
  unfold allowance
  by_cases hspent : r.isSpent level policy = true
  · have hsame : r.isDismissed level policy later = r.isDismissed level policy now := by
      cases hlast : r.dismissedAt <;> simp [isDismissed, hlast, hspent]
    simp [hspent, hsame]
  · rw [if_neg hspent, if_neg hspent]
    cases hlater : r.isDismissed level policy later with
    | true => simp [isDismissed_of_later hsince hlater]
    | false =>
      simp only [Bool.not_false, Bool.and_true, Bool.toNat_false]
      omega

/-- A dismissal takes from the allowance what it uses up. -/
theorem allowance_dismiss (r : DismissalRecord) (now : Instant)
    (hmax : (policy.maxCount level).toNat < UInt32.size - 1) :
  (r.isDismissed level policy now && !(r.dismiss now).isDismissed level policy now).toNat
      + (r.dismiss now).allowance level policy now
    ≤ r.allowance level policy now
  := by
  have hcount := Dismissals.toNat_dismissCount_dismiss r now
  have hlast : (r.dismiss now).dismissedAt = some now := rfl
  unfold allowance
  by_cases hspent' : (r.dismiss now).isSpent level policy = true
  · simp [isDismissed_of_isSpent hlast hspent', hspent']
  · have hspent : ¬ r.isSpent level policy = true := by
      rw [isSpent_iff] at hspent' ⊢
      omega
    rw [if_neg hspent, if_neg hspent']
    rw [isSpent_iff] at hspent hspent'
    have hnow := Bool.toNat_le (r.isDismissed level policy now)
    cases (r.dismiss now).isDismissed level policy now with
    | true =>
      simp only [Bool.not_true, Bool.and_false, Bool.toNat_false, Bool.toNat_true]
      omega
    | false =>
      simp only [Bool.not_false, Bool.and_true, Bool.toNat_false]
      omega

theorem allowance_fresh (t now : Instant) :
  (fresh t).allowance level policy now = (policy.maxCount level).toNat
  := by
  have hspent : ¬ (fresh t).isSpent level policy = true := by simp [isSpent_iff, fresh]
  have hnow : (fresh t).isDismissed level policy now = false := rfl
  rw [allowance, if_neg hspent, hnow]
  rfl

/-- What dismissals make of a record. -/
structure Grows (r r' : DismissalRecord) : Prop where
  count_le : r.dismissCount.toNat ≤ r'.dismissCount.toNat
  undated : r'.dismissedAt = none → r' = r

theorem Grows.refl (r : DismissalRecord) : r.Grows r := ⟨Nat.le_refl _, fun _ => rfl⟩

theorem Grows.trans {r r' r'' : DismissalRecord} (h : r.Grows r') (h' : r'.Grows r'') :
  r.Grows r''
  where
  count_le := Nat.le_trans h.count_le h'.count_le
  undated hnone := by
    have hsame := h'.undated hnone
    rw [hsame] at hnone ⊢
    apply h.undated hnone

theorem grows_dismiss (r : DismissalRecord) (now : Instant) : r.Grows (r.dismiss now) where
  count_le := by
    have := r.dismissCount.toNat_lt_size
    rw [Dismissals.toNat_dismissCount_dismiss]
    omega
  undated hnone := by cases hnone

/-- A record that dismissals have made of a fresh one keeps its issue away, once it is spent,
and so does every record that further dismissals make of it. -/
theorem Grows.isDismissed {t : Instant} {r r' : DismissalRecord} (h : (fresh t).Grows r)
    (h' : r.Grows r') (hspent : r.isSpent level policy = true) (now : Instant) :
  r'.isDismissed level policy now = true
  := by
  have hspent' : r'.isSpent level policy = true := by
    rw [isSpent_iff] at hspent ⊢
    apply Nat.lt_of_lt_of_le hspent h'.count_le
  cases hlast : r'.dismissedAt with
  | some last => apply isDismissed_of_isSpent hlast hspent'
  | none =>
    rw [(h.trans h').undated hlast, isSpent_iff] at hspent'
    cases hspent'

end DismissalRecord

namespace Dismissals.Dated

variable {s : Dated} {key : IssueKey} {level : Severity} {policy : ResurfacePolicy}
  {r r' : DismissalRecord}

/-! ### The record of an issue over a run -/

theorem isAway_eq (hr : s.dismissals.record? key = some r) :
  s.isAway key level policy = r.isDismissed level policy s.now
  := by
  rw [isAway, Dismissals.isDismissed, hr]

/-- A move that keeps the record of an issue leaves it as it is, or dismisses the issue. -/
theorem record?_move (m : DismissalMove) (hr : s.dismissals.record? key = some r)
    (hr' : (s.move m).dismissals.record? key = some r') :
  r' = r ∨ (s.move m).now = s.now ∧ r' = r.dismiss s.now
  := by
  cases m with
  | tick now | save | saveFailed =>
    left
    apply Option.some.inj (hr'.symm.trans hr)
  | dismiss issue =>
    cases hissue : s.dismissals.record? issue with
    | none =>
      left
      simp only [move, dismiss?, hissue, Option.map_none, Option.getD_none, hr] at hr'
      apply (Option.some.inj hr').symm
    | some dismissed =>
      rw [move, record?_dismiss? hissue] at hr'
      split at hr'
      next hkey =>
        right
        rw [← hkey, hr] at hissue
        cases hissue
        exact ⟨rfl, (Option.some.inj hr').symm⟩
      next =>
        left
        apply Option.some.inj (hr'.symm.trans hr)
  | reconcile source reported =>
    left
    rw [move, record?_reconcile, hr, Option.getD_some] at hr'
    split at hr'
    · apply (Option.some.inj (Option.ite_none_right_eq_some.mp hr').2).symm
    · apply (Option.some.inj hr').symm
  | retainConfigured catalog =>
    left
    rw [move, record?_retainConfigured, Option.ite_none_right_eq_some, hr] at hr'
    apply (Option.some.inj hr'.2).symm
  | clearForUser user =>
    left
    rw [move, record?_clearForUser, Option.ite_none_right_eq_some, hr] at hr'
    apply (Option.some.inj hr'.2).symm
  | clear => cases hr'

theorem now_mem_readings (s : Dated) (moves : List DismissalMove) : s.now ∈ s.readings moves := by
  cases moves <;> exact List.mem_cons_self

namespace Keeps

variable {moves : List DismissalMove}

/-- The record at the beginning of a run. -/
theorem exists_record (hkept : s.Keeps key moves) :
  ∃ r, s.dismissals.record? key = some r
  := by
  apply Option.isSome_iff_exists.mp
  cases moves with
  | nil => exact hkept
  | cons m rest => exact hkept.1

theorem of_append {before more : List DismissalMove} (hkept : s.Keeps key (before ++ more)) :
  s.Keeps key before ∧ (s.after before).Keeps key more
  := by
  induction before generalizing s with
  | nil =>
    obtain ⟨r, hr⟩ := hkept.exists_record
    exact ⟨by rw [Keeps, hr, Option.isSome_some], hkept⟩
  | cons m rest ih =>
    obtain ⟨hbefore, hmore⟩ := ih hkept.2
    exact ⟨⟨hkept.1, hbefore⟩, hmore⟩

end Keeps

/-- No run of moves that keep the record of an issue has it come back more often than its record
allows, unless the clock loses time. -/
theorem resurfacings_le_allowance
    (hmax : (policy.maxCount level).toNat < UInt32.size - 1)
    {moves : List DismissalMove} (hkept : s.Keeps key moves)
    (hr : s.dismissals.record? key = some r)
    (hclock : Instant.LosesNoTime (s.readings moves))
    (hlast : ∀ last, r.dismissedAt = some last →
      (s.readings moves).Pairwise fun a b => a.since last ≤ b.since last) :
  s.resurfacings key level policy moves ≤ r.allowance level policy s.now
  := by
  induction moves generalizing s r with
  | nil => apply Nat.zero_le
  | cons m rest ih =>
    obtain ⟨r', hr'⟩ := hkept.2.exists_record
    obtain ⟨hfirst, hrest⟩ := hclock
    have hstep : (s.isAway key level policy && !(s.move m).isAway key level policy).toNat
        + r'.allowance level policy (s.move m).now ≤ r.allowance level policy s.now := by
      rw [isAway_eq hr, isAway_eq hr']
      obtain rfl | ⟨hnow, rfl⟩ := record?_move m hr hr'
      · apply r'.allowance_later
        intro last hdismissed
        apply (List.pairwise_cons.mp (hlast last hdismissed)).1
        apply now_mem_readings
      · rw [hnow]
        apply r.allowance_dismiss s.now hmax
    -- a dismissal is dated by the present reading, since which the clock loses no time
    have hlast' : ∀ last, r'.dismissedAt = some last →
        ((s.move m).readings rest).Pairwise fun a b => a.since last ≤ b.since last := by
      obtain rfl | ⟨hnow, rfl⟩ := record?_move m hr hr'
      · intro last hdismissed
        apply (List.pairwise_cons.mp (hlast last hdismissed)).2
      · intro last hdismissed
        cases hdismissed
        apply (List.pairwise_cons.mp hfirst).2
    have hle := ih hkept.2 hr' hrest hlast'
    rw [resurfacings]
    omega

/-- A run that keeps the record of an issue dismisses the issue any number of times. -/
theorem record?_after {moves : List DismissalMove} (hkept : s.Keeps key moves)
    (hr : s.dismissals.record? key = some r) :
  ∃ r', (s.after moves).dismissals.record? key = some r' ∧ r.Grows r'
  := by
  induction moves generalizing s r with
  | nil => exact ⟨r, hr, .refl r⟩
  | cons m rest ih =>
    obtain ⟨r₁, hr₁⟩ := hkept.2.exists_record
    obtain ⟨r', hr', hgrows⟩ := ih hkept.2 hr₁
    use r', hr'
    obtain rfl | ⟨-, rfl⟩ := record?_move m hr hr₁
    · exact hgrows
    · exact (r.grows_dismiss s.now).trans hgrows

/-- From when its record is fresh, and while its record is kept, an issue comes back at most as
often as its severity allows, whatever the delay, unless the clock loses time; it loses none if its
readings ascend and lie outside leap seconds.  Once the issue has been dismissed more often than
that it is away from then on, whatever the clock shows. -/
theorem resurfacings_bounded (s : Dated) (key : IssueKey) (level : Severity)
    (policy : ResurfacePolicy) (moves : List DismissalMove) (t : Instant)
    (hfresh : s.dismissals.record? key = some (.fresh t))
    (hmax : (policy.maxCount level).toNat < UInt32.size - 1)
    (hkept : s.Keeps key moves) :
  (Instant.LosesNoTime (s.readings moves) →
      s.resurfacings key level policy moves ≤ (policy.maxCount level).toNat)
    ∧ ((s.readings moves).Pairwise (· ≤ ·) → (∀ t ∈ s.readings moves, t.isLeap = false) →
      s.resurfacings key level policy moves ≤ (policy.maxCount level).toNat)
    ∧ ∀ before more, before ++ more <+: moves →
      ∀ r, (s.after before).dismissals.record? key = some r →
        policy.maxCount level < r.dismissCount →
        ∀ now, (s.after (before ++ more)).dismissals.isDismissed key level policy now = true
  := by
  have hbound (hclock : Instant.LosesNoTime (s.readings moves)) :
      s.resurfacings key level policy moves ≤ (policy.maxCount level).toNat := by
    rw [← DismissalRecord.allowance_fresh t s.now]
    apply resurfacings_le_allowance hmax hkept hfresh hclock
    intro last hlast
    cases hlast
  refine ⟨hbound, ?ordered, ?spent⟩
  case ordered =>
    intro hordered hleap
    apply hbound (Instant.losesNoTime_of_pairwise_le hordered hleap)
  case spent =>
    rintro before more ⟨rest, rfl⟩ r hr hspent now
    obtain ⟨hsofar, -⟩ := hkept.of_append
    obtain ⟨hbefore, hmore⟩ := hsofar.of_append
    obtain ⟨r₁, hr₁, hgrows⟩ := record?_after hbefore hfresh
    obtain ⟨r₂, hr₂, hgrows'⟩ := record?_after hmore hr₁
    have hsame : r₁ = r := Option.some.inj (hr₁.symm.trans hr)
    rw [hsame] at hgrows hgrows'
    have hafter : (s.after (before ++ more)).dismissals.record? key = some r₂ := by
      rw [after, List.foldl_append]
      apply hr₂
    rw [Dismissals.isDismissed, hafter]
    apply hgrows.isDismissed hgrows' (decide_eq_true hspent)

/-- An issue that may come back once is dismissed three times. -/
theorem resurfacings_of_three_dismissals :
  let key : IssueKey := ⟨"s", "i", 0⟩
  let policy : ResurfacePolicy := ⟨fun _ => 1, fun _ => ⟨1, 500000001, by decide⟩⟩
  let s : Dated := ⟨({} : Dismissals).reconcile ⟨"s", 0⟩ ["i"] .epoch, .nearestMillis 0⟩
  let moves : List DismissalMove := [.dismiss key, .tick (.nearestMillis 2000), .save,
    .dismiss key, .reconcile ⟨"s", 0⟩ ["i"], .tick (.nearestMillis 9000), .dismiss key]
  s.Keeps key moves ∧ Instant.LosesNoTime (s.readings moves)
    ∧ s.resurfacings key .recommendation policy moves = 1
    ∧ ∀ now, (s.after moves).dismissals.isDismissed key .recommendation policy now = true
  := by
  intro key policy s moves
  have hkept : s.Keeps key moves := by
    simp only [moves, Keeps]
    decide +kernel
  have hordered : [0, 0, 2000, 2000, 2000, 2000, 9000, 9000].Pairwise fun a b : Int => a ≤ b := by
    decide
  have hclock : Instant.LosesNoTime (s.readings moves) :=
    Instant.losesNoTime_nearestMillis hordered
  have hfresh : s.dismissals.record? key = some (.fresh .epoch) := by decide +kernel
  have hlast : (s.after moves).dismissals.record? key
      = some ⟨.epoch, some (.nearestMillis 9000), 3⟩ := by
    decide +kernel
  obtain ⟨hbound, -, haway⟩ := resurfacings_bounded s key .recommendation policy moves .epoch
    hfresh (by decide) hkept
  have hback : s.resurfacings key .recommendation policy moves = 1 :=
    Nat.le_antisymm (hbound hclock) (by decide +kernel)
  use hkept, hclock, hback
  exact haway moves [] (List.prefix_refl moves) _ hlast (by decide)

/-- An issue that may come back once, and is dismissed once, comes back twice if it is dismissed in
a leap second: less time has passed since at the beginning of the next day than just before.  It
also does so if it is dismissed outside leap seconds and the clock is read in one. -/
theorem not_all_resurfacings_are_bounded :
  let key : IssueKey := ⟨"s", "i", 0⟩
  let policy (delay : Millis) : ResurfacePolicy := ⟨fun _ => 1, fun _ => delay.duration⟩
  let s : Dated := ⟨({} : Dismissals).reconcile ⟨"s", 0⟩ ["i"] .epoch, .epoch⟩
  let dismissed : List DismissalMove := [.tick ⟨59, 1500000000, by decide⟩, .dismiss key,
    .tick (.nearestMillis 86399900), .tick (.nearestMillis 86400000),
    .tick (.nearestMillis 86401000)]
  let read : List DismissalMove := [.dismiss key, .tick ⟨86399, 1900000000, by decide⟩,
    .tick (.nearestMillis 86400100), .tick (.nearestMillis 86401000)]
  s.dismissals.record? key = some (.fresh .epoch)
    ∧ (s.Keeps key dismissed ∧ (s.readings dismissed).Pairwise (· ≤ ·)
      ∧ s.resurfacings key .recommendation (policy 86340000) dismissed = 2)
    ∧ s.Keeps key read ∧ (s.readings read).Pairwise (· ≤ ·)
      ∧ s.resurfacings key .recommendation (policy 86400500) read = 2
  := by
  simp only [Keeps]
  decide +kernel

end Dismissals.Dated

end SafetyHub
