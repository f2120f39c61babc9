import SafetyHub.Proofs.Dismissal.Returning
import SafetyHub.Proofs.Hub.Recording
import SafetyHub.Proofs.Hub.Saving
import SafetyHub.Proofs.Report.Store

/-!
# The next issue to come back

Every call that changes reports, dismissals or the policy sees to the deadline for the next
dismissed issue to come back, and so does that deadline when it passes: `Hub.Reschedules`.  In
between nothing concerns it.  While the clock does not go back, it comes by the time of every
issue that will come back, unless a record that was loaded is dated in a leap second that is
still to come.
-/

namespace SafetyHub

open Std

/-! ### Instants at which issues come back -/

namespace Dismissals

variable {d : Dismissals} {issue : IssueKey} {level : Severity} {policy : Policy} {now t : Instant}

/-- No dismissal is dated in a leap second that is still to come. -/
def LeapsPast (d : Dismissals) (now : Instant) : Prop :=
  d.All fun r => ∀ last, r.dismissedAt = some last → last.isLeap = true → last ≤ now

/-- An issue that comes back in a leap second was dismissed in it. -/
theorem LeapsPast.of_resurfaceAt? (hleaps : d.LeapsPast now)
    (hback : d.resurfaceAt? issue level policy now = some t) (ht : t.isLeap = true) :
  now.isLeap = true ∧ now.seconds = t.seconds
  := by
  obtain ⟨r, last, hr, hlast, -, hadd, hlt⟩ := resurfaceAt?_eq_some_iff.mp hback
  obtain ⟨hleap, hseconds⟩ := Instant.isLeap_of_add? hadd ht
  have hle := Instant.le_iff.mp (hleaps issue r hr last hlast hleap)
  rw [Instant.lt_iff] at hlt
  rw [Instant.isLeap_iff] at hleap ⊢
  omega

end Dismissals

namespace Hub

variable {h h' : Hub} {env : Surroundings} {m : Move} {moves : List (Surroundings × Move)}
variable {earlier now t : Instant}

/-- An issue of a stored report comes back at an instant. -/
def ComesBack (h : Hub) (now t : Instant) : Prop :=
  ∃ source report, h.reports.report? source = some report ∧ ∃ issue ∈ report.issues,
    h.dismissals.resurfaceAt? (source.issue issue.id) issue.severity h.policy now = some t

theorem mem_resurfacings_iff : t ∈ h.resurfacings now ↔ h.ComesBack now t := by
  simp only [resurfacings, List.mem_flatMap, List.mem_filterMap, Prod.exists,
    ExtTreeMap.mem_toList_iff_getElem?_eq_some, ComesBack, ReportStore.report?, ReportStore.get?,
    Option.map_eq_some_iff]
  apply exists_congr
  intro source
  constructor
  · rintro ⟨stored, hstored, hissue⟩
    exact ⟨stored.report, ⟨stored, hstored, rfl⟩, hissue⟩
  · rintro ⟨_, ⟨stored, hstored, rfl⟩, hissue⟩
    exact ⟨stored, hstored, hissue⟩

theorem ComesBack.of_le (hle : earlier ≤ now) (hback : h.ComesBack now t) :
  h.ComesBack earlier t
  := by
  obtain ⟨source, report, hreport, issue, hissue, hback⟩ := hback
  exact ⟨source, report, hreport, issue, hissue, Dismissals.resurfaceAt?_of_le hle hback⟩

/-- What is armed for an issue to come back comes by then. -/
theorem ComesBack.exists_aim (hback : h.ComesBack now t) (hleaps : h.dismissals.LeapsPast now) :
  ∃ aim, now.add? (t.since now).toNat = some aim ∧ aim ≤ t
  := by
  obtain ⟨source, report, -, issue, -, hback⟩ := hback
  obtain ⟨r, last, -, -, -, -, hlt⟩ := Dismissals.resurfaceAt?_eq_some_iff.mp hback
  apply Instant.exists_aim hlt
  apply hleaps.of_resurfaceAt? hback

theorem SameIssues.comesBack_iff (hsame : h.SameIssues h') :
  h'.ComesBack now t ↔ h.ComesBack now t
  := by
  rw [← mem_resurfacings_iff, hsame.resurfacings_eq, mem_resurfacings_iff]

/-- What comes back next is the first that comes back. -/
theorem nextResurfacing_eq_some_iff :
  h.nextResurfacing now = some t
    ↔ h.ComesBack now t ∧ ∀ later, h.ComesBack now later → t ≤ later
  := by
  rw [nextResurfacing, List.min?_eq_some_iff]
  simp only [mem_resurfacings_iff]

theorem nextResurfacing_eq_none_iff :
  h.nextResurfacing now = none ↔ ∀ t, ¬ h.ComesBack now t
  := by
  rw [nextResurfacing, List.min?_eq_none_iff, List.eq_nil_iff_forall_not_mem]
  simp only [mem_resurfacings_iff]

/-! ### Calls that see to the deadline -/

/-- A move is a call that is carried out and that sees to it that issues come back, or the time
at which one does. -/
def Reschedules (h : Hub) (env : Surroundings) (m : Move) : Prop :=
  h.Schedules env m ∨ m = .expire .resurface ∧ h.deadlines.isArmed .resurface = true

/-- A move clears the hub, or ends by seeing to the deadline and publishing. -/
theorem Reschedules.cases (hm : h.Reschedules env m) :
  m = .clear ∨ ∃ g : Hub, h.move env m = ((g.scheduleResurface env.now).publish env).hub
  := by
  obtain hm | ⟨rfl, harmed⟩ := hm
  · cases m with
    | submit package sourceId user report event =>
      right
      obtain ⟨c, hok⟩ := hm
      rw [move, hok]
      obtain ⟨-, -, rfl⟩ := submit_eq_ok hok
      exact ⟨_, rfl⟩
    | dismiss issue =>
      right
      obtain ⟨c, hok⟩ := hm
      rw [move, hok]
      obtain ⟨-, -, rfl⟩ := dismiss_eq_ok_iff.mp hok
      exact ⟨_, rfl⟩
    | clear => exact .inl rfl
    | removeUser user => exact .inr ⟨_, rfl⟩
    | reload catalog policy => exact .inr ⟨_, rfl⟩
    | refresh _ _ | reportFailure _ _ _ _ | listen _ _ _ | unlisten _ | offer _ _ _ | execute _ _
    | flush | expire _ | wait _ | setFault _ => cases hm
  · right
    obtain ⟨e, -, -, hpassed⟩ := exists_passed_eq harmed env
    rw [move, ← hub_passed, hpassed]
    exact ⟨_, rfl⟩

/-- Nothing comes back once the hub is cleared, and nothing is armed for it. -/
theorem move_clear (h : Hub) (env : Surroundings) :
  (h.move env .clear).deadlines.isArmed .resurface = false
    ∧ ∀ now t, ¬ (h.move env .clear).ComesBack now t
  := by
  have hspares : h.cleared.Spares .resurface (h.move env .clear) :=
    (Spares.schedulePersist _ DeadlineKey.noConfusion rfl).trans (.publish _ env)
  have hsame : h.cleared.SameIssues (h.move env .clear) :=
    ((Like.schedulePersist _).trans (.publish _ env)).keeps.keepsIssues.same
  constructor
  · rw [hspares.isArmed_eq, cleared, Deadlines.isArmed_disarmMatching]
    apply Bool.and_false
  · intro now t
    rw [hsame.comesBack_iff]
    rintro ⟨source, report, hreport, -⟩
    rw [cleared, ReportStore.report?, ReportStore.get?, ExtTreeMap.getElem?_empty] at hreport
    cases hreport

/-- Where no issue comes back, no deadline is armed for it. -/
theorem Reschedules.isArmed_eq_false (hm : h.Reschedules env m)
    (hnone : ∀ t, ¬ (h.move env m).ComesBack env.now t) :
  (h.move env m).deadlines.isArmed .resurface = false
  := by
  obtain rfl | ⟨g, hmove⟩ := hm.cases
  · apply (move_clear h env).1
  · have hpublished : (h.move env m).deadlines = (g.scheduleResurface env.now).deadlines := by
      rw [hmove]
      rfl
    simp only [hmove, (SameIssues.scheduleResurface g env).comesBack_iff] at hnone
    rw [hpublished, isArmed_scheduleResurface, nextResurfacing_eq_none_iff.mpr hnone]
    rfl

/-- The deadline is armed to come by the time of every issue that comes back. -/
theorem Reschedules.exists_aim (hm : h.Reschedules env m)
    (hleaps : (h.move env m).dismissals.LeapsPast env.now)
    (hback : (h.move env m).ComesBack env.now t) :
  ∃ e ∈ (h.move env m).deadlines.armed, e.key = .resurface
    ∧ ∃ aim, env.now.add? e.delay = some aim ∧ aim ≤ t
  := by
  obtain rfl | ⟨g, hmove⟩ := hm.cases
  · exact absurd hback ((move_clear h env).2 env.now t)
  · have hsame : g.SameIssues (h.move env m) := hmove ▸ .scheduleResurface g env
    rw [hsame.comesBack_iff] at hback
    cases hnext : g.nextResurfacing env.now with
    | none => exact absurd hback (nextResurfacing_eq_none_iff.mp hnext t)
    | some first =>
      obtain ⟨hfirst, hmin⟩ := nextResurfacing_eq_some_iff.mp hnext
      obtain ⟨aim, hadd, haim⟩ := (hsame.comesBack_iff.mpr hfirst).exists_aim hleaps
      have harmed : (h.move env m).deadlines
          = g.deadlines.arm .resurface (first.since env.now).toNat () := by
        rw [hmove, scheduleResurface, hnext]
        rfl
      have hle : aim ≤ t := IsPreorder.le_trans aim first t haim (hmin t hback)
      rw [harmed]
      exact ⟨_, Deadlines.mem_arm _ _ _ _, rfl, aim, hadd, hle⟩

/-- The deadline is left as it is, and so is what it is armed for. -/
structure KeepsResurfacing (h h' : Hub) : Prop where
  spares : h.Spares .resurface h'
  same : h.SameIssues h'

/-- A move that does not see to the deadline leaves it alone. -/
theorem keepsResurfacing_move (hm : ¬ h.Reschedules env m) :
  h.KeepsResurfacing (h.move env m)
  := by
  have refused : h.KeepsResurfacing h := ⟨.refl h, .refl h⟩
  have of_spares (hspares : m.spares .resurface = true) : h.KeepsResurfacing (h.move env m) :=
    ⟨.move h env hspares rfl, .move h env hspares⟩
  cases m with
  | submit package sourceId user report event =>
    apply afterCall_elim refused
    intro c hok
    exact absurd (.inl ⟨c, hok⟩) hm
  | dismiss issue =>
    apply afterCall_elim refused
    intro c hok
    exact absurd (.inl ⟨c, hok⟩) hm
  | clear | removeUser _ | reload _ _ => exact absurd (.inl trivial) hm
  | expire key =>
    by_cases hkey : key = .resurface
    · obtain heq | ⟨e, he, hresurface, -⟩ := expire_cases h env key
      · rwa [move, heq]
      · rw [hkey] at hresurface
        exact absurd (.inr ⟨by rw [hkey], Deadlines.isArmed_iff.mpr ⟨e, he, hresurface⟩⟩) hm
    · exact of_spares (bne_iff_ne.mpr (Ne.symm hkey))
  | refresh _ _ | reportFailure _ _ _ _ | listen _ _ _ | unlisten _ | offer _ _ _ | execute _ _
  | flush | wait _ | setFault _ => exact of_spares rfl

/-- No record comes to be dated in a leap second that is still to come. -/
theorem lasts_leapPast (hle : earlier ≤ now) :
  Lasts (fun r => ∀ last, r.dismissedAt = some last → last.isLeap = true → last ≤ now) earlier
  where
  fresh _ := nofun
  dismiss r _ := by
    rintro _ ⟨⟩ -
    exact hle

/-! ### Runs -/

/-- A deadline is armed after a run from a move on that saw to it at a reading of the clock; no
move has seen to it since. -/
inductive ArmedFrom (h : Hub) (e : Armed Unit) : List (Surroundings × Move) → Instant → Prop
  | arm {moves : List (Surroundings × Move)} {env : Surroundings} {m : Move}
      (hm : (h.after moves).Reschedules env m)
      (harmed : e ∈ ((h.after moves).move env m).deadlines.armed) :
      ArmedFrom h e (moves ++ [(env, m)]) env.now
  | keep {moves : List (Surroundings × Move)} {env : Surroundings} {m : Move} {reading : Instant}
      (hm : ¬ (h.after moves).Reschedules env m)
      (harmed : e ∈ ((h.after moves).move env m).deadlines.armed)
      (hbefore : ArmedFrom h e moves reading) : ArmedFrom h e (moves ++ [(env, m)]) reading

/-- After a run the deadline for the next issue to come back is armed, and comes by an instant:
the reading at which it was armed and its delay add up to no more. -/
def ArmedBy (h : Hub) (moves : List (Surroundings × Move)) (t : Instant) : Prop :=
  ∃ e ∈ (h.after moves).deadlines.armed, e.key = .resurface
    ∧ ∃ reading aim, h.ArmedFrom e moves reading ∧ reading.add? e.delay = some aim ∧ aim ≤ t

/-- What is armed after a move that sees to the deadline was armed at its reading. -/
theorem ArmedFrom.eq_now {e : Armed Unit} {reading : Instant}
    (harmed : h.ArmedFrom e (moves ++ [(env, m)]) reading)
    (hm : (h.after moves).Reschedules env m) :
  reading = env.now
  := by
  generalize hrun : moves ++ [(env, m)] = run at harmed
  cases harmed with
  | arm =>
    obtain ⟨-, hlast⟩ := List.append_inj' hrun rfl
    cases hlast
    rfl
  | keep hother =>
    obtain ⟨rfl, hlast⟩ := List.append_inj' hrun rfl
    cases hlast
    exact absurd hm hother

theorem leapsPast_after (hleaps : h.dismissals.LeapsPast now)
    (hle : ∀ p ∈ moves, p.1.now ≤ now) :
  (h.after moves).dismissals.LeapsPast now
  := all_after hleaps fun p hp => lasts_leapPast (hle p hp)

/-- The deadline has been armed to come by the time of every issue that comes back.  The induction
is on the last move: one that sees to the deadline arms it anew, and any other leaves alone the
deadline, by `keepsResurfacing_move`, and what it is armed for. -/
theorem armedBy_after (hstart : ∀ now t, ¬ h.ComesBack now t)
    (hclock : (moves.map (·.1.now)).Pairwise (· ≤ ·))
    (hleaps : ∀ p ∈ moves, h.dismissals.LeapsPast p.1.now)
    (hle : ∀ p ∈ moves, p.1.now ≤ now) (hback : (h.after moves).ComesBack now t) :
  h.ArmedBy moves t
  := by
  induction moves using List.reverseRecOn with
  | nil => exact absurd hback (hstart now t)
  | append_singleton moves last ih =>
    obtain ⟨env, m⟩ := last
    obtain ⟨hle, hlast⟩ := List.forall_mem_append.mp hle
    obtain ⟨hleaps, hleapsLast⟩ := List.forall_mem_append.mp hleaps
    rw [List.map_append, List.pairwise_append] at hclock
    obtain ⟨hclock, -, hbefore⟩ := hclock
    rw [after_concat] at hback
    rw [ArmedBy, after_concat]
    by_cases hm : (h.after moves).Reschedules env m
    · have hmoves : ∀ p ∈ moves, p.1.now ≤ env.now := fun p hp =>
        hbefore _ (List.mem_map_of_mem hp) _ (List.mem_singleton_self _)
      have hpast : (h.after moves).dismissals.LeapsPast env.now :=
        leapsPast_after (hleapsLast _ (List.mem_singleton_self _)) hmoves
      have hpast' := (step_move _ env m).affects.all (lasts_leapPast (IsPreorder.le_refl env.now))
        hpast
      have hnow : env.now ≤ now := hlast _ (List.mem_singleton_self _)
      obtain ⟨e, he, hkey, aim, hadd, haim⟩ := hm.exists_aim hpast' (hback.of_le hnow)
      exact ⟨e, he, hkey, env.now, aim, .arm hm he, hadd, haim⟩
    · obtain ⟨hspares, hsame⟩ := keepsResurfacing_move hm
      obtain ⟨e, he, hkey, reading, aim, harmed, hadd, haim⟩ :=
        ih hclock hleaps hle (hsame.comesBack_iff.mp hback)
      have hstays := (hspares e hkey).mpr he
      exact ⟨e, hstays, hkey, reading, aim, .keep hm hstays harmed, hadd, haim⟩

theorem not_comesBack_start (catalog : Catalog) (policy : Policy) (archive : Archive)
    (loaded : Except ArchiveError (List SavedRecord)) (time : Nat) (now t : Instant) :
  ¬ (start catalog policy archive loaded time).ComesBack now t
  := by
  have hsame : SameIssues _ (start catalog policy archive loaded time) :=
    (Like.schedulePersist _).keeps.keepsIssues.same
  rw [hsame.comesBack_iff]
  rintro ⟨source, report, hreport, -⟩
  rw [ReportStore.report?, ReportStore.get?, ExtTreeMap.getElem?_empty] at hreport
  cases hreport

/-- After every run in which the clock does not go back, whenever an issue of a stored report will
come back, the deadline is armed and comes by then; so it does at every later reading, until the
next move.  No record may have been loaded that is dated in a leap second still to come at a
reading of the run.  Right after a move that sees to the deadline, it is armed only when an issue
will come back. -/
theorem resurfacings_armed_after (catalog : Catalog) (policy : Policy) (archive : Archive)
    (loaded : Except ArchiveError (List SavedRecord)) (time : Nat)
    (moves : List (Surroundings × Move)) (hclock : (moves.map (·.1.now)).Pairwise (· ≤ ·))
    (hloaded : ∀ records, loaded = .ok records → ∀ s ∈ records, ∀ last,
      s.record.dismissedAt = some last → last.isLeap = true → ∀ p ∈ moves, last ≤ p.1.now) :
  let h := start catalog policy archive loaded time
  (∀ now, (∀ p ∈ moves, p.1.now ≤ now) → ∀ t, (h.after moves).ComesBack now t →
    h.ArmedBy moves t)
    ∧ ∀ env m, (h.after moves).Reschedules env m →
      (∀ t, ¬ ((h.after moves).move env m).ComesBack env.now t) →
        ((h.after moves).move env m).deadlines.isArmed .resurface = false
  := by
  intro h
  constructor
  · intro now hle t hback
    apply armedBy_after (not_comesBack_start catalog policy archive loaded time) hclock _ hle
      hback
    intro p hp
    apply all_start
    intro records hok s hs last hlast hleap
    exact hloaded records hok s hs last hlast hleap p hp
  · intro env m hm
    exact hm.isArmed_eq_false

/-- Dismissed issues come back once, after a number of milliseconds. -/
def sampleDelay (delay : Millis) : Policy where
  resurfaceMaxCount := .uniform 1
  resurfaceDelay := .uniform delay

/-- The archive holds a dismissal of the issue a. -/
def sampleArchived (dismissedAt : Instant) : Except ArchiveError (List SavedRecord) :=
  .ok [⟨⟨"s", "a", 0⟩, { firstSeenAt := .epoch, dismissedAt, dismissCount := 1 }⟩]

/-- The issues a and b are reported at one reading of the clock, and b is dismissed at another. -/
def sampleDismissal (first second : Instant) : List (Surroundings × Move) :=
  let issue (id : String) : Issue :=
    { id, title := "", severity := .recommendation, category := .device }
  let report : Report := { issues := [issue "a", issue "b"] }
  [({ Sample.device with now := first }, .submit "p" "s" 0 (some report) .sourceStateChanged),
    ({ Sample.device with now := second }, .dismiss ⟨"s", "b", 0⟩)]

/-- An issue comes back that was dismissed in a leap second that is past. -/
theorem resurfacing_of_one_dismissal :
  let moves := sampleDismissal ⟨60, 0, by decide⟩ ⟨60, 50000000, by decide⟩
  let h := start Sample.catalog (sampleDelay 1000) {}
    (sampleArchived ⟨59, 1100000000, by decide⟩) 0
  let now : Instant := ⟨60, 70000000, by decide⟩
  let back : Instant := ⟨60, 100000000, by decide⟩
  (h.after moves).ComesBack now back ∧ h.ArmedBy moves back
  := by
  intro moves h now back
  have hback : (h.after moves).ComesBack now back := mem_resurfacings_iff.mp (by decide +kernel)
  have hclock : (moves.map (·.1.now)).Pairwise (· ≤ ·) := by decide
  have hle : ∀ p ∈ moves, p.1.now ≤ now := by decide
  have hpast : ∀ p ∈ moves, (⟨59, 1100000000, by decide⟩ : Instant) ≤ p.1.now := by decide
  obtain ⟨harmed, -⟩ := resurfacings_armed_after Sample.catalog (sampleDelay 1000) {}
    (sampleArchived ⟨59, 1100000000, by decide⟩) 0 moves hclock (by
      rintro _ ⟨⟩ s hs last hlast -
      obtain rfl := List.mem_singleton.mp hs
      cases hlast
      exact hpast)
  exact ⟨hback, harmed now hle back hback⟩

/-- A record dated in a leap second that is still to come has the deadline come late, also for
another issue: the time to that leap second counts the second before it, which is left out when it
is added up again. -/
theorem not_all_resurfacings_are_in_time :
  ¬ ∀ (catalog : Catalog) (policy : Policy) (archive : Archive)
    (loaded : Except ArchiveError (List SavedRecord)) (time : Nat)
    (moves : List (Surroundings × Move)) (_ : (moves.map (·.1.now)).Pairwise (· ≤ ·))
    (now t : Instant),
    let h := start catalog policy archive loaded time
    (∀ p ∈ moves, p.1.now ≤ now) → (h.after moves).ComesBack now t → h.ArmedBy moves t
  := by
  intro hall
  let first : Instant := ⟨86399, 0, by decide⟩
  let second : Instant := ⟨86399, 800000000, by decide⟩
  let moves := sampleDismissal first second
  let loaded := sampleArchived ⟨86399, 1100000000, by decide⟩
  let h := start Sample.catalog (sampleDelay 400) {} loaded 0
  let back : Instant := ⟨86400, 200000000, by decide⟩
  have hback : (h.after moves).ComesBack second back :=
    mem_resurfacings_iff.mp (by decide +kernel)
  have hclock : (moves.map (·.1.now)).Pairwise (· ≤ ·) := by decide
  have hle : ∀ p ∈ moves, p.1.now ≤ second := by decide
  obtain ⟨e, he, hkey, reading, aim, harmed, hadd, haim⟩ :=
    hall Sample.catalog (sampleDelay 400) {} loaded 0 moves hclock second back hle hback
  have hdelay : ∀ e ∈ (h.after moves).deadlines.armed, e.key = .resurface →
      e.delay = 700000000 := by
    decide +kernel
  -- the dismissal has seen to the deadline, so that its reading is the one to add the delay to
  have hlast : h.ArmedFrom e (moves.take 1 ++ [({ Sample.device with now := second },
      .dismiss ⟨"s", "b", 0⟩)]) reading := harmed
  have hm : (h.after (moves.take 1)).Reschedules { Sample.device with now := second }
      (.dismiss ⟨"s", "b", 0⟩) :=
    .inl ⟨_, dismiss_eq_ok_iff.mpr ⟨by decide +kernel, by decide +kernel, rfl⟩⟩
  rw [hdelay e he hkey, hlast.eq_now hm] at hadd
  have hlate : ∀ aim ∈ second.add? 700000000, ¬ aim ≤ back := by decide
  exact hlate aim hadd haim

end Hub

end SafetyHub
