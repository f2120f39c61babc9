import SafetyHub.Proofs.Hub.Outcomes
import SafetyHub.Proofs.Hub.Sparing

/-!
# When changed dismissals are saved

Every call that changes dismissals arms the deadline for saving them, unless it is armed.  A save
that fails leaves dismissals changed and arms nothing: from then on they count as changed and
nothing is armed for them, `Hub.Unscheduled`, until a save succeeds or a call arms the deadline
again.  There is no other way in which a hub comes to be so.
-/

namespace SafetyHub.Hub

variable {h h' h'' : Hub} {env : Surroundings}

/-- Dismissals have changed, and no deadline for saving them is armed. -/
def Unscheduled (h : Hub) : Prop :=
  h.dismissals.dirty = true ∧ h.deadlines.isArmed .persistWrite = false

/-- Dismissals have changed, and the archive does not take them. -/
def CannotSave (h : Hub) : Prop :=
  h.dismissals.dirty = true ∧ ∃ e, h.archive.save h.dismissals.saved = .error e

/-- A move tries to save changed dismissals and does not succeed. -/
def FailsToSave (h : Hub) : Move → Prop
  | .flush => h.CannotSave
  | .expire key => key = .persistWrite ∧ h.deadlines.isArmed .persistWrite = true ∧ h.CannotSave
  | .refresh _ _ | .submit _ _ _ _ _ | .reportFailure _ _ _ _ | .listen _ _ _ | .unlisten _
  | .offer _ _ _ | .dismiss _ | .execute _ _ | .clear | .removeUser _ | .reload _ _ | .wait _
  | .setFault _ => False

/-- A move is a call that is carried out and that sees to it that changed dismissals are saved. -/
def Schedules (h : Hub) (env : Surroundings) : Move → Prop
  | .submit package sourceId user report event =>
    ∃ c, h.submit env package sourceId user report event = .ok c
  | .dismiss issue => ∃ c, h.dismiss env issue = .ok c
  | .clear | .removeUser _ | .reload _ _ => True
  | .refresh _ _ | .reportFailure _ _ _ _ | .listen _ _ _ | .unlisten _ | .offer _ _ _
  | .execute _ _ | .flush | .expire _ | .wait _ | .setFault _ => False

/-- A hub whose dismissals have changed when those of another one have, with the deadline for
saving armed when the other one's is. -/
structure SavesLike (h h' : Hub) : Prop where
  dirty : h'.dismissals.dirty = h.dismissals.dirty
  isArmed : h'.deadlines.isArmed .persistWrite = h.deadlines.isArmed .persistWrite

namespace SavesLike

theorem unscheduled_iff (hsaves : h.SavesLike h') : h'.Unscheduled ↔ h.Unscheduled := by
  rw [Unscheduled, hsaves.dirty, hsaves.isArmed, Unscheduled]

theorem of_spares (hspares : h.Spares .persistWrite h') (hsame : h'.dismissals = h.dismissals) :
  h.SavesLike h'
  := by
  use by rw [hsame]
  apply hspares.isArmed_eq

/-- Most moves neither change dismissals nor concern the deadline for saving them. -/
theorem move (h : Hub) (env : Surroundings) {m : Move} (hm : m.spares .persistWrite = true) :
  h.SavesLike (h.move env m)
  := by
  apply of_spares (Spares.move h env hm rfl)
  apply (KeepsIssues.move h env hm).dismissals

end SavesLike

/-! ### Scheduling -/

theorem not_unscheduled_schedulePersist (h : Hub) : ¬ h.schedulePersist.Unscheduled := by
  unfold schedulePersist
  split
  next =>
    rintro ⟨-, hidle⟩
    rw [arm, Deadlines.isArmed_arm] at hidle
    cases hidle
  next hcond =>
    rintro ⟨hdirty, hidle⟩
    apply hcond
    rw [hdirty, hidle]
    rfl

theorem not_unscheduled_settle (h : Hub) (env : Surroundings) :
  ¬ (h.settle env).hub.Unscheduled
  := by
  have hspares : h.schedulePersist.Spares .persistWrite (h.settle env).hub :=
    (Spares.scheduleResurface _ env.now DeadlineKey.noConfusion rfl).trans (.publish _ env)
  have hkeeps := (Like.scheduleResurface h.schedulePersist env.now).trans (.publish _ env) |>.keeps
  rw [(SavesLike.of_spares hspares hkeeps.dismissals).unscheduled_iff]
  apply not_unscheduled_schedulePersist

theorem Schedules.not_unscheduled {m : Move} (hm : h.Schedules env m) :
  ¬ (h.move env m).Unscheduled
  := by
  cases m with
  | submit package sourceId user report event =>
    obtain ⟨c, hok⟩ := hm
    rw [move, hok]
    obtain ⟨-, -, rfl⟩ := submit_eq_ok hok
    apply not_unscheduled_settle
  | dismiss issue =>
    obtain ⟨c, hok⟩ := hm
    rw [move, hok]
    obtain ⟨-, -, rfl⟩ := dismiss_eq_ok_iff.mp hok
    apply not_unscheduled_settle
  | clear =>
    have hsaves : h.cleared.schedulePersist.SavesLike (h.clear env).hub := ⟨rfl, rfl⟩
    rw [move, hsaves.unscheduled_iff]
    apply not_unscheduled_schedulePersist
  | removeUser user => apply not_unscheduled_settle
  | reload catalog policy => apply not_unscheduled_settle
  | refresh _ _ | reportFailure _ _ _ _ | listen _ _ _ | unlisten _ | offer _ _ _ | execute _ _
  | flush | expire _ | wait _ | setFault _ => cases hm

/-! ### Saving -/

theorem dirty_write_iff : h.write.2.hub.dismissals.dirty = true ↔ h.CannotSave := by
  unfold write CannotSave
  split
  next hchanged =>
    dsimp only
    cases hsave : h.archive.save h.dismissals.saved with
    | ok archive => simp [Dismissals.clean]
    | error e => simp [Dismissals.markDirty, hchanged]
  next hclean => simp [hclean]

theorem unscheduled_flush_iff : h.flush.2.hub.Unscheduled ↔ h.CannotSave := by
  have idle : (h.disarm .persistWrite).deadlines.isArmed .persistWrite = false := by
    rw [disarm, Deadlines.isArmed_disarm, bne_self_eq_false, Bool.and_false]
  rw [flush, Unscheduled, dirty_write_iff, deadlines_write, idle]
  simp only [and_true]
  rfl

/-- The deadline for saving passes. -/
theorem unscheduled_turn_iff {e : Armed Unit} (hkey : e.key = .persistWrite) :
  ({ h with deadlines := h.deadlines.take e }.turn env .persistWrite).hub.Unscheduled
    ↔ h.CannotSave
  := by
  have idle : (h.deadlines.take e).isArmed .persistWrite = false := by
    rw [Deadlines.isArmed_take, hkey, bne_self_eq_false, Bool.and_false]
  rw [turn, Unscheduled, dirty_write_iff, deadlines_write]
  dsimp only
  rw [idle]
  simp only [and_true]
  rfl

/-- A save that fails leaves changed dismissals that no deadline is armed for. -/
theorem FailsToSave.unscheduled {m : Move} (hfails : h.FailsToSave m) (env : Surroundings) :
  (h.move env m).Unscheduled
  := by
  cases m with
  | flush => exact unscheduled_flush_iff.mpr hfails
  | expire key =>
    obtain ⟨rfl, harmed, hcannot⟩ := hfails
    obtain ⟨e, -, hkey, hpassed⟩ := exists_passed_eq harmed env
    rw [move, ← hub_passed, hpassed]
    exact (unscheduled_turn_iff hkey).mpr hcannot
  | refresh _ _ | submit _ _ _ _ _ | reportFailure _ _ _ _ | listen _ _ _ | unlisten _
  | offer _ _ _ | dismiss _ | execute _ _ | clear | removeUser _ | reload _ _ | wait _
  | setFault _ => cases hfails

/-! ### Moves -/

/-- A hub has changed dismissals and no deadline for saving them only if it had before, or could
not save them. -/
theorem unscheduled_move {m : Move} (hafter : (h.move env m).Unscheduled) :
  h.Unscheduled ∨ h.FailsToSave m
  := by
  have of_spares (hm : m.spares .persistWrite = true) : h.Unscheduled ∨ h.FailsToSave m :=
    .inl ((SavesLike.move h env hm).unscheduled_iff.mp hafter)
  have of_schedules {x : Except HubError Change} (hmove : h.move env m = h.afterCall x)
      (hx : ∀ c, x = .ok c → h.Schedules env m) : h.Unscheduled ∨ h.FailsToSave m := by
    left
    cases x with
    | error e => rwa [hmove] at hafter
    | ok c => exact absurd hafter (hx c rfl).not_unscheduled
  cases m with
  | submit package sourceId user report event => exact of_schedules rfl fun c hok => ⟨c, hok⟩
  | dismiss issue => exact of_schedules rfl fun c hok => ⟨c, hok⟩
  | flush =>
    right
    exact unscheduled_flush_iff.mp hafter
  | clear | removeUser _ | reload _ _ => exact absurd hafter (Schedules.not_unscheduled trivial)
  | expire key =>
    obtain heq | ⟨e, he, rfl, heq⟩ := expire_cases h env key
    · left
      rwa [move, heq] at hafter
    · by_cases hkey : e.key = .persistWrite
      · right
        rw [move, heq, hkey, unscheduled_turn_iff hkey] at hafter
        exact ⟨hkey, Deadlines.isArmed_iff.mpr ⟨e, he, hkey⟩, hafter⟩
      · apply of_spares
        exact bne_iff_ne.mpr (Ne.symm hkey)
  | refresh _ _ | reportFailure _ _ _ _ | listen _ _ _ | unlisten _ | offer _ _ _ | execute _ _
  | wait _ | setFault _ => exact of_spares rfl

/-! ### Runs -/

theorem not_unscheduled_start (catalog : Catalog) (policy : Policy) (archive : Archive)
    (loaded : Except ArchiveError (List SavedRecord)) (time : Nat) :
  ¬ (start catalog policy archive loaded time).Unscheduled
  := not_unscheduled_schedulePersist _

/-- Changed dismissals are left without a deadline from a save that fails on. -/
theorem exists_failsToSave (hstart : ¬ h.Unscheduled) {moves : List (Surroundings × Move)}
    (hafter : (h.after moves).Unscheduled) :
  ∃ before env m rest, moves = before ++ (env, m) :: rest ∧ (h.after before).FailsToSave m
    ∧ ∀ more, more <+: rest → (h.after (before ++ (env, m) :: more)).Unscheduled
  := by
  induction moves using List.reverseRecOn with
  | nil => exact absurd hafter hstart
  | append_singleton moves last ih =>
    obtain ⟨env, m⟩ := last
    have hmove := after_concat h moves env m
    obtain hbefore | hfails := unscheduled_move (hmove ▸ hafter)
    · obtain ⟨before, env', m', rest, rfl, hfails, hmore⟩ := ih hbefore
      refine ⟨before, env', m', rest ++ [(env, m)], by simp, hfails, ?_⟩
      intro more hprefix
      obtain rfl | hprefix := List.prefix_concat_iff.mp hprefix
      · simpa using hafter
      · exact hmore more hprefix
    · refine ⟨moves, env, m, [], rfl, hfails, ?_⟩
      intro more hprefix
      rwa [List.prefix_nil.mp hprefix]

/-- After every run, the deadline for saving is armed when dismissals have changed, unless a save
has failed and nothing has been armed since.  So it is armed in every run in which no save fails;
a save that fails does leave changed dismissals without it, and the next call that changes
dismissals, or could change them, arms it again. -/
theorem persistWrite_armed_after (catalog : Catalog) (policy : Policy) (archive : Archive)
    (loaded : Except ArchiveError (List SavedRecord)) (time : Nat)
    (moves : List (Surroundings × Move)) :
  let run := (start catalog policy archive loaded time).after
  ((run moves).dismissals.dirty = true →
    (run moves).deadlines.isArmed .persistWrite = true
      ∨ ∃ before env m rest, moves = before ++ (env, m) :: rest ∧ (run before).FailsToSave m
        ∧ ∀ more, more <+: rest → (run (before ++ (env, m) :: more)).Unscheduled)
    ∧ ((∀ before env m rest, moves = before ++ (env, m) :: rest → ¬ (run before).FailsToSave m) →
      (run moves).dismissals.dirty = true → (run moves).deadlines.isArmed .persistWrite = true)
    ∧ (∀ env m, (run moves).FailsToSave m → ((run moves).move env m).Unscheduled)
    ∧ ∀ env m, (run moves).Schedules env m →
      ((run moves).move env m).dismissals.dirty = true →
        ((run moves).move env m).deadlines.isArmed .persistWrite = true
  := by
  intro run
  have hstart := not_unscheduled_start catalog policy archive loaded time
  have armed_or {h : Hub} (hdirty : h.dismissals.dirty = true) :
      h.deadlines.isArmed .persistWrite = true ∨ h.Unscheduled := by
    cases harmed : h.deadlines.isArmed .persistWrite with
    | true => exact .inl rfl
    | false => exact .inr ⟨hdirty, harmed⟩
  have unless_failed (hdirty : (run moves).dismissals.dirty = true) :=
    (armed_or hdirty).imp_right (exists_failsToSave hstart)
  refine ⟨unless_failed, ?_, ?_, ?_⟩
  · intro hsaves hdirty
    obtain harmed | ⟨before, env, m, rest, hmoves, hfails, -⟩ := unless_failed hdirty
    · exact harmed
    · exact absurd hfails (hsaves before env m rest hmoves)
  · intro env m hfails
    exact hfails.unscheduled env
  · intro env m hschedules hdirty
    exact (armed_or hdirty).resolve_right hschedules.not_unscheduled

/-- When a save fails, changed dismissals are left that no deadline is armed for. -/
theorem not_all_changes_are_scheduled :
  ¬ ∀ (catalog : Catalog) (policy : Policy) (archive : Archive)
    (loaded : Except ArchiveError (List SavedRecord)) (time : Nat)
    (moves : List (Surroundings × Move)),
    let h := (start catalog policy archive loaded time).after moves
    h.dismissals.dirty = true → h.deadlines.isArmed .persistWrite = true
  := by
  intro hall
  let moves : List (Surroundings × Move) := [
    (Sample.device, Sample.submission []), (Sample.device, .setFault (some .inaccessible)),
    (Sample.device, .expire .persistWrite)]
  have harmed := hall Sample.catalog {} {} (.ok []) 0 moves
  exact absurd (harmed (by decide)) (by decide)

end SafetyHub.Hub
