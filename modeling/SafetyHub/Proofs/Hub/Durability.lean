import SafetyHub.Proofs.Dismissal.Records
import SafetyHub.Proofs.Hub.Run

/-!
# Dismissals are durable

While a hub's dismissals count as unchanged, its archive holds them: loading it under the
catalog at hand leaves out nothing and gives the same dismissals.  Beside this, which saving
establishes, `Hub.Durable` says that every record belongs to a source that reports.
-/

namespace SafetyHub

/-- The records that an archive holds; one that cannot be loaded counts as empty. -/
def Archive.held (a : Archive) : List SavedRecord :=
  match a.load with
  | .ok records => records
  | .error _ => []

namespace Archive

theorem held_of_save {a a' : Archive} {records : List SavedRecord}
    (h : a.save records = .ok a') :
  a'.held = records
  := by
  unfold save at h
  split at h
  next => cases h
  next =>
    cases h
    rfl

end Archive

/-- The source of a caller is in the catalog and reports. -/
theorem Catalog.isExternal_of_checkCaller {c : Catalog} {users : Roster}
    {package sourceId : String} {user : UserId} {source : Source}
    (h : c.checkCaller users package sourceId user = .ok source) :
  c.isExternal sourceId = true
  := by
  unfold checkCaller at h
  split at h
  next => cases h
  next s hs =>
    by_cases hexternal : s.isExternal = true
    · rw [isExternal, hs]
      apply hexternal
    · simp [hexternal] at h

namespace Hub

variable {h h' : Hub} {env : Surroundings}

/-- Every record belongs to a source that reports, and unchanged dismissals are what the archive
holds. -/
structure Durable (h : Hub) : Prop where
  external : ∀ key ∈ h.dismissals.records, h.catalog.isExternal key.sourceId = true
  held : h.dismissals.dirty = false →
    Dismissals.load h.archive.held h.catalog = h.dismissals

namespace Durable

theorem congr (hdurable : h.Durable) (hcatalog : h'.catalog = h.catalog)
    (hdismissals : h'.dismissals = h.dismissals) (hheld : h'.archive.held = h.archive.held) :
  h'.Durable
  where
  external := by
    rw [hdismissals, hcatalog]
    apply hdurable.external
  held := by
    rw [hdismissals, hcatalog, hheld]
    apply hdurable.held

theorem of_keeps (hdurable : h.Durable) (hkeeps : h.Keeps h') : h'.Durable :=
  hdurable.congr hkeeps.catalog hkeeps.dismissals (by rw [hkeeps.archive])

/-- What marks its dismissals as changed need not hold them. -/
theorem of_dirty (hdirty : h.dismissals.dirty = true)
    (hexternal : ∀ key ∈ h.dismissals.records, h.catalog.isExternal key.sourceId = true) :
  h.Durable
  where
  external := hexternal
  held hclean := by simp [hdirty] at hclean

/-! ### Moves -/

theorem store (hdurable : h.Durable) (now : Instant) {key : SourceKey}
    (hkey : h.catalog.isExternal key.sourceId = true) (report : Option Report) :
  (h.store now key report).Durable
  where
  external issue hin := by
    rw [dismissals_store, Dismissals.mem_records_iff, Dismissals.record?_reconcile] at hin
    split at hin
    next hbelongs =>
      rw [← IssueKey.belongsTo_iff.mp hbelongs] at hkey
      apply hkey
    next => exact hdurable.external issue (Dismissals.mem_records_iff.mpr hin)
  held hclean := by
    have same : (h.store now key report).dismissals = h.dismissals :=
      Dismissals.reconcile_of_not_dirty hclean
    rw [same] at hclean ⊢
    apply hdurable.held hclean

theorem dismiss (hdurable : h.Durable) (issue : IssueKey) (now : Instant) :
  { h with dismissals := (h.dismissals.dismiss? issue now).getD h.dismissals }.Durable
  := by
  cases hr : h.dismissals.record? issue with
  | none =>
    refine hdurable.congr rfl ?_ rfl
    rw [Dismissals.dismiss?, hr]
    rfl
  | some r =>
    apply of_dirty
    · rw [Dismissals.dismiss?, hr]
      rfl
    · intro key hin
      rw [Dismissals.mem_records_iff, Dismissals.isSome_record?_dismiss?,
        ← Dismissals.mem_records_iff] at hin
      apply hdurable.external key hin

theorem beginAction (hdurable : h.Durable) (action : ActionKey) :
  (h.beginAction action).Durable
  := hdurable.congr rfl rfl rfl

theorem cleared (h : Hub) : h.cleared.Durable := by
  apply of_dirty rfl
  intro key hin
  exact absurd hin Std.ExtTreeMap.not_mem_empty

theorem without (hdurable : h.Durable) (user : UserId) : (h.without user).Durable := by
  apply of_dirty rfl
  intro key hin
  apply hdurable.external key (Std.ExtTreeMap.mem_of_mem_filter hin)

theorem under (hdurable : h.Durable) (catalog : Catalog) (policy : Policy) :
  (h.under catalog policy).Durable
  where
  external _ hin := Dismissals.isExternal_of_mem_retainConfigured hin
  held hclean := by
    have same : h.dismissals.retainConfigured catalog = h.dismissals :=
      Dismissals.retainConfigured_of_not_dirty hclean
    rw [dismissals_under, same] at hclean ⊢
    have hheld := hdurable.held hclean
    have before : ∀ s ∈ h.archive.held, h.catalog.isExternal s.key.sourceId = true :=
      Dismissals.dirty_load_eq_false_iff.mp (by rw [hheld, hclean])
    -- what the archive holds is in the records, which the new catalog has let pass
    have now : ∀ s ∈ h.archive.held, catalog.isExternal s.key.sourceId = true := by
      intro s hs
      apply Dismissals.isExternal_of_mem_retainConfigured (d := h.dismissals)
      rw [same, ← hheld, Dismissals.mem_load_iff]
      exact ⟨s, hs, before s hs, rfl⟩
    apply (Dismissals.load_congr now before).trans hheld

theorem write (hdurable : h.Durable) : h.write.2.hub.Durable := by
  obtain heq | ⟨-, archive, hsave, heq⟩ := hub_write_cases h
  · rwa [heq]
  · rw [heq]
    constructor
    · apply hdurable.external
    · intro hclean
      rw [Archive.held_of_save hsave]
      apply Dismissals.load_saved hdurable.external

theorem of_affects (hdurable : h.Durable) (haffects : h.Affects env h') : h'.Durable := by
  cases haffects with
  | nothing hkeeps => apply hdurable.of_keeps hkeeps
  | store key report hcaller hreport hkeeps =>
    have hkey := Catalog.isExternal_of_checkCaller hcaller
    apply (hdurable.store env.now hkey report).of_keeps hkeeps
  | dismiss hissue hkeeps => apply (hdurable.dismiss _ env.now).of_keeps hkeeps
  | execute hpackage hkeeps => apply (hdurable.beginAction _).of_keeps hkeeps
  | clear hkeeps => apply (cleared h).of_keeps hkeeps
  | without user hkeeps => apply (hdurable.without user).of_keeps hkeeps
  | under catalog policy hkeeps => apply (hdurable.under catalog policy).of_keeps hkeeps
  | write hkeeps => exact (hdurable.of_keeps hkeeps).write
  | setFault fault => exact hdurable.congr rfl rfl rfl

end Durable

theorem durable_start (catalog : Catalog) (policy : Policy) (archive : Archive) (time : Nat) :
  (start catalog policy archive archive.load time).Durable
  := by
  cases hload : archive.load with
  | ok records =>
    have hheld : archive.held = records := by rw [Archive.held, hload]
    apply Durable.of_keeps _ (Like.schedulePersist _).keeps
    constructor
    · intro key hin
      obtain ⟨s, -, hs, rfl⟩ := Dismissals.mem_load_iff.mp hin
      apply hs
    · intro _
      dsimp only
      rw [hheld]
  | error e =>
    have hheld : archive.held = [] := by rw [Archive.held, hload]
    apply Durable.of_keeps _ (Like.schedulePersist _).keeps
    constructor
    · intro key hin
      exact absurd hin Std.ExtTreeMap.not_mem_empty
    · intro _
      dsimp only
      rw [hheld]
      rfl

theorem durable_run (catalog : Catalog) (policy : Policy) (archive : Archive) (time : Nat)
    (moves : List (Surroundings × Move)) :
  ((start catalog policy archive archive.load time).after moves).Durable
  := by
  apply after_induction (durable_start catalog policy archive time)
  intro h env m hdurable
  apply hdurable.of_affects (step_move h env m).affects

/-- After every run, dismissals that count as unchanged are those that the archive would give
back, leaving out nothing that it holds.  The archive may be one that cannot be loaded, saves may
fail, and the catalog may be replaced. -/
theorem durable_after (catalog : Catalog) (policy : Policy) (archive : Archive) (time : Nat)
    (moves : List (Surroundings × Move)) :
  let h := (start catalog policy archive archive.load time).after moves
  h.dismissals.dirty = false →
    (∀ s ∈ h.archive.held, h.catalog.isExternal s.key.sourceId = true)
      ∧ (Dismissals.load h.archive.held h.catalog).records = h.dismissals.records
  := by
  intro h hclean
  have hdurable : h.Durable := durable_run catalog policy archive time moves
  have hheld := hdurable.held hclean
  constructor
  · apply Dismissals.dirty_load_eq_false_iff.mp
    rw [hheld, hclean]
  · rw [hheld]

/-- A record that could not be saved at first is saved later. -/
theorem durable_after_saving :
  let moves := [
    (Sample.device, Sample.submission ["a"]),
    (Sample.device, .setFault (some .inaccessible)), (Sample.device, .flush),
    (Sample.device, .setFault none), (Sample.device, .flush)]
  let h := (start Sample.catalog {} {} (.ok []) 0).after moves
  h.dismissals.dirty = false ∧ h.archive.held.length = 1
    ∧ (Dismissals.load h.archive.held h.catalog).records = h.dismissals.records
  := by
  intro moves h
  have hclean : h.dismissals.dirty = false := rfl
  obtain ⟨-, hrecords⟩ := durable_after Sample.catalog {} {} 0 moves hclean
  exact ⟨hclean, rfl, hrecords⟩

end Hub

end SafetyHub
