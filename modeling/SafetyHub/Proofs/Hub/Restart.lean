import SafetyHub.Proofs.Hub.Agreement
import SafetyHub.Proofs.Hub.Durability
import SafetyHub.Proofs.Overview.Reading

/-!
# Starting over

A hub that is at rest, with unchanged dismissals, can be given up: a new one that starts from
its archive, and to which the stored reports are submitted again in any order, knows the same
and shows the same.  `Hub.Restores` is what such a hub has in common with the one it stands for
at any time in between: it has the dismissals from the start, and each submission adds the
report of its key.
-/

namespace SafetyHub

/-! ### What overviews are drawn from -/

/-- Overviews are drawn from reports and the marks of failed sources, and not from when reports
came. -/
theorem Basis.assemble_congr {b : Basis} {reports : ReportStore}
    (hreports : ∀ key, reports.report? key = b.reports.report? key)
    (hfailed : ∀ key, reports.isFailed key = b.reports.isFailed key) :
  { b with reports }.assemble = b.assemble
  := by
  funext refreshStatus group
  apply assemble_congr_cells
  intro c _
  apply Agrees.ofReports (hreports c.key) (hfailed c.key)

namespace Hub

variable {h h' h'' : Hub} {env : Surroundings}

/-! ### A new hub in place of another -/

/-- Nothing is to be saved, nothing is under way and no source has failed. -/
structure AtRest (h : Hub) : Prop where
  clean : h.dismissals.dirty = false
  noRefresh : h.tracker.current = none
  noAction : ∀ action, action ∉ h.inFlight
  noFailure : ∀ key, h.reports.isFailed key = false

/-- A new hub, with the catalog and policy of another one and what its archive holds. -/
def restarted (h : Hub) (time : Nat) : Hub :=
  start h.catalog h.policy h.archive h.archive.load time

/-- The stored reports and their keys. -/
def stored (h : Hub) : List (SourceKey × Report) :=
  h.reports.reports.toList.map fun (key, stored) => (key, stored.report)

/-- The package that may report for a source. -/
def ownerOf (h : Hub) (sourceId : String) : String :=
  ((h.catalog.source? sourceId).bind (·.package)).getD ""

/-- Submits reports in turn, each from the package that owns its source. -/
def resubmit (env : Surroundings) : List (SourceKey × Report) → Hub → Except HubError Hub
  | [], h => .ok h
  | (key, report) :: rest, h => do
    let c ← h.submit env (h.ownerOf key.sourceId) key.sourceId key.userId (some report)
      .sourceStateChanged
    resubmit env rest c.hub

/-- A hub that starts over for another one: it has the same dismissals, and no reports but
those of the other one. -/
structure Restores (h h' : Hub) : Prop where
  catalog : h'.catalog = h.catalog
  policy : h'.policy = h.policy
  dismissals : h'.dismissals = h.dismissals
  noRefresh : h'.tracker.current = none
  noAction : ∀ action, action ∉ h'.inFlight
  noFailure : ∀ key, h'.reports.isFailed key = false
  reported : ∀ key report, h'.reports.report? key = some report →
    h.reports.report? key = some report

theorem mem_stored_iff {key : SourceKey} {report : Report} :
  (key, report) ∈ h.stored ↔ h.reports.report? key = some report
  := by
  simp only [stored, List.mem_map, ReportStore.report?, ReportStore.get?, Option.map_eq_some_iff,
    Prod.exists, Std.ExtTreeMap.mem_toList_iff_getElem?_eq_some, Prod.mk.injEq]
  constructor
  · rintro ⟨_, found, hfound, rfl, rfl⟩
    exact ⟨found, hfound, rfl⟩
  · rintro ⟨found, hfound, rfl⟩
    exact ⟨key, found, hfound, rfl, rfl⟩

/-- A new hub begins with what its archive holds. -/
theorem like_restarted (h : Hub) (time : Nat) :
  Like
    { catalog := h.catalog, policy := h.policy, archive := h.archive, deadlines := { now := time }
      dismissals := Dismissals.load h.archive.held h.catalog }
    (h.restarted time)
  := by
  have hstart : h.restarted time = schedulePersist
      { catalog := h.catalog, policy := h.policy, archive := h.archive
        deadlines := { now := time }
        dismissals := Dismissals.load h.archive.held h.catalog } := by
    unfold restarted start Archive.held
    cases h.archive.load <;> rfl
  rw [hstart]
  apply Like.schedulePersist

theorem restores_restarted (hdurable : h.Durable) (hclean : h.dismissals.dirty = false)
    (time : Nat) :
  h.Restores (h.restarted time)
  := by
  obtain ⟨deadlines, sequence, -, -, hstart⟩ := like_restarted h time
  rw [hstart]
  exact {
    catalog := rfl
    policy := rfl
    dismissals := hdurable.held hclean
    noRefresh := rfl
    noAction := fun _ => Std.ExtTreeSet.not_mem_empty
    noFailure := fun _ => rfl
    reported := fun key report hreport => by cases hreport }

namespace Restores

/-- A stored report that is submitted again changes the dismissals of its key in nothing. -/
theorem reconcile_eq_self (hrestores : h.Restores h') (hagrees : h.Agrees) {key : SourceKey}
    {report : Report} (hreport : h.reports.report? key = some report) (now : Instant) :
  h'.dismissals.reconcile key report.issueIds now = h.dismissals
  := by
  rw [hrestores.dismissals]
  apply Dismissals.reconcile_eq_self
  intro issue hkey
  apply hagrees.recorded issue report
  rw [IssueKey.belongsTo_iff.mp hkey, hreport]

theorem store (hrestores : h.Restores h') (hagrees : h.Agrees) {key : SourceKey}
    {report : Report} (hreport : h.reports.report? key = some report) (now : Instant) :
  h.Restores (h'.store now key (some report))
  where
  catalog := hrestores.catalog
  policy := hrestores.policy
  dismissals := hrestores.reconcile_eq_self hagrees hreport now
  noRefresh := hrestores.noRefresh
  noAction action hin := hrestores.noAction action (mem_inFlight_store.mp hin).1
  noFailure k := by
    rw [reports_store, ReportStore.isFailed_set, hrestores.noFailure, Bool.and_false]
  reported k r hr := by
    rw [reports_store, ReportStore.report?_set] at hr
    split at hr
    next hkey => rw [hkey, hreport, hr]
    next => exact hrestores.reported k r hr

theorem of_like (hrestores : h.Restores h') (hlike : h'.Like h'') : h.Restores h'' := by
  obtain ⟨deadlines, sequence, -, -, rfl⟩ := hlike
  exact { hrestores with }

/-- The report of a key that is submitted again is there, and so are those that were. -/
theorem submit (hrestores : h.Restores h') (hagrees : h.Agrees) {key : SourceKey}
    {report : Report} (hreport : h.reports.report? key = some report) {package : String}
    {c : Change} (hok : h'.submit env package key.sourceId key.userId (some report)
      .sourceStateChanged = .ok c) :
  h.Restores c.hub ∧ ∀ k, k = key ∨ h'.reports.report? k = h.reports.report? k →
    c.hub.reports.report? k = h.reports.report? k
  := by
  obtain ⟨-, -, rfl⟩ := submit_eq_ok hok
  have hlike : (h'.store env.now key (some report)).Like
      (h'.accept env key (some report) .sourceStateChanged).hub :=
    like_accept h' env key (some report) .sourceStateChanged
  constructor
  · apply (hrestores.store hagrees hreport env.now).of_like hlike
  · intro k hk
    rw [ReportStore.report?_congr hlike.keeps.reports, reports_store, ReportStore.report?_set]
    split
    next hkey => rw [hkey, hreport]
    next hkey => apply hk.resolve_left hkey

/-- Reports that are submitted again are there at the end. -/
theorem resubmit (hrestores : h.Restores h') (hagrees : h.Agrees)
    {reports : List (SourceKey × Report)} (hstored : ∀ p ∈ reports, p ∈ h.stored)
    (hok : resubmit env reports h' = .ok h'') :
  h.Restores h'' ∧ ∀ k, k ∈ reports.map (·.1) ∨ h'.reports.report? k = h.reports.report? k →
    h''.reports.report? k = h.reports.report? k
  := by
  induction reports generalizing h' with
  | nil =>
    cases hok
    use hrestores
    intro k hk
    apply hk.resolve_left List.not_mem_nil
  | cons p rest ih =>
    obtain ⟨key, report⟩ := p
    obtain ⟨hfirst, hrest⟩ := List.forall_mem_cons.mp hstored
    obtain ⟨c, hsubmit, hok⟩ := bind_eq_ok_iff.mp hok
    obtain ⟨hnext, hthere⟩ := hrestores.submit hagrees (mem_stored_iff.mp hfirst) hsubmit
    obtain ⟨hlast, hall⟩ := ih hnext hrest hok
    use hlast
    intro k hk
    apply hall
    rw [List.map_cons, List.mem_cons] at hk
    obtain (hkey | hin) | hbefore := hk
    · right
      apply hthere k (.inl hkey)
    · left
      apply hin
    · right
      apply hthere k (.inr hbefore)

/-- A hub that has started over and has the reports again shows the same. -/
theorem view_eq (hrestores : h.Restores h') (hrest : h.AtRest)
    (hreports : ∀ key, h'.reports.report? key = h.reports.report? key) (env : Surroundings)
    (user : UserId) :
  h'.view env user = h.view env user
  := by
  have hactions : h'.inFlight = h.inFlight := by
    apply Std.ExtTreeSet.ext_mem
    intro action
    exact iff_of_false (hrestores.noAction action) (hrest.noAction action)
  have hbasis : h'.basis env.now = { h.basis env.now with reports := h'.reports } := by
    simp only [basis, hrestores.catalog, hrestores.policy, hrestores.dismissals, hactions]
  have hstatus : h'.tracker.statusFor = h.tracker.statusFor := by
    funext group
    rw [RefreshTracker.statusFor, RefreshTracker.statusFor, hrestores.noRefresh, hrest.noRefresh]
  have hfailed (key : SourceKey) : h'.reports.isFailed key = h.reports.isFailed key := by
    rw [hrestores.noFailure, hrest.noFailure]
  have hoverview : h'.overview env.now = h.overview env.now := by
    funext group
    rw [overview, overview, hbasis, hstatus, Basis.assemble_congr hreports hfailed]
  simp only [view, ensureEnabled, hrestores.policy, hoverview]

end Restores

/-! ### Restarts -/

/-- Starting over goes unnoticed: when a hub that is at rest after any run is given up for a new
one, and the stored reports are submitted again in any order, the new hub has the same
dismissals from the beginning, counts them as unchanged, has the same reports in the end, and
then shows the same to every user. -/
theorem restart_unnoticed (catalog : Catalog) (policy : Policy) (archive : Archive)
    (time : Nat) (moves : List (Surroundings × Move)) (later : Nat) (env : Surroundings)
    (reports : List (SourceKey × Report)) (h' : Hub) :
  let h := (start catalog policy archive archive.load time).after moves
  h.AtRest → reports.Perm h.stored → resubmit env reports (h.restarted later) = .ok h' →
    (∀ before, before <+: reports → ∀ h₁, resubmit env before (h.restarted later) = .ok h₁ →
        h₁.dismissals.records = h.dismissals.records ∧ h₁.dismissals.dirty = false)
      ∧ h'.dismissals.records = h.dismissals.records ∧ h'.dismissals.dirty = false
      ∧ (∀ key, h'.reports.report? key = h.reports.report? key)
      ∧ ∀ user, h'.view env user = h.view env user
        ∧ (h.policy.isActive = true → (env.users.resolve? user).isSome = true →
            ∃ view, h'.view env user = .ok view)
  := by
  intro h hrest hperm hok
  have hdurable : h.Durable := durable_run catalog policy archive time moves
  have hagrees : h.Agrees := agrees_run catalog policy archive archive.load time moves
  have hstart := restores_restarted hdurable hrest.clean later
  have hstored (p : SourceKey × Report) : p ∈ reports → p ∈ h.stored := hperm.mem_iff.mp
  have hmeanwhile : ∀ before, before <+: reports → ∀ h₁,
      resubmit env before (h.restarted later) = .ok h₁ →
      h₁.dismissals.records = h.dismissals.records ∧ h₁.dismissals.dirty = false := by
    intro before hinit h₁ hok₁
    obtain ⟨hsofar, -⟩ := hstart.resubmit hagrees (fun p hp => hstored p (hinit.mem hp)) hok₁
    rw [hsofar.dismissals]
    exact ⟨rfl, hrest.clean⟩
  obtain ⟨hrestores, hthere⟩ := hstart.resubmit hagrees hstored hok
  have hreports (key : SourceKey) : h'.reports.report? key = h.reports.report? key := by
    cases hreport : h.reports.report? key with
    | some report =>
      rw [← hreport]
      apply hthere key
      left
      have hin := hperm.mem_iff.mpr (mem_stored_iff.mpr hreport)
      apply List.mem_map_of_mem hin
    | none =>
      apply Option.eq_none_iff_forall_ne_some.mpr
      intro report hnew
      rw [hrestores.reported key report hnew] at hreport
      cases hreport
  obtain ⟨hrecords, hclean⟩ := hmeanwhile reports (List.prefix_refl reports) h' hok
  use hmeanwhile, hrecords, hclean, hreports
  intro user
  have hview := hrestores.view_eq hrest hreports env user
  use hview
  intro hactive hresolves
  obtain ⟨group, hgroup⟩ := Option.isSome_iff_exists.mp hresolves
  use h.overview env.now group
  rw [hview, view, groupOf, hgroup, ensureEnabled, if_pos hactive]
  rfl

/-- A dismissed issue is still dismissed when a hub starts over. -/
theorem restart_unnoticed_after_dismissal :
  let h := (start Sample.catalog {} {} (.ok []) 0).after [
    (Sample.device, Sample.submission ["a"]), (Sample.device, .dismiss ⟨"s", "i", 0⟩),
    (Sample.device, .flush)]
  h.AtRest ∧ h.dismissals.records.size = 1 ∧ ∃ h',
    resubmit Sample.device h.stored (h.restarted 7) = .ok h'
      ∧ h'.dismissals.records = h.dismissals.records
      ∧ ∃ view, h'.view Sample.device 0 = .ok view ∧ h.view Sample.device 0 = .ok view
  := by
  intro h
  have hrest : h.AtRest := {
    clean := rfl
    noRefresh := rfl
    noAction := fun _ => Std.ExtTreeSet.not_mem_empty
    noFailure := fun _ => rfl }
  obtain ⟨h', hok⟩ : ∃ h', resubmit Sample.device h.stored (h.restarted 7) = .ok h' := ⟨_, rfl⟩
  obtain ⟨-, hrecords, -, -, hviews⟩ := restart_unnoticed Sample.catalog {} {} 0 _ 7
    Sample.device h.stored h' hrest (.refl _) hok
  obtain ⟨hview, hshown⟩ := hviews 0
  obtain ⟨view, hshown⟩ := hshown rfl rfl
  exact ⟨hrest, rfl, h', hok, hrecords, view, hshown, hview ▸ hshown⟩

end Hub

end SafetyHub
