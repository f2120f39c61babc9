import SafetyHub.Hub.Calls
import SafetyHub.Proofs.Overview.Reading

/-!
# What strangers cannot change

The overview of a profile group is the same for any two states that agree on the keys by which
sources concern the group.  Nothing that is kept under the key of a stranger to the group comes
into it, whichever package it is drawn for.
-/

namespace SafetyHub

/-! ### Strangers -/

/-- A key is strange to a profile group: it is of a user other than the parent, and this one is
no running profile of the group, or is one to which the source of the key does not apply. -/
def Catalog.IsStrange (c : Catalog) (group : ProfileGroup) (key : SourceKey) : Prop :=
  key.userId ≠ group.parent
    ∧ (key.userId ∉ group.running
      ∨ ∀ s ∈ c.sources, s.id = key.sourceId → s.appliesToManaged = false)

/-- No source concerns a group by a key that is strange to it. -/
theorem Catalog.Applies.not_isStrange {c : Catalog} {s : Source} {group : ProfileGroup}
    {key : SourceKey} (happlies : c.Applies s group key) :
  ¬ c.IsStrange group key
  := by
  rintro ⟨hparent, hstrange⟩
  obtain huser | ⟨hmanaged, huser⟩ := happlies.user
  · exact hparent huser
  obtain hstopped | hunmanaged := hstrange
  · exact hstopped huser
  · rw [hunmanaged s happlies.mem_sources happlies.id_eq] at hmanaged
    cases hmanaged

/-! ### Overviews of states that agree -/

/-- The overview of a group is the same for states that agree on the keys that concern it. -/
theorem Basis.assemble_congr_of_applies {b : Basis} {group : ProfileGroup}
    {reports : ReportStore} {dismissals : Dismissals} {inFlight : InFlight}
    (hagrees : ∀ s key, b.catalog.Applies s group key →
      b.Agrees { b with reports, dismissals, inFlight } key)
    (refreshStatus : RefreshStatus) :
  { b with reports, dismissals, inFlight }.assemble refreshStatus group
    = b.assemble refreshStatus group
  := by
  apply assemble_congr_cells
  intro c hc
  apply hagrees c.source c.key (applies_of_mem_cells hc)

namespace Hub

variable {h : Hub} {env : Surroundings}

/-- What is offered to the listeners of a group is its overview, whatever their package. -/
theorem eq_overview_of_mem_offers {parent : UserId} {package : String} {sequence : Nat}
    {view : Overview} {group : ProfileGroup} (hgroup : env.users.resolve? parent = some group)
    (hoffer : .offer parent package sequence view ∈ h.offers env) :
  view = h.overview env.now group
  := by
  obtain ⟨parent', -, hoffer⟩ := List.mem_flatMap.mp hoffer
  split at hoffer
  next => cases hoffer
  next group' hgroup' =>
    obtain ⟨package', -, heq⟩ := List.mem_map.mp hoffer
    cases heq
    obtain rfl := Option.some_inj.mp (hgroup.symm.trans hgroup')
    rfl

/-- Two hubs that agree on the keys by which sources concern a profile group give one overview of
it, whatever is shown of the refresh in flight: its users see the same, and packages that listen
to it, the same or two different ones, are offered the same.  So it makes no difference what
there is under the keys that are strange to the group. -/
theorem overview_isolated (h : Hub) (reports : ReportStore) (dismissals : Dismissals)
    (inFlight : InFlight) (env : Surroundings) (group : ProfileGroup) :
  let h' : Hub := { h with reports, dismissals, inFlight }
  let b := h.basis env.now
  let b' := h'.basis env.now
  ((∀ s key, h.catalog.Applies s group key → b.Agrees b' key) →
      (∀ refreshStatus, b'.assemble refreshStatus group = b.assemble refreshStatus group)
        ∧ (∀ user, env.users.resolve? user = some group → h'.view env user = h.view env user)
        ∧ ∀ parent, env.users.resolve? parent = some group →
          ∀ package package' sequence sequence' view view',
            .offer parent package sequence view ∈ h.offers env →
            .offer parent package' sequence' view' ∈ h'.offers env → view' = view)
    ∧ ((∀ key, ¬ h.catalog.IsStrange group key → b.Agrees b' key) →
      ∀ refreshStatus, b'.assemble refreshStatus group = b.assemble refreshStatus group)
  := by
  intro h' b b'
  constructor
  · intro hagrees
    have hassemble (refreshStatus : RefreshStatus) :
        b'.assemble refreshStatus group = b.assemble refreshStatus group :=
      Basis.assemble_congr_of_applies (b := b) hagrees refreshStatus
    have hoverview : h'.overview env.now group = h.overview env.now group :=
      hassemble (h.tracker.statusFor group)
    refine ⟨hassemble, ?_, ?_⟩
    · intro user hgroup
      simp only [view, groupOf, hgroup, bind, Except.bind, hoverview]
      rfl
    · intro parent hgroup package package' sequence sequence' view view' hoffer hoffer'
      rw [eq_overview_of_mem_offers hgroup hoffer, eq_overview_of_mem_offers hgroup hoffer',
        hoverview]
  · intro hagrees refreshStatus
    apply Basis.assemble_congr_of_applies (b := b)
    intro s key happlies
    apply hagrees key happlies.not_isStrange

/-- The report of a stopped profile does not come into the overview of its group. -/
theorem overview_stopped_profile :
  let source : Source :=
    { id := "s", kind := .dynamic, package := some "p", reach := .allProfiles }
  let h : Hub := { catalog := ⟨[.titled "g" [source]], by decide⟩, policy := {} }
  let h' : Hub := { h with reports := h.reports.set ⟨"s", 10⟩ (some {}) .epoch }
  let b := h.basis .epoch
  let b' := h'.basis .epoch
  let group := ProfileGroup.ofMembers 0 [(10, false)]
  b'.reports.report? ⟨"s", 10⟩ ≠ b.reports.report? ⟨"s", 10⟩
    ∧ (∀ key, ¬ h.catalog.IsStrange group key → b.Agrees b' key)
    ∧ ∀ refreshStatus, b'.assemble refreshStatus group = b.assemble refreshStatus group
  := by
  intro source h h' b b' group
  have hreport (key : SourceKey) : h'.reports.report? key
      = if key = ⟨"s", 10⟩ then some {} else h.reports.report? key :=
    ReportStore.report?_set ..
  have hagrees : ∀ key, ¬ h.catalog.IsStrange group key → b.Agrees b' key := by
    intro key hknown
    have hne : key ≠ ⟨"s", 10⟩ := by
      rintro rfl
      apply hknown
      exact ⟨by decide, .inl (by decide)⟩
    have hfailed : h'.reports.isFailed key = h.reports.isFailed key := by
      simp [h', ReportStore.isFailed_set, hne]
    apply Basis.Agrees.ofReports ((hreport key).trans (if_neg hne)) hfailed
  refine ⟨?_, hagrees, ?_⟩
  · rw [show b'.reports = h'.reports from rfl, hreport, if_pos rfl]
    rintro ⟨⟩
  · let env : Surroundings := { users := [], now := .epoch, digest := RefreshOrigin.digest }
    apply (overview_isolated h h'.reports h.dismissals h.inFlight env group).2 hagrees

end Hub

end SafetyHub
