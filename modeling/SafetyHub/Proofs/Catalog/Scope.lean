import SafetyHub.Admission
import SafetyHub.Proofs.Overview.Reading
import SafetyHub.Proofs.Refresh.FanOut

/-!
# The scope of a source

Which users of a profile group a source concerns is decided in three places: a refresh asks the
source for them, its package may report for them, and overviews show their reports.  For a user
that can answer the three agree: each time it is the users of `Source.usersIn`.
-/

namespace SafetyHub

variable {c : Catalog} {users : Roster} {group : ProfileGroup} {user : UserId} {s : Source}
  {package : String}

/-- A refresh, unless it is for opening the page, asks a source for the users that it concerns. -/
theorem RefreshOrder.mem_pairs_iff {o : RefreshOrder} {token : BroadcastId}
    (hcatalog : o.broadcasts = c.broadcasts) (hreason : o.reason ≠ .pageOpen)
    (hs : s ∈ c.sources) (hexternal : s.isExternal = true) :
  ⟨s.id, user⟩ ∈ (o.requests token).flatMap (·.pairs) ↔ user ∈ s.usersIn o.group
  := by
  simp only [← map_snd_asks, ← List.map_flatMap, List.mem_map, Prod.exists, exists_eq_right,
    mem_asks_of_catalog hcatalog, Source.mem_usersIn_iff]
  constructor
  · rintro ⟨package, t, ht, hid, -, -, huser, -⟩
    rwa [← Catalog.eq_of_id_eq ht hs hid]
  · intro huser
    obtain ⟨package, hpackage⟩ :=
      Option.isSome_iff_exists.mp ((Catalog.isSome_package_iff hs).mpr hexternal)
    exact ⟨package, s, hs, rfl, hexternal, hpackage, huser, fun hopen => absurd hopen hreason⟩

/-- A package may report for a source of its own on behalf of the users that it concerns. -/
theorem Catalog.checkCaller_eq_ok_iff (hgroup : users.resolve? user = some group)
    (hrunning : group.isRunning user = true) (hs : s ∈ c.sources)
    (hexternal : s.isExternal = true) (hpackage : s.package = some package) :
  (∃ source, c.checkCaller users package s.id user = .ok source) ↔ user ∈ s.usersIn group
  := by
  obtain ⟨u, hu, hmanaged⟩ := Roster.exists_user?_of_resolve? hgroup
  rw [ProfileGroup.isRunning, Bool.or_eq_true, beq_iff_eq, List.contains_iff_mem] at hrunning
  rw [checkCaller, source?_eq_some hs]
  simp only [hexternal, hpackage, hu, Source.mem_usersIn_iff]
  by_cases huser : user = group.parent
  · have hunmanaged : u.isManaged = false := by simpa using hmanaged.not_left.mpr huser
    simp [hunmanaged, huser]
  · have hin : user ∈ group.running := hrunning.resolve_left (Ne.symm huser)
    simp only [hmanaged.mpr huser, huser, hin]
    cases s.appliesToManaged <;> simp

/-- An external source has a cell in the overview of a group for each user that it concerns. -/
theorem Basis.mem_keys_cells_iff_mem_usersIn {b : Basis} (hs : s ∈ b.catalog.sources)
    (hexternal : s.isExternal = true) :
  ⟨s.id, user⟩ ∈ (b.cells group).map (·.key) ↔ user ∈ s.usersIn group
  := by
  rw [mem_keys_cells_iff]
  constructor
  · rintro ⟨t, ht, -, hid, huser⟩
    rwa [← Catalog.eq_of_id_eq ht hs hid]
  · intro huser
    exact ⟨s, hs, hexternal, rfl, huser⟩

namespace Catalog

/-- Asking, admitting and showing agree.  Take a user that has a group and can answer in it, and
an external source.  A refresh of the group, for any reason but opening the page, asks the source
for the user if and only if the source's package may report for them; and this is so if and only
if the overview of the group depends on the report of the source for the user, and again if and
only if it depends on the mark. -/
theorem scopes_agree (c : Catalog) (users : Roster) (user : UserId) (group : ProfileGroup)
    (hgroup : users.resolve? user = some group) (hrunning : group.isRunning user = true)
    (s : Source) (hs : s ∈ c.sources) (hexternal : s.isExternal = true) (package : String)
    (hpackage : s.package = some package) (t : RefreshTracker) (digest : RefreshOrigin → String)
    (now : Instant) (reason : RefreshReason) (hreason : reason ≠ .pageOpen)
    (requestType : RequestType) (untracked : SourceIds) (needsReport : SourceKey → Bool)
    (b : Basis) (hcatalog : b.catalog = c) :
  let key : SourceKey := ⟨s.id, user⟩
  let order : RefreshOrder :=
    { reason, requestType, group, broadcasts := c.broadcasts, untracked, needsReport }
  let plan := (t.start digest now order).1
  let admitted := ∃ source, c.checkCaller users package s.id user = .ok source
  (key ∈ plan.requests.flatMap (·.pairs) ↔ admitted)
    ∧ (admitted ↔ key ∈ (b.cells group).map (·.key))
    ∧ (admitted ↔ b.ReadsReport group key)
    ∧ (admitted ↔ b.ReadsMark group key)
  := by
  intro key order plan admitted
  have hasked : key ∈ plan.requests.flatMap (·.pairs) ↔ user ∈ s.usersIn group :=
    RefreshOrder.mem_pairs_iff (o := order) rfl hreason hs hexternal
  have hadmitted : admitted ↔ user ∈ s.usersIn group :=
    checkCaller_eq_ok_iff hgroup hrunning hs hexternal hpackage
  have hcell : key ∈ (b.cells group).map (·.key) ↔ user ∈ s.usersIn group :=
    Basis.mem_keys_cells_iff_mem_usersIn (hcatalog ▸ hs) hexternal
  rw [Basis.readsReport_iff, Basis.readsMark_iff, hcell]
  exact ⟨hasked.trans hadmitted.symm, hadmitted, hadmitted, hadmitted⟩

/-- A running managed profile, and two sources of which only the first concerns managed
profiles. -/
theorem scopes_agree_for_managed_profile :
  let s : Source := { id := "s", kind := .dynamic, package := some "p", reach := .allProfiles }
  let t : Source := { id := "t", kind := .issueOnly, package := some "p" }
  let users : Roster := [.full 0, .managedBy 10 0]
  ∃ c : Catalog, s ∈ c.sources ∧ t ∈ c.sources
    ∧ (∃ source, c.checkCaller users "p" "s" 10 = .ok source)
    ∧ (¬ ∃ source, c.checkCaller users "p" "t" 10 = .ok source)
    ∧ ∀ b : Basis, b.catalog = c →
        b.ReadsReport (.ofMembers 0 [(10, true)]) ⟨"s", 10⟩
          ∧ ¬ b.ReadsMark (.ofMembers 0 [(10, true)]) ⟨"t", 10⟩
  := by
  intro s t users
  let c : Catalog := ⟨[.titled "g" [s, t]], by decide⟩
  have hgroup : users.resolve? 10 = some (.ofMembers 0 [(10, true)]) := rfl
  have hrunning : (ProfileGroup.ofMembers 0 [(10, true)]).isRunning 10 = true := by decide
  have hadmitted : ∃ source, c.checkCaller users "p" "s" 10 = .ok source := ⟨s, rfl⟩
  have hrefused : ¬ ∃ source, c.checkCaller users "p" "t" 10 = .ok source := by
    rintro ⟨_, h⟩
    cases h
  have hs : s ∈ c.sources := by decide
  have ht : t ∈ c.sources := by decide
  refine ⟨c, hs, ht, hadmitted, hrefused, ?_⟩
  intro b hb
  obtain ⟨-, -, hreport, -⟩ := scopes_agree c users 10 _ hgroup hrunning s hs rfl "p" rfl {}
    RefreshOrigin.digest .epoch .other (by decide) .getData ∅ (fun _ => false) b hb
  obtain ⟨-, -, -, hmark⟩ := scopes_agree c users 10 _ hgroup hrunning t ht rfl "p" rfl {}
    RefreshOrigin.digest .epoch .other (by decide) .getData ∅ (fun _ => false) b hb
  exact ⟨hreport.mp hadmitted, fun h => hrefused (hmark.mpr h)⟩

end Catalog

end SafetyHub
