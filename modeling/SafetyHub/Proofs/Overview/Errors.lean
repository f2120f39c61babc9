import SafetyHub.Proofs.Hub.Run
import SafetyHub.Proofs.Overview.Reading

/-!
# Errors in an overview

An overview counts the keys that concern its group and are marked as failed, and it shows an
error in the entry of each such key that has an entry.  The keys of sources that report issues
only have no entries: their marks are counted all the same, so that the count is the number of
entries that show an error if and only if no such key is marked.
-/

namespace SafetyHub.Basis

variable {b : Basis} {group : ProfileGroup} {key : SourceKey} {c : Cell}

/-! ### Entries that show an error -/

theorem entryState?_eq_error_iff :
  b.entryState? c = some .error
    ↔ c.source.isIssueOnly = false ∧ b.reports.isFailed c.key = true
  := by
  unfold entryState?
  cases c.source.isIssueOnly with
  | true => simp
  | false =>
    cases b.reports.isFailed c.key with
    | true => simp
    | false =>
      cases (b.report? c).bind (·.status) with
      | some status => simp
      | none => cases c.source.initialDisplay <;> simp

theorem entry?_eq_some_iff {e : EntryView} :
  b.entry? c = some e
    ↔ b.entryState? c = some e.state ∧ e.sourceKey = c.key ∧ e.groupId = c.groupId
  := by
  rw [Basis.entry?, Option.map_eq_some_iff]
  constructor
  · rintro ⟨state, hstate, rfl⟩
    exact ⟨hstate, rfl, rfl⟩
  · obtain ⟨entryKey, groupId, state⟩ := e
    rintro ⟨hstate, rfl, rfl⟩
    exact ⟨state, hstate, rfl⟩

/-- The cells whose entry shows an error are those of other sources than the ones that report
issues only, among the cells whose key is marked. -/
theorem countP_entries (b : Basis) (cells : List Cell) :
  (cells.filterMap b.entry?).countP (·.state == .error)
    = (cells.filter (!·.source.isIssueOnly)).countP fun c => b.reports.isFailed c.key
  := by
  rw [List.countP_filterMap, List.countP_filter]
  apply List.countP_congr
  intro c _
  have herror := entryState?_eq_error_iff (b := b) (c := c)
  rw [Basis.entry?]
  cases hstate : b.entryState? c with
  | none => simpa [hstate, and_comm] using herror
  | some state => simpa [hstate, and_comm] using herror

/-! ### Marks without an entry -/

/-- The keys of a group that are marked as failed and have no entry: those of sources that report
issues only. -/
def unshown (b : Basis) (group : ProfileGroup) : List SourceKey :=
  (((b.cells group).filter (·.source.isIssueOnly)).filter fun c => b.reports.isFailed c.key).map
    (·.key)

theorem mem_unshown_iff :
  key ∈ b.unshown group ↔ ∃ s, b.catalog.Applies s group key ∧ s.isIssueOnly = true
    ∧ b.reports.isFailed key = true
  := by
  simp only [unshown, List.mem_map, List.mem_filter, ← exists_cell_iff]
  constructor
  · rintro ⟨c, ⟨⟨hc, hissueOnly⟩, hfailed⟩, rfl⟩
    exact ⟨c.source, ⟨c, hc, rfl, rfl⟩, hissueOnly, hfailed⟩
  · rintro ⟨_, ⟨c, hc, rfl, rfl⟩, hissueOnly, hfailed⟩
    exact ⟨c, ⟨⟨hc, hissueOnly⟩, hfailed⟩, rfl⟩

theorem exists_error_entry_iff {refreshStatus : RefreshStatus} :
  (∃ e ∈ (b.assemble refreshStatus group).entries, e.sourceKey = key ∧ e.state = .error)
    ↔ ∃ s, b.catalog.Applies s group key ∧ s.isIssueOnly = false
      ∧ b.reports.isFailed key = true
  := by
  have hentries : (b.assemble refreshStatus group).entries
      = (b.cells group).filterMap b.entry? := rfl
  simp only [hentries, List.mem_filterMap, entry?_eq_some_iff, ← exists_cell_iff]
  constructor
  · rintro ⟨e, ⟨c, hc, hstate, hkey, -⟩, rfl, herror⟩
    rw [herror, entryState?_eq_error_iff] at hstate
    rw [hkey]
    exact ⟨c.source, ⟨c, hc, rfl, rfl⟩, hstate⟩
  · rintro ⟨_, ⟨c, hc, rfl, rfl⟩, hfailed⟩
    exact ⟨⟨c.key, c.groupId, .error⟩,
      ⟨c, hc, entryState?_eq_error_iff.mpr hfailed, rfl, rfl⟩, rfl, rfl⟩

/-- The count of errors in an overview is the number of entries that show an error and of the
marked keys that have no entry.  An entry shows an error if its key is marked and its source
reports more than issues; the marked keys without an entry are those of sources that report issues
only, and without such a key the count is the number of entries that show an error. -/
theorem errorEntries_assemble (b : Basis) (refreshStatus : RefreshStatus)
    (group : ProfileGroup) :
  let o := b.assemble refreshStatus group
  o.status.errorEntries = o.entries.countP (·.state == .error) + (b.unshown group).length
    ∧ (∀ key, (∃ e ∈ o.entries, e.sourceKey = key ∧ e.state = .error)
      ↔ ∃ s, b.catalog.Applies s group key ∧ s.isIssueOnly = false
        ∧ b.reports.isFailed key = true)
    ∧ (∀ key, key ∈ b.unshown group
      ↔ ∃ s, b.catalog.Applies s group key ∧ s.isIssueOnly = true
        ∧ b.reports.isFailed key = true)
    ∧ (o.status.errorEntries = o.entries.countP (·.state == .error)
      ↔ ∀ s key, b.catalog.Applies s group key → s.isIssueOnly = true →
        b.reports.isFailed key = false)
  := by
  intro o
  have hcount : o.status.errorEntries
      = o.entries.countP (·.state == .error) + (b.unshown group).length := by
    show (b.cells group).countP (fun c => b.reports.isFailed c.key)
      = ((b.cells group).filterMap b.entry?).countP (·.state == .error) + _
    rw [countP_entries, unshown, List.length_map, ← List.countP_eq_length_filter, Nat.add_comm]
    apply List.countP_eq_countP_filter_add
  refine ⟨hcount, fun key => exists_error_entry_iff, fun key => mem_unshown_iff, ?_⟩
  rw [hcount, Nat.add_eq_left, List.length_eq_zero_iff, List.eq_nil_iff_forall_not_mem]
  constructor
  · intro hnone s key happlies hissueOnly
    apply eq_false_of_ne_true
    intro hfailed
    apply hnone key (mem_unshown_iff.mpr ⟨s, happlies, hissueOnly, hfailed⟩)
  · intro hnone key hkey
    obtain ⟨s, happlies, hissueOnly, hfailed⟩ := mem_unshown_iff.mp hkey
    rw [hnone s key happlies hissueOnly] at hfailed
    cases hfailed

/-- The errors that an overview counts are not always those that its entries show: a source that
reports issues only says that it failed. -/
theorem not_all_errors_are_shown :
  ¬ ∀ (b : Basis) (refreshStatus : RefreshStatus) (group : ProfileGroup),
    let o := b.assemble refreshStatus group
    o.status.errorEntries = o.entries.countP (·.state == .error)
  := by
  intro hall
  let catalog : Catalog :=
    ⟨[.titled "g" [{ id := "s", kind := .issueOnly, package := some "p" }]], by decide⟩
  let h := (Hub.start catalog {} {} (.ok []) 0).after
    [(Sample.device, .reportFailure "p" "s" 0 .sourceStateChanged)]
  let o := (h.basis .epoch).assemble .none (.single 0)
  have hcounted : o.status.errorEntries = 1 := by decide +kernel
  have hshown : o.entries = [] := by decide +kernel
  have hequal : o.status.errorEntries = o.entries.countP (·.state == .error) :=
    hall (h.basis .epoch) .none (.single 0)
  rw [hcounted, hshown] at hequal
  cases hequal

end SafetyHub.Basis
