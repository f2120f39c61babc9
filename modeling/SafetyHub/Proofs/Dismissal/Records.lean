import SafetyHub.Dismissal.Basic
import SafetyHub.Proofs.Basic

/-!
# What dismissals keep

Each operation on dismissals is described by the record that it leaves under every key.  While
dismissals count as unchanged their records are unchanged, and records that are saved and loaded
again are the same.
-/

namespace SafetyHub.Dismissals

open Std

attribute [ext] Dismissals

variable {d : Dismissals}

theorem mem_records_iff {key : IssueKey} :
  key ∈ d.records ↔ (d.record? key).isSome = true
  := ExtTreeMap.mem_iff_isSome_getElem?

/-! ### Dismissing -/

theorem record?_dismiss? {issue : IssueKey} {r : DismissalRecord}
    (h : d.record? issue = some r) (now : Instant) (key : IssueKey) :
  ((d.dismiss? issue now).getD d).record? key
    = if key = issue then some (r.dismiss now) else d.record? key
  := by
  rw [dismiss?, h, Option.map_some, Option.getD_some]
  simp only [record?, ExtTreeMap.getElem?_insert, LawfulEqCmp.compare_eq_iff_eq,
    eq_comm (a := issue)]

theorem isSome_record?_dismiss? (issue : IssueKey) (now : Instant) (key : IssueKey) :
  (((d.dismiss? issue now).getD d).record? key).isSome = (d.record? key).isSome
  := by
  cases hr : d.record? issue with
  | none => rw [dismiss?, hr, Option.map_none, Option.getD_none]
  | some r =>
    rw [record?_dismiss? hr]
    split
    next hkey => rw [hkey, hr, Option.isSome_some, Option.isSome_some]
    next => rfl

/-- A dismissal counts one more, up to the greatest count. -/
theorem toNat_dismissCount_dismiss (r : DismissalRecord) (now : Instant) :
  (r.dismiss now).dismissCount.toNat = min (r.dismissCount.toNat + 1) (UInt32.size - 1)
  := by
  have := r.dismissCount.toNat_lt_size
  simp only [DismissalRecord.dismiss]
  split
  next hlt =>
    rw [UInt32.toNat_add, UInt32.toNat_one, Nat.mod_eq_of_lt (by simpa using hlt)]
    omega
  next => omega

/-! ### Reconciling -/

theorem getElem?_foldl_insertIfNew (source : SourceKey) (reported : List String)
    (r : DismissalRecord) (m : ExtTreeMap IssueKey DismissalRecord) (key : IssueKey) :
  (reported.foldl (fun m issueId => m.insertIfNew (source.issue issueId) r) m)[key]?
    = if key.belongsTo source ∧ key.issueId ∈ reported then some (m[key]?.getD r) else m[key]?
  := by
  induction reported generalizing m with
  | nil => simp
  | cons issueId rest ih =>
    rw [List.foldl_cons, ih, getElem?_insertIfNew_eq_ite]
    simp only [SourceKey.issue_eq_iff, List.mem_cons]
    by_cases hkey : key.belongsTo source = true
    · by_cases hid : key.issueId = issueId
      · simp [hkey, hid]
      · simp [hkey, hid]
    · simp [hkey]

theorem record?_reconcile (d : Dismissals) (source : SourceKey) (reported : List String)
    (now : Instant) (key : IssueKey) :
  (d.reconcile source reported now).record? key =
    if key.belongsTo source then
      if key.issueId ∈ reported then some ((d.record? key).getD (.fresh now)) else none
    else d.record? key
  := by
  simp only [reconcile, record?, getElem?_foldl_insertIfNew, getElem?_filter_key]
  by_cases hkey : key.belongsTo source = true
  · by_cases hin : key.issueId ∈ reported <;> simp [hkey, hin]
  · simp [hkey]

/-- The issues of a source key that have records after reconciling are those reported. -/
theorem isSome_record?_reconcile_iff {source : SourceKey} {reported : List String}
    {now : Instant} {key : IssueKey} (hkey : key.belongsTo source = true) :
  ((d.reconcile source reported now).record? key).isSome = true ↔ key.issueId ∈ reported
  := by
  rw [record?_reconcile, if_pos hkey]
  split
  next hin => exact iff_of_true rfl hin
  next hout => exact iff_of_false Bool.false_ne_true hout

/-! ### Dropping records -/

theorem record?_retainConfigured (d : Dismissals) (catalog : Catalog) (key : IssueKey) :
  (d.retainConfigured catalog).record? key
    = if catalog.isExternal key.sourceId then d.record? key else none
  := getElem?_filter_key d.records (fun key => catalog.isExternal key.sourceId) key

theorem isExternal_of_mem_retainConfigured {catalog : Catalog} {key : IssueKey}
    (h : key ∈ (d.retainConfigured catalog).records) :
  catalog.isExternal key.sourceId = true
  := by
  rw [mem_records_iff, record?_retainConfigured] at h
  split at h
  next hexternal => exact hexternal
  next => cases h

theorem record?_clearForUser (d : Dismissals) (user : UserId) (key : IssueKey) :
  (d.clearForUser user).record? key = if key.userId != user then d.record? key else none
  := getElem?_filter_key d.records (fun key => key.userId != user) key

/-! ### Unchanged dismissals -/

theorem size_le_size_foldl_insertIfNew (source : SourceKey) (reported : List String)
    (r : DismissalRecord) (m : ExtTreeMap IssueKey DismissalRecord) :
  m.size ≤ (reported.foldl (fun m issueId => m.insertIfNew (source.issue issueId) r) m).size
  := by
  induction reported generalizing m with
  | nil => apply Nat.le_refl _
  | cons issueId rest ih =>
    apply Nat.le_trans _ (ih (m.insertIfNew (source.issue issueId) r))
    apply ExtTreeMap.size_le_size_insertIfNew

/-- Adding records that does not add to their number adds none. -/
theorem foldl_insertIfNew_of_size {source : SourceKey} {reported : List String}
    {r : DismissalRecord} {m : ExtTreeMap IssueKey DismissalRecord}
    (h : (reported.foldl (fun m issueId => m.insertIfNew (source.issue issueId) r) m).size
      = m.size) :
  reported.foldl (fun m issueId => m.insertIfNew (source.issue issueId) r) m = m
  := by
  induction reported generalizing m with
  | nil => rfl
  | cons issueId rest ih =>
    rw [List.foldl_cons] at h ⊢
    have hmem : source.issue issueId ∈ m := by
      by_contra hnew
      have hlt : (m.insertIfNew (source.issue issueId) r).size = m.size + 1 := by
        rw [ExtTreeMap.size_insertIfNew, if_neg hnew]
      have hle := size_le_size_foldl_insertIfNew source rest r
        (m.insertIfNew (source.issue issueId) r)
      omega
    rw [insertIfNew_of_mem hmem] at h ⊢
    apply ih h

/-- Reconciling that leaves dismissals unchanged changes nothing. -/
theorem reconcile_of_not_dirty {source : SourceKey} {reported : List String} {now : Instant}
    (h : (d.reconcile source reported now).dirty = false) :
  d.reconcile source reported now = d
  := by
  have hfields := h
  simp only [reconcile, Bool.or_eq_false_iff, bne_eq_false_iff_eq] at hfields
  obtain ⟨⟨hclean, hkept⟩, hadded⟩ := hfields
  refine Dismissals.ext ?_ (h.trans hclean.symm)
  rw [reconcile]
  dsimp only
  rw [foldl_insertIfNew_of_size hadded, filter_eq_self_of_size hkept]

theorem foldl_insertIfNew_of_mem {source : SourceKey} {reported : List String}
    {m : ExtTreeMap IssueKey DismissalRecord} (r : DismissalRecord)
    (h : ∀ issueId ∈ reported, source.issue issueId ∈ m) :
  reported.foldl (fun m issueId => m.insertIfNew (source.issue issueId) r) m = m
  := by
  induction reported with
  | nil => rfl
  | cons issueId rest ih =>
    obtain ⟨hfirst, hrest⟩ := List.forall_mem_cons.mp h
    rw [List.foldl_cons, insertIfNew_of_mem hfirst]
    apply ih hrest

/-- Reconciling with the issues that have records changes nothing. -/
theorem reconcile_eq_self {source : SourceKey} {reported : List String} (now : Instant)
    (h : ∀ key, key.belongsTo source = true →
      (key ∈ d.records ↔ key.issueId ∈ reported)) :
  d.reconcile source reported now = d
  := by
  have hkept : (d.records.filter fun key _ =>
      !key.belongsTo source || reported.contains key.issueId) = d.records := by
    apply ExtTreeMap.filter_eq_self_iff.mpr
    intro key hin
    rw [ExtTreeMap.getKey_eq]
    cases hkey : key.belongsTo source with
    | false => rfl
    | true => exact List.contains_iff_mem.mpr ((h key hkey).mp hin)
  have hadded : ∀ issueId ∈ reported, source.issue issueId ∈ d.records := by
    intro issueId hin
    obtain ⟨hkey, hid⟩ := SourceKey.issue_eq_iff.mp (rfl : source.issue issueId = _)
    apply (h _ hkey).mpr
    rwa [hid]
  rw [reconcile, hkept, foldl_insertIfNew_of_mem (.fresh now) hadded]
  simp only [bne_self_eq_false, Bool.or_false]

/-- Reconciling with the same issues once more changes nothing, at whatever reading of the clock
and whether or not the records have been saved meanwhile. -/
theorem reconcile_again {d' : Dismissals} {source : SourceKey} {reported reported' : List String}
    {now : Instant} (hrecords : d'.records = (d.reconcile source reported now).records)
    (hsame : ∀ issueId, issueId ∈ reported' ↔ issueId ∈ reported) (later : Instant) :
  d'.reconcile source reported' later = d'
  := by
  apply reconcile_eq_self
  intro key hkey
  rw [hrecords, mem_records_iff, hsame]
  apply isSome_record?_reconcile_iff hkey

/-- Reconciling leaves dismissals unchanged exactly when the issues reported are those that have
records. -/
theorem dirty_reconcile_eq_false_iff {source : SourceKey} {reported : List String}
    {now : Instant} :
  (d.reconcile source reported now).dirty = false
    ↔ d.dirty = false ∧ ∀ key, key.belongsTo source = true →
      ((d.record? key).isSome = true ↔ key.issueId ∈ reported)
  := by
  constructor
  · intro hclean
    have hsame := reconcile_of_not_dirty hclean
    refine ⟨hsame ▸ hclean, ?_⟩
    intro key hkey
    have hreconciled : ((d.reconcile source reported now).record? key).isSome = true
        ↔ key.issueId ∈ reported := isSome_record?_reconcile_iff hkey
    rwa [hsame] at hreconciled
  · rintro ⟨hclean, hreported⟩
    rw [reconcile_eq_self now fun key hkey => mem_records_iff.trans (hreported key hkey)]
    exact hclean

/-- Reconciling for one source key and for another does not depend on the order. -/
theorem reconcile_comm {source source' : SourceKey} (hne : source ≠ source')
    (reported reported' : List String) (d : Dismissals) (now : Instant) :
  (d.reconcile source reported now).reconcile source' reported' now
    = (d.reconcile source' reported' now).reconcile source reported now
  := by
  have hrecord (key : IssueKey) :
      ((d.reconcile source reported now).reconcile source' reported' now).record? key
        = ((d.reconcile source' reported' now).reconcile source reported now).record? key := by
    simp only [record?_reconcile]
    by_cases hkey : key.belongsTo source = true
    · have hother : ¬ key.belongsTo source' = true :=
        fun h' => hne (IssueKey.belongsTo_unique hkey h')
      simp only [if_pos hkey, if_neg hother]
    · simp only [if_neg hkey]
  have hunchanged {source source' : SourceKey} (hne : source ≠ source')
      (reported reported' : List String) :
      ((d.reconcile source reported now).reconcile source' reported' now).dirty = false
        ↔ d.dirty = false
          ∧ (∀ key, key.belongsTo source = true →
            ((d.record? key).isSome = true ↔ key.issueId ∈ reported))
          ∧ ∀ key, key.belongsTo source' = true →
            ((d.record? key).isSome = true ↔ key.issueId ∈ reported') := by
    rw [dirty_reconcile_eq_false_iff, dirty_reconcile_eq_false_iff, and_assoc]
    refine and_congr_right fun _ => and_congr_right fun _ => forall₂_congr fun key hkey => ?_
    rw [record?_reconcile, if_neg fun h => hne (IssueKey.belongsTo_unique h hkey)]
  have hdirty : ((d.reconcile source reported now).reconcile source' reported' now).dirty
      = ((d.reconcile source' reported' now).reconcile source reported now).dirty := by
    rw [← Bool.not_inj_iff, Bool.eq_iff_iff, Bool.not_eq_true', Bool.not_eq_true',
      hunchanged hne, hunchanged hne.symm, and_comm (a := ∀ key, _ → _)]
  exact Dismissals.ext (ExtTreeMap.ext_getElem? fun {key} => hrecord key) hdirty

/-- A change of the catalog that leaves dismissals unchanged changes nothing. -/
theorem retainConfigured_of_not_dirty {catalog : Catalog}
    (h : (d.retainConfigured catalog).dirty = false) :
  d.retainConfigured catalog = d
  := by
  have hfields := h
  simp only [retainConfigured, Bool.or_eq_false_iff, bne_eq_false_iff_eq] at hfields
  obtain ⟨hclean, hkept⟩ := hfields
  exact Dismissals.ext (filter_eq_self_of_size hkept) (h.trans hclean.symm)

/-! ### Saving and loading -/

theorem records_load (saved : List SavedRecord) (catalog : Catalog) :
  (load saved catalog).records
    = .ofList ((saved.filter fun s => catalog.isExternal s.key.sourceId).map
        fun s => (s.key, s.record))
  := by
  rw [ExtTreeMap.ofList_eq_foldl, List.foldl_map]
  rfl

theorem mem_load_iff {saved : List SavedRecord} {catalog : Catalog} {key : IssueKey} :
  key ∈ (load saved catalog).records
    ↔ ∃ s ∈ saved, catalog.isExternal s.key.sourceId = true ∧ s.key = key
  := by
  rw [records_load, ExtTreeMap.mem_ofList, List.contains_iff_mem]
  simp only [List.map_map, List.mem_map, List.mem_filter, Function.comp_apply, and_assoc]

/-- Every record that is loaded is a saved one. -/
theorem exists_mem_of_record?_load {saved : List SavedRecord} {catalog : Catalog} {key : IssueKey}
    {r : DismissalRecord} (hr : (load saved catalog).record? key = some r) :
  ∃ s ∈ saved, s.record = r
  := by
  revert key r
  simp only [load, record?]
  let Saved (records : ExtTreeMap IssueKey DismissalRecord) : Prop :=
    ∀ {key : IssueKey} {r : DismissalRecord}, records[key]? = some r → ∃ s ∈ saved, s.record = r
  apply List.foldlRecOn (motive := Saved)
  · intro key r hempty
    rw [ExtTreeMap.getElem?_empty] at hempty
    cases hempty
  · intro records ih s hs key r hget
    rw [ExtTreeMap.getElem?_insert] at hget
    split at hget
    next => exact ⟨s, (List.mem_filter.mp hs).1, Option.some_inj.mp hget⟩
    next => exact ih hget

/-- Loading leaves dismissals unchanged exactly when it leaves out nothing. -/
theorem dirty_load_eq_false_iff {saved : List SavedRecord} {catalog : Catalog} :
  (load saved catalog).dirty = false
    ↔ ∀ s ∈ saved, catalog.isExternal s.key.sourceId = true
  := by
  simp only [load, bne_eq_false_iff_eq, List.length_filter_eq_length_iff]

/-- Catalogs under which nothing is left out load the same. -/
theorem load_congr {saved : List SavedRecord} {catalog catalog' : Catalog}
    (h : ∀ s ∈ saved, catalog.isExternal s.key.sourceId = true)
    (h' : ∀ s ∈ saved, catalog'.isExternal s.key.sourceId = true) :
  load saved catalog = load saved catalog'
  := by
  rw [load, load, List.filter_eq_self.mpr h, List.filter_eq_self.mpr h']

/-- Records that are saved are loaded again. -/
theorem load_saved {catalog : Catalog}
    (h : ∀ key ∈ d.records, catalog.isExternal key.sourceId = true) :
  load d.saved catalog = d.clean
  := by
  have known : d.saved.filter (fun s => catalog.isExternal s.key.sourceId) = d.saved := by
    apply List.filter_eq_self.mpr
    intro s hs
    obtain ⟨⟨key, r⟩, hin, rfl⟩ := List.mem_map.mp hs
    apply h
    rw [ExtTreeMap.mem_iff_isSome_getElem?, ExtTreeMap.mem_toList_iff_getElem?_eq_some.mp hin]
    rfl
  have records : (load d.saved catalog).records = d.records := by
    have pairs : d.saved.map (fun s => (s.key, s.record)) = d.records.toList := by
      rw [saved, List.map_map]
      apply List.map_id _
    rw [records_load, known, pairs, ofList_toList]
  have dirty : (load d.saved catalog).dirty = false := by
    rw [load, known]
    apply bne_self_eq_false _
  rw [clean, ← records, ← dirty]

end SafetyHub.Dismissals
