import SafetyHub.Proofs.Dismissal.Records

/-!
# What reconciling does

Reconciling a source key with the issues that it reports leaves the records of just these issues:
those there were before, and a fresh one for every other.  What it leaves is therefore settled by
which issues are reported, and by neither their order nor how often each is named, and dismissals
that are reconciled with them once more stay what they are.
-/

namespace SafetyHub.Dismissals

open Std

variable {d : Dismissals} {source : SourceKey} {reported reported' : List String} {now : Instant}

theorem dirty_reconcile_iff :
  (d.reconcile source reported now).dirty = true
    ↔ d.dirty = true ∨ ∃ key, ((d.reconcile source reported now).record? key).isSome
        ≠ (d.record? key).isSome
  := by
  constructor
  · intro hdirty
    by_contra hsame
    rw [not_or, not_exists] at hsame
    obtain ⟨hclean, hsame⟩ := hsame
    have hreported : ∀ key, key.belongsTo source = true →
        ((d.record? key).isSome = true ↔ key.issueId ∈ reported) := by
      intro key hkey
      rw [← not_ne_iff.mp (hsame key)]
      apply isSome_record?_reconcile_iff hkey
    rw [dirty_reconcile_eq_false_iff.mpr ⟨Bool.not_eq_true _ ▸ hclean, hreported⟩] at hdirty
    cases hdirty
  · intro hchanged
    by_contra hclean
    rw [Bool.not_eq_true] at hclean
    have hself := reconcile_of_not_dirty hclean
    obtain hdirty | ⟨key, hkey⟩ := hchanged
    · rw [hself, hdirty] at hclean
      cases hclean
    · apply hkey
      rw [hself]

/-- Reconciling depends on which issues are reported, and on nothing else about their list. -/
theorem reconcile_congr (hsame : ∀ issueId, issueId ∈ reported' ↔ issueId ∈ reported) :
  d.reconcile source reported' now = d.reconcile source reported now
  := by
  have hrecord (key : IssueKey) :
      (d.reconcile source reported' now).record? key
        = (d.reconcile source reported now).record? key := by
    simp only [record?_reconcile, hsame]
  have hdirty : (d.reconcile source reported' now).dirty
      = (d.reconcile source reported now).dirty := by
    rw [Bool.eq_iff_iff, dirty_reconcile_iff, dirty_reconcile_iff]
    simp only [hrecord]
  exact Dismissals.ext (ExtTreeMap.ext_getElem? fun {key} => hrecord key) hdirty

/-- Reconciling leaves the records of the source key that are reported, as they were or fresh, and
those of every other source key as they were; the dismissals count as changed when a record came
or went, or if they did before.  It depends on the set of the issues alone; for different source
keys it does not depend on the order; and with the same issues again, at any reading of the clock
and whether or not the records have been saved meanwhile, it changes nothing. -/
theorem reconcile_exact (d : Dismissals) (source : SourceKey) (reported : List String)
    (now : Instant) :
  (∀ key, key.belongsTo source = true →
      (((d.reconcile source reported now).record? key).isSome = true ↔ key.issueId ∈ reported))
    ∧ (∀ key r, key.belongsTo source = true → key.issueId ∈ reported →
      d.record? key = some r → (d.reconcile source reported now).record? key = some r)
    ∧ (∀ key, key.belongsTo source = true → key.issueId ∈ reported → d.record? key = none →
      (d.reconcile source reported now).record? key
        = some { firstSeenAt := now, dismissedAt := none, dismissCount := 0 })
    ∧ (∀ key, key.belongsTo source = false →
      (d.reconcile source reported now).record? key = d.record? key)
    ∧ ((d.reconcile source reported now).dirty = true
      ↔ d.dirty = true ∨ ∃ key, ((d.reconcile source reported now).record? key).isSome
          ≠ (d.record? key).isSome)
    ∧ (∀ reported', (∀ issueId, issueId ∈ reported' ↔ issueId ∈ reported) →
      d.reconcile source reported' now = d.reconcile source reported now)
    ∧ (∀ source' reported', source' ≠ source →
      (d.reconcile source reported now).reconcile source' reported' now
        = (d.reconcile source' reported' now).reconcile source reported now)
    ∧ ∀ (d' : Dismissals) (reported' : List String) (later : Instant),
      d'.records = (d.reconcile source reported now).records →
      (∀ issueId, issueId ∈ reported' ↔ issueId ∈ reported) →
      d'.reconcile source reported' later = d'
  := by
  refine ⟨?_, ?_, ?_, ?_, dirty_reconcile_iff, fun _ => reconcile_congr, ?_, ?_⟩
  · intro key hkey
    apply isSome_record?_reconcile_iff hkey
  · intro key r hkey hin hr
    rw [record?_reconcile, if_pos hkey, if_pos hin, hr, Option.getD_some]
  · intro key hkey hin hnone
    rw [record?_reconcile, if_pos hkey, if_pos hin, hnone, Option.getD_none, DismissalRecord.fresh]
  · intro key hkey
    rw [record?_reconcile, hkey, if_neg Bool.false_ne_true]
  · intro source' reported' hne
    apply reconcile_comm hne.symm
  · intro d' reported' later hrecords hsame
    apply reconcile_again hrecords hsame

/-- Of two issues one is no longer reported; the other has been dismissed, and is reported along
with a new one that is named twice. -/
theorem reconcile_of_two_issues :
  let source : SourceKey := ⟨"s", 0⟩
  let other : SourceKey := ⟨"s", 10⟩
  let before := ((({} : Dismissals).reconcile source ["a", "b"] .epoch).reconcile other ["a"]
    .epoch).dismiss? (source.issue "b") .epoch
  let d := (before.getD {}).clean
  let now := Instant.nearestMillis 5000
  let after := d.reconcile source ["c", "b", "c"] now
  after.record? (source.issue "a") = none
    ∧ after.record? (source.issue "b") = some ⟨.epoch, some .epoch, 1⟩
    ∧ after.record? (source.issue "c") = some ⟨now, none, 0⟩
    ∧ after.record? (other.issue "a") = some ⟨.epoch, none, 0⟩
    ∧ after.dirty = true
    ∧ d.reconcile source ["b", "c"] now = after
    ∧ after.reconcile other [] now = (d.reconcile other [] now).reconcile source ["c", "b", "c"] now
    ∧ ∀ later, after.clean.reconcile source ["b", "c"] later = after.clean
  := by
  intro source other before d now after
  have hset : ∀ issueId, issueId ∈ ["b", "c"] ↔ issueId ∈ ["c", "b", "c"] := by
    intro issueId
    simp only [List.mem_cons, List.not_mem_nil, or_false]
    tauto
  have hb : d.record? (source.issue "b") = some ⟨.epoch, some .epoch, 1⟩ := by decide +kernel
  have hc : d.record? (source.issue "c") = none := by decide +kernel
  have hother : d.record? (other.issue "a") = some ⟨.epoch, none, 0⟩ := by decide +kernel
  obtain ⟨hreported, hkept, hfresh, helsewhere, hdirty, hlist, horder, hagain⟩ :=
    reconcile_exact d source ["c", "b", "c"] now
  refine ⟨?_, hkept _ _ rfl (by decide) hb, hfresh _ rfl (by decide) hc, ?_, ?_, hlist _ hset,
    horder _ _ (by decide), fun later => hagain _ _ later rfl hset⟩
  · rw [← Option.not_isSome_iff_eq_none, hreported (source.issue "a") rfl]
    decide
  · rw [helsewhere (other.issue "a") rfl, hother]
  · apply hdirty.mpr
    right
    use source.issue "c"
    rw [hfresh _ rfl (by decide) hc, hc]
    decide

end SafetyHub.Dismissals
