import SafetyHub.InFlight
import SafetyHub.Proofs.Basic
import SafetyHub.Report.Store

/-!
# What stored reports are

Each operation on the reports of a store is described by the report that it leaves under every
key.
-/

namespace SafetyHub

open Std

namespace ReportStore

attribute [ext] ReportStore

variable {s s' : ReportStore}

theorem report?_congr (h : s'.reports = s.reports) (key : SourceKey) :
  s'.report? key = s.report? key
  := by
  rw [report?, get?, h, report?, get?]

theorem get?_set (s : ReportStore) (key : SourceKey) (report : Option Report) (now : Instant)
    (k : SourceKey) :
  (s.set key report now).get? k = if k = key then report.map (⟨·, now⟩) else s.get? k
  := by
  cases report with
  | none =>
    simp only [get?, set, ExtTreeMap.getElem?_erase, LawfulEqCmp.compare_eq_iff_eq,
      eq_comm (a := key)]
    rfl
  | some r =>
    simp only [get?, set, ExtTreeMap.getElem?_insert, LawfulEqCmp.compare_eq_iff_eq,
      eq_comm (a := key)]
    rfl

theorem isFailed_set (s : ReportStore) (key : SourceKey) (report : Option Report) (now : Instant)
    (k : SourceKey) :
  (s.set key report now).isFailed k = (k != key && s.isFailed k)
  := by
  have erased : (s.set key report now).isFailed k = (s.failed.erase key).contains k := rfl
  rw [erased, ExtTreeSet.contains_erase, isFailed, Bool.eq_iff_iff]
  simp [eq_comm (a := key)]

theorem isFailed_markFailed (s : ReportStore) (key k : SourceKey) :
  (s.markFailed key).isFailed k = (k == key || s.isFailed k)
  := by
  rw [isFailed, markFailed, ExtTreeSet.contains_insert, isFailed, Bool.eq_iff_iff]
  simp [eq_comm (a := key)]

/-- A store is given by what it holds of each key and by which keys are marked. -/
theorem eq_of_get?_of_isFailed (hget : ∀ key, s.get? key = s'.get? key)
    (hfailed : ∀ key, s.isFailed key = s'.isFailed key) :
  s = s'
  := by
  apply ReportStore.ext
  · exact ExtTreeMap.ext_getElem? fun {key} => hget key
  · exact ExtTreeSet.ext_contains fun {key} => hfailed key

theorem report?_set (s : ReportStore) (key : SourceKey) (report : Option Report) (now : Instant)
    (k : SourceKey) :
  (s.set key report now).report? k = if k = key then report else s.report? k
  := by
  rw [report?, get?_set, report?]
  split
  next => cases report <;> rfl
  next => rfl

theorem get?_clearForUser (s : ReportStore) (user : UserId) (key : SourceKey) :
  (s.clearForUser user).get? key = if key.userId != user then s.get? key else none
  := getElem?_filter_key s.reports (fun key => key.userId != user) key

theorem isFailed_clearForUser (s : ReportStore) (user : UserId) (key : SourceKey) :
  (s.clearForUser user).isFailed key = (key.userId != user && s.isFailed key)
  := by
  rw [isFailed, clearForUser, Bool.eq_iff_iff, ExtTreeSet.contains_iff_mem, mem_filter_iff,
    and_comm, Bool.and_eq_true, isFailed, ExtTreeSet.contains_iff_mem]

theorem report?_clearForUser (s : ReportStore) (user : UserId) (key : SourceKey) :
  (s.clearForUser user).report? key = if key.userId != user then s.report? key else none
  := by
  rw [report?, get?_clearForUser, report?]
  split <;> rfl

theorem get?_retainConfigured (s : ReportStore) (catalog : Catalog) (key : SourceKey) :
  (s.retainConfigured catalog).get? key
    = if catalog.isExternal key.sourceId then s.get? key else none
  := getElem?_filter_key s.reports (fun key => catalog.isExternal key.sourceId) key

theorem isFailed_retainConfigured (s : ReportStore) (catalog : Catalog) (key : SourceKey) :
  (s.retainConfigured catalog).isFailed key
    = (catalog.isExternal key.sourceId && s.isFailed key)
  := by
  rw [isFailed, retainConfigured, Bool.eq_iff_iff, ExtTreeSet.contains_iff_mem, mem_filter_iff,
    and_comm, Bool.and_eq_true, isFailed, ExtTreeSet.contains_iff_mem]

theorem report?_retainConfigured (s : ReportStore) (catalog : Catalog) (key : SourceKey) :
  (s.retainConfigured catalog).report? key
    = if catalog.isExternal key.sourceId then s.report? key else none
  := by
  rw [report?, get?_retainConfigured, report?]
  split <;> rfl

/-! ### Reported issues -/

/-- Whether an issue is in the stored report of its source key. -/
def Reports (s : ReportStore) (issue : IssueKey) : Prop :=
  ∃ report, s.report? issue.sourceKey = some report ∧ issue.issueId ∈ report.issueIds

/-- Whether an action is offered by the stored report of its source key. -/
def Offers (s : ReportStore) (action : ActionKey) : Prop :=
  ∃ report, s.report? action.issue.sourceKey = some report
    ∧ report.offers action.issue.issueId action.actionId = true

theorem isSome_issue?_iff {issue : IssueKey} :
  (s.issue? issue).isSome = true ↔ s.Reports issue
  := by
  simp only [issue?, Reports, Option.isSome_bind, Option.any_eq_true, Report.issue?,
    List.find?_isSome, Report.issueIds, List.mem_map, beq_iff_eq]

theorem offers_of_issue? {issue : IssueKey} {actionId : String} {reported : Issue}
    (h : s.issue? issue = some reported) (haction : (reported.action? actionId).isSome = true) :
  s.Offers ⟨issue, actionId⟩
  := by
  obtain ⟨report, hreport, hissue⟩ := Option.bind_eq_some_iff.mp h
  use report, hreport
  rw [Report.offers, hissue]
  apply haction

end ReportStore

end SafetyHub
