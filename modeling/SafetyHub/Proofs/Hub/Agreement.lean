import SafetyHub.Proofs.Dismissal.Records
import SafetyHub.Proofs.Hub.Run
import SafetyHub.Proofs.Report.Admission
import SafetyHub.Proofs.Report.Store

/-!
# Reports, records and actions agree

`Hub.Agrees` says that a hub has a dismissal record for each issue of a stored report and for no
other issue of its source key, and that an action in flight is one that a stored report offers.
A hub starts in agreement whatever it has loaded, and no move ends it; so an issue can be
dismissed exactly when it is reported, and dismissing it changes its record and no other.
-/

namespace SafetyHub.Hub

variable {h h' : Hub} {env : Surroundings}

/-- Stored reports, dismissal records and actions in flight agree. -/
structure Agrees (h : Hub) : Prop where
  /-- Stored reports name their issues, each by a name of its own. -/
  named : ∀ key report, h.reports.report? key = some report → report.Named
  /-- The records under a key with a stored report are those of the reported issues. -/
  recorded : ∀ (issue : IssueKey) report, h.reports.report? issue.sourceKey = some report →
    (issue ∈ h.dismissals.records ↔ issue.issueId ∈ report.issueIds)
  /-- The actions in flight are offered by stored reports. -/
  offered : ∀ action ∈ h.inFlight, h.reports.Offers action

namespace Agrees

/-- Nothing is reported and nothing is in flight. -/
theorem of_no_reports (hreports : ∀ key, h.reports.report? key = none)
    (hidle : ∀ action, action ∉ h.inFlight) :
  h.Agrees
  where
  named key report hreport := by simp [hreports] at hreport
  recorded issue report hreport := by simp [hreports] at hreport
  offered action hin := absurd hin (hidle action)

/-- Agreement is kept when everything is dropped but what is under certain source keys, and
perhaps more actions. -/
theorem restrict (hagrees : h.Agrees) (p : SourceKey → Bool)
    (hreports : ∀ key, h'.reports.report? key = if p key then h.reports.report? key else none)
    (hrecords : ∀ issue, h'.dismissals.record? issue
      = if p issue.sourceKey then h.dismissals.record? issue else none)
    (hactions : ∀ action ∈ h'.inFlight,
      action ∈ h.inFlight ∧ p action.issue.sourceKey = true) :
  h'.Agrees
  where
  named key report hreport := by
    rw [hreports, Option.ite_none_right_eq_some] at hreport
    apply hagrees.named key report hreport.2
  recorded issue report hreport := by
    rw [hreports, Option.ite_none_right_eq_some] at hreport
    rw [Dismissals.mem_records_iff, hrecords, if_pos hreport.1, ← Dismissals.mem_records_iff]
    apply hagrees.recorded issue report hreport.2
  offered action hin := by
    obtain ⟨hbefore, hkey⟩ := hactions action hin
    obtain ⟨report, hreport, hoffers⟩ := hagrees.offered action hbefore
    use report
    rw [hreports, if_pos hkey]
    exact ⟨hreport, hoffers⟩

theorem of_keeps (hagrees : h.Agrees) (hkeeps : h.Keeps h') : h'.Agrees := by
  apply hagrees.restrict fun _ => true
  · intro key
    apply ReportStore.report?_congr hkeeps.reports key
  · intro issue
    rw [hkeeps.dismissals]
    rfl
  · intro action hin
    exact ⟨hkeeps.inFlight action hin, rfl⟩

/-! ### Moves -/

theorem store (hagrees : h.Agrees) (now : Instant) (key : SourceKey) {report : Option Report}
    (hnamed : ∀ r ∈ report, r.Named) :
  (h.store now key report).Agrees
  where
  named k r hr := by
    rw [reports_store, ReportStore.report?_set] at hr
    split at hr
    next => exact hnamed r hr
    next => exact hagrees.named k r hr
  recorded issue r hr := by
    rw [reports_store, ReportStore.report?_set] at hr
    rw [dismissals_store, Dismissals.mem_records_iff, Dismissals.record?_reconcile]
    split at hr
    next hkey =>
      rw [if_pos (IssueKey.belongsTo_iff.mpr hkey), hr]
      simp
    next hkey =>
      rw [if_neg (hkey ∘ IssueKey.belongsTo_iff.mp), ← Dismissals.mem_records_iff]
      apply hagrees.recorded issue r hr
  offered action hin := by
    obtain ⟨hbefore, hoffered⟩ := mem_inFlight_store.mp hin
    rw [ReportStore.Offers, reports_store, ReportStore.report?_set]
    split
    next hkey =>
      rw [InFlight.isOffered, IssueKey.belongsTo_iff.mpr hkey] at hoffered
      simpa [Option.any_eq_true] using hoffered
    next => exact hagrees.offered action hbefore

theorem dismiss (hagrees : h.Agrees) (issue : IssueKey) (now : Instant) :
  { h with dismissals := (h.dismissals.dismiss? issue now).getD h.dismissals }.Agrees
  where
  named := hagrees.named
  recorded other report hreport := by
    rw [Dismissals.mem_records_iff, Dismissals.isSome_record?_dismiss?,
      ← Dismissals.mem_records_iff]
    apply hagrees.recorded other report hreport
  offered := hagrees.offered

theorem execute (hagrees : h.Agrees) {issue : IssueKey} {actionId package : String}
    (hpackage : h.executor issue actionId = .ok package) :
  (h.beginAction ⟨issue, actionId⟩).Agrees
  where
  named := hagrees.named
  recorded := hagrees.recorded
  offered action hin := by
    obtain ⟨⟨reported, hreported, haction⟩, -, -⟩ := executor_eq_ok hpackage
    obtain rfl | hbefore := mem_inFlight_beginAction.mp hin
    · apply ReportStore.offers_of_issue? hreported haction
    · apply hagrees.offered action hbefore

theorem cleared (h : Hub) : h.cleared.Agrees :=
  of_no_reports (fun _ => rfl) fun _ => Std.ExtTreeSet.not_mem_empty

theorem without (hagrees : h.Agrees) (user : UserId) : (h.without user).Agrees := by
  apply hagrees.restrict fun key => key.userId != user
  · apply ReportStore.report?_clearForUser h.reports user
  · apply Dismissals.record?_clearForUser h.dismissals user
  · intro action hin
    apply mem_filter_iff.mp hin

theorem under (hagrees : h.Agrees) (catalog : Catalog) (policy : Policy) :
  (h.under catalog policy).Agrees
  := by
  apply hagrees.restrict fun key => catalog.isExternal key.sourceId
  · apply ReportStore.report?_retainConfigured h.reports catalog
  · apply Dismissals.record?_retainConfigured h.dismissals catalog
  · intro action hin
    apply mem_filter_iff.mp hin

theorem write (hagrees : h.Agrees) : h.write.2.hub.Agrees := by
  obtain heq | ⟨-, archive, -, heq⟩ := hub_write_cases h
  · rwa [heq]
  · rw [heq]
    exact ⟨hagrees.named, hagrees.recorded, hagrees.offered⟩

theorem of_affects (hagrees : h.Agrees) (haffects : h.Affects env h') : h'.Agrees := by
  cases haffects with
  | nothing hkeeps => apply hagrees.of_keeps hkeeps
  | store key report hcaller hreport hkeeps =>
    apply (hagrees.store env.now key (Source.named_of_checkSubmission hreport)).of_keeps hkeeps
  | dismiss hissue hkeeps => apply (hagrees.dismiss _ env.now).of_keeps hkeeps
  | execute hpackage hkeeps => apply (hagrees.execute hpackage).of_keeps hkeeps
  | clear hkeeps => apply (cleared h).of_keeps hkeeps
  | without user hkeeps => apply (hagrees.without user).of_keeps hkeeps
  | under catalog policy hkeeps => apply (hagrees.under catalog policy).of_keeps hkeeps
  | write hkeeps => apply (hagrees.of_keeps hkeeps).write
  | setFault fault => exact ⟨hagrees.named, hagrees.recorded, hagrees.offered⟩

end Agrees

/-! ### Runs -/

theorem agrees_start (catalog : Catalog) (policy : Policy) (archive : Archive)
    (loaded : Except ArchiveError (List SavedRecord)) (time : Nat) :
  (start catalog policy archive loaded time).Agrees
  := by
  apply Agrees.of_keeps _ (Like.schedulePersist _).keeps
  exact .of_no_reports (fun _ => rfl) fun _ => Std.ExtTreeSet.not_mem_empty

theorem agrees_run (catalog : Catalog) (policy : Policy) (archive : Archive)
    (loaded : Except ArchiveError (List SavedRecord)) (time : Nat)
    (moves : List (Surroundings × Move)) :
  ((start catalog policy archive loaded time).after moves).Agrees
  := by
  apply after_induction (agrees_start catalog policy archive loaded time)
  intro h env m hagrees
  apply hagrees.of_affects (step_move h env m).affects

/-- Dismissing a reported issue counts the dismissal in its record, and changes no other. -/
theorem Agrees.dismiss_eq_ok (hagrees : h.Agrees) {issue : IssueKey} {c : Change}
    (hok : h.dismiss env issue = .ok c) :
  ∃ r, h.dismissals.record? issue = some r
    ∧ c.hub.dismissals.record? issue = some (r.dismiss env.now)
    ∧ ∀ other ≠ issue, c.hub.dismissals.record? other = h.dismissals.record? other
  := by
  obtain ⟨-, hissue, rfl⟩ := dismiss_eq_ok_iff.mp hok
  obtain ⟨report, hreport, hreported⟩ := ReportStore.isSome_issue?_iff.mp hissue
  have hrecord := (hagrees.recorded issue report hreport).mpr hreported
  obtain ⟨r, hr⟩ := Option.isSome_iff_exists.mp (Dismissals.mem_records_iff.mp hrecord)
  use r, hr
  rw [(Like.settle _ env).keeps.dismissals]
  constructor
  · rw [Dismissals.record?_dismiss? hr, if_pos rfl]
  · intro other hne
    rw [Dismissals.record?_dismiss? hr, if_neg hne]

/-- Every run keeps reports, records and actions in agreement, whatever is loaded before it.
While the hub is turned on an issue can be dismissed exactly when it is reported; a dismissal
puts the present instant into its record, counts one more up to the greatest count, and leaves
every other record alone. -/
theorem agrees_after (catalog : Catalog) (policy : Policy) (archive : Archive)
    (loaded : Except ArchiveError (List SavedRecord)) (time : Nat)
    (moves : List (Surroundings × Move)) :
  let h := (start catalog policy archive loaded time).after moves
  h.Agrees ∧ ∀ (env : Surroundings) (issue : IssueKey),
    (h.policy.isActive = true →
      ((∃ c, h.dismiss env issue = .ok c) ↔ h.reports.Reports issue))
    ∧ ∀ c, h.dismiss env issue = .ok c → ∃ r r',
      h.dismissals.record? issue = some r ∧ c.hub.dismissals.record? issue = some r'
        ∧ r'.dismissedAt = some env.now
        ∧ r'.dismissCount.toNat = min (r.dismissCount.toNat + 1) (UInt32.size - 1)
        ∧ r'.firstSeenAt = r.firstSeenAt
        ∧ ∀ other ≠ issue, c.hub.dismissals.record? other = h.dismissals.record? other
  := by
  intro h
  have hagrees : h.Agrees := agrees_run catalog policy archive loaded time moves
  use hagrees
  intro env issue
  constructor
  · intro hactive
    rw [← ReportStore.isSome_issue?_iff]
    simp [dismiss_eq_ok_iff, hactive]
  · intro c hok
    obtain ⟨r, hr, hdismissed, hothers⟩ := hagrees.dismiss_eq_ok hok
    use r, r.dismiss env.now, hr, hdismissed
    exact ⟨rfl, Dismissals.toNat_dismissCount_dismiss r env.now, rfl, hothers⟩

/-- An issue that is reported can be dismissed. -/
theorem dismiss_after_submission :
  let h := (start Sample.catalog {} {} (.ok []) 0).after
    [(Sample.device, Sample.submission ["a"])]
  h.policy.isActive = true ∧ ∃ c, h.dismiss Sample.device ⟨"s", "i", 0⟩ = .ok c
    ∧ ∃ r, c.hub.dismissals.record? ⟨"s", "i", 0⟩ = some r
      ∧ r.dismissedAt = some .epoch
  := by
  intro h
  have hactive : h.policy.isActive = true := rfl
  have hreported : h.reports.report? ⟨"s", 0⟩ = some (Sample.report ["a"]) := rfl
  obtain ⟨-, hdismiss⟩ := agrees_after Sample.catalog {} {} (.ok []) 0
    [(Sample.device, Sample.submission ["a"])]
  obtain ⟨hiff, hrecords⟩ := hdismiss Sample.device ⟨"s", "i", 0⟩
  obtain ⟨c, hok⟩ := (hiff hactive).mpr ⟨Sample.report ["a"], hreported, by decide⟩
  obtain ⟨-, r, -, hr, hnow, -⟩ := hrecords c hok
  exact ⟨hactive, c, hok, r, hr, hnow⟩

end SafetyHub.Hub
