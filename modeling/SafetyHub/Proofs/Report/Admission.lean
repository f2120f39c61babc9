import SafetyHub.Admission
import Mathlib.Data.List.Nodup
import Mathlib.Tactic.Common

/-!
# Which reports are admitted

A report is read once: the status, then the issues in order, each before its actions.  On the way
it meets one demand after another or fails it; `Report.demands` lists them as they come.  A report
that meets them all is admitted, and these are the reports that a source may make:
`Source.MayReport`.  Any other report is refused for the first demand that it fails.
-/

namespace SafetyHub

open Std

/-! ### What a source may report -/

/-- The first allowlist for a category, if there is one, has the source. -/
def Policy.Permits (policy : Policy) (category : IssueCategory) (sourceId : String) : Prop :=
  ∀ before a after, policy.allowlists = before ++ a :: after →
    (∀ b ∈ before, b.category ≠ category) → a.category = category → sourceId ∈ a.sourceIds

/-- The issues of a report have names, each its own. -/
structure Report.Named (r : Report) : Prop where
  ne_empty : ∀ issueId ∈ r.issueIds, issueId ≠ ""
  nodup : r.issueIds.Nodup

/-- The actions of an issue have names, each its own. -/
structure Issue.Named (i : Issue) : Prop where
  ne_empty : ∀ a ∈ i.actions, a.id ≠ ""
  nodup : (i.actions.map (·.id)).Nodup

/-- A report that a source may make. -/
structure Source.MayReport (s : Source) (policy : Policy) (r : Report) : Prop where
  status : ∀ status ∈ r.status, s.kind ≠ .issueOnly ∧ status.severity ≤ s.maxSeverity
  named : r.Named
  severity_le : ∀ i ∈ r.issues, i.severity ≤ s.maxSeverity
  permits : ∀ i ∈ r.issues, policy.Permits i.category s.id
  actions_named : ∀ i ∈ r.issues, i.Named

/-! ### Demands in the order in which they are made -/

/-- Something that is asked of a report. -/
inductive Demand where
  | statusKind
  | statusSeverity (status : SourceStatus)
  | issueName (i : Issue)
  /-- The name of an issue is none of those before it. -/
  | issueFresh (seen : List String) (i : Issue)
  | issueSeverity (i : Issue)
  | issueCategory (i : Issue)
  /-- An action of an issue has a name that is none of those before it. -/
  | actionName (issueId : String) (seen : List String) (a : IssueAction)

namespace Demand

variable (s : Source) (policy : Policy)

/-- A demand is met. -/
def Met : Demand → Prop
  | statusKind => s.kind ≠ .issueOnly
  | statusSeverity status => status.severity ≤ s.maxSeverity
  | issueName i => i.id ≠ ""
  | issueFresh seen i => i.id ∉ seen
  | issueSeverity i => i.severity ≤ s.maxSeverity
  | issueCategory i => policy.Permits i.category s.id
  | actionName _ seen a => a.id ≠ "" ∧ a.id ∉ seen

/-- Why a report that fails the demand is refused. -/
def refusal : Demand → HubError
  | statusKind => .statusNotAllowed s.id
  | statusSeverity status => .severityTooHigh s.id status.severity s.maxSeverity
  | issueName _ => .invalidReport s.id .emptyIssueId
  | issueFresh _ i => .invalidReport s.id (.duplicateIssueId i.id)
  | issueSeverity i => .severityTooHigh s.id i.severity s.maxSeverity
  | issueCategory i => .disallowedCategory s.id i.category
  | actionName issueId _ a => .invalidReport s.id (.badActionId a.id issueId)

/-- What is asked of the status of a report. -/
def ofStatus : Option SourceStatus → List Demand
  | none => []
  | some status => [statusKind, statusSeverity status]

/-- What is asked of the actions of an issue, after those whose names have been seen. -/
def ofActions (issueId : String) (seen : List String) : List IssueAction → List Demand
  | [] => []
  | a :: rest => actionName issueId seen a :: ofActions issueId (a.id :: seen) rest

/-- What is asked of issues, after those whose names have been seen. -/
def ofIssues (seen : List String) : List Issue → List Demand
  | [] => []
  | i :: rest =>
    issueName i :: issueFresh seen i :: issueSeverity i :: issueCategory i
      :: (ofActions i.id [] i.actions ++ ofIssues (i.id :: seen) rest)

end Demand

/-- What is asked of a report, in order. -/
def Report.demands (r : Report) : List Demand :=
  Demand.ofStatus r.status ++ Demand.ofIssues [] r.issues

namespace Demand

variable {s : Source} {policy : Policy} {d : Demand} {ds ds' : List Demand}
  {x y : Except HubError Unit}

/-! ### Stopping at the first demand that is failed -/

/-- What comes of making demands until one is failed. -/
inductive Outcome (s : Source) (policy : Policy) :
    List Demand → Except HubError Unit → Prop where
  | pass : Outcome s policy [] (.ok ())
  | stop {d : Demand} {ds : List Demand} (hfails : ¬ d.Met s policy) :
      Outcome s policy (d :: ds) (.error (d.refusal s))
  | next {d : Demand} {ds : List Demand} {x : Except HubError Unit} (hmet : d.Met s policy)
      (hrest : Outcome s policy ds x) : Outcome s policy (d :: ds) x

/-- A demand is checked before the others. -/
theorem Outcome.guard {failed : Prop} [Decidable failed] (hfailed : failed ↔ ¬ d.Met s policy)
    (hrest : Outcome s policy ds x) :
  Outcome s policy (d :: ds) (if failed then .error (d.refusal s) else x)
  := by
  split
  next hfails => exact .stop (hfailed.mp hfails)
  next hpasses => exact .next (not_not.mp fun hfails => hpasses (hfailed.mpr hfails)) hrest

theorem Outcome.bind (h : Outcome s policy ds x) (h' : Outcome s policy ds' y) :
  Outcome s policy (ds ++ ds') (x >>= fun _ => y)
  := by
  induction h with
  | pass => exact h'
  | stop hfails => exact .stop hfails
  | next hmet _ ih => exact .next hmet ih

/-- Everything passes if all demands are met. -/
theorem Outcome.eq_ok_iff (h : Outcome s policy ds x) :
  x = .ok () ↔ ∀ d ∈ ds, d.Met s policy
  := by
  induction h with
  | pass => simp
  | stop hfails => simp [hfails]
  | next hmet _ ih => simp [hmet, ih]

/-- The error is that of the first demand that is failed. -/
theorem Outcome.eq_error_iff (h : Outcome s policy ds x) {e : HubError} :
  x = .error e ↔ ∃ before d after, ds = before ++ d :: after
    ∧ (∀ d' ∈ before, d'.Met s policy) ∧ ¬ d.Met s policy ∧ d.refusal s = e
  := by
  induction h with
  | pass => simp
  | @stop d ds hfails =>
    rw [Except.error.injEq]
    constructor
    · rintro rfl
      exact ⟨[], d, ds, rfl, nofun, hfails, rfl⟩
    · rintro ⟨before, d', after, hsplit, hmet, -, rfl⟩
      cases before with
      | nil =>
        cases hsplit
        rfl
      | cons =>
        cases hsplit
        exact absurd (hmet d List.mem_cons_self) hfails
  | @next d ds x hmet _ ih =>
    rw [ih]
    constructor
    · rintro ⟨before, d', after, rfl, hbefore, hrest⟩
      exact ⟨d :: before, d', after, rfl, List.forall_mem_cons.mpr ⟨hmet, hbefore⟩, hrest⟩
    · rintro ⟨before, d', after, hsplit, hbefore, hfails, he⟩
      cases before with
      | nil =>
        cases hsplit
        exact absurd hmet hfails
      | cons _ before =>
        cases hsplit
        exact ⟨before, d', after, rfl, (List.forall_mem_cons.mp hbefore).2, hfails, he⟩

end Demand

/-! ### The check makes the demands -/

theorem Severity.not_lt {a b : Severity} : ¬ a < b ↔ b ≤ a := Nat.not_lt

theorem Policy.allows_iff {policy : Policy} {category : IssueCategory} {sourceId : String} :
  policy.allows category sourceId = true ↔ policy.Permits category sourceId
  := by
  constructor
  · intro hallows before a after hsplit hbefore hcategory
    have hfind : policy.allowlists.find? (·.category == category) = some a := by
      apply List.find?_eq_some_iff_append.mpr
      exact ⟨beq_iff_eq.mpr hcategory, before, after, hsplit, by simpa using hbefore⟩
    rw [allows, hfind] at hallows
    exact ExtTreeSet.contains_iff_mem.mp hallows
  · intro hpermits
    rw [allows]
    split
    next a hfind =>
      obtain ⟨hcategory, before, after, hsplit, hbefore⟩ :=
        List.find?_eq_some_iff_append.mp hfind
      apply ExtTreeSet.contains_iff_mem.mpr
      exact hpermits before a after hsplit (by simpa using hbefore) (beq_iff_eq.mp hcategory)
    next => rfl

namespace Source

open Demand

variable {s : Source} {policy : Policy}

theorem outcome_checkStatus (status : Option SourceStatus) :
  Outcome s policy (ofStatus status) (s.checkStatus status)
  := by
  cases status with
  | none => exact .pass
  | some status =>
    apply Outcome.guard
    · simp [Met, isIssueOnly]
    apply Outcome.guard
    · rw [Met, ← Severity.not_lt, not_not]
    exact .pass

theorem outcome_checkActions (issueId : String) (seen : List String) (actions : List IssueAction) :
  Outcome s policy (ofActions issueId seen actions) (s.checkActions issueId seen actions)
  := by
  induction actions generalizing seen with
  | nil => exact .pass
  | cons a rest ih =>
    apply Outcome.guard
    · simp [Met, or_iff_not_imp_left]
    exact ih _

theorem outcome_checkIssues (seen : List String) (issues : List Issue) :
  Outcome s policy (ofIssues seen issues) (s.checkIssues policy seen issues)
  := by
  induction issues generalizing seen with
  | nil => exact .pass
  | cons i rest ih =>
    apply Outcome.guard
    · simp [Met]
    apply Outcome.guard
    · simp [Met]
    apply Outcome.guard
    · rw [Met, ← Severity.not_lt, not_not]
    apply Outcome.guard
    · simp [Met, ← Policy.allows_iff]
    -- the actions of an issue are checked before the issues that follow
    have hrest := (outcome_checkActions i.id [] i.actions).bind (ih (i.id :: seen))
    cases hactions : s.checkActions i.id [] i.actions with
    | error e => rwa [hactions] at hrest
    | ok _ => rwa [hactions] at hrest

theorem outcome_checkReport (s : Source) (policy : Policy) (r : Report) :
  Outcome s policy r.demands (s.checkReport policy r)
  := (outcome_checkStatus r.status).bind (outcome_checkIssues [] r.issues)

end Source

/-! ### Meeting every demand -/

namespace Demand

variable {s : Source} {policy : Policy}

theorem met_ofStatus_iff {status? : Option SourceStatus} :
  (∀ d ∈ ofStatus status?, d.Met s policy)
    ↔ ∀ status ∈ status?, s.kind ≠ .issueOnly ∧ status.severity ≤ s.maxSeverity
  := by
  cases status? with
  | none => simp [ofStatus]
  | some status => simp [ofStatus, Met]

/-- Names are new one after the other if they are new and distinct. -/
theorem fresh_cons_iff {seen names : List String} {name : String} :
  (name ∉ seen ∧ (∀ n ∈ names, n ∉ name :: seen) ∧ names.Nodup)
    ↔ (∀ n ∈ name :: names, n ∉ seen) ∧ (name :: names).Nodup
  := by
  simp only [List.mem_cons, not_or, forall_eq_or_imp, List.nodup_cons, forall_and]
  grind

theorem met_ofActions_iff {issueId : String} {seen : List String} {actions : List IssueAction} :
  (∀ d ∈ ofActions issueId seen actions, d.Met s policy)
    ↔ (∀ a ∈ actions, a.id ≠ "")
      ∧ (∀ actionId ∈ actions.map (·.id), actionId ∉ seen) ∧ (actions.map (·.id)).Nodup
  := by
  induction actions generalizing seen with
  | nil => simp [ofActions]
  | cons a rest ih =>
    rw [ofActions, List.forall_mem_cons, ih, List.map_cons, ← fresh_cons_iff,
      List.forall_mem_cons, Met]
    tauto

theorem met_actions_iff {i : Issue} :
  (∀ d ∈ ofActions i.id [] i.actions, d.Met s policy) ↔ i.Named
  := by
  rw [met_ofActions_iff]
  constructor
  · rintro ⟨hne, -, hnodup⟩
    exact ⟨hne, hnodup⟩
  · rintro ⟨hne, hnodup⟩
    exact ⟨hne, by simp, hnodup⟩

theorem met_ofIssues_iff {seen : List String} {issues : List Issue} :
  (∀ d ∈ ofIssues seen issues, d.Met s policy)
    ↔ (∀ i ∈ issues, i.id ≠ "" ∧ i.severity ≤ s.maxSeverity ∧ policy.Permits i.category s.id
        ∧ i.Named)
      ∧ (∀ issueId ∈ issues.map (·.id), issueId ∉ seen) ∧ (issues.map (·.id)).Nodup
  := by
  induction issues generalizing seen with
  | nil => simp [ofIssues]
  | cons i rest ih =>
    rw [ofIssues, List.forall_mem_cons, List.forall_mem_cons, List.forall_mem_cons,
      List.forall_mem_cons, List.forall_mem_append, met_actions_iff, ih, List.map_cons,
      ← fresh_cons_iff, List.forall_mem_cons, Met, Met, Met, Met]
    tauto

/-- The reports that meet every demand are those that the source may make. -/
theorem met_demands_iff {r : Report} :
  (∀ d ∈ r.demands, d.Met s policy) ↔ s.MayReport policy r
  := by
  rw [Report.demands, List.forall_mem_append, met_ofStatus_iff, met_ofIssues_iff]
  constructor
  · rintro ⟨hstatus, hissues, -, hnodup⟩
    simp only [forall_and] at hissues
    obtain ⟨hne, hseverity, hpermits, hactions⟩ := hissues
    exact ⟨hstatus, ⟨List.forall_mem_map.mpr hne, hnodup⟩, hseverity, hpermits, hactions⟩
  · rintro ⟨hstatus, ⟨hne, hnodup⟩, hseverity, hpermits, hactions⟩
    refine ⟨hstatus, ?_, by simp, hnodup⟩
    intro i hi
    exact ⟨List.forall_mem_map.mp hne i hi, hseverity i hi, hpermits i hi, hactions i hi⟩

end Demand

namespace Source

variable {s : Source} {policy : Policy}

theorem checkReport_eq_ok_iff {r : Report} :
  s.checkReport policy r = .ok () ↔ s.MayReport policy r
  := by
  rw [(outcome_checkReport s policy r).eq_ok_iff, Demand.met_demands_iff]

/-- A report that a source may submit names its issues. -/
theorem named_of_checkSubmission {report : Option Report}
    (h : s.checkSubmission policy report = .ok ()) :
  ∀ r ∈ report, r.Named
  := by
  rintro r rfl
  exact (checkReport_eq_ok_iff.mp h).named

/-- The check of reports is exact.  A report is admitted if and only if the source may make it:
a status is there only if the source reports statuses, and it is not above the greatest severity
of the source; issues are named, each by a name of its own, are not above that severity and have
categories that the policy permits to the source; and the actions of each issue are named, each
by a name of its own.  Otherwise the refusal is that of the first demand that the report fails:
the kind and the severity of the status, then for one issue after another that it has a name, a
new one, its severity, its category, and its actions one after another. -/
theorem checkReport_exact (s : Source) (policy : Policy) (r : Report) :
  (s.checkReport policy r = .ok () ↔ s.MayReport policy r)
    ∧ ∀ e, s.checkReport policy r = .error e
      ↔ ∃ before d after, r.demands = before ++ d :: after
        ∧ (∀ d' ∈ before, d'.Met s policy) ∧ ¬ d.Met s policy ∧ d.refusal s = e
  := by
  refine ⟨checkReport_eq_ok_iff, ?_⟩
  intro e
  apply (outcome_checkReport s policy r).eq_error_iff

end Source

end SafetyHub
