import SafetyHub.Key
import Mathlib.Tactic.Common

/-!
# Groundwork

Facts about what the hub is made of: calls that may be refused, the keys of issues, and stores
under lawfully ordered keys, most of whose operations keep the entries whose keys satisfy a
condition.
-/

namespace SafetyHub

open Std

theorem SourceKey.issue_eq_iff {source : SourceKey} {issueId : String} {issue : IssueKey} :
  source.issue issueId = issue ↔ issue.belongsTo source = true ∧ issue.issueId = issueId
  := by
  rw [IssueKey.belongsTo_iff]
  constructor
  · rintro rfl
    exact ⟨rfl, rfl⟩
  · rintro ⟨rfl, rfl⟩
    rfl

/-- An issue belongs to one source key. -/
theorem IssueKey.belongsTo_unique {source source' : SourceKey} {issue : IssueKey}
    (h : issue.belongsTo source = true) (h' : issue.belongsTo source' = true) :
  source = source'
  := (IssueKey.belongsTo_iff.mp h).symm.trans (IssueKey.belongsTo_iff.mp h')

theorem bind_eq_ok_iff {ε α β : Type} {x : Except ε α} {f : α → Except ε β} {b : β} :
  (x >>= f) = .ok b ↔ ∃ a, x = .ok a ∧ f a = .ok b
  := by
  cases x <;> simp [bind, Except.bind]

theorem bind_eq_error_iff {ε α β : Type} {x : Except ε α} {f : α → Except ε β} {e : ε} :
  (x >>= f) = .error e ↔ x = .error e ∨ ∃ a, x = .ok a ∧ f a = .error e
  := by
  cases x <;> simp [bind, Except.bind]

/-! ### Stores -/

variable {α β : Type} [Ord α] [TransOrd α]

theorem exists_mem_of_ne_empty {s : ExtTreeSet α} (h : s ≠ ∅) : ∃ a, a ∈ s := by
  by_contra hnone
  apply h
  apply ExtTreeSet.eq_empty_iff_forall_not_mem.mpr
  intro a ha
  apply hnone ⟨a, ha⟩

/-- A filter that keeps the size of a map keeps the map. -/
theorem filter_eq_self_of_size {m : ExtTreeMap α β} {p : α → β → Bool}
    (h : (m.filter p).size = m.size) :
  m.filter p = m
  := ExtTreeMap.filter_eq_self_iff.mpr (ExtTreeMap.size_filter_eq_size_iff.mp h)

theorem nodup_toList (s : ExtTreeSet α) : s.toList.Nodup := by
  apply s.distinct_toList.imp
  rintro a _ hne rfl
  apply hne ReflCmp.compare_self

variable [LawfulEqOrd α]

theorem mem_filter_iff {s : ExtTreeSet α} {p : α → Bool} {a : α} :
  a ∈ s.filter p ↔ a ∈ s ∧ p a = true
  := by
  simp

theorem insert_of_mem {s : ExtTreeSet α} {a : α} (h : a ∈ s) : s.insert a = s := by
  apply ExtTreeSet.ext_mem
  intro b
  rw [ExtTreeSet.mem_insert, LawfulEqCmp.compare_eq_iff_eq]
  constructor
  · rintro (rfl | hb)
    · exact h
    · exact hb
  · exact .inr

theorem getElem?_filter_key (m : ExtTreeMap α β) (p : α → Bool) (a : α) :
  (m.filter fun k _ => p k)[a]? = if p a then m[a]? else none
  := by
  rw [ExtTreeMap.getElem?_filter']
  cases m[a]? <;> cases p a <;> rfl

theorem getElem?_insertIfNew_eq_ite [DecidableEq α] (m : ExtTreeMap α β) (a : α) (b : β)
    (k : α) :
  (m.insertIfNew a b)[k]? = if a = k then some (m[k]?.getD b) else m[k]?
  := by
  rw [ExtTreeMap.getElem?_insertIfNew]
  simp only [LawfulEqCmp.compare_eq_iff_eq]
  by_cases hk : a = k
  · rw [hk]
    by_cases hmem : k ∈ m
    · rw [if_neg (fun hnew => hnew.2 hmem), if_pos rfl, ExtTreeMap.getElem?_eq_some_getElem hmem]
      rfl
    · rw [if_pos ⟨rfl, hmem⟩, if_pos rfl, ExtTreeMap.getElem?_eq_none hmem]
      rfl
  · rw [if_neg (fun hnew => hk hnew.1), if_neg hk]

theorem insertIfNew_of_mem {m : ExtTreeMap α β} {a : α} (h : a ∈ m) (b : β) :
  m.insertIfNew a b = m
  := by
  apply ExtTreeMap.ext_getElem?
  intro k
  rw [ExtTreeMap.getElem?_insertIfNew, if_neg]
  rintro ⟨hk, hnot⟩
  apply hnot h

theorem ofList_toList [DecidableEq α] (m : ExtTreeMap α β) :
  ExtTreeMap.ofList m.toList = m
  := by
  apply ExtTreeMap.ext_getElem?
  intro a
  cases hget : m[a]? with
  | some b =>
    have self : compare a a = .eq := ReflCmp.compare_self
    apply ExtTreeMap.getElem?_ofList_of_mem self ExtTreeMap.distinct_keys_toList
    apply ExtTreeMap.mem_toList_iff_getElem?_eq_some.mpr hget
  | none =>
    apply ExtTreeMap.getElem?_ofList_of_contains_eq_false
    rw [ExtTreeMap.map_fst_toList_eq_keys, List.contains_eq_mem, decide_eq_false_iff_not,
      ExtTreeMap.mem_keys, ExtTreeMap.mem_iff_isSome_getElem?, hget]
    apply Bool.false_ne_true

end SafetyHub
