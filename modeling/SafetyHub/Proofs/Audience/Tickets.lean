import SafetyHub.Audience
import SafetyHub.Proofs.Basic
import Mathlib.Data.List.Chain

/-!
# Tickets

A ticket is given to one registration of one group.  Registering a listener gives out the next
ticket; dropping registrations leaves the others as they are.  An offer concerns the ticket of
the registration that it is made to and nothing else.
-/

namespace SafetyHub

open Std

/-- What is offered with a greater sequence number than before becomes what was taken last. -/
theorem Offered.taken_offer (o : Offered) (sequence : Nat) (view : Overview) :
  (o.offer sequence view).taken = if o.sequence < sequence then some view else o.taken
  := apply_ite Offered.taken _ _ _

theorem Offered.sequence_offer (o : Offered) (sequence : Nat) (view : Overview) :
  (o.offer sequence view).sequence = max o.sequence sequence
  := by
  rw [offer]
  split
  next hlt => exact (Nat.max_eq_right (Nat.le_of_lt hlt)).symm
  next hge => exact (Nat.max_eq_left (Nat.le_of_not_lt hge)).symm

/-- When what was taken last is the last of the views that were taken, no two of them equal in a
row, it is so after one offer more. -/
theorem Offered.views_offer {o : Offered} {views : List Overview}
    (htaken : o.taken = views.getLast?) (hchain : views.IsChain (· ≠ ·)) (sequence : Nat)
    (view : Overview) :
  let views' := views ++ if o.takes sequence view = true then [view] else []
  (o.offer sequence view).taken = views'.getLast? ∧ views'.IsChain (· ≠ ·)
  := by
  intro views'
  rw [taken_offer]
  by_cases hlt : o.sequence < sequence
  · by_cases hsame : o.taken = some view
    · have hviews : views' = views := by simp [views', takes, hsame]
      rw [if_pos hlt, hviews, ← htaken, hsame]
      exact ⟨rfl, hchain⟩
    · have hviews : views' = views ++ [view] := by simp [views', takes, hlt, hsame]
      rw [if_pos hlt, hviews, List.getLast?_concat]
      refine ⟨rfl, List.isChain_append.mpr ⟨hchain, List.isChain_singleton view, ?_⟩⟩
      intro last hlast next hnext heq
      rw [List.head?_cons, Option.mem_some_iff] at hnext
      apply hsame
      rw [htaken, Option.mem_def.mp hlast, heq, hnext]
  · have hviews : views' = views := by simp [views', takes, hlt]
    rw [if_neg hlt, hviews]
    exact ⟨htaken, hchain⟩

namespace Audience

variable {a : Audience}

/-! ### Registrations -/

theorem mem_parents_of_mem {parent : UserId} {r : Registration}
    (hr : r ∈ a.registrations parent) :
  parent ∈ a.parents
  := by
  rw [parents, ExtTreeMap.mem_keys]
  by_contra hnone
  rw [registrations, ExtTreeMap.getElem?_eq_none hnone] at hr
  cases hr

theorem mem_packages_iff {parent : UserId} {package : String} :
  package ∈ a.packages parent ↔ ∃ r ∈ a.registrations parent, r.package = package
  := by
  simp [packages]

theorem registrations_unregister (a : Audience) (listener : String) (parent : UserId) :
  (a.unregister listener).registrations parent
    = (a.registrations parent).filter (·.listener != listener)
  := by
  rw [registrations, unregister, ExtTreeMap.getElem?_filter', ExtTreeMap.getElem?_map,
    registrations]
  cases a.groups[parent]? with
  | none => rfl
  | some rs =>
    simp only [Option.map_some, Option.filter_some, Option.getD_some]
    split
    next => rfl
    next hempty =>
      rw [Bool.not_eq_true', Bool.not_eq_false, List.isEmpty_iff] at hempty
      rw [hempty]
      rfl

theorem registrations_clearForUser (a : Audience) (user parent : UserId) :
  (a.clearForUser user).registrations parent
    = if user = parent then [] else a.registrations parent
  := by
  simp only [registrations, clearForUser, ExtTreeMap.getElem?_erase,
    LawfulEqCmp.compare_eq_iff_eq]
  split <;> rfl

/-- Registering a listener gives it the next ticket, last among the registrations of its group,
where there is none of its name. -/
theorem register?_eq_some {listener package : String} {parent : UserId} {a' : Audience}
    (h : a.register? listener parent package = some a') :
  (∀ r ∈ a.registrations parent, r.listener ≠ listener)
    ∧ a'.nextTicket = a.nextTicket + 1 ∧ a'.offered = a.offered.insert a.nextTicket {}
    ∧ ∀ other, a'.registrations other = a.registrations other
      ++ if other = parent then [{ ticket := a.nextTicket, listener, package }] else []
  := by
  simp only [register?] at h
  split at h
  next => cases h
  next hnew =>
    cases h
    refine ⟨by simpa using hnew, rfl, rfl, ?_⟩
    intro other
    simp only [registrations, ExtTreeMap.getElem?_insert, LawfulEqCmp.compare_eq_iff_eq,
      eq_comm (a := parent)]
    split
    next heq =>
      rw [heq]
      rfl
    next => simp

/-- A listener that has been registered is found under its new ticket. -/
theorem find?_of_register? {listener package : String} {parent : UserId} {a' : Audience}
    (h : a.register? listener parent package = some a') :
  (a'.registrations parent).find? (·.listener == listener)
    = some { ticket := a.nextTicket, listener, package }
  := by
  obtain ⟨hnew, -, -, hregistrations⟩ := register?_eq_some h
  have hnone : (a.registrations parent).find? (·.listener == listener) = none := by
    rw [List.find?_eq_none]
    intro r hr
    simpa using hnew r hr
  rw [hregistrations, if_pos rfl, List.find?_append, hnone, Option.none_or]
  simp

/-- No ticket has been given to two registrations, or is yet to be given. -/
structure Distinct (a : Audience) : Prop where
  lt : ∀ parent, ∀ r ∈ a.registrations parent, r.ticket < a.nextTicket
  unique : ∀ parent parent', ∀ r ∈ a.registrations parent, ∀ r' ∈ a.registrations parent',
    r.ticket = r'.ticket → parent = parent' ∧ r = r'

theorem Distinct.thin {a' : Audience} (hdistinct : a.Distinct)
    (hticket : a'.nextTicket = a.nextTicket)
    (hsubset : ∀ parent, a'.registrations parent ⊆ a.registrations parent) :
  a'.Distinct
  where
  lt parent r hr := by
    rw [hticket]
    apply hdistinct.lt parent r (hsubset parent hr)
  unique parent parent' r hr r' hr' :=
    hdistinct.unique parent parent' r (hsubset parent hr) r' (hsubset parent' hr')

theorem Distinct.register {listener package : String} {parent : UserId} {a' : Audience}
    (hdistinct : a.Distinct) (h : a.register? listener parent package = some a') :
  a'.Distinct
  := by
  obtain ⟨-, hticket, -, hregistrations⟩ := register?_eq_some h
  have mem_cases {other : UserId} {r : Registration} (hr : r ∈ a'.registrations other) :
      r ∈ a.registrations other
        ∨ other = parent ∧ r = { ticket := a.nextTicket, listener, package } := by
    rw [hregistrations, List.mem_append] at hr
    obtain hold | hnew := hr
    · exact .inl hold
    · right
      split at hnew
      next heq => exact ⟨heq, List.mem_singleton.mp hnew⟩
      next => cases hnew
  constructor
  · intro other r hr
    rw [hticket]
    obtain hold | ⟨-, rfl⟩ := mem_cases hr
    · apply Nat.lt_succ_of_lt (hdistinct.lt other r hold)
    · apply Nat.lt_succ_self
  · intro other other' r hr r' hr' heq
    obtain hold | ⟨rfl, rfl⟩ := mem_cases hr
    · obtain hold' | ⟨rfl, rfl⟩ := mem_cases hr'
      · apply hdistinct.unique other other' r hold r' hold' heq
      · exact absurd heq (Nat.ne_of_lt (hdistinct.lt other r hold))
    · obtain hold' | ⟨rfl, rfl⟩ := mem_cases hr'
      · exact absurd heq.symm (Nat.ne_of_lt (hdistinct.lt other' r' hold'))
      · exact ⟨rfl, rfl⟩

/-! ### Offers -/

theorem offeredTo_of_register? {listener package : String} {parent : UserId} {a' : Audience}
    (h : a.register? listener parent package = some a') (ticket : Nat) :
  a'.offeredTo ticket = if ticket = a.nextTicket then {} else a.offeredTo ticket
  := by
  obtain ⟨-, -, hoffered, -⟩ := register?_eq_some h
  simp only [offeredTo, hoffered, ExtTreeMap.getElem?_insert, LawfulEqCmp.compare_eq_iff_eq,
    eq_comm (a := ticket)]
  split <;> rfl

theorem offeredTo_offer (a : Audience) (r : Registration) (sequence : Nat) (view : Overview)
    (ticket : Nat) :
  (a.offer r sequence view).2.offeredTo ticket
    = if ticket = r.ticket then (a.offeredTo ticket).offer sequence view else a.offeredTo ticket
  := by
  simp only [offeredTo, offer, ExtTreeMap.getElem?_insert, LawfulEqCmp.compare_eq_iff_eq,
    eq_comm (a := ticket)]
  split
  next heq =>
    rw [heq]
    rfl
  next => rfl

end Audience

end SafetyHub
