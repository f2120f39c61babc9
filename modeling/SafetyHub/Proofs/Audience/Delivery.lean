import SafetyHub.Proofs.Audience.Tickets
import Mathlib.Algebra.GroupWithZero.Nat
import Mathlib.Data.List.Nodup

/-!
# Deliveries in any order

A `Delivery` offers an overview to the registrations of a group that belong to a package, or to
one listener of the group.  Deliveries may be made in another order than that of their sequence
numbers.  Whatever the order, a registration that is new ends with the overview of the greatest
number that addresses it, and it receives overviews under growing numbers.

`Dispatch` keeps who received what, and `Received` is what holds of one registration throughout.
-/

namespace SafetyHub

open Std

/-- Whom of a group a delivery is for. -/
inductive Addressee where
  | package (name : String)
  | listener (name : String)
deriving DecidableEq, Repr

/-- Whether a registration is among the addressees. -/
def Addressee.includes : Addressee → Registration → Bool
  | .package name, r => r.package == name
  | .listener name, r => r.listener == name

/-- An overview on its way to registrations for a profile parent. -/
structure Delivery where
  parent : UserId
  addressee : Addressee
  sequence : Nat
  view : Overview
deriving DecidableEq, Repr

/-- Whether a delivery addresses a registration for a profile parent. -/
def Delivery.addresses (d : Delivery) (parent : UserId) (r : Registration) : Bool :=
  d.parent == parent && d.addressee.includes r

/-- An audience, who has received an overview by which delivery, the earliest first, and the
answer to each delivery: to how many it has come, or whether it has come to the one listener. -/
structure Dispatch where
  audience : Audience
  received : List (Registration × Delivery) := []
  answers : List Nat := []

namespace Dispatch

/-- Makes a delivery. -/
def deliver (s : Dispatch) (d : Delivery) : Dispatch :=
  match d.addressee with
  | .package package =>
    let (takers, audience) := s.audience.deliver d.parent package d.sequence d.view
    { audience
      received := s.received ++ takers.map (·, d)
      answers := s.answers ++ [takers.length] }
  | .listener listener =>
    let (takers, audience) := s.audience.deliverTo d.parent listener d.sequence d.view
    { audience
      received := s.received ++ takers.map (·, d)
      answers := s.answers ++ [(!takers.isEmpty).toNat] }

/-- Makes deliveries, one after the other. -/
def after (s : Dispatch) (deliveries : List Delivery) : Dispatch :=
  deliveries.foldl deliver s

/-- The deliveries by which a registration has received an overview. -/
def receivedBy (s : Dispatch) (r : Registration) : List Delivery :=
  (s.received.filter (·.1 == r)).map (·.2)

end Dispatch

namespace Audience

variable {a a' : Audience}

/-! ### Offers in turn -/

/-- Offers change nothing of an audience but what its registrations were offered. -/
theorem exists_offerEach_eq (a : Audience) (sequence : Nat) (view : Overview)
    (rs : List Registration) :
  ∃ offered, (a.offerEach sequence view rs).2 = { a with offered }
  := by
  induction rs generalizing a with
  | nil => exact ⟨a.offered, rfl⟩
  | cons r rs ih =>
    obtain ⟨offered, heq⟩ := ih (a.offer r sequence view).2
    exact ⟨offered, heq⟩

theorem registrations_offerEach (a : Audience) (sequence : Nat) (view : Overview)
    (rs : List Registration) (parent : UserId) :
  (a.offerEach sequence view rs).2.registrations parent = a.registrations parent
  := by
  obtain ⟨offered, heq⟩ := exists_offerEach_eq a sequence view rs
  rw [heq]
  rfl

/-- Registrations under different tickets that are offered an overview in turn each take it by
what they were offered before. -/
theorem fst_offerEach {rs : List Registration} (htickets : (rs.map (·.ticket)).Nodup)
    (a : Audience) (sequence : Nat) (view : Overview) :
  (a.offerEach sequence view rs).1
    = rs.filter fun r => (a.offeredTo r.ticket).takes sequence view
  := by
  induction rs generalizing a with
  | nil => rfl
  | cons r rs ih =>
    obtain ⟨hr, hrs⟩ := List.nodup_cons.mp htickets
    have hothers : ∀ r' ∈ rs, ((a.offer r sequence view).2.offeredTo r'.ticket).takes sequence view
        = (a.offeredTo r'.ticket).takes sequence view := by
      intro r' hr'
      rw [offeredTo_offer, if_neg]
      intro heq
      exact hr (List.mem_map.mpr ⟨r', hr', heq⟩)
    rw [List.filter_cons, ← List.filter_congr hothers, ← ih hrs]
    rfl

theorem offeredTo_offerEach {rs : List Registration} (htickets : (rs.map (·.ticket)).Nodup)
    (a : Audience) (sequence : Nat) (view : Overview) (ticket : Nat) :
  (a.offerEach sequence view rs).2.offeredTo ticket
    = if ticket ∈ rs.map (·.ticket) then (a.offeredTo ticket).offer sequence view
      else a.offeredTo ticket
  := by
  induction rs generalizing a with
  | nil => rfl
  | cons r rs ih =>
    obtain ⟨hr, hrs⟩ := List.nodup_cons.mp htickets
    simp only [offerEach, ih hrs, offeredTo_offer, List.map_cons, List.mem_cons]
    by_cases heq : ticket = r.ticket
    · subst heq
      rw [if_neg hr, if_pos rfl, if_pos (.inl rfl)]
    · simp only [heq, if_false, false_or]

/-! ### Audiences that come about -/

/-- The audiences that come about as listeners are registered and dropped and overviews are
offered. -/
inductive Built : Audience → Prop
  | empty : Built {}
  | register {a a' : Audience} {listener package : String} {parent : UserId} (hbuilt : Built a)
      (hnew : a.register? listener parent package = some a') : Built a'
  | unregister {a : Audience} (hbuilt : Built a) (listener : String) :
      Built (a.unregister listener)
  | clearForUser {a : Audience} (hbuilt : Built a) (parent : UserId) :
      Built (a.clearForUser parent)
  | clear {a : Audience} (hbuilt : Built a) : Built a.clear
  | offer {a : Audience} (hbuilt : Built a) (r : Registration) (sequence : Nat)
      (view : Overview) : Built (a.offer r sequence view).2

theorem registrations_clear (a : Audience) (parent : UserId) :
  a.clear.registrations parent = []
  := by
  rw [registrations, clear, ExtTreeMap.getElem?_empty]
  rfl

theorem Built.distinct (hbuilt : a.Built) : a.Distinct := by
  induction hbuilt with
  | empty =>
    have hnone (parent : UserId) (r : Registration) :
        r ∉ ({} : Audience).registrations parent := by
      rw [registrations, ExtTreeMap.getElem?_empty]
      exact List.not_mem_nil
    exact ⟨fun parent r hr => absurd hr (hnone parent r),
      fun parent _ r hr => absurd hr (hnone parent r)⟩
  | register _ hnew ih => exact ih.register hnew
  | unregister _ listener ih =>
    refine ih.thin rfl fun parent => ?_
    rw [registrations_unregister]
    exact List.filter_sublist.subset
  | clearForUser _ user ih =>
    refine ih.thin rfl fun parent => ?_
    rw [registrations_clearForUser]
    split
    · apply List.nil_subset
    · apply List.Subset.refl
  | clear _ ih =>
    refine ih.thin rfl fun parent => ?_
    rw [registrations_clear]
    apply List.nil_subset
  | offer _ r sequence view ih => exact ih.thin rfl fun parent => List.Subset.refl _

theorem Built.offerEach (hbuilt : a.Built) (sequence : Nat) (view : Overview)
    (rs : List Registration) :
  (a.offerEach sequence view rs).2.Built
  := by
  induction rs generalizing a with
  | nil => exact hbuilt
  | cons r rs ih => exact ih (hbuilt.offer r sequence view)

/-- A listener is registered for a group once. -/
theorem Built.nodup_listeners (hbuilt : a.Built) (parent : UserId) :
  ((a.registrations parent).map (·.listener)).Nodup
  := by
  induction hbuilt with
  | empty => exact List.nodup_nil
  | @register a a' listener package parent' _ hnew ih =>
    obtain ⟨hother, -, -, hregistrations⟩ := register?_eq_some hnew
    rw [hregistrations]
    split
    next heq =>
      subst heq
      rw [List.map_append, List.map_singleton]
      apply ih.append (List.nodup_singleton _)
      simpa [List.disjoint_singleton] using hother
    next => rwa [List.append_nil]
  | unregister _ listener ih =>
    rw [registrations_unregister]
    apply ih.sublist (List.filter_sublist.map _)
  | clearForUser _ user ih =>
    rw [registrations_clearForUser]
    split
    · exact List.nodup_nil
    · exact ih
  | clear _ _ =>
    rw [registrations_clear]
    exact List.nodup_nil
  | offer _ r sequence view ih => exact ih

/-- The registrations for a group have different tickets. -/
theorem Built.nodup_tickets (hbuilt : a.Built) (parent : UserId) :
  ((a.registrations parent).map (·.ticket)).Nodup
  := by
  refine List.Nodup.map_on ?_ (hbuilt.nodup_listeners parent).of_map
  intro r hr r' hr' heq
  exact (hbuilt.distinct.unique parent parent r hr r' hr' heq).2

/-- The registrations that a delivery addresses. -/
def addressed (a : Audience) (d : Delivery) : List Registration :=
  (a.registrations d.parent).filter d.addressee.includes

theorem mem_addressed_iff {d : Delivery} {r : Registration} :
  r ∈ a.addressed d ↔ r ∈ a.registrations d.parent ∧ d.addresses d.parent r = true
  := by
  simp [addressed, Delivery.addresses]

theorem Built.nodup_addressed (hbuilt : a.Built) (d : Delivery) :
  ((a.addressed d).map (·.ticket)).Nodup
  := (hbuilt.nodup_tickets d.parent).sublist (List.filter_sublist.map _)

/-- The one registration of a listener is the first. -/
theorem find?_toList_eq_filter {rs : List Registration} {listener : String}
    (hlisteners : (rs.map (·.listener)).Nodup) :
  (rs.find? (·.listener == listener)).toList = rs.filter (·.listener == listener)
  := by
  induction rs with
  | nil => rfl
  | cons r rs ih =>
    obtain ⟨hr, hrs⟩ := List.nodup_cons.mp hlisteners
    rw [List.find?_cons, List.filter_cons]
    split
    next heq =>
      have hrest : rs.filter (·.listener == listener) = [] := by
        rw [List.filter_eq_nil_iff]
        intro r' hr' heq'
        rw [beq_iff_eq] at heq heq'
        exact hr (List.mem_map.mpr ⟨r', hr', heq'.trans heq.symm⟩)
      rw [if_pos heq, hrest]
      rfl
    next hne =>
      rw [if_neg (Bool.eq_false_iff.mp hne)]
      exact ih hrs

end Audience

/-! ### What one registration receives -/

/-- What holds of a registration that was new before some deliveries addressed it: what it was
offered last, and by which of them it has received an overview. -/
structure Received (addressed : List Delivery) (o : Offered) (received : List Delivery) :
    Prop where
  latest : addressed = [] ∧ o = {} ∨ ∃ d ∈ addressed, o = ⟨d.sequence, some d.view⟩
    ∧ ∀ d' ∈ addressed, d'.sequence ≤ d.sequence
  subset : ∀ d ∈ received, d ∈ addressed
  taken_eq : o.taken = (received.map (·.view)).getLast?
  chain : (received.map (·.view)).IsChain (· ≠ ·)
  increasing : (received.map (·.sequence)).Pairwise (· < ·)

namespace Received

variable {addressed received : List Delivery} {o : Offered}

theorem new : Received [] {} [] := by
  refine ⟨.inl ⟨rfl, rfl⟩, ?_, rfl, List.isChain_nil, List.Pairwise.nil⟩
  intro d hd
  cases hd

/-- No delivery so far has a greater number than the last that was offered. -/
theorem sequence_le (h : Received addressed o received) {d : Delivery} (hd : d ∈ addressed) :
  d.sequence ≤ o.sequence
  := by
  obtain ⟨hnone, -⟩ | ⟨last, -, rfl, hgreatest⟩ := h.latest
  · rw [hnone] at hd
    cases hd
  · exact hgreatest d hd

/-- An overview that arrives late is dropped, and one that is like the last only moves the number
on. -/
theorem offer (h : Received addressed o received) (d : Delivery) (hpositive : 0 < d.sequence) :
  Received (addressed ++ [d]) (o.offer d.sequence d.view)
    (received ++ if o.takes d.sequence d.view = true then [d] else [])
  := by
  obtain ⟨htaken, hchain⟩ := Offered.views_offer h.taken_eq h.chain d.sequence d.view
  have hviews : (received ++ if o.takes d.sequence d.view = true then [d] else []).map (·.view)
      = received.map (·.view) ++ if o.takes d.sequence d.view = true then [d.view] else [] := by
    rw [List.map_append]
    split <;> rfl
  rw [← hviews] at htaken hchain
  refine ⟨?_, ?_, htaken, hchain, ?_⟩
  · right
    by_cases hnew : o.sequence < d.sequence
    · refine ⟨d, List.mem_concat_self, ?_, ?_⟩
      · rw [Offered.offer, if_pos hnew]
      · intro d' hd'
        obtain hd' | hd' := List.mem_append.mp hd'
        · exact (h.sequence_le hd').trans hnew.le
        · rw [List.mem_singleton.mp hd']
    · obtain ⟨-, rfl⟩ | ⟨last, hlast, rfl, hgreatest⟩ := h.latest
      · exact absurd hpositive hnew
      · refine ⟨last, List.mem_append_left _ hlast, ?_, ?_⟩
        · rw [Offered.offer, if_neg hnew]
        · intro d' hd'
          obtain hd' | hd' := List.mem_append.mp hd'
          · exact hgreatest d' hd'
          · rw [List.mem_singleton.mp hd']
            exact Nat.le_of_not_lt hnew
  · intro d' hd'
    obtain hd' | hd' := List.mem_append.mp hd'
    · exact List.mem_append_left _ (h.subset d' hd')
    · split at hd'
      next => exact List.mem_append_right _ hd'
      next => cases hd'
  · split
    next htakes =>
      have hnew : o.sequence < d.sequence := by
        rw [Offered.takes, Bool.and_eq_true, decide_eq_true_eq] at htakes
        exact htakes.1
      rw [List.map_append, List.pairwise_append]
      refine ⟨h.increasing, List.pairwise_singleton _ _, ?_⟩
      intro n hn m hm
      obtain ⟨d', hd', rfl⟩ := List.mem_map.mp hn
      rw [List.map_singleton, List.mem_singleton] at hm
      rw [hm]
      exact (h.sequence_le (h.subset d' hd')).trans_lt hnew
    next =>
      rw [List.append_nil]
      exact h.increasing

/-- Of deliveries that agree where their numbers do, one with the greatest number has the overview
that is received last. -/
theorem getLast?_eq (h : Received addressed o received)
    (hagree : ∀ d ∈ addressed, ∀ d' ∈ addressed, d.sequence = d'.sequence → d.view = d'.view)
    {d : Delivery} (hd : d ∈ addressed) (hgreatest : ∀ d' ∈ addressed, d'.sequence ≤ d.sequence) :
  (received.map (·.view)).getLast? = some d.view
  := by
  rw [← h.taken_eq]
  obtain ⟨hnone, -⟩ | ⟨last, hlast, rfl, hgreatest'⟩ := h.latest
  · rw [hnone] at hd
    cases hd
  · have hsequence := Nat.le_antisymm (hgreatest last hlast) (hgreatest' d hd)
    exact congrArg some (hagree last hlast d hd hsequence)

end Received

namespace Dispatch

variable {a : Audience} {s : Dispatch}

/-- A delivery offers its overview to the registrations that it addresses, and answers with the
number of those that take it. -/
theorem deliver_eq (hbuilt : s.audience.Built) (d : Delivery) :
  let (takers, audience) := s.audience.offerEach d.sequence d.view (s.audience.addressed d)
  s.deliver d = {
    audience
    received := s.received ++ takers.map (·, d)
    answers := s.answers ++ [takers.length] }
  := by
  obtain ⟨parent, addressee, sequence, view⟩ := d
  cases addressee with
  | package name => rfl
  | listener name =>
    have hone : s.audience.addressed ⟨parent, .listener name, sequence, view⟩
        = ((s.audience.registrations parent).find? (·.listener == name)).toList :=
      (Audience.find?_toList_eq_filter (hbuilt.nodup_listeners parent)).symm
    simp only [hone, deliver, Audience.deliverTo]
    congr 3
    cases (s.audience.registrations parent).find? (·.listener == name) with
    | none => rfl
    | some r =>
      simp only [Option.toList_some, Audience.offerEach]
      split <;> rfl

theorem registrations_deliver (hbuilt : s.audience.Built) (d : Delivery) (parent : UserId) :
  (s.deliver d).audience.registrations parent = s.audience.registrations parent
  := by
  rw [deliver_eq hbuilt d]
  apply Audience.registrations_offerEach

theorem built_deliver (hbuilt : s.audience.Built) (d : Delivery) :
  (s.deliver d).audience.Built
  := by
  rw [deliver_eq hbuilt d]
  apply hbuilt.offerEach

theorem mem_addressed_iff_of_mem (hbuilt : s.audience.Built) {parent : UserId}
    {r : Registration} (hr : r ∈ s.audience.registrations parent) (d : Delivery) :
  r ∈ s.audience.addressed d ↔ d.addresses parent r = true
  := by
  rw [Audience.mem_addressed_iff]
  constructor
  · rintro ⟨hr', hincludes⟩
    obtain ⟨rfl, -⟩ := hbuilt.distinct.unique _ _ r hr' r hr rfl
    exact hincludes
  · intro haddresses
    have hparent : d.parent = parent := by
      rw [Delivery.addresses, Bool.and_eq_true, beq_iff_eq] at haddresses
      exact haddresses.1
    rw [hparent]
    exact ⟨hr, haddresses⟩

/-- A registration that a delivery addresses is offered the overview, and one that it does not
address is not. -/
theorem offeredTo_deliver (hbuilt : s.audience.Built) {parent : UserId} {r : Registration}
    (hr : r ∈ s.audience.registrations parent) (d : Delivery) :
  (s.deliver d).audience.offeredTo r.ticket
    = if d.addresses parent r = true
      then (s.audience.offeredTo r.ticket).offer d.sequence d.view
      else s.audience.offeredTo r.ticket
  := by
  have hticket : r.ticket ∈ (s.audience.addressed d).map (·.ticket)
      ↔ d.addresses parent r = true := by
    rw [← mem_addressed_iff_of_mem hbuilt hr, List.mem_map]
    constructor
    · rintro ⟨r', hr', heq⟩
      have hin := (Audience.mem_addressed_iff.mp hr').1
      obtain ⟨-, rfl⟩ := hbuilt.distinct.unique _ _ r' hin r hr heq
      exact hr'
    · exact fun hmem => ⟨r, hmem, rfl⟩
  rw [deliver_eq hbuilt d]
  dsimp only
  rw [Audience.offeredTo_offerEach (hbuilt.nodup_addressed d)]
  exact if_congr hticket rfl rfl

theorem receivedBy_deliver (hbuilt : s.audience.Built) {parent : UserId} {r : Registration}
    (hr : r ∈ s.audience.registrations parent) (d : Delivery) :
  (s.deliver d).receivedBy r = s.receivedBy r
    ++ if d.addresses parent r = true
      ∧ (s.audience.offeredTo r.ticket).takes d.sequence d.view = true then [d] else []
  := by
  let takers := (s.audience.offerEach d.sequence d.view (s.audience.addressed d)).1
  have htakers : takers = (s.audience.addressed d).filter fun r =>
      (s.audience.offeredTo r.ticket).takes d.sequence d.view :=
    Audience.fst_offerEach (hbuilt.nodup_addressed d) s.audience d.sequence d.view
  have hnodup : takers.Nodup := by
    rw [htakers]
    exact (hbuilt.nodup_addressed d).of_map.filter _
  have hmem : r ∈ takers ↔ d.addresses parent r = true
      ∧ (s.audience.offeredTo r.ticket).takes d.sequence d.view = true := by
    rw [htakers, List.mem_filter, mem_addressed_iff_of_mem hbuilt hr]
  have hnew : (takers.filter (· == r)).map (fun _ => d) = if r ∈ takers then [d] else [] := by
    rw [List.filter_beq, hnodup.count]
    split <;> rfl
  rw [deliver_eq hbuilt d]
  simp only [receivedBy, List.filter_append, List.map_append, List.filter_map, List.map_map]
  rw [← if_congr hmem rfl rfl, ← hnew]
  rfl

/-! ### Deliveries one after the other -/

theorem received_after {parent : UserId} {r : Registration} {deliveries addressed : List Delivery}
    (hbuilt : s.audience.Built) (hr : r ∈ s.audience.registrations parent)
    (hpositive : ∀ d ∈ deliveries, 0 < d.sequence)
    (h : Received addressed (s.audience.offeredTo r.ticket) (s.receivedBy r)) :
  Received (addressed ++ deliveries.filter (·.addresses parent r))
    ((s.after deliveries).audience.offeredTo r.ticket) ((s.after deliveries).receivedBy r)
  := by
  induction deliveries generalizing s addressed with
  | nil => rwa [List.filter_nil, List.append_nil]
  | cons d deliveries ih =>
    obtain ⟨hd, hrest⟩ := List.forall_mem_cons.mp hpositive
    have hr' : r ∈ (s.deliver d).audience.registrations parent := by
      rwa [registrations_deliver hbuilt]
    have hoffered := offeredTo_deliver hbuilt hr d
    have hreceived := receivedBy_deliver hbuilt hr d
    by_cases haddresses : d.addresses parent r = true
    · have hstep : Received (addressed ++ [d]) ((s.deliver d).audience.offeredTo r.ticket)
          ((s.deliver d).receivedBy r) := by
        simp only [haddresses, if_true, true_and] at hoffered hreceived
        rw [hoffered, hreceived]
        exact h.offer d hd
      rw [List.filter_cons, if_pos haddresses, List.append_cons]
      exact ih (built_deliver hbuilt d) hr' hrest hstep
    · have hstep : Received addressed ((s.deliver d).audience.offeredTo r.ticket)
          ((s.deliver d).receivedBy r) := by
        rw [if_neg haddresses] at hoffered
        rw [if_neg (fun hboth => haddresses hboth.1), List.append_nil] at hreceived
        rwa [hoffered, hreceived]
      rw [List.filter_cons, if_neg haddresses]
      exact ih (built_deliver hbuilt d) hr' hrest hstep

/-- The answers to deliveries add up to what has been received, and only what is addressed is
received. -/
theorem sound_after (hbuilt : s.audience.Built)
    (hsum : s.answers.sum = s.received.length) (deliveries : List Delivery) :
  (s.after deliveries).answers.sum = (s.after deliveries).received.length
    ∧ ∀ c ∈ (s.after deliveries).received, c ∈ s.received
      ∨ c.1 ∈ s.audience.registrations c.2.parent ∧ c.2 ∈ deliveries
        ∧ c.2.addresses c.2.parent c.1 = true
  := by
  induction deliveries generalizing s with
  | nil => exact ⟨hsum, fun c hc => .inl hc⟩
  | cons d deliveries ih =>
    have hdeliver := deliver_eq hbuilt d
    have hsum' : (s.deliver d).answers.sum = (s.deliver d).received.length := by
      rw [hdeliver]
      simp [hsum]
    obtain ⟨hanswers, hreceived⟩ := ih (built_deliver hbuilt d) hsum'
    refine ⟨hanswers, ?_⟩
    intro c hc
    obtain hc | ⟨hr, hd, haddresses⟩ := hreceived c hc
    · rw [hdeliver] at hc
      obtain hc | hc := List.mem_append.mp hc
      · exact .inl hc
      · obtain ⟨r, hr, rfl⟩ := List.mem_map.mp hc
        rw [Audience.fst_offerEach (hbuilt.nodup_addressed d)] at hr
        obtain ⟨hr, haddresses⟩ := Audience.mem_addressed_iff.mp (List.mem_filter.mp hr).1
        exact .inr ⟨hr, List.mem_cons_self, haddresses⟩
    · rw [registrations_deliver hbuilt] at hr
      exact .inr ⟨hr, List.mem_cons_of_mem d hd, haddresses⟩

/-- Deliveries with numbers greater than 0, those to one registration under one number with the
same overview, are made in some order to an audience all of whose registrations are new.  Each
registration receives overviews only by deliveries that address it, under growing numbers and no
two equal ones in a row, and receives last the overview of the greatest number that addresses it.
The answers add up to the number of overviews received. -/
theorem deliveries_converge {a : Audience} (hbuilt : a.Built)
    (hfresh : ∀ parent, ∀ r ∈ a.registrations parent, a.offeredTo r.ticket = {})
    {deliveries : List Delivery} (hpositive : ∀ d ∈ deliveries, 0 < d.sequence)
    (hagree : ∀ parent, ∀ r ∈ a.registrations parent, ∀ d ∈ deliveries, ∀ d' ∈ deliveries,
      d.addresses parent r = true → d'.addresses parent r = true →
      d.sequence = d'.sequence → d.view = d'.view)
    {order : List Delivery} (horder : order.Perm deliveries) :
  let s := Dispatch.after { audience := a } order
  (∀ c ∈ s.received, c.1 ∈ a.registrations c.2.parent ∧ c.2 ∈ deliveries
      ∧ c.2.addresses c.2.parent c.1 = true)
    ∧ s.answers.sum = s.received.length
    ∧ ∀ parent, ∀ r ∈ a.registrations parent,
      let received := s.receivedBy r
      (received.map (·.sequence)).Pairwise (· < ·) ∧ (received.map (·.view)).IsChain (· ≠ ·)
        ∧ ∀ d ∈ deliveries, d.addresses parent r = true →
          (∀ d' ∈ deliveries, d'.addresses parent r = true → d'.sequence ≤ d.sequence) →
          (received.map (·.view)).getLast? = some d.view
  := by
  intro s
  have hmem {d : Delivery} : d ∈ order ↔ d ∈ deliveries := horder.mem_iff
  obtain ⟨hanswers, hreceived⟩ :=
    sound_after (s := { audience := a }) hbuilt rfl order
  refine ⟨?_, hanswers, ?_⟩
  · intro c hc
    obtain hnone | ⟨hr, hd, haddresses⟩ := hreceived c hc
    · cases hnone
    · exact ⟨hr, hmem.mp hd, haddresses⟩
  · intro parent r hr received
    have hnew : Received [] (a.offeredTo r.ticket) (receivedBy { audience := a } r) := by
      rw [hfresh parent r hr]
      exact .new
    have hafter := received_after (s := { audience := a }) hbuilt hr
      (fun d hd => hpositive d (hmem.mp hd)) hnew
    refine ⟨hafter.increasing, hafter.chain, ?_⟩
    intro d hd haddresses hgreatest
    have mem_filter {d : Delivery} : d ∈ [] ++ order.filter (·.addresses parent r)
        ↔ d ∈ deliveries ∧ d.addresses parent r = true := by
      rw [List.nil_append, List.mem_filter, hmem]
    apply hafter.getLast?_eq
    · intro d hd d' hd'
      obtain ⟨hd, haddresses⟩ := mem_filter.mp hd
      obtain ⟨hd', haddresses'⟩ := mem_filter.mp hd'
      exact hagree parent r hr d hd d' hd' haddresses haddresses'
    · exact mem_filter.mpr ⟨hd, haddresses⟩
    · intro d' hd'
      obtain ⟨hd', haddresses'⟩ := mem_filter.mp hd'
      exact hgreatest d' hd' haddresses'

/-- Three deliveries reach two listeners of one package in the order opposite to that of their
numbers. -/
theorem deliveries_in_reverse :
  let view (n : Nat) : Overview := { counts := { openIssues := n } }
  let deliveries : List Delivery := [⟨0, .package "p", 1, view 1⟩, ⟨0, .listener "l", 2, view 2⟩,
    ⟨0, .package "p", 3, view 3⟩]
  let r : Registration := { ticket := 0, listener := "l", package := "p" }
  ∃ first audience, Audience.register? {} "l" 0 "p" = some first
    ∧ first.register? "m" 0 "p" = some audience ∧ r ∈ audience.registrations 0
    ∧ let s := Dispatch.after { audience } deliveries.reverse
      s.answers.sum = s.received.length
        ∧ ((s.receivedBy r).map (·.view)).getLast? = some (view 3)
  := by
  intro view deliveries r
  have hregisters :
      ((Audience.register? {} "l" 0 "p").bind (·.register? "m" 0 "p")).isSome = true := by
    decide
  obtain ⟨audience, haudience⟩ := Option.isSome_iff_exists.mp hregisters
  obtain ⟨first, hfirst, hsecond⟩ := Option.bind_eq_some_iff.mp haudience
  have hr : r ∈ audience.registrations 0 := by
    obtain ⟨-, -, -, hold⟩ := Audience.register?_eq_some hfirst
    obtain ⟨-, -, -, hnew⟩ := Audience.register?_eq_some hsecond
    rw [hnew, hold]
    exact List.mem_append_left _ (List.mem_append_right _ List.mem_cons_self)
  have hfresh (parent : UserId) : ∀ r ∈ audience.registrations parent,
      audience.offeredTo r.ticket = {} := by
    intro r _
    rw [Audience.offeredTo_of_register? hsecond, Audience.offeredTo_of_register? hfirst]
    split
    · rfl
    · split <;> rfl
  have hagree : ∀ d ∈ deliveries, ∀ d' ∈ deliveries,
      d.sequence = d'.sequence → d.view = d'.view := by
    decide
  obtain ⟨-, hanswers, hreceives⟩ := deliveries_converge
    (.register (.register .empty hfirst) hsecond) hfresh
    (by decide : ∀ d ∈ deliveries, 0 < d.sequence)
    (fun _ _ _ d hd d' hd' _ _ => hagree d hd d' hd') (List.reverse_perm deliveries)
  obtain ⟨-, -, hlast⟩ := hreceives 0 r hr
  exact ⟨first, audience, hfirst, hsecond, hr, hanswers,
    hlast ⟨0, .package "p", 3, view 3⟩ (by decide) (by decide) (by decide)⟩

end Dispatch

end SafetyHub
