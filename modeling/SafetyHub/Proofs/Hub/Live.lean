import SafetyHub.Proofs.Hub.Publishing

/-!
# Listeners that only listen

A `Live` hub carries out the effects of every move at once, and keeps what its registrations
receive.  No registration receives an overview twice in a row, and after every move that
publishes each registration of a known group has received the overview of its group last.
-/

namespace SafetyHub

/-- The offers that an effect makes to an audience: to whom, under which sequence number, and
which overview. -/
def Effect.targets (a : Audience) : Effect → List (Registration × Nat × Overview)
  | .offer parent package sequence view =>
    (a.ofPackage parent package).map (·, sequence, view)
  | .offerTo parent listener sequence view =>
    ((a.registrations parent).find? (·.listener == listener)).toList.map (·, sequence, view)
  | .signal _ | .notice _ _ => []

theorem Effect.targets_of_not_isOffer (a : Audience) {effect : Effect}
    (hquiet : ¬ effect.isOffer = true) :
  effect.targets a = []
  := by
  cases effect with
  | signal _ | notice _ _ => rfl
  | offer _ _ _ _ | offerTo _ _ _ _ => exact absurd rfl hquiet

/-- A hub, and the overviews that its registrations have received, the earliest first. -/
structure Live where
  hub : Hub
  received : List (Registration × Overview) := []

namespace Live

variable {l : Live} {env : Surroundings}

/-- What the registration with a ticket has received. -/
def viewsOf (l : Live) (ticket : Nat) : List Overview :=
  (l.received.filter (·.1.ticket == ticket)).map (·.2)

/-- Offers an overview to a registration. -/
def offer (l : Live) (r : Registration) (sequence : Nat) (view : Overview) : Live :=
  let (taken, audience) := l.hub.audience.offer r sequence view
  { hub := { l.hub with audience }
    received := if taken then l.received ++ [(r, view)] else l.received }

/-- Makes offers, one after the other. -/
def offerAll (l : Live) (targets : List (Registration × Nat × Overview)) : Live :=
  targets.foldl (fun l t => l.offer t.1 t.2.1 t.2.2) l

/-- Carries out effects, one after the other. -/
def perform (l : Live) (effects : List Effect) : Live :=
  effects.foldl (fun l effect => l.offerAll (effect.targets l.hub.audience)) l

/-- A change of the hub, with its effects. -/
def undergo (l : Live) (c : Change) : Live :=
  { l with hub := c.hub }.perform c.effects

/-- A move, with its effects. -/
def move (l : Live) (env : Surroundings) (m : Move) : Live :=
  l.undergo (l.hub.outcome env m)

/-- A run, with the effects of each move. -/
def after (l : Live) (moves : List (Surroundings × Move)) : Live :=
  moves.foldl (fun l (env, m) => l.move env m) l

/-! ### One offer -/

theorem received_offer (l : Live) (r : Registration) (sequence : Nat) (view : Overview) :
  (l.offer r sequence view).received = if (l.hub.audience.offeredTo r.ticket).takes sequence view
    then l.received ++ [(r, view)] else l.received
  := rfl

theorem viewsOf_offer (l : Live) (r : Registration) (sequence : Nat) (view : Overview)
    (ticket : Nat) :
  (l.offer r sequence view).viewsOf ticket = l.viewsOf ticket
    ++ if ticket = r.ticket ∧ (l.hub.audience.offeredTo ticket).takes sequence view = true
      then [view] else []
  := by
  rw [viewsOf, received_offer, viewsOf]
  by_cases hticket : ticket = r.ticket
  · subst hticket
    by_cases htakes : (l.hub.audience.offeredTo r.ticket).takes sequence view = true
    · simp [htakes]
    · simp [htakes]
  · have hother : ¬ r.ticket = ticket := fun heq => hticket heq.symm
    by_cases htakes : (l.hub.audience.offeredTo r.ticket).takes sequence view = true
    · simp [htakes, hticket, hother]
    · simp [htakes, hticket]

/-- What is offered is kept in step with what is received: the overview that a registration took
last is the one that it received last, and no registration received one twice in a row. -/
structure Kept (l : Live) : Prop where
  distinct : l.hub.audience.Distinct
  fresh : ∀ ticket, l.hub.audience.nextTicket ≤ ticket → l.hub.audience.offeredTo ticket = {}
  sequence_le : ∀ ticket, (l.hub.audience.offeredTo ticket).sequence ≤ l.hub.sequence
  taken_eq : ∀ ticket, (l.hub.audience.offeredTo ticket).taken = (l.viewsOf ticket).getLast?
  chain : ∀ ticket, (l.viewsOf ticket).IsChain (· ≠ ·)

/-- The hub is replaced by one with the same offers so far, and perhaps more tickets. -/
theorem Kept.replace (hkept : l.Kept) {h : Hub} (hdistinct : h.audience.Distinct)
    (hticket : l.hub.audience.nextTicket ≤ h.audience.nextTicket)
    (hoffered : ∀ ticket, h.audience.offeredTo ticket = l.hub.audience.offeredTo ticket)
    (hsequence : l.hub.sequence ≤ h.sequence) :
  { l with hub := h }.Kept
  where
  distinct := hdistinct
  fresh ticket hfresh := (hoffered ticket).trans (hkept.fresh ticket (hticket.trans hfresh))
  sequence_le ticket := by
    rw [hoffered]
    apply (hkept.sequence_le ticket).trans hsequence
  taken_eq ticket := by
    rw [hoffered]
    apply hkept.taken_eq ticket
  chain := hkept.chain

theorem Kept.thin (hkept : l.Kept) {h : Hub} (hthins : l.hub.Thins h) :
  { l with hub := h }.Kept
  := by
  apply hkept.replace (hkept.distinct.thin hthins.nextTicket hthins.subset) hthins.nextTicket.ge
  · intro ticket
    rw [Audience.offeredTo, hthins.offered, Audience.offeredTo]
  · exact hthins.sequence.ge

theorem Kept.offer (hkept : l.Kept) {r : Registration} {sequence : Nat} (view : Overview)
    (hticket : r.ticket < l.hub.audience.nextTicket) (hsequence : sequence ≤ l.hub.sequence) :
  (l.offer r sequence view).Kept
  := by
  have hoffered (ticket : Nat) : (l.offer r sequence view).hub.audience.offeredTo ticket = _ :=
    Audience.offeredTo_offer l.hub.audience r sequence view ticket
  have hviews (ticket : Nat) :
      ((l.offer r sequence view).hub.audience.offeredTo ticket).taken
        = ((l.offer r sequence view).viewsOf ticket).getLast?
      ∧ ((l.offer r sequence view).viewsOf ticket).IsChain (· ≠ ·) := by
    rw [hoffered, viewsOf_offer]
    by_cases heq : ticket = r.ticket
    · have hstep := Offered.views_offer (hkept.taken_eq ticket) (hkept.chain ticket) sequence view
      simpa only [heq, true_and, if_true] using hstep
    · simpa [heq] using ⟨hkept.taken_eq ticket, hkept.chain ticket⟩
  constructor
  · exact hkept.distinct.thin rfl fun _ => List.Subset.refl _
  · intro ticket hfresh
    rw [hoffered, if_neg]
    · apply hkept.fresh ticket hfresh
    · rintro rfl
      exact absurd hticket (Nat.not_lt.mpr hfresh)
  · intro ticket
    rw [hoffered]
    split
    · rw [Offered.sequence_offer]
      apply Nat.max_le.mpr ⟨hkept.sequence_le ticket, hsequence⟩
    · apply hkept.sequence_le
  · exact fun ticket => (hviews ticket).1
  · exact fun ticket => (hviews ticket).2

/-! ### Offers in turn -/

/-- Offers change nothing of a hub but what its registrations were offered. -/
theorem exists_hub_offerAll (l : Live) (targets : List (Registration × Nat × Overview)) :
  ∃ offered, (l.offerAll targets).hub
    = { l.hub with audience := { l.hub.audience with offered } }
  := by
  induction targets generalizing l with
  | nil => exact ⟨l.hub.audience.offered, rfl⟩
  | cons t targets ih =>
    obtain ⟨offered, heq⟩ := ih (l.offer t.1 t.2.1 t.2.2)
    exact ⟨offered, heq⟩

theorem Kept.offerAll (hkept : l.Kept) {targets : List (Registration × Nat × Overview)}
    (htargets : ∀ t ∈ targets, t.1.ticket < l.hub.audience.nextTicket ∧ t.2.1 ≤ l.hub.sequence) :
  (l.offerAll targets).Kept
  := by
  induction targets generalizing l with
  | nil => apply hkept
  | cons t targets ih =>
    obtain ⟨⟨hticket, hsequence⟩, hrest⟩ := List.forall_mem_cons.mp htargets
    apply ih (hkept.offer t.2.2 hticket hsequence) hrest

/-- A registration that is offered one overview alone, under a number greater than before, is
left with this overview. -/
theorem offeredTo_offerAll {targets : List (Registration × Nat × Overview)} {ticket n : Nat}
    {view : Overview} (halone : ∀ t ∈ targets, t.1.ticket = ticket → t.2 = (n, view))
    (hnew : l.hub.audience.offeredTo ticket = ⟨n, some view⟩
      ∨ (l.hub.audience.offeredTo ticket).sequence < n ∧ ∃ t ∈ targets, t.1.ticket = ticket) :
  (l.offerAll targets).hub.audience.offeredTo ticket = ⟨n, some view⟩
  := by
  induction targets generalizing l with
  | nil =>
    obtain hnew | ⟨-, t, ht, -⟩ := hnew
    · exact hnew
    · cases ht
  | cons t targets ih =>
    obtain ⟨hhead, hrest⟩ := List.forall_mem_cons.mp halone
    have hoffer := Audience.offeredTo_offer l.hub.audience t.1 t.2.1 t.2.2 ticket
    apply ih (l := l.offer t.1 t.2.1 t.2.2) hrest
    by_cases heq : ticket = t.1.ticket
    · left
      apply hoffer.trans
      rw [if_pos heq, hhead heq.symm]
      obtain hnew | ⟨hlt, -⟩ := hnew
      · rw [hnew, Offered.offer, if_neg (Nat.lt_irrefl n)]
      · rw [Offered.offer, if_pos hlt]
    · rw [if_neg heq] at hoffer
      obtain hnew | ⟨hlt, t', ht', hticket⟩ := hnew
      · exact .inl (hoffer.trans hnew)
      · right
        constructor
        · apply hoffer ▸ hlt
        · obtain rfl | ht' := List.mem_cons.mp ht'
          · exact absurd hticket.symm heq
          · exact ⟨t', ht', hticket⟩

/-! ### Effects in turn -/

/-- What effects come to together is settled by the audience before them. -/
theorem perform_eq_offerAll (l : Live) (effects : List Effect) :
  l.perform effects = l.offerAll (effects.flatMap (Effect.targets l.hub.audience))
  := by
  induction effects generalizing l with
  | nil => rfl
  | cons effect effects ih =>
    have htargets : Effect.targets (l.offerAll (effect.targets l.hub.audience)).hub.audience
        = Effect.targets l.hub.audience := by
      obtain ⟨offered, heq⟩ := exists_hub_offerAll l (effect.targets l.hub.audience)
      rw [heq]
      rfl
    calc l.perform (effect :: effects)
      _ = (l.offerAll (effect.targets l.hub.audience)).perform effects := rfl
      _ = (l.offerAll (effect.targets l.hub.audience)).offerAll
            (effects.flatMap (Effect.targets l.hub.audience)) := by
          rw [ih, htargets]
      _ = l.offerAll (effect.targets l.hub.audience
            ++ effects.flatMap (Effect.targets l.hub.audience)) := List.foldl_append.symm

theorem flatMap_targets_offers (a : Audience) (c : Change) :
  c.offers.flatMap (Effect.targets a) = c.effects.flatMap (Effect.targets a)
  := by
  rw [Change.offers]
  induction c.effects with
  | nil => rfl
  | cons effect effects ih =>
    rw [List.filter_cons, List.flatMap_cons]
    split
    next => rw [List.flatMap_cons, ih]
    next hquiet => rw [ih, Effect.targets_of_not_isOffer a hquiet, List.nil_append]

theorem undergo_eq_offerAll (l : Live) (c : Change) :
  l.undergo c
    = { l with hub := c.hub }.offerAll (c.offers.flatMap (Effect.targets c.hub.audience))
  := by
  rw [undergo, perform_eq_offerAll, flatMap_targets_offers]

/-- Effects change nothing of a hub but what its registrations were offered. -/
theorem exists_hub_undergo (l : Live) (c : Change) :
  ∃ offered, (l.undergo c).hub = { c.hub with audience := { c.hub.audience with offered } }
  := by
  rw [undergo_eq_offerAll]
  apply exists_hub_offerAll

/-! ### Publishing -/

/-- Publishing offers each registration of a known group the overview of its group. -/
theorem mem_targets_offers_iff {h : Hub} {t : Registration × Nat × Overview} :
  t ∈ (h.offers env).flatMap (Effect.targets h.audience)
    ↔ ∃ parent group, env.users.resolve? parent = some group
      ∧ t.1 ∈ h.audience.registrations parent ∧ t.2 = (h.sequence, h.overview env.now group)
  := by
  obtain ⟨r, offered⟩ := t
  rw [List.mem_flatMap]
  constructor
  · rintro ⟨effect, heffect, htarget⟩
    obtain ⟨parent, -, heffect⟩ := List.mem_flatMap.mp heffect
    split at heffect
    next => cases heffect
    next group hgroup =>
      obtain ⟨package, -, rfl⟩ := List.mem_map.mp heffect
      obtain ⟨r, hr, ⟨⟩⟩ := List.mem_map.mp htarget
      exact ⟨parent, group, hgroup, (List.mem_filter.mp hr).1, rfl⟩
  · rintro ⟨parent, group, hgroup, hr, rfl⟩
    refine ⟨.offer parent r.package h.sequence (h.overview env.now group), ?_, ?_⟩
    · apply List.mem_flatMap.mpr ⟨parent, Audience.mem_parents_of_mem hr, ?_⟩
      rw [hgroup]
      apply List.mem_map_of_mem (Audience.mem_packages_iff.mpr ⟨r, hr, rfl⟩)
    · have hmem : r ∈ h.audience.ofPackage parent r.package :=
        List.mem_filter.mpr ⟨hr, beq_self_eq_true r.package⟩
      apply List.mem_map.mpr ⟨r, hmem, rfl⟩

/-- Offers the current overviews to everyone whose group is known. -/
def showAll (l : Live) (env : Surroundings) : Live :=
  l.offerAll ((l.hub.offers env).flatMap (Effect.targets l.hub.audience))

theorem Kept.showAll (hkept : l.Kept) (env : Surroundings) : (l.showAll env).Kept := by
  apply hkept.offerAll
  intro t ht
  obtain ⟨parent, group, -, hr, heq⟩ := mem_targets_offers_iff.mp ht
  refine ⟨hkept.distinct.lt parent t.1 hr, ?_⟩
  rw [heq]

/-- Under a number that is new to everyone, each registration of a known group is left with the
overview of its group. -/
theorem offeredTo_showAll (hdistinct : l.hub.audience.Distinct)
    (hnew : ∀ ticket, (l.hub.audience.offeredTo ticket).sequence < l.hub.sequence)
    {parent : UserId} {group : ProfileGroup} (hgroup : env.users.resolve? parent = some group)
    {r : Registration} (hr : r ∈ l.hub.audience.registrations parent) :
  (l.showAll env).hub.audience.offeredTo r.ticket
    = ⟨l.hub.sequence, some (l.hub.overview env.now group)⟩
  := by
  apply offeredTo_offerAll
  · intro t ht hticket
    obtain ⟨parent', group', hgroup', hr', heq⟩ := mem_targets_offers_iff.mp ht
    -- a ticket is registered for one parent only, and the parent has one group
    obtain ⟨rfl, -⟩ := hdistinct.unique parent' parent t.1 hr' r hr hticket
    rw [hgroup] at hgroup'
    cases hgroup'
    exact heq
  · right
    use hnew r.ticket
    exact ⟨(r, _), mem_targets_offers_iff.mpr ⟨parent, group, hgroup, hr, rfl⟩, rfl⟩

/-- The effects of a change that publishes are the offers of the current overviews. -/
theorem undergo_eq_showAll {c : Change} (hpublishes : l.hub.PublishesBy env c) :
  l.undergo c = Live.showAll { l with hub := c.hub } env
  := by
  obtain ⟨ended, -, hhub, hoffers⟩ := hpublishes
  apply (undergo_eq_offerAll l c).trans
  rw [hhub, hoffers]
  rfl

/-- Offers of what was taken last are not taken. -/
theorem received_offerAll_of_taken {targets : List (Registration × Nat × Overview)}
    (htaken : ∀ t ∈ targets, (l.hub.audience.offeredTo t.1.ticket).taken = some t.2.2) :
  (l.offerAll targets).received = l.received
  := by
  induction targets generalizing l with
  | nil => rfl
  | cons t targets ih =>
    obtain ⟨hhead, hrest⟩ := List.forall_mem_cons.mp htaken
    have hreceived : (l.offer t.1 t.2.1 t.2.2).received = l.received := by
      rw [received_offer, Offered.takes, hhead]
      simp
    apply Eq.trans (ih _) hreceived
    intro t' ht'
    have hoffer := Audience.offeredTo_offer l.hub.audience t.1 t.2.1 t.2.2 t'.1.ticket
    apply (congrArg Offered.taken hoffer).trans
    split
    next hticket =>
      rw [Offered.taken_offer, hrest t' ht', ← hhead, ← hticket, hrest t' ht', ite_self]
    next => apply hrest t' ht'

/-- Everyone whose group is known took the current overview of the group last. -/
def UpToDate (l : Live) (env : Surroundings) : Prop :=
  ∀ parent group, env.users.resolve? parent = some group →
    ∀ r ∈ l.hub.audience.registrations parent,
      (l.hub.audience.offeredTo r.ticket).taken = some (l.hub.overview env.now group)

theorem UpToDate.like (hcurrent : l.UpToDate env) {h : Hub} (hlike : l.hub.Like h) :
  UpToDate { l with hub := h } env
  := by
  obtain ⟨deadlines, sequence, -, -, rfl⟩ := hlike
  exact hcurrent

/-- Those who are up to date receive nothing when the overviews are offered again. -/
theorem UpToDate.received_showAll (hcurrent : l.UpToDate env) :
  (l.showAll env).received = l.received
  := by
  apply received_offerAll_of_taken
  intro t ht
  obtain ⟨parent, group, hgroup, hr, heq⟩ := mem_targets_offers_iff.mp ht
  rw [heq]
  apply hcurrent parent group hgroup t.1 hr

/-- After a change that publishes everyone is up to date. -/
theorem upToDate_undergo {c : Change} (hdistinct : l.hub.audience.Distinct)
    (hsequence : ∀ ticket, (l.hub.audience.offeredTo ticket).sequence ≤ l.hub.sequence)
    (hpublishes : l.hub.PublishesBy env c) :
  (l.undergo c).UpToDate env
  := by
  rw [undergo_eq_showAll hpublishes]
  obtain ⟨ended, hthins, hhub, -⟩ := hpublishes
  let shown : Live := { l with hub := c.hub }
  have hdistinct' : shown.hub.audience.Distinct := by
    rw [show shown.hub = (ended.publish env).hub from hhub]
    apply hdistinct.thin hthins.nextTicket hthins.subset
  have hnew (ticket : Nat) :
      (shown.hub.audience.offeredTo ticket).sequence < shown.hub.sequence := by
    rw [show shown.hub = (ended.publish env).hub from hhub]
    have hoffered : ended.audience.offeredTo ticket = l.hub.audience.offeredTo ticket := by
      rw [Audience.offeredTo, hthins.offered, Audience.offeredTo]
    show (ended.audience.offeredTo ticket).sequence < ended.sequence + 1
    rw [hoffered, hthins.sequence]
    apply Nat.lt_succ_of_le (hsequence ticket)
  intro parent group hgroup r hr
  obtain ⟨offered, hframe⟩ := exists_hub_offerAll shown _
  have hr' : r ∈ shown.hub.audience.registrations parent := by
    rw [showAll, hframe] at hr
    exact hr
  have hoverview : (shown.showAll env).hub.overview env.now group
      = shown.hub.overview env.now group := by
    rw [showAll, hframe]
    rfl
  rw [offeredTo_showAll hdistinct' hnew hgroup hr', hoverview]

/-- After a change that publishes, each registration of a known group has received the overview
of its group last. -/
theorem Kept.publish (hkept : l.Kept) {c : Change} (hpublishes : l.hub.PublishesBy env c) :
  let l' := l.undergo c
  l'.Kept ∧ ∀ parent group, env.users.resolve? parent = some group →
    ∀ r ∈ l'.hub.audience.registrations parent,
      (l'.viewsOf r.ticket).getLast? = some (l'.hub.overview env.now group)
  := by
  intro l'
  have hcurrent := upToDate_undergo hkept.distinct hkept.sequence_le hpublishes
  have hl' : l' = _ := undergo_eq_showAll hpublishes
  obtain ⟨ended, hthins, hhub, -⟩ := hpublishes
  have hended : Live.Kept { l with hub := ended } := hkept.thin hthins
  have hreplaced : Live.Kept { l with hub := c.hub } := by
    rw [hhub]
    exact hended.replace hended.distinct (Nat.le_refl _) (fun _ => rfl) (Nat.le_succ ended.sequence)
  have hkept' : l'.Kept := hl' ▸ hreplaced.showAll env
  refine ⟨hkept', ?_⟩
  intro parent group hgroup r hr
  rw [← hkept'.taken_eq]
  apply hcurrent parent group hgroup r hr

/-! ### Registering -/

/-- Registering a listener anew lets its new registration alone receive an overview, that of its
group. -/
theorem Kept.listen (hkept : l.Kept) {listener package : String} {user : UserId} {c : Change}
    (hok : l.hub.listen env listener package user = .ok (true, c)) :
  let l' := l.undergo c
  l'.Kept ∧ ∃ group r, env.users.resolve? user = some group
    ∧ r.listener = listener ∧ r.package = package
    ∧ l'.hub.audience.registrations group.parent
      = l.hub.audience.registrations group.parent ++ [r]
    ∧ l'.received = l.received ++ [(r, l'.hub.overview env.now group)]
  := by
  intro l'
  obtain ⟨group, audience, hgroup, hregister, rfl⟩ := Hub.listen_eq_ok_true hok
  obtain ⟨-, hticket, -, hregistrations⟩ := Audience.register?_eq_some hregister
  let h : Hub := { l.hub with audience, sequence := l.hub.sequence + 1 }
  let r : Registration := { ticket := l.hub.audience.nextTicket, listener, package }
  let view := h.overview env.now group
  have hl' : l' = Live.offer { l with hub := h } r h.sequence view := by
    have hfind : (h.audience.registrations group.parent).find? (·.listener == listener) = some r :=
      Audience.find?_of_register? hregister
    change Live.offerAll { l with hub := h }
      (Effect.targets h.audience (.offerTo group.parent listener h.sequence view)) = _
    rw [Effect.targets, hfind]
    rfl
  have hnew : l.hub.audience.offeredTo r.ticket = {} := hkept.fresh r.ticket (Nat.le_refl _)
  have hsame (ticket : Nat) : h.audience.offeredTo ticket = l.hub.audience.offeredTo ticket := by
    apply (Audience.offeredTo_of_register? hregister ticket).trans
    split
    next heq => rw [heq, hnew]
    next => rfl
  have hreplaced : Live.Kept { l with hub := h } := by
    apply hkept.replace (hkept.distinct.register hregister) _ hsame
    · apply Nat.le_succ
    · exact hticket ▸ Nat.le_succ _
  refine ⟨?_, group, r, hgroup, rfl, rfl, ?_, ?_⟩
  · rw [hl']
    apply hreplaced.offer
    · exact hticket ▸ Nat.lt_succ_self _
    · apply Nat.le_refl
  · rw [hl']
    apply (hregistrations group.parent).trans
    rw [if_pos rfl]
  · have htakes : (h.audience.offeredTo r.ticket).takes h.sequence view = true := by
      rw [hsame, hnew]
      simp [Offered.takes, h]
    have hhub : l'.hub.overview env.now group = view := by
      rw [hl']
      rfl
    rw [hhub, hl', received_offer, if_pos htakes]

/-! ### Runs -/

theorem Kept.quiet (hkept : l.Kept) {c : Change} (hquiet : l.hub.QuietBy c) :
  let l' := l.undergo c
  l'.Kept ∧ l'.received = l.received
  := by
  obtain ⟨hthins, hoffers⟩ := hquiet
  intro l'
  have hl' : l' = { l with hub := c.hub } := by
    apply (undergo_eq_offerAll l c).trans
    rw [hoffers]
    rfl
  rw [hl']
  exact ⟨hkept.thin hthins, rfl⟩

theorem Kept.move (hkept : l.Kept) (hsound : l.hub.tracker.Sound) (htimed : l.hub.Timed)
    (env : Surroundings) {m : Move} (hm : m.isOffer = false) :
  (l.move env m).Kept
  := by
  obtain (hpublishes | hquiet) | ⟨listener, package, user, hok⟩ :=
    Hub.outcome_cases hsound htimed env hm
  · exact (hkept.publish hpublishes).1
  · exact (hkept.quiet hquiet).1
  · exact (hkept.listen hok).1

/-- The hub goes through a run in which every offer reaches its registration at once. -/
theorem exists_hub_move (l : Live) (env : Surroundings) (m : Move) :
  ∃ offers, (l.move env m).hub = l.hub.after ((env, m) :: offers)
  := by
  have hoffers (l : Live) (targets : List (Registration × Nat × Overview)) :
      (l.offerAll targets).hub
        = l.hub.after (targets.map fun t => (env, .offer t.1 t.2.1 t.2.2)) := by
    induction targets generalizing l with
    | nil => rfl
    | cons t targets ih => exact ih (l.offer t.1 t.2.1 t.2.2)
  rw [move, undergo_eq_offerAll, hoffers, Hub.hub_outcome]
  exact ⟨_, rfl⟩

theorem after_induction {P : Live → Prop} {moves : List (Surroundings × Move)} (start : P l)
    (hmoves : ∀ p ∈ moves, p.2.isOffer = false)
    (step : ∀ l env m, m.isOffer = false → P l → P (l.move env m)) :
  P (l.after moves)
  := by
  induction moves generalizing l with
  | nil => apply start
  | cons p moves ih =>
    obtain ⟨hm, hrest⟩ := List.forall_mem_cons.mp hmoves
    apply ih (step l p.1 p.2 hm start) hrest

theorem kept_start (catalog : Catalog) (policy : Policy) (archive : Archive)
    (loaded : Except ArchiveError (List SavedRecord)) (time : Nat) :
  Live.Kept { hub := .start catalog policy archive loaded time }
  := by
  have haudience : (Hub.start catalog policy archive loaded time).audience = {} :=
    (Hub.Like.schedulePersist _).audience_eq
  have hnone (parent : UserId) : ({} : Audience).registrations parent = [] := by
    simp [Audience.registrations]
  have hnew (ticket : Nat) : ({} : Audience).offeredTo ticket = {} := by
    simp [Audience.offeredTo]
  constructor
  · rw [haudience]
    constructor <;> simp [hnone]
  · intro ticket _
    rw [haudience, hnew]
  · intro ticket
    rw [haudience, hnew]
    apply Nat.zero_le
  · intro ticket
    rw [haudience, hnew]
    rfl
  · intro ticket
    apply List.isChain_nil

/-- What is offered is kept in step with what is received in every run. -/
theorem kept_after (catalog : Catalog) (policy : Policy) (archive : Archive)
    (loaded : Except ArchiveError (List SavedRecord)) (time : Nat)
    {moves : List (Surroundings × Move)} (hmoves : ∀ p ∈ moves, p.2.isOffer = false) :
  let l := Live.after { hub := .start catalog policy archive loaded time } moves
  l.Kept ∧ l.hub.tracker.Sound ∧ l.hub.Timed
  := by
  intro l
  let start := Hub.start catalog policy archive loaded time
  have of_run {h : Hub} (hrun : ∃ moves, h = start.after moves) : h.tracker.Sound ∧ h.Timed := by
    obtain ⟨moves, rfl⟩ := hrun
    apply Hub.timed_after (Hub.sound_start catalog policy archive loaded time)
      (Hub.timed_start catalog policy archive loaded time)
  have hafter : (∃ moves, l.hub = start.after moves) ∧ l.Kept := by
    apply after_induction (P := fun l => (∃ moves, l.hub = start.after moves) ∧ l.Kept)
      ⟨⟨[], rfl⟩, kept_start catalog policy archive loaded time⟩ hmoves
    rintro l env m hm ⟨hrun, hkept⟩
    obtain ⟨hsound, htimed⟩ := of_run hrun
    refine ⟨?_, hkept.move hsound htimed env hm⟩
    obtain ⟨offers, hhub⟩ := exists_hub_move l env m
    obtain ⟨moves, hl⟩ := hrun
    exact ⟨moves ++ (env, m) :: offers, by rw [hhub, hl, Hub.after_append]⟩
  exact ⟨hafter.2, of_run hafter.1⟩

/-- In every run no registration receives an overview twice in a row.  After every move that
publishes, each registration of a known group has received the overview of its group last.
Registering a listener anew lets its new registration alone receive an overview, that of its
group; registering it again lets nobody receive any. -/
theorem registrations_current_after (catalog : Catalog) (policy : Policy) (archive : Archive)
    (loaded : Except ArchiveError (List SavedRecord)) (time : Nat)
    (moves : List (Surroundings × Move)) (hmoves : ∀ p ∈ moves, p.2.isOffer = false) :
  let l := Live.after { hub := .start catalog policy archive loaded time } moves
  (∀ ticket, (l.viewsOf ticket).IsChain (· ≠ ·))
    ∧ (∀ env m, l.hub.Publishes env m →
      let l' := l.move env m
      ∀ parent group, env.users.resolve? parent = some group →
        ∀ r ∈ l'.hub.audience.registrations parent,
          (l'.viewsOf r.ticket).getLast? = some (l'.hub.overview env.now group))
    ∧ ∀ env listener package user isNew c,
      l.hub.listen env listener package user = .ok (isNew, c) →
      let l' := l.move env (.listen listener package user)
      (isNew = true → ∃ group r, env.users.resolve? user = some group
        ∧ r.listener = listener ∧ r.package = package
        ∧ l'.hub.audience.registrations group.parent
          = l.hub.audience.registrations group.parent ++ [r]
        ∧ l'.received = l.received ++ [(r, l'.hub.overview env.now group)])
      ∧ (isNew = false → l'.received = l.received)
  := by
  intro l
  obtain ⟨hkept, hsound, htimed⟩ := kept_after catalog policy archive loaded time hmoves
  refine ⟨hkept.chain, ?_, ?_⟩
  · intro env m hm
    exact (hkept.publish (Hub.publishesBy_outcome hsound htimed hm)).2
  · intro env listener package user isNew c hok l'
    have hl' : l' = l.undergo c := by
      apply congrArg l.undergo
      rw [Hub.outcome, hok]
      rfl
    rw [hl']
    constructor
    · rintro rfl
      exact (hkept.listen hok).2
    · rintro rfl
      rw [Hub.listen_eq_ok_false hok]
      exact (hkept.quiet (Hub.quietBy_refused l.hub)).2

/-- A listener is registered, and its source reports. -/
theorem current_of_one_registration :
  let moves := [(Sample.device, .listen "l" "p" 0)]
  let l := Live.after { hub := .start Sample.catalog {} {} (.ok []) 0 } moves
  let m := Sample.submission []
  let group : ProfileGroup := .ofMembers 0 []
  let r : Registration := { ticket := 0, listener := "l", package := "p" }
  (∀ p ∈ moves, p.2.isOffer = false) ∧ l.hub.Publishes Sample.device m
    ∧ Sample.device.users.resolve? 0 = some group
    ∧ r ∈ (l.move Sample.device m).hub.audience.registrations 0
    ∧ ((l.move Sample.device m).viewsOf r.ticket).getLast?
      = some ((l.move Sample.device m).hub.overview Sample.device.now group)
  := by
  intro moves l m group r
  have hmoves : ∀ p ∈ moves, p.2.isOffer = false := by simp [moves, Move.isOffer]
  have hpublishes : l.hub.Publishes Sample.device m := by
    cases hok : l.hub.submit Sample.device "p" "s" 0 (some (Sample.report []))
        .sourceStateChanged with
    | ok c => exact ⟨c, hok⟩
    | error e =>
      have haccepted : (l.hub.submit Sample.device "p" "s" 0 (some (Sample.report []))
          .sourceStateChanged).isOk = true := by
        decide +kernel
      rw [hok] at haccepted
      cases haccepted
  have hgroup : Sample.device.users.resolve? 0 = some group := rfl
  have hr : r ∈ (l.move Sample.device m).hub.audience.registrations 0 := by decide +kernel
  obtain ⟨-, hcurrent, -⟩ :=
    registrations_current_after Sample.catalog {} {} (.ok []) 0 moves hmoves
  -- named, the run is not evaluated where registrations are compared
  have hl : Live.after { hub := .start Sample.catalog {} {} (.ok []) 0 } moves = l := rfl
  rw [hl] at hcurrent
  exact ⟨hmoves, hpublishes, hgroup, hr, hcurrent Sample.device m hpublishes 0 group hgroup r hr⟩

/-- A listener that is registered for two groups may receive an overview twice in a row, once for
each. -/
theorem repeats_of_two_registrations :
  ¬ ∀ (catalog : Catalog) (policy : Policy) (archive : Archive)
      (loaded : Except ArchiveError (List SavedRecord)) (time : Nat)
      (moves : List (Surroundings × Move)) (listener : String),
    (∀ p ∈ moves, p.2.isOffer = false) →
    let l := Live.after { hub := .start catalog policy archive loaded time } moves
    ((l.received.filter (·.1.listener == listener)).map (·.2)).IsChain (· ≠ ·)
  := by
  intro hall
  let device : Surroundings := { Sample.device with users := [.full 0, .full 10] }
  let moves : List (Surroundings × Move) :=
    [(device, .listen "l" "p" 0), (device, .listen "l" "p" 10), (device, .reload .empty {})]
  have hmoves : ∀ p ∈ moves, p.2.isOffer = false := by simp [moves, Move.isOffer]
  -- without sources the overviews of both groups are the same
  apply absurd (hall Sample.catalog {} {} (.ok []) 0 moves "l" hmoves)
  decide +kernel

end Live

end SafetyHub
