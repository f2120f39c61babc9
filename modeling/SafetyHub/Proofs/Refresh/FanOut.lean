import SafetyHub.Proofs.Catalog.Broadcasts
import SafetyHub.Proofs.Catalog.Consistency
import SafetyHub.Proofs.Profile.Groups
import SafetyHub.Proofs.Refresh.Tracking

/-!
# What a refresh asks

A refresh sends a package at most one request for each user, and no empty one.  When it is
started over the broadcasts of a catalog it asks every source that reports, for every user that
the source applies to, exactly once; when the page is opened, only the sources that are asked on
that occasion or that must report.  It waits for the pairs that it asks and that are not
untracked.
-/

namespace SafetyHub

open Std

/-- What a request asks: a package, for a source and a user. -/
def RefreshRequest.asks (r : RefreshRequest) : List (String × SourceKey) :=
  r.pairs.map (r.package, ·)

namespace RefreshOrder

variable {o : RefreshOrder} {token : BroadcastId} {b : Broadcast} {q : RefreshRequest}

/-! ### The requests of an order -/

theorem request?_eq_some_iff {package : String} {user : UserId} {ids onPageOpen : List String} :
  o.request? token package user ids onPageOpen = some q
    ↔ o.asked user ids onPageOpen ≠ [] ∧ q = {
        package, sourceIds := o.asked user ids onPageOpen, userId := user
        requestType := o.requestType, broadcastId := token }
  := by
  simp [request?, eq_comm (a := q)]

/-- A request of a broadcast is for the profile parent or for a running profile, and asks of the
sources that are listed for that user those that are to be asked. -/
theorem mem_requestsOf_iff :
  q ∈ o.requestsOf token b
    ↔ q.package = b.package ∧ q.requestType = o.requestType ∧ q.broadcastId = token
      ∧ q.sourceIds ≠ []
      ∧ (q.userId = o.group.parent
          ∧ q.sourceIds = o.asked q.userId b.forParent b.forParentOnPageOpen
        ∨ q.userId ∈ o.group.running
          ∧ q.sourceIds = o.asked q.userId b.forManaged b.forManagedOnPageOpen)
  := by
  rw [requestsOf, List.mem_append, Option.mem_toList, request?_eq_some_iff,
    List.mem_filterMap]
  simp only [request?_eq_some_iff]
  constructor
  · rintro (⟨hne, rfl⟩ | ⟨user, hrunning, hne, rfl⟩)
    · exact ⟨rfl, rfl, rfl, hne, .inl ⟨rfl, rfl⟩⟩
    · exact ⟨rfl, rfl, rfl, hne, .inr ⟨hrunning, rfl⟩⟩
  · obtain ⟨package, sourceIds, user, type, id⟩ := q
    dsimp only
    rintro ⟨rfl, rfl, rfl, hne, ⟨rfl, rfl⟩ | ⟨hrunning, rfl⟩⟩
    · exact .inl ⟨hne, rfl⟩
    · exact .inr ⟨user, hrunning, hne, rfl⟩

theorem mem_requests_iff :
  q ∈ o.requests token ↔ ∃ b ∈ o.broadcasts, q ∈ o.requestsOf token b
  := List.mem_flatMap

/-- The requests of a broadcast are for different users. -/
theorem pairwise_requestsOf (hnormal : o.group.Normal) (token : BroadcastId) (b : Broadcast) :
  (o.requestsOf token b).Pairwise fun q r => q.userId ≠ r.userId
  := by
  rw [requestsOf, List.pairwise_append, List.pairwise_filterMap]
  refine ⟨?_, ?_, ?_⟩
  · cases o.request? token b.package o.group.parent b.forParent b.forParentOnPageOpen <;> simp
  · apply hnormal.nodup_running.imp
    intro user other hne q hq r hr
    rw [(request?_eq_some_iff.mp hq).2, (request?_eq_some_iff.mp hr).2]
    exact hne
  · intro q hq r hr
    obtain ⟨user, hrunning, hr⟩ := List.mem_filterMap.mp hr
    rw [(request?_eq_some_iff.mp (Option.mem_toList.mp hq)).2, (request?_eq_some_iff.mp hr).2]
    rintro rfl
    apply hnormal.parent_not_mem_running hrunning

/-- No two requests are for one package and one user. -/
theorem pairwise_requests (hnormal : o.group.Normal)
    (hpackages : (o.broadcasts.map (·.package)).Nodup) (token : BroadcastId) :
  (o.requests token).Pairwise fun q r => (q.package, q.userId) ≠ (r.package, r.userId)
  := by
  rw [requests, List.pairwise_flatMap]
  constructor
  · intro b _
    apply (pairwise_requestsOf hnormal token b).imp
    intro q r hne heq
    apply hne (Prod.ext_iff.mp heq).2
  · apply (List.pairwise_map.mp hpackages).imp
    intro b b' hne q hq r hr heq
    apply hne
    rw [← (mem_requestsOf_iff.mp hq).1, ← (mem_requestsOf_iff.mp hr).1]
    apply (Prod.ext_iff.mp heq).1

/-! ### What is asked -/

theorem mem_asks_iff {package : String} {key : SourceKey} :
  (package, key) ∈ q.asks
    ↔ q.package = package ∧ q.userId = key.userId ∧ key.sourceId ∈ q.sourceIds
  := by
  obtain ⟨sourceId, user⟩ := key
  simp only [RefreshRequest.asks, RefreshRequest.pairs, List.map_map, List.mem_map,
    Function.comp_apply, Prod.mk.injEq, SourceKey.mk.injEq]
  constructor
  · rintro ⟨id, hid, rfl, rfl, rfl⟩
    exact ⟨rfl, rfl, hid⟩
  · rintro ⟨rfl, rfl, hid⟩
    exact ⟨sourceId, hid, rfl, rfl, rfl⟩

/-- What is asked of a package is what one of its broadcasts lists for the user. -/
theorem mem_asks_requests_iff {package : String} {key : SourceKey} :
  (package, key) ∈ (o.requests token).flatMap (·.asks)
    ↔ ∃ b ∈ o.broadcasts, b.package = package
      ∧ (key.userId = o.group.parent
          ∧ key.sourceId ∈ o.asked key.userId b.forParent b.forParentOnPageOpen
        ∨ key.userId ∈ o.group.running
          ∧ key.sourceId ∈ o.asked key.userId b.forManaged b.forManagedOnPageOpen)
  := by
  simp only [List.mem_flatMap, mem_asks_iff, mem_requests_iff]
  constructor
  · rintro ⟨q, ⟨b, hb, hq⟩, rfl, huser, hid⟩
    obtain ⟨hpackage, -, -, -, hlisted⟩ := mem_requestsOf_iff.mp hq
    use b, hb, hpackage.symm
    rw [← huser]
    obtain ⟨hparent, hids⟩ | ⟨hrunning, hids⟩ := hlisted
    · exact .inl ⟨hparent, hids ▸ hid⟩
    · exact .inr ⟨hrunning, hids ▸ hid⟩
  · rintro ⟨b, hb, rfl, ⟨huser, hid⟩ | ⟨huser, hid⟩⟩
    · let q : RefreshRequest := {
        package := b.package, userId := key.userId, requestType := o.requestType
        sourceIds := o.asked key.userId b.forParent b.forParentOnPageOpen
        broadcastId := token }
      have hq : q ∈ o.requestsOf token b :=
        mem_requestsOf_iff.mpr ⟨rfl, rfl, rfl, List.ne_nil_of_mem hid, .inl ⟨huser, rfl⟩⟩
      exact ⟨q, ⟨b, hb, hq⟩, rfl, rfl, hid⟩
    · let q : RefreshRequest := {
        package := b.package, userId := key.userId, requestType := o.requestType
        sourceIds := o.asked key.userId b.forManaged b.forManagedOnPageOpen
        broadcastId := token }
      have hq : q ∈ o.requestsOf token b :=
        mem_requestsOf_iff.mpr ⟨rfl, rfl, rfl, List.ne_nil_of_mem hid, .inr ⟨huser, rfl⟩⟩
      exact ⟨q, ⟨b, hb, hq⟩, rfl, rfl, hid⟩

/-- Nothing is asked twice of a package whose lists have no repetition. -/
theorem nodup_asks_requests (hnormal : o.group.Normal)
    (hpackages : (o.broadcasts.map (·.package)).Nodup)
    (hlists : ∀ b ∈ o.broadcasts, b.forParent.Nodup ∧ b.forManaged.Nodup)
    (token : BroadcastId) :
  ((o.requests token).flatMap (·.asks)).Nodup
  := by
  rw [List.nodup_flatMap]
  constructor
  · intro q hq
    obtain ⟨b, hb, hq⟩ := mem_requests_iff.mp hq
    obtain ⟨hparent, hmanaged⟩ := hlists b hb
    obtain ⟨-, -, -, -, hlisted⟩ := mem_requestsOf_iff.mp hq
    have hids : q.sourceIds.Nodup := by
      obtain ⟨-, hids⟩ | ⟨-, hids⟩ := hlisted
      · rw [hids]
        apply hparent.filter
      · rw [hids]
        apply hmanaged.filter
    rw [RefreshRequest.asks, RefreshRequest.pairs, List.map_map]
    apply hids.map
    intro id id' heq
    simpa using heq
  · apply (pairwise_requests hnormal hpackages token).imp
    intro q r hne
    apply List.disjoint_left.mpr
    rintro ⟨package, key⟩ hq hr
    obtain ⟨hpackage, huser, -⟩ := mem_asks_iff.mp hq
    obtain ⟨hpackage', huser', -⟩ := mem_asks_iff.mp hr
    apply hne
    rw [hpackage, huser, hpackage', huser']

/-! ### Broadcasts of a catalog -/

/-- The sources asked of those that satisfy a condition, when the ones asked on opening the page
are those that satisfy another one too. -/
theorem mem_asked_iff {sources : List Source} (hnodup : (sources.map (·.id)).Nodup)
    (listed onPageOpen : Source → Bool) {user : UserId} {id : String} :
  id ∈ o.asked user ((sources.filter listed).map (·.id))
      ((sources.filter fun s => listed s && onPageOpen s).map (·.id))
    ↔ ∃ s ∈ sources, s.id = id ∧ listed s = true
      ∧ (o.reason = .pageOpen → onPageOpen s = true ∨ o.needsReport ⟨id, user⟩ = true)
  := by
  have unique {s t : Source} (hs : s ∈ sources) (ht : t ∈ sources) (h : s.id = t.id) : s = t :=
    List.inj_on_of_nodup_map hnodup hs ht h
  simp only [asked, List.mem_filter, List.mem_map, Bool.or_eq_true, bne_iff_ne,
    List.contains_iff_mem, Bool.and_eq_true]
  constructor
  · rintro ⟨⟨s, ⟨hs, hlisted⟩, rfl⟩, hasked⟩
    use s, hs, rfl, hlisted
    intro hreason
    obtain (hne | ⟨t, ⟨ht, -, hopen⟩, heq⟩) | hneeds := hasked
    · exact absurd hreason hne
    · rw [← unique ht hs heq]
      exact .inl hopen
    · exact .inr hneeds
  · rintro ⟨s, hs, rfl, hlisted, hasked⟩
    use ⟨s, ⟨hs, hlisted⟩, rfl⟩
    by_cases hreason : o.reason = .pageOpen
    · obtain hopen | hneeds := hasked hreason
      · exact .inl (.inr ⟨s, ⟨hs, hlisted, hopen⟩, rfl⟩)
      · exact .inr hneeds
    · exact .inl (.inl hreason)

theorem mem_asked_all_iff {sources : List Source} (hnodup : (sources.map (·.id)).Nodup)
    (onPageOpen : Source → Bool) {user : UserId} {id : String} :
  id ∈ o.asked user (sources.map (·.id)) ((sources.filter onPageOpen).map (·.id))
    ↔ ∃ s ∈ sources, s.id = id
      ∧ (o.reason = .pageOpen → onPageOpen s = true ∨ o.needsReport ⟨id, user⟩ = true)
  := by
  simpa using mem_asked_iff (o := o) hnodup (fun _ => true) onPageOpen

/-- Whether a source is to be asked for a user: it applies to the user and, when the page is
opened, it is asked on that occasion or must report. -/
def Due (o : RefreshOrder) (s : Source) (user : UserId) : Prop :=
  (user = o.group.parent ∨ s.appliesToManaged = true ∧ user ∈ o.group.running)
    ∧ (o.reason = .pageOpen → s.askedOnPageOpen = true ∨ o.needsReport ⟨s.id, user⟩ = true)

/-- A broadcast of a catalog reaches the sources of its package. -/
theorem mem_asked_of_catalog {c : Catalog} (hb : b ∈ c.broadcasts) {user : UserId} {id : String} :
  (user = o.group.parent ∧ id ∈ o.asked user b.forParent b.forParentOnPageOpen
      ∨ user ∈ o.group.running ∧ id ∈ o.asked user b.forManaged b.forManagedOnPageOpen)
    ↔ ∃ s ∈ c.sources, s.id = id ∧ s.package = some b.package ∧ o.Due s user
  := by
  have hnodup : ((c.sources.filter (·.package == some b.package)).map (·.id)).Nodup :=
    c.nodup_sourceIds.sublist (List.filter_sublist.map _)
  rw [(Broadcast.covers_ofSources c.sources).eq_reaching b hb]
  simp only [Broadcast.reaching, mem_asked_iff hnodup (·.appliesToManaged) (·.askedOnPageOpen),
    mem_asked_all_iff hnodup (·.askedOnPageOpen), List.mem_filter, beq_iff_eq, Due]
  constructor
  · rintro (⟨huser, s, ⟨hs, hpackage⟩, rfl, hasked⟩
      | ⟨hrunning, s, ⟨hs, hpackage⟩, rfl, hmanaged, hasked⟩)
    · exact ⟨s, hs, rfl, hpackage, .inl huser, hasked⟩
    · exact ⟨s, hs, rfl, hpackage, .inr ⟨hmanaged, hrunning⟩, hasked⟩
  · rintro ⟨s, hs, rfl, hpackage, huser | ⟨hmanaged, hrunning⟩, hasked⟩
    · exact .inl ⟨huser, s, ⟨hs, hpackage⟩, rfl, hasked⟩
    · exact .inr ⟨hrunning, s, ⟨hs, hpackage⟩, rfl, hmanaged, hasked⟩

/-- What is asked over the broadcasts of a catalog are the sources that are due. -/
theorem mem_asks_of_catalog {c : Catalog} (hcatalog : o.broadcasts = c.broadcasts)
    {package : String} {key : SourceKey} :
  (package, key) ∈ (o.requests token).flatMap (·.asks)
    ↔ ∃ s ∈ c.sources, s.id = key.sourceId ∧ s.isExternal = true ∧ s.package = some package
        ∧ o.Due s key.userId
  := by
  rw [mem_asks_requests_iff, hcatalog]
  constructor
  · rintro ⟨b, hb, rfl, hlisted⟩
    obtain ⟨s, hs, hid, hpackage, hdue⟩ := (mem_asked_of_catalog hb).mp hlisted
    have hexternal : s.isExternal = true := (Catalog.isSome_package_iff hs).mp (by simp [hpackage])
    exact ⟨s, hs, hid, hexternal, hpackage, hdue⟩
  · rintro ⟨s, hs, hid, -, hpackage, hdue⟩
    have hin : package ∈ c.broadcasts.map (·.package) :=
      ((Broadcast.covers_ofSources c.sources).mem_packages_iff package).mpr ⟨s, hs, hpackage⟩
    obtain ⟨b, hb, rfl⟩ := List.mem_map.mp hin
    use b, hb, rfl
    apply (mem_asked_of_catalog hb).mpr ⟨s, hs, hid, hpackage, hdue⟩

theorem nodup_asks_of_catalog {c : Catalog} (hnormal : o.group.Normal)
    (hcatalog : o.broadcasts = c.broadcasts) (token : BroadcastId) :
  ((o.requests token).flatMap (·.asks)).Nodup
  := by
  have hcovers := Broadcast.covers_ofSources c.sources
  apply nodup_asks_requests hnormal
  · rw [hcatalog]
    apply hcovers.nodup
  · intro b hb
    rw [hcatalog] at hb
    rw [hcovers.eq_reaching b hb]
    have hids (p : Source → Bool) : ((c.sources.filter p).map (·.id)).Nodup :=
      c.nodup_sourceIds.sublist (List.filter_sublist.map _)
    constructor
    · apply hids
    · apply (hids _).sublist (List.filter_sublist.map _)

theorem map_snd_asks (q : RefreshRequest) : q.asks.map (·.2) = q.pairs := by
  simp [RefreshRequest.asks, Function.comp_def]

/-- A catalog asks of one package only what a source reports for a user. -/
theorem nodup_pairs_of_catalog {c : Catalog} (hnormal : o.group.Normal)
    (hcatalog : o.broadcasts = c.broadcasts) (token : BroadcastId) :
  ((o.requests token).flatMap (·.pairs)).Nodup
  := by
  simp only [← map_snd_asks, ← List.map_flatMap]
  apply List.Nodup.map_on _ (nodup_asks_of_catalog hnormal hcatalog token)
  rintro ⟨package, key⟩ hasked ⟨package', key'⟩ hasked' rfl
  obtain ⟨s, hs, hid, -, hpackage, -⟩ := (mem_asks_of_catalog hcatalog).mp hasked
  obtain ⟨s', hs', hid', -, hpackage', -⟩ := (mem_asks_of_catalog hcatalog).mp hasked'
  obtain rfl := Catalog.eq_of_id_eq hs hs' (hid.trans hid'.symm)
  rw [Option.some_inj.mp (hpackage.symm.trans hpackage')]

end RefreshOrder

namespace RefreshTracker

variable {t : RefreshTracker} {digest : RefreshOrigin → String} {now : Instant} {o : RefreshOrder}

/-! ### What is waited for -/

theorem isPending_start_iff {key : SourceKey} :
  (t.start digest now o).2.isPending key = true
    ↔ key ∈ o.tracked (t.start digest now o).1.requests
  := by
  simp only [start, isPending]
  split
  next hnone => simp_all
  next => simp [RefreshInProgress.ofOrder]

theorem tracked_start (hnodup : (o.tracked (t.start digest now o).1.requests).Nodup) :
  (t.start digest now o).1.tracked = (o.tracked (t.start digest now o).1.requests).length
  := by
  apply ExtTreeSet.size_ofList
  apply hnodup.imp
  intro a b hne heq
  apply hne (LawfulEqOrd.eq_of_compare heq)

theorem isImmediate_start_iff_idle :
  (t.start digest now o).1.isImmediate = true ↔ (t.start digest now o).2.current = none
  := by
  have hprogress := isInProgress_start t digest now o
  rw [isInProgress] at hprogress
  rw [← Option.isNone_iff_eq_none, ← Option.not_isSome, hprogress, Bool.not_not]

/-! ### A refresh over the broadcasts of a catalog -/

/-- A refresh that is started over the broadcasts of a catalog, for a parent and its members:
every source that is due is asked, of its package, once for each user that it is due for, and
nothing else is asked.  No request is empty, none has the package and the user of another, and
all carry the token and the request type.  The pairs that are waited for are those asked whose
source is not untracked; they are counted, and if there are none no refresh is in flight. -/
theorem start_over_catalog (t : RefreshTracker) (digest : RefreshOrigin → String) (now : Instant)
    (c : Catalog) (parent : UserId) (members : List (UserId × Bool)) (reason : RefreshReason)
    (requestType : RequestType) (untracked : SourceIds) (needsReport : SourceKey → Bool) :
  let group := ProfileGroup.ofMembers parent members
  let order : RefreshOrder :=
    { reason, requestType, group, broadcasts := c.broadcasts, untracked, needsReport }
  let plan := (t.start digest now order).1
  let after := (t.start digest now order).2
  let waited := (plan.requests.flatMap (·.pairs)).filter (!untracked.contains ·.sourceId)
  (plan.requests.flatMap (·.asks)).Nodup
    ∧ (∀ package key, (package, key) ∈ plan.requests.flatMap (·.asks)
        ↔ ∃ s ∈ c.sources, s.id = key.sourceId ∧ s.isExternal = true ∧ s.package = some package
          ∧ (key.userId = group.parent
            ∨ s.appliesToManaged = true ∧ key.userId ∈ group.running)
          ∧ (reason = .pageOpen → s.askedOnPageOpen = true ∨ needsReport key = true))
    ∧ (∀ q ∈ plan.requests,
        q.sourceIds ≠ [] ∧ q.broadcastId = plan.id ∧ q.requestType = requestType)
    ∧ (plan.requests.map fun q => (q.package, q.userId)).Nodup
    ∧ waited.Nodup
    ∧ (∀ key, after.isPending key = true ↔ key ∈ waited)
    ∧ plan.tracked = waited.length
    ∧ (plan.isImmediate = true ↔ waited = [])
    ∧ (plan.isImmediate = true ↔ after.current = none)
    ∧ ∀ r, after.current = some r → r.id = plan.id ∧ r.reason = reason
        ∧ r.requestType = requestType ∧ r.group = group
  := by
  intro group order plan after waited
  have hnormal : order.group.Normal := ProfileGroup.normal_ofMembers parent members
  have hcatalog : order.broadcasts = c.broadcasts := rfl
  have hwaited : (order.tracked plan.requests).Nodup :=
    (RefreshOrder.nodup_pairs_of_catalog hnormal hcatalog plan.id).filter _
  refine ⟨?asked_once, ?asked, ?requests, ?packages, hwaited, ?pending, ?counted, ?immediate,
    ?idle, ?inFlight⟩
  case asked_once =>
    apply RefreshOrder.nodup_asks_of_catalog hnormal hcatalog
  case asked =>
    intro package key
    apply (RefreshOrder.mem_asks_of_catalog hcatalog).trans
    constructor
    · rintro ⟨s, hs, hid, hexternal, hpackage, huser, hasked⟩
      use s, hs, hid, hexternal, hpackage, huser
      rwa [hid] at hasked
    · rintro ⟨s, hs, hid, hexternal, hpackage, huser, hasked⟩
      use s, hs, hid, hexternal, hpackage, huser
      rwa [hid]
  case requests =>
    intro q hq
    obtain ⟨b, -, hq⟩ := RefreshOrder.mem_requests_iff.mp hq
    obtain ⟨-, htype, hid, hne, -⟩ := RefreshOrder.mem_requestsOf_iff.mp hq
    exact ⟨hne, hid, htype⟩
  case packages =>
    rw [List.nodup_iff_pairwise_ne, List.pairwise_map]
    apply RefreshOrder.pairwise_requests hnormal
    apply (Broadcast.covers_ofSources c.sources).nodup
  case pending =>
    intro key
    apply isPending_start_iff
  case counted =>
    apply tracked_start hwaited
  case immediate =>
    apply isImmediate_start_iff
  case idle =>
    apply isImmediate_start_iff_idle
  case inFlight =>
    intro r hr
    apply order_of_current_start hr

end RefreshTracker

end SafetyHub
