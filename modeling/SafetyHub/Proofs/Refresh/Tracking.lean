import SafetyHub.Refresh.Tracker
import SafetyHub.Proofs.Basic

/-!
# What a tracker keeps

The pending pairs of the refresh in flight are the ones whose state is `PairState.pending`, and
there are some: `RefreshInProgress.Sound`.  `RefreshTracker.retire` is described by two cases, a
pair that is waited for under the token given and any other.  `RefreshTracker.run` makes a list
of calls on a tracker; what one call keeps, a run keeps.
-/

namespace SafetyHub

open Std

/-- The pending pairs are the pairs whose state is pending, and there are some. -/
structure RefreshInProgress.Sound (r : RefreshInProgress) : Prop where
  pending_ne_empty : r.pending ≠ ∅
  mem_pending_iff : ∀ key, key ∈ r.pending ↔ r.state? key = some .pending

namespace PairState

theorem mayBecome_iff {s target : PairState} :
  s.mayBecome target = true ↔ s = .pending ∧ target.isFinal = true
  := by
  cases s <;> cases target <;> decide

end PairState

namespace RefreshInProgress

theorem state?_settle (r : RefreshInProgress) (key k : SourceKey) (target : PairState) :
  (r.settle key target).state? k = if k = key then some target else r.state? k
  := by
  simp only [state?, settle, ExtTreeMap.getElem?_insert, LawfulEqCmp.compare_eq_iff_eq,
    eq_comm (a := k)]

theorem mem_pending_settle {r : RefreshInProgress} {key k : SourceKey} {target : PairState} :
  k ∈ (r.settle key target).pending ↔ k ≠ key ∧ k ∈ r.pending
  := by
  simp [settle, eq_comm (a := k)]

theorem isSome_state?_settle {r : RefreshInProgress} {key : SourceKey} (h : r.Sound)
    (hkey : key ∈ r.pending) (k : SourceKey) (target : PairState) :
  ((r.settle key target).state? k).isSome = (r.state? k).isSome
  := by
  rw [state?_settle]
  split
  next hk =>
    rw [hk, (h.mem_pending_iff key).mp hkey]
    rfl
  next => rfl

theorem Sound.settle {r : RefreshInProgress} {key : SourceKey} {target : PairState}
    (h : r.Sound) (final : target.isFinal = true)
    (rest : (r.settle key target).pending ≠ ∅) :
  (r.settle key target).Sound
  where
  pending_ne_empty := rest
  mem_pending_iff k := by
    rw [mem_pending_settle, state?_settle, h.mem_pending_iff]
    by_cases hk : k = key
    · have : target ≠ .pending := by simpa [PairState.isFinal] using final
      simp [hk, this]
    · simp [hk]

theorem state?_ofOrder (o : RefreshOrder) (id : BroadcastId) (pending : ExtTreeSet SourceKey)
    (key : SourceKey) :
  (ofOrder o id pending).state? key = if key ∈ pending then some .pending else none
  := by
  have distinct : (pending.toList.map (·, PairState.pending)).Pairwise
      fun a b => ¬ compare a.1 b.1 = .eq := by
    rw [List.pairwise_map]
    apply pending.distinct_toList
  simp only [state?, ofOrder]
  split
  next hkey =>
    have self : compare key key = .eq := ReflCmp.compare_self
    apply ExtTreeMap.getElem?_ofList_of_mem self distinct
    apply List.mem_map_of_mem (ExtTreeSet.mem_toList.mpr hkey)
  next hkey =>
    apply ExtTreeMap.getElem?_ofList_of_contains_eq_false
    simpa [Function.comp_def] using hkey

theorem Sound.ofOrder {o : RefreshOrder} {id : BroadcastId} {pending : ExtTreeSet SourceKey}
    (h : pending ≠ ∅) :
  (ofOrder o id pending).Sound
  where
  pending_ne_empty := h
  mem_pending_iff key := by
    rw [state?_ofOrder]
    simp [RefreshInProgress.ofOrder]

end RefreshInProgress

namespace RefreshTracker

/-! ### Retiring a pair -/

theorem withId?_eq_some_iff {t : RefreshTracker} {id : BroadcastId} {r : RefreshInProgress} :
  t.withId? id = some r ↔ t.current = some r ∧ r.id = id
  := by
  simp [withId?, Option.filter_eq_some_iff]

/-- Whether a tracker waits for a pair under a token. -/
def Awaits (t : RefreshTracker) (key : SourceKey) (id : BroadcastId) : Prop :=
  ∃ r, t.current = some r ∧ r.id = id ∧ key ∈ r.pending

/-- The refresh in flight, if there is one, is sound. -/
def Sound (t : RefreshTracker) : Prop :=
  ∀ r, t.current = some r → r.Sound

theorem retire_of_awaits {t : RefreshTracker} {r : RefreshInProgress} {key : SourceKey}
    {target : PairState} (h : r.Sound) (hr : t.current = some r) (hkey : key ∈ r.pending)
    (final : target.isFinal = true) :
  t.retire key r.id target =
    if (r.settle key target).pending.isEmpty then (true, { t with current := none })
    else (false, { t with current := some (r.settle key target) })
  := by
  have hstate := (h.mem_pending_iff key).mp hkey
  have hid : t.withId? r.id = some r := withId?_eq_some_iff.mpr ⟨hr, rfl⟩
  have hmay : PairState.pending.mayBecome target = true :=
    PairState.mayBecome_iff.mpr ⟨rfl, final⟩
  simp only [retire, hid, hstate, hmay, if_true]

theorem retire_of_not_awaits {t : RefreshTracker} {key : SourceKey} {id : BroadcastId}
    {target : PairState} (h : t.Sound) (idle : ¬ t.Awaits key id) :
  t.retire key id target = (false, t)
  := by
  cases hid : t.withId? id with
  | none => simp [retire, hid]
  | some r =>
    obtain ⟨hr, rfl⟩ := withId?_eq_some_iff.mp hid
    cases hstate : r.state? key with
    | none => simp [retire, hid, hstate]
    | some state =>
      have hne : state ≠ .pending := by
        rintro rfl
        apply idle
        exact ⟨r, hr, rfl, ((h r hr).mem_pending_iff key).mpr hstate⟩
      have hmay : ¬ state.mayBecome target = true :=
        fun hmay => hne (PairState.mayBecome_iff.mp hmay).1
      simp [retire, hid, hstate, hmay]

/-- Retiring a pair leaves the tracker as it is, or it moves the pair and ends the refresh when
no pair is pending any more. -/
theorem retire_cases {t : RefreshTracker} (h : t.Sound) (key : SourceKey) (id : BroadcastId)
    {target : PairState} (final : target.isFinal = true) :
  (¬ t.Awaits key id ∧ t.retire key id target = (false, t))
    ∨ ∃ r, t.current = some r ∧ r.id = id ∧ key ∈ r.pending ∧
      (((r.settle key target).pending = ∅ ∧
          t.retire key id target = (true, { t with current := none }))
        ∨ ((r.settle key target).pending ≠ ∅ ∧
          t.retire key id target = (false, { t with current := some (r.settle key target) })))
  := by
  by_cases idle : t.Awaits key id
  · right
    obtain ⟨r, hr, rfl, hkey⟩ := idle
    use r, hr, rfl, hkey
    rw [retire_of_awaits (h r hr) hr hkey final]
    by_cases hrest : (r.settle key target).pending = ∅
    · left
      simp [hrest]
    · right
      simp [hrest]
  · left
    exact ⟨idle, retire_of_not_awaits h idle⟩

theorem Sound.of_idle {t : RefreshTracker} (h : t.current = none) : t.Sound := by
  intro r hr
  rw [h] at hr
  cases hr

theorem Sound.retire {t : RefreshTracker} (h : t.Sound) (key : SourceKey) (id : BroadcastId)
    {target : PairState} (final : target.isFinal = true) :
  (t.retire key id target).2.Sound
  := by
  obtain ⟨-, heq⟩ | ⟨r, hr, -, -, ⟨-, heq⟩ | ⟨hrest, heq⟩⟩ := retire_cases h key id final
  · rw [heq]
    apply h
  · rw [heq]
    exact .of_idle rfl
  · rw [heq]
    intro s hs
    cases hs
    apply (h r hr).settle final hrest

theorem Sound.clearForUser {t : RefreshTracker} (h : t.Sound) (user : UserId) :
  (t.clearForUser user).2.Sound
  := by
  unfold RefreshTracker.clearForUser
  split
  · exact .of_idle rfl
  · exact h

/-! ### Timing out all pairs -/

/-- Timing out the pending pairs one after the other ends the refresh. -/
theorem foldl_timeOut {keys : List SourceKey} {t : RefreshTracker} {r : RefreshInProgress}
    (h : r.Sound) (hr : t.current = some r) (nodup : keys.Nodup)
    (hkeys : ∀ key, key ∈ r.pending ↔ key ∈ keys) :
  keys.foldl (fun t key => (t.timeOut key r.id).2) t = { t with current := none }
  := by
  induction keys generalizing t r with
  | nil =>
    obtain ⟨key, hkey⟩ := exists_mem_of_ne_empty h.pending_ne_empty
    exact absurd ((hkeys key).mp hkey) List.not_mem_nil
  | cons key rest ih =>
    obtain ⟨hnot, nodup⟩ := List.nodup_cons.mp nodup
    have hkey : key ∈ r.pending := (hkeys key).mpr List.mem_cons_self
    have hrest (k : SourceKey) : k ∈ (r.settle key .timedOut).pending ↔ k ∈ rest := by
      rw [RefreshInProgress.mem_pending_settle, hkeys, List.mem_cons]
      constructor
      · rintro ⟨hne, rfl | hk⟩
        · contradiction
        · apply hk
      · intro hk
        exact ⟨fun heq => hnot (heq ▸ hk), .inr hk⟩
    have final : PairState.timedOut.isFinal = true := rfl
    rw [List.foldl_cons, timeOut, retire_of_awaits h hr hkey final]
    by_cases hlast : (r.settle key .timedOut).pending = ∅
    · have : rest = [] := by
        apply List.eq_nil_iff_forall_not_mem.mpr
        intro k hk
        rw [← hrest, hlast] at hk
        apply ExtTreeSet.not_mem_empty hk
      simp [hlast, this]
    · rw [if_neg (by simpa using hlast)]
      apply ih (r := r.settle key .timedOut) (h.settle rfl hlast) rfl nodup hrest

theorem timeOutAll_of_current {t : RefreshTracker} {r : RefreshInProgress} (h : r.Sound)
    (hr : t.current = some r) :
  t.timeOutAll r.id = (r.pending.toList, { t with current := none })
  := by
  have hid : t.withId? r.id = some r := withId?_eq_some_iff.mpr ⟨hr, rfl⟩
  simp only [timeOutAll, hid]
  rw [foldl_timeOut h hr (nodup_toList r.pending) fun key => ExtTreeSet.mem_toList.symm]

theorem timeOutAll_of_ne {t : RefreshTracker} {id : BroadcastId}
    (h : ∀ r, t.current = some r → r.id ≠ id) :
  t.timeOutAll id = ([], t)
  := by
  have hid : t.withId? id = none := by
    simpa [withId?, Option.filter_eq_none_iff] using h
  simp [timeOutAll, hid]

/-! ### Starting -/

/-- A refresh that is in flight once it is started waits for the pairs that are tracked, all of
them pending. -/
theorem current_start {t : RefreshTracker} {digest : RefreshOrigin → String} {now : Instant}
    {o : RefreshOrder} {r : RefreshInProgress}
    (h : (t.start digest now o).2.current = some r) :
  r.Sound ∧ r.id = (t.start digest now o).1.id
    ∧ ∀ key, r.state? key = if key ∈ o.tracked (o.requests r.id) then some .pending else none
  := by
  simp only [start, Option.ite_none_left_eq_some] at h
  obtain ⟨hne, h⟩ := h
  cases h
  constructor
  · apply RefreshInProgress.Sound.ofOrder
    simpa using hne
  · use rfl
    intro key
    rw [RefreshInProgress.state?_ofOrder]
    simp only [ExtTreeSet.mem_ofList, List.contains_iff_mem]
    congr

/-- A refresh that is in flight once it is started has the token that was answered and is for
what was ordered. -/
theorem order_of_current_start {t : RefreshTracker} {digest : RefreshOrigin → String}
    {now : Instant} {o : RefreshOrder} {r : RefreshInProgress}
    (h : (t.start digest now o).2.current = some r) :
  r.id = (t.start digest now o).1.id ∧ r.reason = o.reason ∧ r.requestType = o.requestType
    ∧ r.group = o.group
  := by
  simp only [start, Option.ite_none_left_eq_some] at h
  obtain ⟨-, h⟩ := h
  cases h
  exact ⟨rfl, rfl, rfl, rfl⟩

/-- A refresh is in flight once it is started, unless there is nothing to wait for. -/
theorem isInProgress_start (t : RefreshTracker) (digest : RefreshOrigin → String)
    (now : Instant) (o : RefreshOrder) :
  (t.start digest now o).2.isInProgress = !(t.start digest now o).1.isImmediate
  := by
  simp only [start, isInProgress]
  split <;> simp_all

theorem isImmediate_start_iff {t : RefreshTracker} {digest : RefreshOrigin → String}
    {now : Instant} {o : RefreshOrder} :
  (t.start digest now o).1.isImmediate = true
    ↔ o.tracked (o.requests (t.start digest now o).1.id) = []
  := by
  simp [start]

end RefreshTracker

/-! ### The order of answers -/

namespace RefreshInProgress

attribute [ext] RefreshInProgress

theorem settle_comm {key key' : SourceKey} (hne : key ≠ key') (r : RefreshInProgress)
    (target target' : PairState) :
  (r.settle key target).settle key' target' = (r.settle key' target').settle key target
  := by
  have hstates (k : SourceKey) : ((r.settle key target).settle key' target').state? k
      = ((r.settle key' target').settle key target).state? k := by
    simp only [state?_settle]
    by_cases hk : k = key'
    · rw [if_pos hk, if_neg (hk ▸ hne.symm), if_pos hk]
    · simp only [if_neg hk]
  have hpending (k : SourceKey) : k ∈ ((r.settle key target).settle key' target').pending
      ↔ k ∈ ((r.settle key' target').settle key target).pending := by
    simp only [mem_pending_settle, and_left_comm]
  ext1
  all_goals first | rfl | skip
  · exact ExtTreeMap.ext_getElem? fun {k} => hstates k
  · exact ExtTreeSet.ext_mem fun {k} => hpending k

/-- Whether a pair may move to a state under a token. -/
def mayRetire (r : RefreshInProgress) (key : SourceKey) (id : BroadcastId) (target : PairState) :
    Bool :=
  r.id == id && (r.state? key).any (·.mayBecome target)

theorem mayRetire_settle {key key' : SourceKey} (hne : key ≠ key') (r : RefreshInProgress)
    (target : PairState) (id : BroadcastId) (target' : PairState) :
  (r.settle key target).mayRetire key' id target' = r.mayRetire key' id target'
  := by
  rw [mayRetire, state?_settle, if_neg hne.symm]
  rfl

/-- What is left of a refresh when a pair is to move to a state: nothing when no pair is pending
any more. -/
def retired? (r : RefreshInProgress) (key : SourceKey) (id : BroadcastId) (target : PairState) :
    Option RefreshInProgress :=
  if r.mayRetire key id target then
    if (r.settle key target).pending.isEmpty then none else some (r.settle key target)
  else some r

/-- A refresh that ends with one pair ends with another one too when both have moved. -/
theorem isEmpty_pending_settle {r : RefreshInProgress} {key : SourceKey} {target : PairState}
    (h : (r.settle key target).pending.isEmpty = true) (key' : SourceKey) (target' : PairState) :
  ((r.settle key target).settle key' target').pending.isEmpty = true
  := by
  rw [ExtTreeSet.isEmpty_iff] at h ⊢
  rw [settle, h]
  apply ExtTreeSet.erase_empty

theorem retired?_comm {key key' : SourceKey} (hne : key ≠ key') (r : RefreshInProgress)
    (id id' : BroadcastId) (target target' : PairState) :
  (r.retired? key id target).bind (·.retired? key' id' target')
    = (r.retired? key' id' target').bind (·.retired? key id target)
  := by
  have both {key key' : SourceKey} (hne : key ≠ key') {id id' : BroadcastId}
      {target target' : PairState} (h : r.mayRetire key id target = true)
      (h' : r.mayRetire key' id' target' = true) :
      (r.retired? key id target).bind (·.retired? key' id' target')
        = if ((r.settle key target).settle key' target').pending.isEmpty then none
          else some ((r.settle key target).settle key' target') := by
    rw [retired?, if_pos h]
    by_cases hlast : (r.settle key target).pending.isEmpty = true
    · rw [if_pos hlast, if_pos (isEmpty_pending_settle hlast key' target')]
      rfl
    · rw [if_neg hlast, Option.bind_some, retired?, mayRetire_settle hne, if_pos h']
  have one {key key' : SourceKey} (hne : key ≠ key') {id id' : BroadcastId}
      {target target' : PairState} (h' : ¬ r.mayRetire key' id' target' = true) :
      (r.retired? key id target).bind (·.retired? key' id' target')
        = (r.retired? key' id' target').bind (·.retired? key id target) := by
    have idle (rest : RefreshInProgress) (hrest : rest.mayRetire key' id' target'
        = r.mayRetire key' id' target') : rest.retired? key' id' target' = some rest := by
      rw [retired?, hrest, if_neg h']
    rw [idle r rfl, Option.bind_some, retired?]
    split
    · split
      · rfl
      · exact idle _ (mayRetire_settle hne r target id' target')
    · exact idle r rfl
  by_cases h : r.mayRetire key id target = true
  · by_cases h' : r.mayRetire key' id' target' = true
    · rw [both hne h h', both hne.symm h' h, settle_comm hne]
    · exact one hne h'
  · exact (one hne.symm h).symm

end RefreshInProgress

namespace RefreshTracker

theorem snd_retire (t : RefreshTracker) (key : SourceKey) (id : BroadcastId)
    (target : PairState) :
  (t.retire key id target).2 = { t with current := t.current.bind (·.retired? key id target) }
  := by
  obtain ⟨started, current⟩ := t
  cases current with
  | none => rfl
  | some r =>
    simp only [retire, withId?, Option.filter_some, Option.bind_some,
      RefreshInProgress.retired?, RefreshInProgress.mayRetire]
    by_cases hid : (r.id == id) = true
    · simp only [hid, if_true, Bool.true_and]
      cases r.state? key with
      | none => rfl
      | some state =>
        rw [Option.any_some]
        dsimp only
        split
        · split <;> rfl
        · rfl
    · simp [hid]

/-- Retiring one pair and another does not depend on the order. -/
theorem retire_comm {key key' : SourceKey} (hne : key ≠ key') (t : RefreshTracker)
    (id id' : BroadcastId) (target target' : PairState) :
  ((t.retire key id target).2.retire key' id' target').2
    = ((t.retire key' id' target').2.retire key id target).2
  := by
  simp only [snd_retire, Option.bind_assoc]
  congr 2
  funext r
  exact RefreshInProgress.retired?_comm hne r id id' target target'

end RefreshTracker

end SafetyHub
