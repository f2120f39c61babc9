import SafetyHub.Proofs.Refresh.Lifecycle
import Mathlib.Data.List.TakeWhile

/-!
# Tokens of refreshes

The token of a refresh begins with the number of its start, and the dash after it sets the
number apart from the digest.  So two starts of a run never give the same token, whatever the
digest is.  The refresh in flight has the token of the last start; once a refresh is replaced,
completed or cleared, nothing is done under its token any more.
-/

namespace SafetyHub

namespace RefreshOrigin

theorem toList_broadcastId (digest : RefreshOrigin → String) (o : RefreshOrigin) :
  (broadcastId digest o).text.toList
    = Nat.toDigits 10 o.number ++ '-' :: (digest o).toList.take 12
  := by
  simp [broadcastId]
  rfl

/-- The characters of a token before its first dash are the digits of the number. -/
theorem takeWhile_broadcastId (digest : RefreshOrigin → String) (o : RefreshOrigin) :
  (broadcastId digest o).text.toList.takeWhile Char.isDigit = Nat.toDigits 10 o.number
  := by
  have digits : ∀ c ∈ Nat.toDigits 10 o.number, c.isDigit = true :=
    fun _ hc => Nat.isDigit_of_mem_toDigits (by decide) (by decide) hc
  have dash : ('-' :: (digest o).toList.take 12).takeWhile Char.isDigit = [] := rfl
  rw [toList_broadcastId, List.takeWhile_append_of_pos digits, dash, List.append_nil]

/-- Refreshes with the same token have the same number. -/
theorem number_eq_of_broadcastId_eq {digest : RefreshOrigin → String} {o o' : RefreshOrigin}
    (h : broadcastId digest o = broadcastId digest o') :
  o.number = o'.number
  := by
  have same : Nat.toDigits 10 o.number = Nat.toDigits 10 o'.number := by
    rw [← takeWhile_broadcastId digest, ← takeWhile_broadcastId digest, h]
  calc o.number
      = Nat.ofDigitChars 10 (Nat.toDigits 10 o.number) 0 :=
        (Nat.ofDigitChars_toDigits (by decide) (by decide)).symm
    _ = o'.number := by
        rw [same, Nat.ofDigitChars_toDigits (by decide) (by decide)]

end RefreshOrigin

namespace RefreshTracker

variable {digest : RefreshOrigin → String}

/-! ### Numbers of starts -/

theorem started_retire (t : RefreshTracker) (key : SourceKey) (id : BroadcastId)
    (target : PairState) :
  (t.retire key id target).2.started = t.started
  := by
  unfold retire
  split
  next => rfl
  next =>
    split
    next => rfl
    next =>
      dsimp only
      split
      next =>
        split
        next => rfl
        next => rfl
      next => rfl

theorem started_timeOutAll (t : RefreshTracker) (id : BroadcastId) :
  (t.timeOutAll id).2.started = t.started
  := by
  unfold timeOutAll
  split
  next => rfl
  next r _ =>
    apply List.foldlRecOn (motive := fun t' : RefreshTracker => t'.started = t.started) _ _ rfl
    intro t' ih key _
    exact (started_retire t' key id .timedOut).trans ih

/-- Of all calls only the starts are counted. -/
theorem started_perform (t : RefreshTracker) (c : TrackerCall) :
  (t.perform digest c).started = t.started + if c.isStart then 1 else 0
  := by
  cases c with
  | start now o => rfl
  | answer a =>
    rw [perform, answer_eq_retire]
    apply started_retire
  | timeOutAll id => apply started_timeOutAll
  | clear id =>
    rw [perform, clear]
    split <;> rfl
  | clearAll => rfl
  | clearForUser user =>
    rw [perform, clearForUser]
    split <;> rfl

theorem run_append (calls more : List TrackerCall) :
  run digest (calls ++ more) = more.foldl (perform digest) (run digest calls)
  := List.foldl_append

theorem run_concat (calls : List TrackerCall) (c : TrackerCall) :
  run digest (calls ++ [c]) = (run digest calls).perform digest c
  := run_append calls [c]

/-- The number of a tracker is the number of starts so far. -/
theorem started_run (calls : List TrackerCall) :
  (run digest calls).started = calls.countP (·.isStart)
  := by
  induction calls using List.reverseRecOn with
  | nil => rfl
  | append_singleton calls c ih =>
    rw [run_concat, started_perform, ih, List.countP_append, List.countP_singleton]

/-- The token of a start has the number of starts up to it. -/
theorem number_of_token {before before' : List TrackerCall} {now now' : Instant}
    {o o' : RefreshOrder}
    (h : ((run digest before).start digest now o).1.id
      = ((run digest before').start digest now' o').1.id) :
  before.countP (·.isStart) = before'.countP (·.isStart)
  := by
  have number := RefreshOrigin.number_eq_of_broadcastId_eq h
  simpa only [started_run, Nat.add_right_cancel_iff] using number

/-! ### Refreshes that are out of flight -/

theorem isInProgress_eq_false_iff {t : RefreshTracker} :
  t.isInProgress = false ↔ t.current = none
  := by
  simp [isInProgress]

/-- Whether a call says that it replaces, completes or clears the refresh in flight. -/
def ends (t : RefreshTracker) : TrackerCall → Bool
  | .start _ _ => true
  | .answer a => (t.answer a).1
  | .timeOutAll id => !(t.timeOutAll id).1.isEmpty
  | .clear id => (t.clear id).1
  | .clearAll => t.clearAll.1.isSome
  | .clearForUser user => (t.clearForUser user).1.isSome

/-- A call that completes or clears the refresh in flight leaves none. -/
theorem current_perform_of_ends {t : RefreshTracker} (h : t.Sound) {c : TrackerCall}
    (hc : c.isStart = false) (hends : t.ends c = true) :
  (t.perform digest c).current = none
  := by
  cases c with
  | start now o => cases hc
  | answer a =>
    obtain ⟨-, hover⟩ := (answer_ends_iff_isInProgress h a).mp hends
    exact isInProgress_eq_false_iff.mp hover
  | timeOutAll id =>
    by_cases hid : ∃ r, t.current = some r ∧ r.id = id
    · obtain ⟨r, hr, rfl⟩ := hid
      rw [perform, timeOutAll_of_current (h r hr) hr]
    · have hother := timeOutAll_of_ne fun r hr heq => hid ⟨r, hr, heq⟩
      simp [ends, hother] at hends
  | clear id =>
    rw [perform, clear]
    split
    next => rfl
    next hid => simp [ends, clear, hid] at hends
  | clearAll => rfl
  | clearForUser user =>
    rw [perform, clearForUser]
    split
    next => rfl
    next hid => simp [ends, clearForUser, hid] at hends

/-- Where no refresh is in flight, none comes to be without a start. -/
theorem current_foldl_of_idle {t : RefreshTracker} (h : t.current = none)
    {calls : List TrackerCall} (hcalls : ∀ c ∈ calls, c.isStart = false) :
  (calls.foldl (perform digest) t).current = none
  := by
  apply List.foldlRecOn (motive := fun t' : RefreshTracker => t'.current = none) _ _ h
  intro t' idle c hc
  by_contra hgoing
  obtain ⟨r', hr'⟩ := Option.ne_none_iff_exists'.mp hgoing
  obtain ⟨r, hr, -⟩ := perform_of_not_start (.of_idle idle) digest (hcalls c hc) hr'
  rw [idle] at hr
  cases hr

theorem sound_run (calls : List TrackerCall) : (run digest calls).Sound :=
  fun _ hr => (current_run hr).1

/-- Once another refresh has been started, the refresh in flight has another token. -/
theorem id_ne_of_replaced {before after : List TrackerCall} {now : Instant} {o : RefreshOrder}
    (hstart : ∃ c ∈ after, c.isStart = true) {r : RefreshInProgress}
    (hr : (run digest (before ++ .start now o :: after)).current = some r) :
  r.id ≠ ((run digest before).start digest now o).1.id
  := by
  obtain ⟨-, before', now', o', after', hcalls, hlast, hid, -⟩ := current_run hr
  rw [hid]
  intro heq
  -- all starts but one come before the last one, and one of `after` comes after the given one
  have hcount := congrArg (List.countP (·.isStart)) hcalls
  have hnone : after'.countP (·.isStart) = 0 :=
    List.countP_eq_zero.mpr fun c hc => Bool.eq_false_iff.mp (hlast c hc)
  have hsome : 0 < after.countP (·.isStart) := List.countP_pos_iff.mpr hstart
  have hsame := number_of_token heq
  have counted (before after : List TrackerCall) (now : Instant) (o : RefreshOrder) :
      (before ++ .start now o :: after).countP (·.isStart)
        = before.countP (·.isStart) + (after.countP (·.isStart) + 1) := by
    rw [List.countP_append, List.countP_cons_of_pos rfl]
  rw [counted, counted] at hcount
  omega

/-- A refresh that has been replaced, completed or cleared is never in flight again. -/
theorem withId?_of_ended {before between rest : List TrackerCall} {now : Instant}
    {o : RefreshOrder} {c : TrackerCall}
    (hends : (run digest (before ++ .start now o :: between)).ends c = true) :
  (run digest (before ++ .start now o :: (between ++ c :: rest))).withId?
      ((run digest before).start digest now o).1.id = none
  := by
  rw [Option.eq_none_iff_forall_ne_some]
  intro r hr
  obtain ⟨hr, hid⟩ := withId?_eq_some_iff.mp hr
  by_cases hstart : ∃ c' ∈ c :: rest, c'.isStart = true
  · obtain ⟨c', hc', hstart⟩ := hstart
    exact id_ne_of_replaced ⟨c', List.mem_append_right _ hc', hstart⟩ hr hid
  · have hothers : ∀ c' ∈ c :: rest, c'.isStart = false := by simpa using hstart
    obtain ⟨hc, hrest⟩ := List.forall_mem_cons.mp hothers
    have hidle :
        ((run digest (before ++ .start now o :: between)).perform digest c).current = none :=
      current_perform_of_ends (sound_run _) hc hends
    have hsplit : before ++ TrackerCall.start now o :: (between ++ c :: rest)
        = (before ++ .start now o :: between) ++ c :: rest := by
      simp
    rw [hsplit, run_append, List.foldl_cons, current_foldl_of_idle hidle hrest] at hr
    cases hr

/-- A refresh that has nothing to wait for is never in flight. -/
theorem withId?_of_immediate {before after : List TrackerCall} {now : Instant}
    {o : RefreshOrder}
    (himmediate : ((run digest before).start digest now o).1.isImmediate = true) :
  (run digest (before ++ .start now o :: after)).withId?
      ((run digest before).start digest now o).1.id = none
  := by
  rw [Option.eq_none_iff_forall_ne_some]
  intro r hr
  obtain ⟨hr, hid⟩ := withId?_eq_some_iff.mp hr
  by_cases hstart : ∃ c ∈ after, c.isStart = true
  · exact id_ne_of_replaced hstart hr hid
  · have hothers : ∀ c ∈ after, c.isStart = false := by simpa using hstart
    have hprogress := isInProgress_start (run digest before) digest now o
    rw [himmediate] at hprogress
    have hidle := isInProgress_eq_false_iff.mp hprogress
    rw [run_append, List.foldl_cons, perform, current_foldl_of_idle hidle hothers] at hr
    cases hr

/-- Nothing is done under a token other than that of the refresh in flight. -/
theorem ignores_of_withId? {t : RefreshTracker} {id : BroadcastId} (h : t.withId? id = none)
    (key : SourceKey) :
  t.complete key id = (false, t) ∧ t.fail key id = (false, t) ∧ t.timeOut key id = (false, t)
    ∧ t.timeOutAll id = ([], t) ∧ t.clear id = (false, t)
  := by
  have hretire (target : PairState) : t.retire key id target = (false, t) := by
    simp [retire, h]
  refine ⟨hretire _, hretire _, hretire _, ?_, ?_⟩
  · simp [timeOutAll, h]
  · simp [clear, h]

/-- Answers to an abandoned refresh have no effect.  The starts of a run are counted one by one,
so that fewer than `2 ^ 64` of them never exhaust a counter of 64 bits, and whatever the digests
and the readings of the clock are, two starts give two tokens.  Once the refresh of a start has
nothing to wait for, or a call has replaced, completed or cleared it, everything that is said
under its token is refused and leaves the tracker as it is, whatever is in flight by then. -/
theorem abandoned_refresh_ignored (digest : RefreshOrigin → String) :
  (∀ calls, (run digest calls).started = calls.countP (·.isStart))
  ∧ (∀ before now o between now' o',
    ((run digest before).start digest now o).1.id
      ≠ ((run digest (before ++ .start now o :: between)).start digest now' o').1.id)
  ∧ ∀ before now o after,
    let plan := ((run digest before).start digest now o).1
    let t := run digest (before ++ .start now o :: after)
    (plan.isImmediate = true
      ∨ ∃ between c rest, after = between ++ c :: rest
        ∧ (run digest (before ++ .start now o :: between)).ends c = true) →
    ∀ key, t.complete key plan.id = (false, t) ∧ t.fail key plan.id = (false, t)
      ∧ t.timeOut key plan.id = (false, t) ∧ t.timeOutAll plan.id = ([], t)
      ∧ t.clear plan.id = (false, t)
  := by
  refine ⟨started_run, ?distinct, ?ignored⟩
  case distinct =>
    intro before now o between now' o' heq
    have hcount := number_of_token heq
    rw [List.countP_append, List.countP_cons_of_pos rfl] at hcount
    omega
  case ignored =>
    intro before now o after plan t hended
    apply ignores_of_withId?
    obtain himmediate | ⟨between, c, rest, rfl, hends⟩ := hended
    · exact withId?_of_immediate himmediate
    · exact withId?_of_ended hends

/-- A refresh of two users takes the place of one of the first user, at the same reading of the
clock and with the same digest. -/
theorem abandoned_refresh_of_two :
  let order (group : ProfileGroup) : RefreshOrder := {
    reason := .other, requestType := .getData, group
    broadcasts := [{ package := "p", forParent := ["a"], forManaged := ["a"] }]
    untracked := ∅, needsReport := fun _ => false }
  let first := order (.single 0)
  let second := order (.ofMembers 0 [(10, true)])
  let digest : RefreshOrigin → String := fun _ => "0123456789ab"
  let plan := (({} : RefreshTracker).start digest .epoch first).1
  let t := run digest [.start .epoch first, .start .epoch second]
  t.isInProgress = true ∧ t.complete ⟨"a", 0⟩ plan.id = (false, t)
    ∧ t.timeOutAll plan.id = ([], t)
  := by
  intro order first second digest plan t
  let started := run digest [.start .epoch first]
  have htracked : second.tracked
      (second.requests (started.start digest .epoch second).1.id) ≠ [] := by
    have : second.tracked (second.requests (started.start digest .epoch second).1.id)
        = [⟨"a", 0⟩, ⟨"a", 10⟩] := rfl
    simp [this]
  have hgoing : t.isInProgress = true :=
    (isInProgress_start started digest .epoch second).trans
      (by simpa [← Bool.not_eq_true, isImmediate_start_iff] using htracked)
  obtain ⟨-, -, hignored⟩ := abandoned_refresh_ignored digest
  obtain ⟨hcomplete, -, -, htimeOutAll, -⟩ := hignored [] .epoch first [.start .epoch second]
    (.inr ⟨[], .start .epoch second, [], rfl, rfl⟩) ⟨"a", 0⟩
  exact ⟨hgoing, hcomplete, htimeOutAll⟩

end RefreshTracker

end SafetyHub
