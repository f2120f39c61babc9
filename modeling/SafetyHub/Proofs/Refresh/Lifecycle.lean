import SafetyHub.Proofs.Refresh.Tracking
import Mathlib.Data.List.Induction

/-!
# The life of a refresh

`RefreshTracker.run` makes a list of calls on a tracker.  Whatever the calls, the refresh in
flight is sound and knows exactly the pairs that the last start tracked.

`RefreshTracker.hear` makes calls that answer for single pairs.  A refresh that has been started
gives each pair the state of the first answer that names it under the refresh's token, ends at
the answer that names the last pair, and takes no notice of any other answer.
-/

namespace SafetyHub

open Std

/-! ### Answers -/

/-- What is said of a pair of a refresh. -/
inductive Verdict where
  | completed
  | failed
  | timedOut
deriving DecidableEq, Repr

/-- The state that a verdict gives a pair. -/
def Verdict.state : Verdict → PairState
  | .completed => .completed
  | .failed => .failed
  | .timedOut => .timedOut

theorem Verdict.isFinal_state (v : Verdict) :
  v.state.isFinal = true
  := by
  cases v <;> rfl

theorem Verdict.state_ne_pending (v : Verdict) :
  v.state ≠ .pending
  := by
  cases v <;> simp [state]

/-- What is said of a pair under a token. -/
structure RefreshAnswer where
  key : SourceKey
  id : BroadcastId
  verdict : Verdict
deriving DecidableEq, Repr

namespace RefreshAnswer

/-- Whether an answer names a pair under a token. -/
def names (id : BroadcastId) (key : SourceKey) (a : RefreshAnswer) : Bool :=
  a.id == id && a.key == key

/-- Whether some answer names a pair under a token. -/
def isNamed (answers : List RefreshAnswer) (id : BroadcastId) (key : SourceKey) : Bool :=
  answers.any (names id key)

/-- The state that answers under a token give a pair: that of the first one that names it. -/
def stateAfter (answers : List RefreshAnswer) (id : BroadcastId) (key : SourceKey) : PairState :=
  match answers.find? (names id key) with
  | some a => a.verdict.state
  | none => .pending

theorem names_iff {id : BroadcastId} {key : SourceKey} {a : RefreshAnswer} :
  names id key a = true ↔ a.id = id ∧ a.key = key
  := by
  simp [names]

theorem isNamed_append (answers more : List RefreshAnswer) (id : BroadcastId) (key : SourceKey) :
  isNamed (answers ++ more) id key = (isNamed answers id key || isNamed more id key)
  := List.any_append

theorem isNamed_singleton (a : RefreshAnswer) (id : BroadcastId) (key : SourceKey) :
  isNamed [a] id key = names id key a
  := by
  simp [isNamed]

theorem stateAfter_of_not_named {answers : List RefreshAnswer} {id : BroadcastId}
    {key : SourceKey} (h : isNamed answers id key = false) :
  stateAfter answers id key = .pending
  := by
  have : answers.find? (names id key) = none := by
    simpa [isNamed] using h
  simp [stateAfter, this]

theorem stateAfter_append (answers more : List RefreshAnswer) (id : BroadcastId)
    (key : SourceKey) :
  stateAfter (answers ++ more) id key =
    if isNamed answers id key then stateAfter answers id key else stateAfter more id key
  := by
  simp only [stateAfter, isNamed, List.find?_append, ← List.isSome_find?]
  cases answers.find? (names id key) <;> simp

theorem stateAfter_singleton (a : RefreshAnswer) (id : BroadcastId) (key : SourceKey) :
  stateAfter [a] id key = if names id key a then a.verdict.state else .pending
  := by
  by_cases h : names id key a = true
  · simp [stateAfter, h]
  · simp [stateAfter, h]

theorem stateAfter_eq_pending_iff {answers : List RefreshAnswer} {id : BroadcastId}
    {key : SourceKey} :
  stateAfter answers id key = .pending ↔ isNamed answers id key = false
  := by
  constructor
  · simp only [stateAfter, isNamed]
    split
    next a ha => exact fun h => absurd h a.verdict.state_ne_pending
    next ha => simpa using ha
  · apply stateAfter_of_not_named

end RefreshAnswer

/-- A call on a tracker. -/
inductive TrackerCall where
  | start (now : Instant) (order : RefreshOrder)
  | answer (answer : RefreshAnswer)
  | timeOutAll (id : BroadcastId)
  | clear (id : BroadcastId)
  | clearAll
  | clearForUser (user : UserId)

/-- Whether a call starts a refresh. -/
def TrackerCall.isStart : TrackerCall → Bool
  | .start .. => true
  | _ => false

namespace RefreshTracker

open RefreshAnswer hiding id

/-- Takes an answer.  Says whether this ends the refresh. -/
def answer (t : RefreshTracker) (a : RefreshAnswer) : Bool × RefreshTracker :=
  match a.verdict with
  | .completed => t.complete a.key a.id
  | .failed => t.fail a.key a.id
  | .timedOut => t.timeOut a.key a.id

/-- Takes answers one after the other. -/
def hear (t : RefreshTracker) (answers : List RefreshAnswer) : RefreshTracker :=
  answers.foldl (fun t a => (t.answer a).2) t

/-- Which of the answers end a refresh when they are taken one after the other. -/
def replies (t : RefreshTracker) : List RefreshAnswer → List Bool
  | [] => []
  | a :: rest => (t.answer a).1 :: (t.answer a).2.replies rest

theorem answer_eq_retire (t : RefreshTracker) (a : RefreshAnswer) :
  t.answer a = t.retire a.key a.id a.verdict.state
  := by
  unfold answer
  cases a.verdict <;> rfl

/-! ### A refresh that hears answers -/

/-- What is left of a refresh that was started with a token for some pairs, once it has heard
answers. -/
structure Heard (t : RefreshTracker) (id : BroadcastId) (tracked : List SourceKey)
    (answers : List RefreshAnswer) : Prop where
  sound : t.Sound
  isInProgress_iff :
    t.isInProgress = true ↔ ∃ key ∈ tracked, isNamed answers id key = false
  id_eq : ∀ r, t.current = some r → r.id = id
  state?_eq : ∀ r, t.current = some r → ∀ key,
    r.state? key = if key ∈ tracked then some (stateAfter answers id key) else none

section

variable {t : RefreshTracker} {id : BroadcastId} {tracked : List SourceKey}
  {answers : List RefreshAnswer}

theorem Heard.mem_pending_iff (h : t.Heard id tracked answers) {r : RefreshInProgress}
    (hr : t.current = some r) (key : SourceKey) :
  key ∈ r.pending ↔ key ∈ tracked ∧ isNamed answers id key = false
  := by
  rw [(h.sound r hr).mem_pending_iff, h.state?_eq r hr, ← stateAfter_eq_pending_iff]
  split
  next hkey => simp [hkey]
  next hkey => simp [hkey]

theorem Heard.awaits_iff (h : t.Heard id tracked answers) {key : SourceKey}
    {id' : BroadcastId} :
  t.Awaits key id' ↔ id' = id ∧ key ∈ tracked ∧ isNamed answers id key = false
  := by
  constructor
  · rintro ⟨r, hr, rfl, hkey⟩
    exact ⟨h.id_eq r hr, (h.mem_pending_iff hr key).mp hkey⟩
  · rintro ⟨rfl, hkey, hnamed⟩
    have : t.isInProgress = true := h.isInProgress_iff.mpr ⟨key, hkey, hnamed⟩
    obtain ⟨r, hr⟩ := Option.isSome_iff_exists.mp this
    exact ⟨r, hr, h.id_eq r hr, (h.mem_pending_iff hr key).mpr ⟨hkey, hnamed⟩⟩

/-- An answer for a pair that is not waited for under its token is without effect. -/
theorem Heard.answer_of_not_awaited (h : t.Heard id tracked answers) {a : RefreshAnswer}
    (ha : ¬ (a.id = id ∧ a.key ∈ tracked ∧ isNamed answers id a.key = false)) :
  t.answer a = (false, t)
  := by
  rw [answer_eq_retire]
  apply retire_of_not_awaits h.sound
  exact fun hawaits => ha (h.awaits_iff.mp hawaits)

theorem Heard.isNamed_of_settled (h : t.Heard id tracked answers) {r : RefreshInProgress}
    (hr : t.current = some r) {a : RefreshAnswer} (ha : a.id = id) {key : SourceKey}
    (hkey : key ∈ tracked) :
  key ∈ (r.settle a.key a.verdict.state).pending ↔ isNamed (answers ++ [a]) id key = false
  := by
  have hnames : names id key a = false ↔ key ≠ a.key := by
    rw [← Bool.not_eq_true, names_iff]
    simp only [ha, true_and, ne_eq, eq_comm]
  rw [RefreshInProgress.mem_pending_settle, h.mem_pending_iff hr, isNamed_append,
    isNamed_singleton, Bool.or_eq_false_iff, hnames]
  simp only [hkey, true_and, and_comm]

/-- Once every pair has been named, the refresh is over. -/
theorem Heard.of_ended (hall : ∀ key ∈ tracked, isNamed answers id key = true)
    (hcurrent : t.current = none) :
  t.Heard id tracked answers
  where
  sound r hr := by simp [hcurrent] at hr
  isInProgress_iff := by simpa [isInProgress, hcurrent] using hall
  id_eq r hr := by simp [hcurrent] at hr
  state?_eq r hr := by simp [hcurrent] at hr

/-- An answer that names no pair that is waited for gives none a state. -/
theorem Heard.of_ignored (h : t.Heard id tracked answers) {a : RefreshAnswer}
    (ha : ∀ key ∈ tracked, isNamed answers id key = false → names id key a = false) :
  t.Heard id tracked (answers ++ [a])
  where
  sound := h.sound
  isInProgress_iff := by
    rw [h.isInProgress_iff]
    apply exists_congr
    intro key
    rw [isNamed_append, isNamed_singleton, Bool.or_eq_false_iff]
    constructor
    · rintro ⟨hkey, hnot⟩
      exact ⟨hkey, hnot, ha key hkey hnot⟩
    · rintro ⟨hkey, hnot, -⟩
      exact ⟨hkey, hnot⟩
  id_eq := h.id_eq
  state?_eq r hr key := by
    rw [h.state?_eq r hr, stateAfter_append, stateAfter_singleton]
    by_cases hkey : key ∈ tracked
    · by_cases hnot : isNamed answers id key = true
      · simp [hnot]
      · rw [Bool.not_eq_true] at hnot
        simp [hnot, ha key hkey hnot, stateAfter_of_not_named]
    · simp [hkey]

/-- An answer gives the pair that it names its state, and other pairs are pending still. -/
theorem Heard.of_settled (h : t.Heard id tracked answers) {r : RefreshInProgress}
    (hr : t.current = some r) {a : RefreshAnswer} (hid : a.id = id) (hkey : a.key ∈ r.pending)
    (hrest : (r.settle a.key a.verdict.state).pending ≠ ∅) :
  { t with current := some (r.settle a.key a.verdict.state) }.Heard id tracked (answers ++ [a])
  where
  sound := by
    rintro _ ⟨⟩
    apply (h.sound r hr).settle a.verdict.isFinal_state hrest
  isInProgress_iff := by
    obtain ⟨key, hk⟩ := exists_mem_of_ne_empty hrest
    have hpending := (RefreshInProgress.mem_pending_settle.mp hk).2
    have htracked := ((h.mem_pending_iff hr key).mp hpending).1
    simp only [isInProgress, Option.isSome_some, true_iff]
    exact ⟨key, htracked, (h.isNamed_of_settled hr hid htracked).mp hk⟩
  id_eq := by
    rintro _ ⟨⟩
    apply h.id_eq r hr
  state?_eq := by
    obtain ⟨hmem, hnot⟩ := (h.mem_pending_iff hr a.key).mp hkey
    rintro _ ⟨⟩ key
    rw [RefreshInProgress.state?_settle, h.state?_eq r hr, stateAfter_append,
      stateAfter_singleton]
    by_cases hk : key = a.key
    · subst hk
      simp [hmem, hnot, names_iff, hid]
    · have : names id key a = false := by
        simp [names, Ne.symm hk]
      by_cases hn : isNamed answers id key = true
      · simp [hk, hn]
      · simp [hk, hn, this, stateAfter_of_not_named]

/-- What is left of a refresh once it has heard one answer more. -/
theorem Heard.answer (h : t.Heard id tracked answers) (a : RefreshAnswer) :
  (t.answer a).2.Heard id tracked (answers ++ [a])
  := by
  rw [answer_eq_retire]
  obtain ⟨idle, heq⟩ | ⟨r, hr, hid, hkey, ⟨hlast, heq⟩ | ⟨hrest, heq⟩⟩ :=
    retire_cases h.sound a.key a.id a.verdict.isFinal_state
  · rw [heq]
    apply h.of_ignored
    intro key hkey hnot
    rw [← Bool.not_eq_true, names_iff]
    rintro ⟨hid, rfl⟩
    apply idle
    exact h.awaits_iff.mpr ⟨hid, hkey, hnot⟩
  · -- the answer names the last pair
    rw [heq]
    apply Heard.of_ended _ rfl
    intro key hkey
    rw [← Bool.not_eq_false, ← h.isNamed_of_settled hr (hid ▸ h.id_eq r hr) hkey, hlast]
    apply ExtTreeSet.not_mem_empty
  · rw [heq]
    apply h.of_settled hr (hid ▸ h.id_eq r hr) hkey hrest

theorem Heard.hear (h : t.Heard id tracked answers) (more : List RefreshAnswer) :
  (t.hear more).Heard id tracked (answers ++ more)
  := by
  induction more generalizing t answers with
  | nil => simpa [RefreshTracker.hear] using h
  | cons a rest ih =>
    rw [List.append_cons]
    apply ih (h.answer a)

end

/-- A refresh that has just been started has heard nothing. -/
theorem heard_start {t : RefreshTracker} {digest : RefreshOrigin → String} {now : Instant}
    {o : RefreshOrder} :
  (t.start digest now o).2.Heard (t.start digest now o).1.id
    (o.tracked (o.requests (t.start digest now o).1.id)) []
  where
  sound r hr := (current_start hr).1
  isInProgress_iff := by
    rw [isInProgress_start, Bool.not_eq_true', ← Bool.not_eq_true, isImmediate_start_iff]
    simp [isNamed, List.eq_nil_iff_forall_not_mem]
  id_eq r hr := (current_start hr).2.1
  state?_eq r hr key := by
    obtain ⟨-, hid, hstate⟩ := current_start hr
    rw [hstate, hid]
    rfl

/-! ### Which answer ends a refresh -/

theorem answer_of_idle {t : RefreshTracker} (h : t.isInProgress = false) (a : RefreshAnswer) :
  t.answer a = (false, t)
  := by
  have hcurrent : t.current = none := by simpa [isInProgress] using h
  rw [answer_eq_retire]
  apply retire_of_not_awaits
  · intro r hr
    simp [hcurrent] at hr
  · rintro ⟨r, hr, -⟩
    simp [hcurrent] at hr

/-- The answer that ends a refresh is the one for its last pending pair. -/
theorem answer_ends_iff {t : RefreshTracker} (h : t.Sound) (a : RefreshAnswer) :
  (t.answer a).1 = true
    ↔ ∃ r, t.current = some r ∧ r.id = a.id ∧ ∀ key, key ∈ r.pending ↔ key = a.key
  := by
  rw [answer_eq_retire]
  obtain ⟨idle, heq⟩ | ⟨r, hr, hid, hkey, ⟨hlast, heq⟩ | ⟨hrest, heq⟩⟩ :=
    retire_cases h a.key a.id a.verdict.isFinal_state
  · rw [heq]
    simp only [Bool.false_eq_true, false_iff]
    rintro ⟨r, hr, hid, hkey⟩
    apply idle ⟨r, hr, hid, (hkey a.key).mpr rfl⟩
  · rw [heq]
    simp only [true_iff]
    use r, hr, hid
    intro key
    constructor
    · intro hk
      by_contra hne
      have hk : key ∈ (r.settle a.key a.verdict.state).pending :=
        RefreshInProgress.mem_pending_settle.mpr ⟨hne, hk⟩
      rw [hlast] at hk
      apply ExtTreeSet.not_mem_empty hk
    · rintro rfl
      apply hkey
  · rw [heq]
    simp only [Bool.false_eq_true, false_iff]
    rintro ⟨s, hs, -, honly⟩
    obtain rfl : r = s := Option.some_inj.mp (hr.symm.trans hs)
    obtain ⟨key, hk⟩ := exists_mem_of_ne_empty hrest
    obtain ⟨hne, hk⟩ := RefreshInProgress.mem_pending_settle.mp hk
    apply hne ((honly key).mp hk)

theorem answer_ends_iff_isInProgress {t : RefreshTracker} (h : t.Sound) (a : RefreshAnswer) :
  (t.answer a).1 = true ↔ t.isInProgress = true ∧ (t.answer a).2.isInProgress = false
  := by
  rw [answer_eq_retire]
  obtain ⟨-, heq⟩ | ⟨r, hr, -, -, ⟨-, heq⟩ | ⟨-, heq⟩⟩ :=
    retire_cases h a.key a.id a.verdict.isFinal_state
  · rw [heq]
    simp
  · rw [heq]
    simp [isInProgress, hr]
  · rw [heq]
    simp [isInProgress]

theorem Sound.answer {t : RefreshTracker} (h : t.Sound) (a : RefreshAnswer) :
  (t.answer a).2.Sound
  := by
  rw [answer_eq_retire]
  apply h.retire a.key a.id a.verdict.isFinal_state

theorem count_replies_of_idle {t : RefreshTracker} (h : t.isInProgress = false)
    (answers : List RefreshAnswer) :
  (t.replies answers).count true = 0 ∧ t.hear answers = t
  := by
  induction answers with
  | nil => exact ⟨rfl, rfl⟩
  | cons a rest ih => simpa [replies, hear, answer_of_idle h] using ih

/-- Of the answers that a refresh in flight hears, one ends it if it ends, and none if it does
not. -/
theorem count_replies {t : RefreshTracker} (h : t.Sound) (going : t.isInProgress = true)
    (answers : List RefreshAnswer) :
  (t.replies answers).count true = if (t.hear answers).isInProgress then 0 else 1
  := by
  induction answers generalizing t with
  | nil => simp [replies, hear, going]
  | cons a rest ih =>
    have hends := answer_ends_iff_isInProgress h a
    rw [replies, hear, List.foldl_cons, ← hear, List.count_cons]
    cases hnext : (t.answer a).2.isInProgress with
    | true =>
      have hreply : (t.answer a).1 = false := by
        simpa [hnext] using hends
      rw [ih (h.answer a) hnext, hreply]
      rfl
    | false =>
      have hreply : (t.answer a).1 = true := hends.mpr ⟨going, hnext⟩
      obtain ⟨hcount, hsame⟩ := count_replies_of_idle hnext rest
      rw [hcount, hsame, hreply, hnext]
      rfl

/-! ### Runs of a tracker -/

/-- The tracker after a call. -/
def perform (digest : RefreshOrigin → String) (t : RefreshTracker) :
    TrackerCall → RefreshTracker
  | .start now order => (t.start digest now order).2
  | .answer a => (t.answer a).2
  | .timeOutAll id => (t.timeOutAll id).2
  | .clear id => (t.clear id).2
  | .clearAll => t.clearAll.2
  | .clearForUser user => (t.clearForUser user).2

/-- A tracker that has nothing in flight at first, after a list of calls. -/
def run (digest : RefreshOrigin → String) (calls : List TrackerCall) : RefreshTracker :=
  calls.foldl (perform digest) {}

/-- After a call that starts no refresh, the refresh in flight is the one there was, with the
same pairs. -/
theorem perform_of_not_start {t : RefreshTracker} (h : t.Sound)
    (digest : RefreshOrigin → String) {c : TrackerCall} (hc : c.isStart = false)
    {r' : RefreshInProgress} (hr' : (t.perform digest c).current = some r') :
  ∃ r, t.current = some r ∧ r'.Sound ∧ r'.id = r.id
    ∧ ∀ key, (r'.state? key).isSome = (r.state? key).isSome
  := by
  have same (hsame : t.perform digest c = t) : ∃ r, t.current = some r ∧ r'.Sound
      ∧ r'.id = r.id ∧ ∀ key, (r'.state? key).isSome = (r.state? key).isSome := by
    rw [hsame] at hr'
    exact ⟨r', hr', h r' hr', rfl, fun _ => rfl⟩
  cases c with
  | start now order => simp [TrackerCall.isStart] at hc
  | answer a =>
    simp only [perform, answer_eq_retire] at hr' same
    obtain ⟨-, heq⟩ | ⟨r, hr, -, hkey, ⟨-, heq⟩ | ⟨hrest, heq⟩⟩ :=
      retire_cases h a.key a.id a.verdict.isFinal_state
    · apply same (by rw [heq])
    · simp [heq] at hr'
    · rw [heq] at hr'
      cases hr'
      exact ⟨r, hr, (h r hr).settle a.verdict.isFinal_state hrest, rfl,
        fun key => RefreshInProgress.isSome_state?_settle (h r hr) hkey key _⟩
  | timeOutAll id =>
    simp only [perform] at hr' same
    by_cases hid : ∃ r, t.current = some r ∧ r.id = id
    · obtain ⟨r, hr, rfl⟩ := hid
      simp [timeOutAll_of_current (h r hr) hr] at hr'
    · apply same
      rw [timeOutAll_of_ne fun r hr heq => hid ⟨r, hr, heq⟩]
  | clear id =>
    simp only [perform, clear] at hr' same
    split at hr'
    next => simp at hr'
    next hid => exact same (by rw [if_neg hid])
  | clearAll => simp [perform, clearAll] at hr'
  | clearForUser user =>
    simp only [perform, clearForUser] at hr' same
    split at hr'
    next => simp [clearAll] at hr'
    next hid => exact same (by rw [if_neg hid])

/-- The refresh in flight after a run is sound, and knows the pairs that were tracked when it was
started: by the last start of the run. -/
theorem current_run {digest : RefreshOrigin → String} {calls : List TrackerCall}
    {r : RefreshInProgress} (h : (run digest calls).current = some r) :
  r.Sound ∧ ∃ before now o after, calls = before ++ .start now o :: after
    ∧ (∀ c ∈ after, c.isStart = false)
    ∧ r.id = ((run digest before).start digest now o).1.id
    ∧ ∀ key, (r.state? key).isSome = true ↔ key ∈ o.tracked (o.requests r.id)
  := by
  induction calls using List.reverseRecOn generalizing r with
  | nil => simp [run] at h
  | append_singleton calls c ih =>
    rw [run, List.foldl_append, ← run] at h
    cases hc : c.isStart with
    | true =>
      cases c with
      | start now o =>
        obtain ⟨hsound, hid, hstate⟩ := current_start h
        use hsound, calls, now, o, [], rfl, by simp, hid
        intro key
        rw [hstate]
        split <;> simp_all
      | _ => simp [TrackerCall.isStart] at hc
    | false =>
      obtain ⟨s, hs, hsound, hid, hstate⟩ :=
        perform_of_not_start (fun s hs => (ih hs).1) digest hc h
      obtain ⟨-, before, now, o, after, rfl, hafter, hids, htracked⟩ := ih hs
      use hsound, before, now, o, after ++ [c], by simp
      refine ⟨?_, hid.trans hids, fun key => ?_⟩
      · intro d hd
        obtain hd | hd := List.mem_append.mp hd
        · apply hafter d hd
        · rw [List.mem_singleton.mp hd, hc]
      · rw [hstate, htracked, hid]

/-- Answers keep the final state of a pair for as long as its refresh is in flight. -/
theorem Heard.state?_hear {t : RefreshTracker} {id : BroadcastId} {tracked : List SourceKey}
    {answers : List RefreshAnswer} (h : t.Heard id tracked answers)
    (more : List RefreshAnswer) {r r' : RefreshInProgress} (hr : t.current = some r)
    (hr' : (t.hear more).current = some r') {key : SourceKey} {state : PairState}
    (hstate : r.state? key = some state) (final : state.isFinal = true) :
  r'.state? key = some state
  := by
  rw [h.state?_eq r hr, Option.ite_none_right_eq_some] at hstate
  obtain ⟨hkey, hstate⟩ := hstate
  cases hstate
  have hnamed : isNamed answers id key = true := by
    rw [← Bool.not_eq_false, ← stateAfter_eq_pending_iff]
    simpa [PairState.isFinal] using final
  rw [(h.hear more).state?_eq r' hr', if_pos hkey, stateAfter_append, if_pos hnamed]

/-- The life of a refresh.  In every state that a tracker reaches, the pending pairs of the
refresh in flight are the ones whose state is pending, there are some, and the pairs with a state
are those tracked at its start.

When a start tracks some pairs, then after any answers the refresh is in flight exactly when a
pair has not been named under its token, which is as long as no answer has ended it.  While it is
in flight every pair has the state of the first answer that names it, and keeps it.  One answer
has ended it when every pair is named, and none otherwise.  An answer under another token, for
another pair, or for a pair that was named before changes nothing, and an answer ends the refresh
exactly when it is for the last pending pair. -/
theorem refresh_lifecycle (digest : RefreshOrigin → String) :
  (∀ calls r, (run digest calls).current = some r →
    r.pending ≠ ∅
    ∧ (∀ key, key ∈ r.pending ↔ r.state? key = some .pending)
    ∧ ∃ before now o after, calls = before ++ .start now o :: after
      ∧ (∀ c ∈ after, c.isStart = false)
      ∧ r.id = ((run digest before).start digest now o).1.id
      ∧ ∀ key, (r.state? key).isSome = true ↔ key ∈ o.tracked (o.requests r.id))
  ∧ ∀ (t : RefreshTracker) now o,
    let id := (t.start digest now o).1.id
    let started := (t.start digest now o).2
    let tracked := o.tracked (o.requests id)
    tracked ≠ [] → ∀ answers,
      let t' := started.hear answers
      (t'.isInProgress = true ↔ ∃ key ∈ tracked, isNamed answers id key = false)
      ∧ (t'.isInProgress = true ↔ true ∉ started.replies answers)
      ∧ (∀ r, t'.current = some r → r.id = id
        ∧ (∀ key ∈ tracked, r.state? key = some (stateAfter answers id key))
        ∧ ∀ more r', (t'.hear more).current = some r' → ∀ key state,
          r.state? key = some state → state.isFinal = true → r'.state? key = some state)
      ∧ (started.replies answers).count true
        = (if ∀ key ∈ tracked, isNamed answers id key = true then 1 else 0)
      ∧ ∀ a : RefreshAnswer,
        (a.id ≠ id ∨ a.key ∉ tracked ∨ isNamed answers id a.key = true →
          t'.answer a = (false, t'))
        ∧ ((t'.answer a).1 = true
          ↔ ∃ r, t'.current = some r ∧ r.id = a.id ∧ ∀ key, key ∈ r.pending ↔ key = a.key)
  := by
  constructor
  · intro calls r hr
    obtain ⟨hsound, hstart⟩ := current_run hr
    exact ⟨hsound.pending_ne_empty, hsound.mem_pending_iff, hstart⟩
  intro t now o id started tracked hne answers t'
  have first : started.Heard id tracked [] := heard_start
  have heard : t'.Heard id tracked answers := first.hear answers
  have going : started.isInProgress = true := by
    obtain ⟨key, hkey⟩ := List.exists_mem_of_ne_nil tracked hne
    apply first.isInProgress_iff.mpr ⟨key, hkey, rfl⟩
  have count := count_replies first.sound going answers
  refine ⟨heard.isInProgress_iff, ?_, ?_, ?_, ?_⟩
  · rw [← List.count_eq_zero, count]
    cases t'.isInProgress <;> simp
  · intro r hr
    refine ⟨heard.id_eq r hr, ?_, ?_⟩
    · intro key hkey
      rw [heard.state?_eq r hr, if_pos hkey]
    · intro more r' hr' key state hstate final
      apply heard.state?_hear more hr hr' hstate final
  · have hall : (∀ key ∈ tracked, isNamed answers id key = true) ↔ t'.isInProgress = false := by
      rw [← Bool.not_eq_true, heard.isInProgress_iff]
      simp
    rw [count]
    cases hgoing : t'.isInProgress <;> simp [hall, hgoing]
  · intro a
    constructor
    · intro ha
      apply heard.answer_of_not_awaited
      rintro ⟨hid, hkey, hnamed⟩
      simp [hid, hkey, hnamed] at ha
    · apply answer_ends_iff heard.sound a

/-- Two sources are asked, one of them fails and then reports, and the time of the other is
over. -/
theorem refresh_lifecycle_of_two_sources :
  let order : RefreshOrder := {
    reason := .other, requestType := .getData, group := .single 0
    broadcasts := [{ package := "p", forParent := ["a", "b"] }]
    untracked := ∅, needsReport := fun _ => false }
  let plan := (({} : RefreshTracker).start RefreshOrigin.digest .epoch order).1
  let started := run RefreshOrigin.digest [.start .epoch order]
  let answers : List RefreshAnswer :=
    [⟨⟨"a", 0⟩, plan.id, .failed⟩, ⟨⟨"a", 0⟩, plan.id, .completed⟩,
      ⟨⟨"b", 0⟩, plan.id, .timedOut⟩]
  (∃ r, started.current = some r ∧ r.pending ≠ ∅)
    ∧ order.tracked (order.requests plan.id) ≠ []
    ∧ (started.replies answers).count true = 1
  := by
  intro order plan started answers
  have htracked : order.tracked (order.requests plan.id) = [⟨"a", 0⟩, ⟨"b", 0⟩] := rfl
  have hne : order.tracked (order.requests plan.id) ≠ [] := by simp [htracked]
  obtain ⟨hrun, hanswers⟩ := refresh_lifecycle RefreshOrigin.digest
  have hgoing : started.isInProgress = true :=
    (isInProgress_start {} RefreshOrigin.digest .epoch order).trans
      (by simpa [← Bool.not_eq_true, isImmediate_start_iff] using hne)
  obtain ⟨r, hr⟩ := Option.isSome_iff_exists.mp hgoing
  use ⟨r, hr, (hrun _ r hr).1⟩, hne
  obtain ⟨-, -, -, hcount, -⟩ := hanswers {} .epoch order hne answers
  have hall : ∀ key ∈ order.tracked (order.requests plan.id),
      isNamed answers plan.id key = true := by
    rw [htracked]
    simp [answers, isNamed, names]
  apply hcount.trans (if_pos hall)

end RefreshTracker

end SafetyHub
