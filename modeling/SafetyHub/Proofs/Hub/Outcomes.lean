import SafetyHub.Proofs.Hub.Eviction

/-!
# What moves bring about

`Hub.outcome` is a move with its effects: what it makes of the hub and what it brings about
outside.  Of the effects of a move, those that offer overviews to listeners are
`Change.offers`, and the errors that listeners hear of are `Change.notices`.
-/

namespace SafetyHub

/-- Whether an effect offers an overview to listeners. -/
def Effect.isOffer : Effect → Bool
  | .offer _ _ _ _ | .offerTo _ _ _ _ => true
  | .signal _ | .notice _ _ => false

/-- The error that an effect lets listeners hear of, with the parent of their group. -/
def Effect.notice? : Effect → Option (UserId × Notice)
  | .notice parent error => some (parent, error)
  | .signal _ | .offer _ _ _ _ | .offerTo _ _ _ _ => none

namespace Change

/-- What a change offers to listeners. -/
def offers (c : Change) : List Effect :=
  c.effects.filter (·.isOffer)

/-- The errors that listeners hear of, each with the parent of their group. -/
def notices (c : Change) : List (UserId × Notice) :=
  c.effects.filterMap (·.notice?)

end Change

namespace Hub

variable {h h' : Hub} {env : Surroundings}

/-! ### Moves with their effects -/

/-- What a call that may have been refused brings about. -/
def called (h : Hub) : Except HubError Change → Change
  | .ok c => c
  | .error _ => { hub := h }

/-- What the passing of a deadline brings about, if it is armed. -/
def passed (h : Hub) (env : Surroundings) (key : DeadlineKey) : Change :=
  match h.deadlines.armed.find? (·.key == key) with
  | none => { hub := h }
  | some e => { h with deadlines := h.deadlines.take e }.turn env key

/-- What a move brings about. -/
def outcome (h : Hub) (env : Surroundings) : Move → Change
  | .refresh reason user => h.called ((h.refresh env reason user).map (·.2))
  | .submit package sourceId user report event =>
    h.called (h.submit env package sourceId user report event)
  | .reportFailure package sourceId user event =>
    h.called (h.reportFailure env package sourceId user event)
  | .listen listener package user => h.called ((h.listen env listener package user).map (·.2))
  | .dismiss issue => h.called (h.dismiss env issue)
  | .execute issue actionId => h.called (h.execute env issue actionId)
  | .flush => h.flush.2
  | .clear => h.clear env
  | .removeUser user => h.removeUser env user
  | .reload catalog policy => h.reload env catalog policy
  | .expire key => h.passed env key
  | m => { hub := h.move env m }

theorem hub_called (h : Hub) (x : Except HubError Change) : (h.called x).hub = h.afterCall x := by
  cases x <;> rfl

theorem hub_passed (h : Hub) (env : Surroundings) (key : DeadlineKey) :
  (h.passed env key).hub = h.expire env key
  := by
  rw [passed, expire]
  cases h.deadlines.armed.find? (·.key == key) <;> rfl

theorem hub_outcome (h : Hub) (env : Surroundings) (m : Move) :
  (h.outcome env m).hub = h.move env m
  := by
  cases m with
  | refresh _ _ | submit _ _ _ _ _ | reportFailure _ _ _ _ | listen _ _ _ | dismiss _
  | execute _ _ => apply hub_called
  | expire key => apply hub_passed
  | unlisten _ | offer _ _ _ | flush | clear | removeUser _ | reload _ _ | wait _
  | setFault _ => rfl

/-- An armed deadline passes. -/
theorem exists_passed_eq {key : DeadlineKey} (harmed : h.deadlines.isArmed key = true)
    (env : Surroundings) :
  ∃ e ∈ h.deadlines.armed, e.key = key
    ∧ h.passed env key = { h with deadlines := h.deadlines.take e }.turn env key
  := by
  have hsome : (h.deadlines.armed.find? (·.key == key)).isSome = true := by
    rwa [List.find?_isSome, ← List.any_eq_true]
  obtain ⟨e, he⟩ := Option.isSome_iff_exists.mp hsome
  refine ⟨e, List.mem_of_find?_eq_some he, by simpa using List.find?_some he, ?_⟩
  rw [passed, he]

theorem passed_of_not_isArmed {key : DeadlineKey} (harmed : ¬ h.deadlines.isArmed key = true)
    (env : Surroundings) :
  h.passed env key = { hub := h }
  := by
  have hnone : h.deadlines.armed.find? (·.key == key) = none := by
    rw [← Option.not_isSome_iff_eq_none, List.find?_isSome, ← List.any_eq_true]
    apply harmed
  rw [passed, hnone]

/-! ### Publishing -/

theorem offers_eq_filter (h : Hub) (env : Surroundings) :
  (h.offers env).filter (·.isOffer) = h.offers env
  := by
  apply List.filter_eq_self.mpr
  intro effect heffect
  obtain ⟨parent, -, heffect⟩ := List.mem_flatMap.mp heffect
  split at heffect
  next => cases heffect
  next group _ =>
    obtain ⟨package, -, rfl⟩ := List.mem_map.mp heffect
    rfl

theorem notices_offers (h : Hub) (env : Surroundings) :
  (h.offers env).filterMap (·.notice?) = []
  := by
  apply List.filterMap_eq_nil_iff.mpr
  intro effect heffect
  rw [← offers_eq_filter] at heffect
  have hoffer := (List.mem_filter.mp heffect).2
  cases effect <;> simp_all [Effect.isOffer, Effect.notice?]

theorem notices_publish (h : Hub) (env : Surroundings) :
  (h.publish env).effects.filterMap (·.notice?) = []
  := notices_offers _ env

end Hub

end SafetyHub
