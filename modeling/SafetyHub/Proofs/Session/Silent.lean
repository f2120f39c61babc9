import SafetyHub.Session.Run
import SafetyHub.Proofs.Hub.Live

/-!
# Sessions whose listeners do not reply

When no listener has a reply to make, a session carries out effects as a live hub does: the
overviews on its log are those that the registrations receive.  A step that is a move of the hub
then comes to what the move comes to.
-/

namespace SafetyHub

/-- The overview that an occurrence shows, with the listener that takes it. -/
def Occurrence.view? : Occurrence → Option (String × Overview)
  | .view listener overview => some (listener, overview)
  | .signal _ | .notice _ _ | .reply _ _ => none

/-- The overviews on the log, each with the listener that took it, the earliest first. -/
def Scene.views (s : Scene) : List (String × Overview) :=
  s.log.reverse.filterMap (·.occurrence.view?)

theorem Scene.views_record (s : Scene) (o : Occurrence) :
  (s.record o).views = s.views ++ o.view?.toList
  := by
  rw [views, record, List.reverse_cons, List.filterMap_append]
  rfl

/-- The move of the hub that a step is, if it is one, given the listeners seen so far. -/
def Scene.moveOf? (s : Scene) (seen : List String) : Step → Option Move
  | .refresh reason user => some (.refresh reason user)
  | .submit package sourceId user report event =>
    some (.submit package sourceId user report (s.eventOf event))
  | .reportFailure package sourceId user event =>
    some (.reportFailure package sourceId user (s.eventOf event))
  | .listen listener package user _ => some (.listen listener package user)
  | .unlisten listener => if seen.contains listener then some (.unlisten listener) else none
  | .dismiss issue => some (.dismiss issue)
  | .execute issue actionId => some (.execute issue actionId)
  | .flush => some .flush
  | .clear => some .clear
  | .removeUser user => some (.removeUser user)
  | .reload doc => match Configuration.ofDocument doc with
    | .ok c => some (.reload c.catalog c.policy)
    | .error _ => none
  | .reportOf _ _ _ | .view _ | .restart _ | .shell _ | .shiftClock _ | .setUser _ | .setQuiet _ _
  | .dropUser _ | .breakArchive _ | .archive | .info | .unreadable => none

/-- Whether a step is finished by an answer alone. -/
def Ending.answers : Ending → Bool
  | .answer _ | .issue _ _ => true
  | .saveCleared | .replaced => false

/-- A step that is a move comes to what the move comes to, and to an answer. -/
theorem Scene.act_of_moveOf? {s : Scene} {seen : List String} {step : Step} {m : Move}
    (hmove : s.moveOf? seen step = some m) :
  ∃ ending, s.act seen step = s.changed (s.hub.outcome s.surroundings m) ending
    ∧ ending.answers = true
  := by
  have called (x : Except HubError Change) :
      ∃ ending, s.called x = s.changed (s.hub.called x) ending ∧ ending.answers = true := by
    cases x <;> exact ⟨_, rfl, rfl⟩
  cases step with
  | refresh reason user =>
    cases hmove
    rw [act, Hub.outcome]
    cases s.hub.refresh s.surroundings reason user <;> exact ⟨_, rfl, rfl⟩
  | submit _ _ _ _ _ | reportFailure _ _ _ _ | dismiss _ | execute _ _ =>
    cases hmove
    apply called
  | listen listener package user _ =>
    cases hmove
    rw [act, Hub.outcome]
    cases s.hub.listen s.surroundings listener package user <;> exact ⟨_, rfl, rfl⟩
  | unlisten listener =>
    rw [moveOf?] at hmove
    split at hmove
    next hseen =>
      cases hmove
      rw [act, if_pos hseen]
      exact ⟨_, rfl, rfl⟩
    next => cases hmove
  | flush =>
    cases hmove
    rw [act, Hub.outcome]
    obtain ⟨result, change⟩ := s.hub.flush
    cases result <;> exact ⟨_, rfl, rfl⟩
  | clear | removeUser _ =>
    cases hmove
    exact ⟨_, rfl, rfl⟩
  | reload doc =>
    simp only [moveOf?] at hmove
    simp only [act, configured]
    cases hdoc : Configuration.ofDocument doc with
    | ok c =>
      rw [hdoc] at hmove
      cases hmove
      exact ⟨_, rfl, rfl⟩
    | error e =>
      rw [hdoc] at hmove
      cases hmove
  | reportOf _ _ _ | view _ | restart _ | shell _ | shiftClock _ | setUser _ | setQuiet _ _
  | dropUser _ | breakArchive _ | archive | info | unreadable => cases hmove

namespace Session

variable {s : Session} {l l' : Live} {tasks tasks' : List Task}

/-- No listener has a reply to make. -/
def Silent (s : Session) : Prop :=
  ∀ listener, next? listener s.replies = none

/-- A scene shows a live hub: its hub, and on its log the overviews that are received. -/
structure Shows (s : Scene) (l : Live) : Prop where
  hub : s.hub = l.hub
  views : s.views = l.received.map fun p => (p.1.listener, p.2)

/-- Carried out first, tasks lead a session to where it shows a live hub. -/
def LeadTo (s : Session) (tasks : List Task) (l : Live) : Prop :=
  ∀ rest, ∃ scene, run (tasks ++ rest) s = run rest { s with scene } ∧ Shows scene l

theorem LeadTo.nil (hshows : Shows s.scene l) : s.LeadTo [] l :=
  fun _ => ⟨s.scene, rfl, hshows⟩

theorem LeadTo.append (hfirst : s.LeadTo tasks l)
    (hnext : ∀ scene, Shows scene l → LeadTo { s with scene } tasks' l') :
  s.LeadTo (tasks ++ tasks') l'
  := by
  intro rest
  obtain ⟨scene, hrun, hshows⟩ := hfirst (tasks' ++ rest)
  obtain ⟨scene', hrun', hshows'⟩ := hnext scene hshows rest
  refine ⟨scene', ?_, hshows'⟩
  rw [List.append_assoc, hrun, hrun']

/-! ### Tasks -/

/-- What is put on the log without being an overview. -/
theorem leadTo_record (hshows : Shows s.scene l) {o : Occurrence} (hother : o.view? = none) :
  s.LeadTo [.record o] l
  := by
  intro rest
  refine ⟨s.scene.record o, ?_, hshows.hub, ?_⟩
  · rw [List.singleton_append, run]
  · rw [Scene.views_record, hother, Option.toList_none, List.append_nil, hshows.views]

/-- An offer that nobody replies to. -/
theorem leadTo_offer (hsilent : s.Silent) (hshows : Shows s.scene l) (r : Registration)
    (sequence : Nat) (view : Overview) :
  s.LeadTo [.offer r sequence view] (l.offer r sequence view)
  := by
  intro rest
  let audience := (s.scene.hub.audience.offer r sequence view).2
  let scene : Scene := { s.scene with hub := { s.scene.hub with audience } }
  have hhub : scene.hub = (l.offer r sequence view).hub := by
    simp only [scene, audience, hshows.hub]
    rfl
  have htaken : (s.scene.hub.audience.offer r sequence view).1
      = (l.hub.audience.offeredTo r.ticket).takes sequence view := by
    rw [hshows.hub]
    rfl
  rw [List.singleton_append, run]
  by_cases htakes : (l.hub.audience.offeredTo r.ticket).takes sequence view = true
  · refine ⟨scene.record (.view r.listener view), ?_, hhub, ?_⟩
    · dsimp only
      rw [if_pos (htaken.trans htakes)]
      split
      next hreply => cases (hsilent r.listener).symm.trans hreply
      next hreply => cases (hsilent r.listener).symm.trans hreply
      next => rfl
    · rw [Scene.views_record, Live.received_offer, if_pos htakes, List.map_append,
        ← hshows.views]
      rfl
  · refine ⟨scene, ?_, hhub, ?_⟩
    · dsimp only
      rw [if_neg (htaken ▸ htakes)]
    · rw [Live.received_offer, if_neg htakes, ← hshows.views]
      rfl

theorem leadTo_records (hshows : Shows s.scene l) (os : List Occurrence)
    (hother : ∀ o ∈ os, o.view? = none) :
  s.LeadTo (os.map .record) l
  := by
  induction os generalizing s with
  | nil => exact .nil hshows
  | cons o os ih =>
    obtain ⟨ho, hos⟩ := List.forall_mem_cons.mp hother
    rw [List.map_cons, ← List.singleton_append]
    apply (leadTo_record hshows ho).append
    intro scene hshows
    exact ih (s := { s with scene }) hshows hos

theorem leadTo_offers (hsilent : s.Silent) (hshows : Shows s.scene l)
    (targets : List (Registration × Nat × Overview)) :
  s.LeadTo (targets.map fun t => .offer t.1 t.2.1 t.2.2) (l.offerAll targets)
  := by
  induction targets generalizing s l with
  | nil => exact .nil hshows
  | cons t targets ih =>
    rw [List.map_cons, ← List.singleton_append]
    apply (leadTo_offer hsilent hshows t.1 t.2.1 t.2.2).append
    intro scene hshows
    exact ih (s := { s with scene }) hsilent hshows

/-- What an effect reaches are its targets, or it puts something on the log that is no
overview. -/
theorem leadTo_reach (hsilent : s.Silent) (hshows : Shows s.scene l) (effect : Effect) :
  s.LeadTo (reach s.scene.hub.audience effect) (l.offerAll (effect.targets l.hub.audience))
  := by
  have hoffers := leadTo_offers hsilent hshows (effect.targets l.hub.audience)
  rw [hshows.hub]
  cases effect with
  | signal signal => exact leadTo_record hshows rfl
  | notice parent notice =>
    have hrecords := leadTo_records hshows
      ((l.hub.audience.registrations parent).map fun r => .notice r.listener notice)
    rw [List.map_map] at hrecords
    apply hrecords
    simp [Occurrence.view?]
  | offer _ _ _ _ | offerTo _ _ _ _ =>
    rw [Effect.targets, List.map_map] at hoffers
    exact hoffers

/-- Without replies a session carries out effects as a live hub does. -/
theorem leadTo_carryOut (hsilent : s.Silent) (hshows : Shows s.scene l)
    (effects : List Effect) :
  s.LeadTo (effects.map .carryOut) (l.perform effects)
  := by
  induction effects generalizing s l with
  | nil => exact .nil hshows
  | cons effect effects ih =>
    have hreach : s.LeadTo [.carryOut effect]
        (l.offerAll (effect.targets l.hub.audience)) := by
      intro rest
      rw [List.singleton_append, run]
      apply leadTo_reach hsilent hshows effect rest
    rw [List.map_cons, ← List.singleton_append]
    apply hreach.append
    intro scene hshows
    exact ih (s := { s with scene }) hsilent hshows

/-! ### Steps and turns -/

/-- Carried out alone, tasks lead a session to where it shows a live hub. -/
theorem LeadTo.shows (hlead : s.LeadTo tasks l) :
  ∃ scene, run tasks s = { s with scene } ∧ Shows scene l
  := by
  obtain ⟨scene, hrun, hshows⟩ := hlead []
  rw [List.append_nil, run] at hrun
  exact ⟨scene, hrun, hshows⟩

/-- A step brings no replies with it. -/
theorem silent_meet (hsilent : s.Silent) {step : Step}
    (hquiet : ∀ listener package user queue, step = .listen listener package user queue →
      queue = []) (scene : Scene) :
  Silent { scene, replies := meet s.replies step }
  := by
  intro name
  cases step with
  | listen listener package user queue =>
    rw [hquiet _ _ _ _ rfl, meet]
    dsimp only
    split
    · apply hsilent
    · rw [next?]
      split
      · rfl
      · rw [hsilent, Option.map_none]
  | _ => apply hsilent

/-- A step that is a move comes to what the move comes to for a live hub. -/
theorem shows_perform (hsilent : s.Silent) (hshows : Shows s.scene l) {step : Step} {m : Move}
    (hmove : s.scene.moveOf? ((meet s.replies step).map (·.1)) step = some m)
    (hquiet : ∀ listener package user queue, step = .listen listener package user queue →
      queue = []) :
  let s' := run [.perform none step] s
  s'.Silent ∧ Shows s'.scene (l.move s.scene.surroundings m)
  := by
  intro s'
  obtain ⟨ending, hact, hending⟩ := Scene.act_of_moveOf? hmove
  let c := s.scene.hub.outcome s.scene.surroundings m
  let changed : Session :=
    { scene := { s.scene with hub := c.hub }, replies := meet s.replies step }
  have hsilent' : changed.Silent := silent_meet hsilent hquiet _
  have hlead : changed.LeadTo (c.effects.map .carryOut) (l.move s.scene.surroundings m) := by
    rw [Live.move, ← hshows.hub]
    exact leadTo_carryOut (l := { l with hub := c.hub }) hsilent' ⟨rfl, hshows.views⟩ c.effects
  obtain ⟨scene, hrun, hshows'⟩ := hlead [.finish none ending]
  have hs' : s' = run [.finish none ending] { changed with scene } := by
    have hbelow : below s.scene.hub.audience ending [] = [] := by
      cases ending <;> rfl
    change run [.perform none step] s = _
    rw [← hrun, run, hact, Scene.changed]
    dsimp only
    rw [hbelow]
  cases ending with
  | answer _ | issue _ _ =>
    rw [hs', run, run]
    exact ⟨hsilent', hshows'.hub, hshows'.views⟩
  | saveCleared | replaced => cases hending

/-- The turn of a deadline. -/
theorem takeTurns_of_next? (hsilent : s.Silent) (hshows : Shows s.scene l) {turns limit : Nat}
    {e : Armed Unit} (hnext : s.scene.hub.deadlines.next? limit = some e) :
  let taken : Scene := { s.scene with
    hub := { s.scene.hub with deadlines := s.scene.hub.deadlines.take e } }
  ∃ scene, takeTurns (turns + 1) limit s = takeTurns turns limit { s with scene }
    ∧ Shows scene (l.undergo (taken.hub.turn taken.surroundings e.key))
  := by
  intro taken
  let c := taken.hub.turn taken.surroundings e.key
  have hlead := leadTo_carryOut (s := { s with scene := { taken with hub := c.hub } })
    (l := { l with hub := c.hub }) hsilent ⟨rfl, hshows.views⟩ c.effects
  obtain ⟨scene, hrun, hshows'⟩ := hlead.shows
  refine ⟨scene, ?_, hshows'⟩
  rw [takeTurns, hnext, ← hrun]

end Session

end SafetyHub
