import SafetyHub.Proofs.Hub.Saving
import SafetyHub.Proofs.Overview.Errors
import SafetyHub.Proofs.Session.Silent

/-!
# Clearing from the shell

The shell command that clears all data leaves nothing of what was known: no report or mark, no
dismissal record, no action and no refresh in flight, no deadline, and overviews that show
nothing.  What it has cleared it then saves.  If that succeeds the archive holds no records, so
that no hub that is started from it has any; if it does not, everything is cleared all the same
and is yet to be saved.
-/

namespace SafetyHub

/-- An overview shows no issue, no error and no refresh, and says that nothing is known. -/
structure Overview.Blank (o : Overview) : Prop where
  severity : o.status.severity = .unknown
  refreshStatus : o.status.refreshStatus = .none
  errorEntries : o.status.errorEntries = 0
  issues : o.issues = []
  dismissedIssues : o.dismissedIssues = []
  entries : ∀ e ∈ o.entries, e.state ≠ .error

namespace Hub

variable {h h' : Hub} {env : Surroundings} {answer : Except ShellError String}

/-- Nothing is known: there are no reports, marks and dismissal records, and no action and no
refresh is in flight. -/
structure Blank (h : Hub) : Prop where
  report : ∀ key, h.reports.report? key = none
  failed : ∀ key, h.reports.isFailed key = false
  record : ∀ issue, h.dismissals.record? issue = none
  inFlight : ∀ action, action ∉ h.inFlight
  refresh : h.tracker.current = none

theorem Blank.congr (hblank : h.Blank) (hreports : h'.reports = h.reports)
    (hrecords : h'.dismissals.records = h.dismissals.records)
    (hinFlight : h'.inFlight = h.inFlight) (htracker : h'.tracker = h.tracker) :
  h'.Blank
  where
  report key := by rw [hreports, hblank.report]
  failed key := by rw [hreports, hblank.failed]
  record issue := by
    rw [Dismissals.record?, hrecords]
    apply hblank.record
  inFlight action := by
    rw [hinFlight]
    apply hblank.inFlight
  refresh := by rw [htracker, hblank.refresh]

/-- A hub that knows nothing shows nothing. -/
theorem Blank.overview (hblank : h.Blank) (now : Instant) (group : ProfileGroup) :
  (h.overview now group).Blank
  := by
  have hreport (c : Cell) : (h.basis now).report? c = none := hblank.report c.key
  have hsorted : (h.basis now).sorted group = [] := by
    apply List.eq_nil_iff_forall_not_mem.mpr
    intro i hi
    obtain ⟨c, -, hi⟩ := List.mem_flatMap.mp (Basis.mem_sorted_iff.mp hi)
    rw [Basis.issuesIn, hreport] at hi
    cases hi
  constructor
  · apply Basis.severity_eq_unknown_iff.mpr
    intro c _
    apply hreport
  · show h.tracker.statusFor group = .none
    rw [RefreshTracker.statusFor, hblank.refresh]
  · apply List.countP_eq_zero.mpr
    intro c _ hfailed
    cases (hblank.failed c.key).symm.trans hfailed
  · rw [Hub.overview, Basis.issues_assemble, hsorted]
    rfl
  · rw [Hub.overview, Basis.dismissedIssues_assemble, hsorted]
    rfl
  · intro e he herror
    obtain ⟨-, -, -, hfailed⟩ := Basis.exists_error_entry_iff.mp ⟨e, he, rfl, herror⟩
    cases (hblank.failed e.sourceKey).symm.trans hfailed

/-! ### Clearing -/

/-- Everything is cleared, and saving that is all that there is to do. -/
structure Awaits (h h' : Hub) : Prop where
  blank : h'.Blank
  dirty : h'.dismissals.dirty = true
  armed : ∀ e ∈ h'.deadlines.armed, e.key = .persistWrite
  archive : h'.archive = h.archive

theorem forall_armed_schedulePersist {h : Hub}
    (harmed : ∀ e ∈ h.deadlines.armed, e.key = .persistWrite) :
  ∀ e ∈ h.schedulePersist.deadlines.armed, e.key = .persistWrite
  := by
  unfold schedulePersist
  split
  · intro e he
    obtain he | he := List.mem_append.mp he
    · exact harmed e (List.mem_of_mem_filter he)
    · rw [List.mem_singleton.mp he]
  · exact harmed

theorem blank_cleared (h : Hub) : h.cleared.Blank := by
  constructor <;> simp [cleared, Dismissals.clear, Dismissals.record?, ReportStore.report?,
    ReportStore.get?, ReportStore.isFailed, RefreshTracker.clearAll]

theorem awaits_clear (h : Hub) (env : Surroundings) : h.Awaits (h.clear env).hub := by
  have hlike : h.cleared.Like (h.clear env).hub :=
    (Like.schedulePersist h.cleared).trans (.publish _ env)
  obtain ⟨deadlines, sequence, -, -, heq⟩ := hlike
  have harmed : ∀ e ∈ (h.clear env).hub.deadlines.armed, e.key = .persistWrite := by
    apply forall_armed_schedulePersist
    intro e he
    simpa using (List.mem_filter.mp he).2
  rw [heq] at harmed ⊢
  exact ⟨(blank_cleared h).congr rfl rfl rfl rfl, rfl, harmed, rfl⟩

/-- Which offers listeners have had does not matter. -/
theorem Awaits.withAudience (hawaits : h.Awaits h') (audience : Audience) :
  h.Awaits { h' with audience }
  where
  blank := hawaits.blank.congr rfl rfl rfl rfl
  dirty := hawaits.dirty
  armed := hawaits.armed
  archive := hawaits.archive

/-! ### Saving what is cleared -/

/-- What is left once everything is cleared and the saving of that has come to an answer. -/
structure LeftBy (h : Hub) (answer : Except ShellError String) (h' : Hub) : Prop where
  blank : h'.Blank
  overview : ∀ now group, (h'.overview now group).Blank
  armed : h'.deadlines.armed = []
  answered : answer = .ok "Cleared all safety center data" ∧ h.archive.unwritable = none
    ∨ ∃ e, answer = .error ⟨"writing cleared dismissal state", .archive e⟩
      ∧ h.archive.unwritable = some e
  /-- Once it is saved that everything is cleared, a hub that is started from the archive has no
  records, under whatever catalog and policy. -/
  saved : ∀ text, answer = .ok text → h'.dismissals.dirty = false ∧ h'.archive.records = []
    ∧ h'.archive.load = .ok []
    ∧ ∀ catalog policy time,
      let fresh := start catalog policy h'.archive h'.archive.load time
      (∀ issue, fresh.dismissals.record? issue = none) ∧ fresh.dismissals.dirty = false
  unsaved : ∀ e, answer = .error e → h'.dismissals.dirty = true ∧ h'.archive = h.archive

theorem Awaits.saved_eq (hawaits : h.Awaits h') : h'.dismissals.saved = [] := by
  have hrecords : h'.dismissals.records = ∅ :=
    Std.ExtTreeMap.ext_getElem? fun {issue} => (hawaits.blank.record issue).trans (by simp)
  rw [Dismissals.saved, hrecords]
  rfl

theorem Awaits.armed_flush (hawaits : h.Awaits h') : h'.flush.2.hub.deadlines.armed = [] := by
  rw [flush, deadlines_write]
  apply List.filter_eq_nil_iff.mpr
  intro e he
  simp [hawaits.armed e he]

/-- Saving leaves what is known as it is. -/
theorem Blank.flush (hblank : h.Blank) : h.flush.2.hub.Blank := by
  obtain heq | ⟨-, archive, -, heq⟩ := hub_write_cases (h.disarm .persistWrite) <;>
  · rw [Hub.flush, heq]
    exact hblank.congr rfl rfl rfl rfl

/-- An archive that nothing keeps from saving. -/
theorem save_of_writable {a : Archive} (hwritable : a.unwritable = none)
    (records : List SavedRecord) :
  a.save records = .ok { a with records, saves := a.saves + 1, unreadable := none }
  := by
  unfold Archive.save
  split
  next e hunwritable => cases hwritable.symm.trans hunwritable
  next => rfl

theorem Awaits.flush_of_writable (hawaits : h.Awaits h') (hwritable : h.archive.unwritable = none) :
  h'.flush.1 = .ok () ∧ h'.flush.2.hub.dismissals.dirty = false
    ∧ h'.flush.2.hub.archive.records = [] ∧ h'.flush.2.hub.archive.load = .ok []
  := by
  have hsave := save_of_writable hwritable []
  rw [← hawaits.saved_eq, ← hawaits.archive] at hsave
  have hdirty : (h'.disarm .persistWrite).dismissals.dirty = true := hawaits.dirty
  rw [flush, write, if_pos hdirty]
  dsimp only [disarm]
  rw [hsave, hawaits.saved_eq]
  exact ⟨rfl, rfl, rfl, rfl⟩

theorem Awaits.flush_of_unwritable (hawaits : h.Awaits h') {e : ArchiveError}
    (hunwritable : h.archive.unwritable = some e) :
  h'.flush.1 = .error (.archive e) ∧ h'.flush.2.hub.dismissals.dirty = true
    ∧ h'.flush.2.hub.archive = h.archive
  := by
  have hsave : h'.archive.save h'.dismissals.saved = .error e := by
    rw [hawaits.archive, Archive.save, hunwritable]
  have hdirty : (h'.disarm .persistWrite).dismissals.dirty = true := hawaits.dirty
  rw [flush, write, if_pos hdirty]
  dsimp only [disarm]
  rw [hsave]
  exact ⟨rfl, rfl, hawaits.archive⟩

/-- What is cleared is saved by a flush, whose result is worded. -/
theorem save_eq (h : Hub) :
  ShellCommand.save h = (match h.flush.1 with
    | .ok () => .ok "Cleared all safety center data"
    | .error cause => .error ⟨"writing cleared dismissal state", cause⟩, h.flush.2)
  := by
  rw [ShellCommand.save]
  split
  next hflush => rw [hflush]
  next hflush => rw [hflush]

/-- A hub that is started without records has none, and none to save. -/
theorem start_without_records (catalog : Catalog) (policy : Policy) (archive : Archive)
    (time : Nat) :
  let fresh := start catalog policy archive (.ok []) time
  (∀ issue, fresh.dismissals.record? issue = none) ∧ fresh.dismissals.dirty = false
  := by
  have hdismissals : (start catalog policy archive (.ok []) time).dismissals
      = Dismissals.load [] catalog := by
    rw [start, (Like.schedulePersist _).keeps.dismissals]
  dsimp only
  rw [hdismissals]
  refine ⟨?_, rfl⟩
  intro issue
  simp [Dismissals.load, Dismissals.record?]

theorem Awaits.leftBy_save (hawaits : h.Awaits h') :
  h.LeftBy (ShellCommand.save h').1 (ShellCommand.save h').2.hub
  := by
  have hblank := hawaits.blank.flush
  rw [save_eq]
  cases hunwritable : h.archive.unwritable with
  | none =>
    obtain ⟨hok, hclean, hrecords, hload⟩ := hawaits.flush_of_writable hunwritable
    rw [hok]
    refine ⟨hblank, hblank.overview, hawaits.armed_flush, .inl ⟨rfl, hunwritable⟩, ?_, nofun⟩
    intro text _
    dsimp only
    rw [hload]
    exact ⟨hclean, hrecords, rfl, fun catalog policy time => start_without_records ..⟩
  | some e =>
    obtain ⟨herror, hdirty, harchive⟩ := hawaits.flush_of_unwritable hunwritable
    rw [herror]
    exact ⟨hblank, hblank.overview, hawaits.armed_flush, .inr ⟨e, rfl, hunwritable⟩, nofun,
      fun _ _ => ⟨hdirty, harchive⟩⟩

/-- Which offers listeners have had does not matter. -/
theorem LeftBy.withAudience (hleft : h.LeftBy answer h') (audience : Audience) :
  h.LeftBy answer { h' with audience }
  where
  blank := hleft.blank.congr rfl rfl rfl rfl
  overview := hleft.overview
  armed := hleft.armed
  answered := hleft.answered
  saved := hleft.saved
  unsaved := hleft.unsaved

end Hub

namespace Session

variable {s : Session}

/-- Every scene shows a live hub. -/
theorem exists_shows (s : Scene) : ∃ l, Shows s l := by
  use ⟨s.hub, s.views.map fun v => (⟨0, v.1, ""⟩, v.2)⟩, rfl
  rw [List.map_map]
  exact (List.map_id _).symm

/-- Without replies, carrying out effects changes nothing of the hub but what listeners have been
offered, and says nothing. -/
theorem exists_run_carryOut (hsilent : s.Silent) (effects : List Effect) (rest : List Task) :
  ∃ scene audience, run (effects.map .carryOut ++ rest) s = run rest { s with scene }
    ∧ scene.hub = { s.scene.hub with audience }
  := by
  obtain ⟨l, hshows⟩ := exists_shows s.scene
  obtain ⟨scene, hrun, hshows'⟩ := leadTo_carryOut hsilent hshows effects rest
  obtain ⟨offered, hhub⟩ := l.exists_hub_undergo ⟨l.hub, effects⟩
  refine ⟨scene, { s.scene.hub.audience with offered }, hrun, ?_⟩
  rw [hshows'.hub, hshows.hub]
  exact hhub

/-- Clearing in a session comes to what clearing a hub comes to, if no listener replies. -/
theorem leftBy_clearData (hsilent : s.Silent) :
  let s' := run [.perform none (.shell .clearData)] s
  ∃ answer, s'.scene.answer = .ofShell answer ∧ s.scene.hub.LeftBy answer s'.scene.hub
  := by
  -- first everything is cleared, and that is offered to listeners
  let c := s.scene.hub.clear s.scene.surroundings
  obtain ⟨shown, audience, hshown, hhub⟩ := exists_run_carryOut
    (s := { s with scene := { s.scene with hub := c.hub } }) hsilent c.effects
    [.finish none .saveCleared]
  have hawaits : s.scene.hub.Awaits shown.hub := by
    rw [hhub]
    apply (s.scene.hub.awaits_clear s.scene.surroundings).withAudience
  -- then that is saved
  rcases hsave : ShellCommand.save shown.hub with ⟨answer, saved⟩
  obtain ⟨ended, audience', hended, hhub'⟩ := exists_run_carryOut
    (s := { s with scene := { shown with hub := saved.hub } }) hsilent saved.effects
    [.finish none (.answer (.ofShell answer))]
  have hrun : run [.perform none (.shell .clearData)] s
      = { s with scene := { ended with answer := .ofShell answer } } := by
    calc run [.perform none (.shell .clearData)] s
      _ = run (c.effects.map .carryOut ++ [.finish none .saveCleared])
            { s with scene := { s.scene with hub := c.hub } } := by
          rw [run]
          rfl
      _ = run [.finish none .saveCleared] { s with scene := shown } := hshown
      _ = run (saved.effects.map .carryOut ++ [.finish none (.answer (.ofShell answer))])
            { s with scene := { shown with hub := saved.hub } } := by
          rw [run]
          simp only [hsave]
      _ = run [.finish none (.answer (.ofShell answer))] { s with scene := ended } := hended
      _ = { s with scene := { ended with answer := .ofShell answer } } := by
          rw [run, run]
          rfl
  dsimp only
  rw [hrun]
  have hleft := hawaits.leftBy_save
  rw [hsave] at hleft
  refine ⟨answer, rfl, ?_⟩
  show s.scene.hub.LeftBy answer ended.hub
  rw [hhub']
  exact hleft.withAudience audience'

end Session

/-- Clearing from the shell leaves nothing.  No report, mark, dismissal record, action or refresh
is left, no deadline is armed, and overviews show no issue, no error and no refresh and say that
nothing is known.  If the command succeeds, no change is left to be saved, the archive holds no
record, and a hub that is started from it has none and nothing to save, under any catalog and
policy; if it fails, which it does exactly when the archive takes nothing, all this is cleared all
the same and is yet to be saved.  It is the same for sessions in which no listener replies to the
overviews that it is offered while the command is carried out. -/
theorem ShellCommand.clearData_leaves_nothing (h : Hub) (env : Surroundings) :
  h.LeftBy (clearData.run h env).1 (clearData.run h env).2.hub
    ∧ ∀ s : Session, s.Silent →
      let s' := Session.run [.perform none (.shell .clearData)] s
      ∃ answer, s'.scene.answer = .ofShell answer ∧ s.scene.hub.LeftBy answer s'.scene.hub
  := by
  constructor
  · exact (h.awaits_clear env).leftBy_save
  · intro s hsilent
    exact Session.leftBy_clearData hsilent

/-- A session in which an issue is reported, and its archive takes nothing. -/
theorem ShellCommand.clearData_of_reported_issue :
  let h := (Hub.start Sample.catalog {} { unwritable := some .inaccessible } (.ok []) 0).after
    [(Sample.device, Sample.submission ["fix"])]
  let s : Session := { scene := { hub := h, users := Sample.device.users, clockStart := 0 } }
  let s' := Session.run [.perform none (.shell .clearData)] s
  s.Silent ∧ ¬ h.Blank ∧ s'.scene.hub.Blank
    ∧ s'.scene.answer
      = .shellFailed ⟨"writing cleared dismissal state", .archive .inaccessible⟩
    ∧ s'.scene.hub.dismissals.dirty = true
  := by
  intro h s s'
  have hsilent : s.Silent := fun _ => rfl
  obtain ⟨-, hsessions⟩ := clearData_leaves_nothing h Sample.device
  obtain ⟨answer, hanswer, hleft⟩ := hsessions s hsilent
  have hunwritable : h.archive.unwritable = some .inaccessible := by decide
  obtain ⟨-, hwritable⟩ | ⟨e, rfl, he⟩ := hleft.answered
  · cases hwritable.symm.trans hunwritable
  · cases he.symm.trans hunwritable
    refine ⟨hsilent, ?_, hleft.blank, hanswer, (hleft.unsaved _ rfl).1⟩
    intro hblank
    exact absurd (hblank.report ⟨"s", 0⟩) (by decide)

end SafetyHub
