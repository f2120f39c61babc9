import SafetyHub.Proofs.Archive.RoundTrip
import SafetyHub.Proofs.Dismissal.Records
import SafetyHub.Proofs.Hub.Run

/-!
# What records hold

A record is loaded, or begins at a reading of the clock, and is dismissed at others.  So what holds
of the records that are loaded and of those that begin, and is kept by dismissing, holds of every
record after every run, `Hub.all_after`.  In particular the instants of records are supported as
long as the readings of the clock are, and whatever a hub saves is loaded as it was.
-/

namespace SafetyHub

open Std

namespace Dismissals

variable {d d' : Dismissals} {P : DismissalRecord → Prop} {now : Instant}

/-- Every record has a property. -/
def All (d : Dismissals) (P : DismissalRecord → Prop) : Prop :=
  ∀ issue r, d.record? issue = some r → P r

namespace All

theorem of_records (hall : d.All P) (hsame : d'.records = d.records) : d'.All P := by
  intro issue r hr
  rw [record?, hsame] at hr
  apply hall issue r hr

theorem of_empty (hempty : d.records = ∅) : d.All P := by
  intro issue r hr
  rw [record?, hempty, ExtTreeMap.getElem?_empty] at hr
  cases hr

theorem load {saved : List SavedRecord} (hsaved : ∀ s ∈ saved, P s.record) (catalog : Catalog) :
  (Dismissals.load saved catalog).All P
  := by
  intro issue r hr
  obtain ⟨s, hs, rfl⟩ := exists_mem_of_record?_load hr
  apply hsaved s hs

/-- Dropping records leaves none without the property. -/
theorem restrict (hall : d.All P) {p : IssueKey → Bool}
    (hrecord : ∀ issue, d'.record? issue = if p issue then d.record? issue else none) :
  d'.All P
  := by
  intro issue r hr
  rw [hrecord, Option.ite_none_right_eq_some] at hr
  apply hall issue r hr.2

theorem reconcile (hall : d.All P) (hfresh : P (.fresh now)) (source : SourceKey)
    (reported : List String) :
  (d.reconcile source reported now).All P
  := by
  intro issue r hr
  rw [record?_reconcile] at hr
  split at hr
  · obtain ⟨-, hr⟩ := Option.ite_none_right_eq_some.mp hr
    cases hold : d.record? issue with
    | some old =>
      rw [hold] at hr
      cases hr
      apply hall issue old hold
    | none =>
      rw [hold] at hr
      cases hr
      exact hfresh
  · apply hall issue r hr

theorem dismiss (hall : d.All P) (hdismiss : ∀ r, P r → P (r.dismiss now)) (issue : IssueKey) :
  ((d.dismiss? issue now).getD d).All P
  := by
  cases hrecord : d.record? issue with
  | none => rwa [dismiss?, hrecord]
  | some r =>
    intro other r' hr'
    rw [record?_dismiss? hrecord] at hr'
    split at hr'
    · cases hr'
      apply hdismiss r (hall issue r hrecord)
    · apply hall other r' hr'

/-- The records that are saved have the property. -/
theorem saved (hall : d.All P) : ∀ s ∈ d.saved, P s.record := by
  intro s hs
  obtain ⟨⟨issue, r⟩, hin, rfl⟩ := List.mem_map.mp hs
  apply hall issue r (ExtTreeMap.mem_toList_iff_getElem?_eq_some.mp hin)

end All

end Dismissals

namespace Hub

variable {h h' : Hub} {env : Surroundings} {P : DismissalRecord → Prop}

/-- A property that records begin with at a reading of the clock, and that dismissing them at it
keeps. -/
structure Lasts (P : DismissalRecord → Prop) (now : Instant) : Prop where
  fresh : P (.fresh now)
  dismiss : ∀ r, P r → P (r.dismiss now)

/-- A move keeps a property of all records that lasts at its reading of the clock. -/
theorem Affects.all (haffects : h.Affects env h') (hlasts : Lasts P env.now)
    (hall : h.dismissals.All P) :
  h'.dismissals.All P
  := by
  cases haffects with
  | nothing hkeeps | execute _ hkeeps => rwa [hkeeps.dismissals]
  | store source report _ _ hkeeps =>
    rw [hkeeps.dismissals, dismissals_store]
    apply hall.reconcile hlasts.fresh
  | dismiss _ hkeeps =>
    rw [hkeeps.dismissals]
    apply hall.dismiss hlasts.dismiss
  | clear hkeeps =>
    rw [hkeeps.dismissals]
    exact .of_empty rfl
  | without user hkeeps =>
    rw [hkeeps.dismissals]
    apply hall.restrict (Dismissals.record?_clearForUser h.dismissals user)
  | under catalog policy hkeeps =>
    rw [hkeeps.dismissals, dismissals_under]
    apply hall.restrict (Dismissals.record?_retainConfigured h.dismissals catalog)
  | @write between hkeeps =>
    have hbetween : between.dismissals.All P := by rwa [hkeeps.dismissals]
    obtain heq | ⟨-, archive, -, heq⟩ := hub_write_cases between
    · rw [heq]
      apply hbetween.of_records rfl
    · rw [heq]
      apply hbetween.of_records rfl
  | setFault fault => exact hall

theorem all_start {loaded : Except ArchiveError (List SavedRecord)}
    (hloaded : ∀ records, loaded = .ok records → ∀ s ∈ records, P s.record) (catalog : Catalog)
    (policy : Policy) (archive : Archive) (time : Nat) :
  (start catalog policy archive loaded time).dismissals.All P
  := by
  have hsame : _ = (start catalog policy archive loaded time).dismissals :=
    (Like.schedulePersist _).keeps.dismissals.symm
  rw [← hsame]
  cases loaded with
  | ok records => exact .load (hloaded records rfl) catalog
  | error e => exact .of_empty rfl

/-- A property of all records that lasts at every reading of the clock is kept by every run. -/
theorem all_after (hall : h.dismissals.All P) {moves : List (Surroundings × Move)}
    (hlasts : ∀ p ∈ moves, Lasts P p.1.now) :
  (h.after moves).dismissals.All P
  := by
  induction moves generalizing h with
  | nil => exact hall
  | cons p moves ih =>
    obtain ⟨env, m⟩ := p
    obtain ⟨hfirst, hrest⟩ := List.forall_mem_cons.mp hlasts
    apply ih ((step_move h env m).affects.all hfirst hall) hrest

/-! ### Supported instants -/

theorem lasts_isSupported {now : Instant} (hnow : now.IsSupported) :
  Lasts (fun r => ∀ key, (⟨key, r⟩ : SavedRecord).IsSupported) now
  where
  fresh _ := ⟨hnow, fun _ => nofun⟩
  dismiss r hr key := ⟨(hr key).firstSeenAt, by rintro _ ⟨⟩; exact hnow⟩

/-- Whatever a hub that has started from a place holds after a run is loaded as it was, once it is
saved at some place, if the readings of the clock were supported. -/
theorem saved_loaded_after (catalog : Catalog) (policy : Policy) (archive : Archive)
    (source : ArchiveFile) (time : Nat) (moves : List (Surroundings × Move))
    (hclock : ∀ p ∈ moves, p.1.now.IsSupported) (place saved : ArchiveFile) :
  let h := (start catalog policy archive source.load time).after moves
  place.save h.dismissals.saved = .ok saved → saved.load = .ok h.dismissals.saved
  := by
  intro h
  apply ArchiveFile.load_of_save
  have hall : h.dismissals.All fun r => ∀ key, (⟨key, r⟩ : SavedRecord).IsSupported := by
    apply all_after _ fun p hp => lasts_isSupported (hclock p hp)
    apply all_start
    intro records hload s hs key
    obtain ⟨hfirst, hlast⟩ := ArchiveFile.isSupported_of_load hload s hs
    exact ⟨hfirst, hlast⟩
  exact fun s hs => hall.saved s hs s.key

end Hub

end SafetyHub
