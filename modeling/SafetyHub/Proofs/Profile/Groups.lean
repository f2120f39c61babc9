import SafetyHub.Profile
import SafetyHub.Proofs.Basic
import Mathlib.Data.List.Nodup

/-!
# Groups in normal form

A profile group that is built from its members lists every managed profile once, and not its
parent.  The group of a user of a roster has a parent that is no managed profile, and its other
users are.
-/

namespace SafetyHub.ProfileGroup

open Std

/-- The profiles of a group are listed once each, and the parent is none of them. -/
structure Normal (g : ProfileGroup) : Prop where
  parent_not_mem : g.parent ∉ g.managed
  nodup : g.managed.Nodup
  running_sublist : g.running.Sublist g.managed

theorem normal_ofMembers (parent : UserId) (members : List (UserId × Bool)) :
  (ofMembers parent members).Normal
  where
  parent_not_mem := by
    simp [ofMembers]
  nodup := by
    simp only [ofMembers]
    apply nodup_toList
  running_sublist := List.filter_sublist

variable {g : ProfileGroup}

theorem Normal.nodup_running (hnormal : g.Normal) : g.running.Nodup :=
  hnormal.nodup.sublist hnormal.running_sublist

theorem Normal.parent_not_mem_running (hnormal : g.Normal) : g.parent ∉ g.running :=
  fun hin => hnormal.parent_not_mem (hnormal.running_sublist.subset hin)

end SafetyHub.ProfileGroup

namespace SafetyHub.Roster

variable {r : Roster} {user : UserId} {g : ProfileGroup}

theorem id_of_user? {u : UserInfo} (h : r.user? user = some u) : u.id = user := by
  rw [user?] at h
  simpa using List.find?_some h

/-- A user that has a group is known, and is a managed profile unless it is the parent. -/
theorem exists_user?_of_resolve? (h : r.resolve? user = some g) :
  ∃ u, r.user? user = some u ∧ (u.isManaged = true ↔ user ≠ g.parent)
  := by
  simp only [resolve?, Option.bind_eq_bind, Option.bind_eq_some_iff] at h
  obtain ⟨u, hu, parent, hparent, h⟩ := h
  obtain rfl := id_of_user? hu
  use u, hu
  split at h
  next => cases h
  next hunmanaged =>
    cases h
    show u.isManaged = true ↔ u.id ≠ u.profileParent.getD u.id
    constructor
    · intro hmanaged heq
      rw [← heq, hu, Option.some_inj] at hparent
      rw [← hparent] at hunmanaged
      exact hunmanaged hmanaged
    · intro hne
      rw [UserInfo.isManaged]
      cases hp : u.profileParent with
      | none => simp [hp] at hne
      | some _ => rfl

end SafetyHub.Roster
