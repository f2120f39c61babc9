import SafetyHub.Proofs.Profile.Groups

/-!
# Groups partition the users

In a roster whose users have distinct names a user belongs to the group that it resolves to and
to no other, and every member of a group resolves to that group.  The parent of a group is a user
that is no managed profile, so a user has no group if it is not known, or if it is a profile of
somebody who is not known or is a managed profile itself.  `Roster.groups` lists every group once,
in the order of the parents.
-/

namespace SafetyHub

open Std

namespace ProfileGroup

variable {g : ProfileGroup} {user : UserId}

theorem contains_iff_mem_members : g.contains user = true ↔ user ∈ g.members := by
  simp [contains, members, eq_comm (a := user)]

theorem mem_managed_ofMembers {parent : UserId} {members : List (UserId × Bool)} :
  user ∈ (ofMembers parent members).managed ↔ user ≠ parent ∧ user ∈ members.map (·.1)
  := by
  simp [ofMembers, and_comm]

end ProfileGroup

namespace Roster

variable {r : Roster} {user v : UserId} {u p : UserInfo} {g : ProfileGroup}

/-! ### Users and their names -/

theorem mem_of_user? (h : r.user? user = some u) : u ∈ r := List.mem_of_find?_eq_some h

theorem user?_eq_none_iff : r.user? user = none ↔ ∀ u ∈ r, u.id ≠ user := by
  simp [user?]

/-- A user is found by its name where no other user has it. -/
theorem user?_of_mem (hdistinct : (r.map (·.id)).Nodup) (hu : u ∈ r) : r.user? u.id = some u := by
  cases hfound : r.user? u.id with
  | none => exact absurd rfl (user?_eq_none_iff.mp hfound u hu)
  | some other =>
    rw [List.inj_on_of_nodup_map hdistinct (mem_of_user? hfound) hu (id_of_user? hfound)]

theorem profileParent_eq_none_iff : u.profileParent = none ↔ u.isManaged = false := by
  simp [UserInfo.isManaged]

/-! ### The group of a user -/

/-- The group of a parent. -/
def groupOf (r : Roster) (parent : UserId) : ProfileGroup :=
  .ofMembers parent (r.profilesOf parent)

theorem mem_managed_groupOf {parent : UserId} :
  user ∈ (r.groupOf parent).managed
    ↔ user ≠ parent ∧ ∃ u ∈ r, u.id = user ∧ u.profileParent = some parent
  := by
  rw [groupOf, ProfileGroup.mem_managed_ofMembers]
  simp [profilesOf, and_comm, and_left_comm]

/-- A user resolves to the group of its parent, or of itself if it has none, provided that this
parent is known and is no managed profile. -/
theorem resolve?_eq_some_iff :
  r.resolve? user = some g ↔ ∃ u p, r.user? user = some u
    ∧ r.user? (u.profileParent.getD user) = some p ∧ p.isManaged = false ∧ g = r.groupOf p.id
  := by
  simp only [resolve?, Option.bind_eq_bind, Option.bind_eq_some_iff]
  constructor
  · rintro ⟨u, hu, p, hp, h⟩
    obtain rfl := id_of_user? hu
    split at h
    next => cases h
    next hunmanaged =>
      cases h
      refine ⟨u, p, hu, hp, eq_false_of_ne_true hunmanaged, ?_⟩
      rw [groupOf, id_of_user? hp]
  · rintro ⟨u, p, hu, hp, hunmanaged, rfl⟩
    obtain rfl := id_of_user? hu
    refine ⟨u, hu, p, hp, ?_⟩
    rw [if_neg (ne_true_of_eq_false hunmanaged), groupOf, id_of_user? hp]

/-- A user that is no managed profile has a group of its own. -/
theorem resolve?_of_unmanaged (hu : r.user? user = some u) (hunmanaged : u.isManaged = false) :
  r.resolve? user = some (r.groupOf user)
  := by
  apply resolve?_eq_some_iff.mpr
  refine ⟨u, u, hu, ?_, hunmanaged, ?_⟩
  · rwa [profileParent_eq_none_iff.mpr hunmanaged]
  · rw [id_of_user? hu]

/-- A managed profile has the group of its parent. -/
theorem resolve?_of_profile {parent : UserId} (hu : r.user? user = some u)
    (hparent : u.profileParent = some parent) (hp : r.user? parent = some p)
    (hunmanaged : p.isManaged = false) :
  r.resolve? user = some (r.groupOf parent)
  := by
  apply resolve?_eq_some_iff.mpr
  refine ⟨u, p, hu, ?_, hunmanaged, ?_⟩
  · rwa [hparent]
  · rw [id_of_user? hp]

/-- A group that a user resolves to is that of its parent, which is known and is no managed
profile. -/
theorem parent_of_resolve? (h : r.resolve? user = some g) :
  g = r.groupOf g.parent ∧ ∃ p, r.user? g.parent = some p ∧ p.isManaged = false
  := by
  obtain ⟨u, p, -, hp, hunmanaged, rfl⟩ := resolve?_eq_some_iff.mp h
  rw [← id_of_user? hp] at hp
  exact ⟨rfl, p, hp, hunmanaged⟩

theorem normal_of_resolve? (h : r.resolve? user = some g) : g.Normal := by
  rw [(parent_of_resolve? h).1]
  apply ProfileGroup.normal_ofMembers

theorem mem_members_of_resolve? (h : r.resolve? user = some g) : user ∈ g.members := by
  obtain ⟨u, p, hu, hp, -, rfl⟩ := resolve?_eq_some_iff.mp h
  rw [ProfileGroup.members, List.mem_cons, mem_managed_groupOf]
  show user = p.id ∨ user ≠ p.id ∧ _
  rw [or_iff_not_imp_left]
  intro hne
  refine ⟨hne, u, mem_of_user? hu, id_of_user? hu, ?_⟩
  rw [id_of_user? hp] at hne ⊢
  cases hparent : u.profileParent with
  | none => simp [hparent] at hne
  | some parent => rfl

/-- The members of a group are the users that resolve to it. -/
theorem mem_members_iff (hdistinct : (r.map (·.id)).Nodup) (h : r.resolve? user = some g) :
  v ∈ g.members ↔ r.resolve? v = some g
  := by
  constructor
  · intro hv
    obtain ⟨hg, p, hp, hunmanaged⟩ := parent_of_resolve? h
    rw [hg]
    obtain rfl | hmanaged := List.mem_cons.mp hv
    · apply resolve?_of_unmanaged hp hunmanaged
    · rw [hg, mem_managed_groupOf] at hmanaged
      obtain ⟨-, u, hu, rfl, hparent⟩ := hmanaged
      apply resolve?_of_profile (user?_of_mem hdistinct hu) hparent hp hunmanaged
  · apply mem_members_of_resolve?

/-- A user has no group if it is not known, or has a parent that is not known or is a managed
profile. -/
theorem resolve?_eq_none_iff :
  r.resolve? user = none ↔ r.user? user = none
    ∨ ∃ u, r.user? user = some u ∧ ∃ parent, u.profileParent = some parent
      ∧ (r.user? parent = none ∨ ∃ p, r.user? parent = some p ∧ p.isManaged = true)
  := by
  cases hu : r.user? user with
  | none => simp [resolve?, hu]
  | some u =>
    simp only [reduceCtorEq, false_or, Option.some_inj]
    constructor
    · intro hnone
      cases hparent : u.profileParent with
      | none =>
        rw [resolve?_of_unmanaged hu (profileParent_eq_none_iff.mp hparent)] at hnone
        cases hnone
      | some parent =>
        refine ⟨u, rfl, parent, hparent, ?_⟩
        cases hp : r.user? parent with
        | none => exact .inl rfl
        | some p =>
          right
          refine ⟨p, rfl, ?_⟩
          by_contra hunmanaged
          rw [resolve?_of_profile hu hparent hp (eq_false_of_ne_true hunmanaged)] at hnone
          cases hnone
    · rintro ⟨_, rfl, parent, hparent, hp⟩
      obtain rfl := id_of_user? hu
      obtain hp | ⟨p, hp, hmanaged⟩ := hp
      · simp [resolve?, hu, hparent, hp]
      · simp [resolve?, hu, hparent, hp, hmanaged]

/-! ### All groups -/

/-- The users that are no managed profiles, in order. -/
def parents (r : Roster) : List UserId :=
  ((r.filter (!·.isManaged)).map (·.id)).mergeSort (· ≤ ·)

theorem mem_parents_iff : user ∈ r.parents ↔ ∃ u ∈ r, u.isManaged = false ∧ u.id = user := by
  simp [parents, and_assoc]

theorem pairwise_parents (hdistinct : (r.map (·.id)).Nodup) : r.parents.Pairwise (· < ·) := by
  have hsorted : r.parents.Pairwise (· ≤ ·) := by
    apply (List.pairwise_mergeSort _ _ _).imp decide_eq_true_iff.mp
    · simpa using fun a b c => Int32.le_trans
    · simpa using Int32.le_total
  have hnodup : r.parents.Nodup := by
    apply (List.mergeSort_perm _ _).nodup_iff.mpr
    apply hdistinct.sublist (List.filter_sublist.map _)
  apply hsorted.imp₂ _ hnodup
  intro a b hle hne
  apply Int32.lt_of_le_of_ne hle hne

theorem resolve?_of_mem_parents (hdistinct : (r.map (·.id)).Nodup) (huser : user ∈ r.parents) :
  r.resolve? user = some (r.groupOf user)
  := by
  obtain ⟨u, hu, hunmanaged, rfl⟩ := mem_parents_iff.mp huser
  apply resolve?_of_unmanaged (user?_of_mem hdistinct hu) hunmanaged

theorem groups_eq (hdistinct : (r.map (·.id)).Nodup) : r.groups = r.parents.map r.groupOf := by
  rw [← List.filterMap_eq_map]
  apply List.filterMap_congr
  intro user huser
  apply resolve?_of_mem_parents hdistinct huser

theorem mem_groups_iff (hdistinct : (r.map (·.id)).Nodup) :
  g ∈ r.groups ↔ ∃ user, r.resolve? user = some g
  := by
  rw [groups_eq hdistinct, List.mem_map]
  constructor
  · rintro ⟨user, huser, rfl⟩
    exact ⟨user, resolve?_of_mem_parents hdistinct huser⟩
  · rintro ⟨user, h⟩
    obtain ⟨hg, p, hp, hunmanaged⟩ := parent_of_resolve? h
    exact ⟨g.parent, mem_parents_iff.mpr ⟨p, mem_of_user? hp, hunmanaged, id_of_user? hp⟩, hg.symm⟩

/-- Groups partition the users of a roster whose names are distinct.  The group that a user
resolves to contains it; the group's parent is a user that is no managed profile and is not among
the managed profiles of the group, those that run are among these, and the members of the group
are the users that resolve to it.  So no two groups share a user.  A user resolves to no group if
and only if it is not known, or has a parent that is not known or is a managed profile.  The list
of all groups has the groups that users resolve to, in strictly ascending order of parents. -/
theorem groups_partition_users (r : Roster) (hdistinct : (r.map (·.id)).Nodup) :
  (∀ user g, r.resolve? user = some g →
    g.contains user = true
      ∧ (∃ p ∈ r, p.id = g.parent ∧ p.isManaged = false) ∧ g.parent ∉ g.managed
      ∧ g.running ⊆ g.managed
      ∧ ∀ v, v ∈ g.members ↔ r.resolve? v = some g)
    ∧ (∀ user g g', (∃ v, r.resolve? v = some g) → (∃ v, r.resolve? v = some g') →
      g.contains user = true → g'.contains user = true → g = g')
    ∧ (∀ user, r.resolve? user = none ↔ (∀ u ∈ r, u.id ≠ user)
      ∨ ∃ u ∈ r, u.id = user ∧ ∃ parent, u.profileParent = some parent
        ∧ ((∀ p ∈ r, p.id ≠ parent) ∨ ∃ p ∈ r, p.id = parent ∧ p.isManaged = true))
    ∧ r.groups.Pairwise (fun g g' => g.parent < g'.parent)
    ∧ ∀ g, g ∈ r.groups ↔ ∃ user, r.resolve? user = some g
  := by
  have huser {user : UserId} {u : UserInfo} : r.user? user = some u ↔ u ∈ r ∧ u.id = user := by
    constructor
    · intro hu
      exact ⟨mem_of_user? hu, id_of_user? hu⟩
    · rintro ⟨hu, rfl⟩
      apply user?_of_mem hdistinct hu
  refine ⟨?_, ?_, ?_, ?_, ?_⟩
  · intro user g h
    obtain ⟨hg, p, hp, hunmanaged⟩ := parent_of_resolve? h
    have hnormal : g.Normal := by
      rw [hg]
      apply ProfileGroup.normal_ofMembers
    refine ⟨?_, ?_, hnormal.parent_not_mem, hnormal.running_sublist.subset, ?_⟩
    · apply ProfileGroup.contains_iff_mem_members.mpr (mem_members_of_resolve? h)
    · exact ⟨p, mem_of_user? hp, id_of_user? hp, hunmanaged⟩
    · intro v
      apply mem_members_iff hdistinct h
  · rintro user g g' ⟨v, hv⟩ ⟨v', hv'⟩ hin hin'
    rw [ProfileGroup.contains_iff_mem_members] at hin hin'
    rw [mem_members_iff hdistinct hv] at hin
    rw [mem_members_iff hdistinct hv', hin] at hin'
    apply Option.some_inj.mp hin'
  · intro user
    simp only [resolve?_eq_none_iff, user?_eq_none_iff, huser, and_assoc]
  · rw [groups_eq hdistinct, List.pairwise_map]
    apply pairwise_parents hdistinct
  · intro g
    apply mem_groups_iff hdistinct

/-- Two groups; a profile of a profile, a profile of an unknown user and a profile of itself have
none. -/
theorem partition_of_seven_users :
  let r : Roster := [.full 20, .managedBy 11 0, .managedBy 10 0, .full 0, .managedBy 30 10,
    .managedBy 40 99, .managedBy 50 50]
  let g : ProfileGroup := { parent := 0, managed := [10, 11], running := [10, 11] }
  (r.map (·.id)).Nodup
    ∧ r.resolve? 11 = some g ∧ (∀ v, v ∈ g.members ↔ r.resolve? v = some g)
    ∧ r.resolve? 30 = none ∧ r.resolve? 40 = none ∧ r.resolve? 50 = none
    ∧ g ∈ r.groups ∧ r.groups.Pairwise (fun g g' => g.parent < g'.parent)
  := by
  intro r g
  have hdistinct : (r.map (·.id)).Nodup := by decide
  have hresolve : r.resolve? 11 = some g := by decide
  obtain ⟨hgroups, -, hnone, hsorted, hall⟩ := groups_partition_users r hdistinct
  obtain ⟨-, -, -, -, hmembers⟩ := hgroups 11 g hresolve
  refine ⟨hdistinct, hresolve, hmembers, ?_, ?_, ?_, (hall g).mpr ⟨11, hresolve⟩, hsorted⟩
  · exact (hnone 30).mpr (.inr ⟨.managedBy 30 10, by decide, rfl, 10, rfl,
      .inr ⟨.managedBy 10 0, by decide, rfl, rfl⟩⟩)
  · exact (hnone 40).mpr (.inr ⟨.managedBy 40 99, by decide, rfl, 99, rfl, .inl (by decide)⟩)
  · exact (hnone 50).mpr (.inr ⟨.managedBy 50 50, by decide, rfl, 50, rfl,
      .inr ⟨.managedBy 50 50, by decide, rfl, rfl⟩⟩)

end Roster

end SafetyHub
