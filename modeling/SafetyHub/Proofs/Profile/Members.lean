import SafetyHub.Proofs.Profile.Partition
import Mathlib.Data.List.Destutter
import Mathlib.Data.List.Sort

/-!
# Groups from their members

The members of a group may be listed in any order, more than once and in contradiction.  The
group has each of them once, in ascending order and without the parent, and a member runs if
every mention of it says so.  The order of the list and its repetitions do not count.

The group is what sorting gives: among the members in order, one that does not run before one of
the same name that does, only the first of each name is kept, and it decides whether the member
runs.
-/

namespace SafetyHub.ProfileGroup

open Std

variable {parent user : UserId} {members : List (UserId × Bool)}

/-! ### The two lists of profiles -/

theorem pairwise_managed_ofMembers (parent : UserId) (members : List (UserId × Bool)) :
  (ofMembers parent members).managed.Pairwise (· < ·)
  := by
  simp only [ofMembers]
  apply ExtTreeSet.ordered_toList.imp
  intro a b hlt
  exact compare_eq_lt.mp hlt

theorem pairwise_running_ofMembers (parent : UserId) (members : List (UserId × Bool)) :
  (ofMembers parent members).running.Pairwise (· < ·)
  := by
  apply List.Pairwise.sublist (normal_ofMembers parent members).running_sublist
  apply pairwise_managed_ofMembers

/-- A profile of the group runs if every mention of it says so. -/
theorem mem_running_ofMembers :
  user ∈ (ofMembers parent members).running ↔ user ∈ (ofMembers parent members).managed
    ∧ ∀ running, (user, running) ∈ members → running = true
  := by
  simp only [ofMembers, List.mem_filter, List.all_eq_true, Bool.or_eq_true, bne_iff_ne]
  apply and_congr_right
  intro _
  constructor
  · intro hall running hin
    exact (hall _ hin).resolve_left (absurd rfl)
  · rintro hall ⟨id, running⟩ hin
    by_cases heq : id = user
    · subst heq
      exact .inr (hall running hin)
    · exact .inl heq

/-- Ascending lists that have the profiles of a group, and those of them that run, are its
lists. -/
theorem ofMembers_eq {managed running : List UserId} (hmanaged : managed.Pairwise (· < ·))
    (hmem : ∀ user, user ∈ managed ↔ user ∈ (ofMembers parent members).managed)
    (hrunning : running.Pairwise (· < ·))
    (hruns : ∀ user, user ∈ running ↔ user ∈ (ofMembers parent members).running) :
  ofMembers parent members = { parent, managed, running }
  := by
  rw [hmanaged.eq_of_mem_iff (pairwise_managed_ofMembers parent members) hmem]
  rw [hrunning.eq_of_mem_iff (pairwise_running_ofMembers parent members) hruns]
  rfl

/-- Only which members are listed counts. -/
theorem ofMembers_congr {members' : List (UserId × Bool)}
    (hsame : ∀ m, m ∈ members' ↔ m ∈ members) :
  ofMembers parent members' = ofMembers parent members
  := by
  apply ofMembers_eq (pairwise_managed_ofMembers parent members) _
    (pairwise_running_ofMembers parent members)
  · intro user
    simp [mem_running_ofMembers, mem_managed_ofMembers, hsame]
  · intro user
    simp [mem_managed_ofMembers, hsame]

/-! ### Sorting the members -/

/-- The order of members: by name, and under one name those that do not run come first. -/
def Precedes (m m' : UserId × Bool) : Prop :=
  m.1 < m'.1 ∨ m.1 = m'.1 ∧ (m.2 = true → m'.2 = true)

/-- Of neighbours with one name the first alone. -/
def firsts (sorted : List (UserId × Bool)) : List (UserId × Bool) :=
  sorted.destutter fun m m' => m.1 ≠ m'.1

variable {sorted : List (UserId × Bool)}

theorem firsts_sublist (sorted : List (UserId × Bool)) : (firsts sorted).Sublist sorted :=
  List.destutter_sublist _ _

/-- The first of a name runs only if every other of that name does. -/
theorem exists_mem_firsts (hsorted : sorted.Pairwise Precedes) {m : UserId × Bool}
    (hm : m ∈ sorted) :
  ∃ first ∈ firsts sorted, first.1 = m.1 ∧ (first.2 = true → m.2 = true)
  := by
  cases sorted with
  | nil => cases hm
  | cons a rest =>
    rw [firsts, List.destutter_cons']
    -- `a` is the last that was kept, and `rest` is what is left.
    induction rest generalizing a m with
    | nil =>
      rw [List.mem_singleton.mp hm]
      exact ⟨a, by simp, rfl, id⟩
    | cons b rest ih =>
      by_cases hname : a.1 = b.1
      · rw [List.destutter'_cons_neg _ (not_not.mpr hname)]
        have hkept : (a :: rest).Pairwise Precedes := by
          apply List.Pairwise.sublist _ hsorted
          apply (List.sublist_cons_self b rest).cons_cons
        rw [List.mem_cons, List.mem_cons] at hm
        obtain rfl | rfl | hm := hm
        · apply ih m hkept List.mem_cons_self
        · obtain ⟨first, hfirst, heq, hruns⟩ := ih a hkept List.mem_cons_self
          refine ⟨first, hfirst, heq.trans hname, ?_⟩
          intro hrunning
          have hprec : Precedes a m := List.rel_of_pairwise_cons hsorted List.mem_cons_self
          obtain hlt | ⟨-, himp⟩ := hprec
          · rw [hname] at hlt
            cases Int32.lt_irrefl hlt
          · exact himp (hruns hrunning)
        · apply ih a hkept (List.mem_cons_of_mem a hm)
      · rw [List.destutter'_cons_pos _ hname]
        obtain rfl | hm := List.mem_cons.mp hm
        · exact ⟨m, List.mem_cons_self, rfl, id⟩
        · obtain ⟨first, hfirst, heq⟩ := ih b hsorted.of_cons hm
          exact ⟨first, List.mem_cons_of_mem a hfirst, heq⟩

theorem pairwise_firsts (hsorted : sorted.Pairwise Precedes) :
  ((firsts sorted).map (·.1)).Pairwise (· < ·)
  := by
  have hchain := List.isChain_destutter (fun m m' : UserId × Bool => m.1 ≠ m'.1) sorted
  have hsorted := (List.Pairwise.sublist (firsts_sublist sorted) hsorted).isChain
  rw [← List.isChain_iff_pairwise, List.isChain_map]
  rw [List.isChain_iff_forall_rel_of_append_cons_cons] at hchain hsorted ⊢
  intro m m' before after hsplit
  apply (hsorted hsplit).resolve_right
  rintro ⟨heq, -⟩
  exact hchain hsplit heq

/-- Sorting the members other than the parent and keeping the first of each name gives the
group. -/
theorem ofMembers_eq_of_sorted (hsorted : sorted.Pairwise Precedes)
    (hperm : sorted.Perm (members.filter (·.1 != parent))) :
  ofMembers parent members =
    { parent, managed := (firsts sorted).map (·.1)
      running := ((firsts sorted).filter (·.2)).map (·.1) }
  := by
  have hmem (m : UserId × Bool) : m ∈ sorted ↔ m ∈ members ∧ m.1 ≠ parent := by
    rw [hperm.mem_iff, List.mem_filter, bne_iff_ne]
  have hnames := pairwise_firsts hsorted
  have hnodup : ((firsts sorted).map (·.1)).Nodup := hnames.imp Int32.ne_of_lt
  have hmanaged (user : UserId) :
    user ∈ (firsts sorted).map (·.1) ↔ user ∈ (ofMembers parent members).managed
    := by
    rw [mem_managed_ofMembers, List.mem_map, List.mem_map]
    constructor
    · rintro ⟨m, hm, rfl⟩
      obtain ⟨hin, hne⟩ := (hmem m).mp ((firsts_sublist sorted).subset hm)
      exact ⟨hne, m, hin, rfl⟩
    · rintro ⟨hne, m, hin, rfl⟩
      obtain ⟨first, hfirst, heq, -⟩ := exists_mem_firsts hsorted ((hmem m).mpr ⟨hin, hne⟩)
      exact ⟨first, hfirst, heq⟩
  apply ofMembers_eq hnames hmanaged
  · apply List.Pairwise.sublist _ hnames
    apply List.filter_sublist.map
  · intro user
    rw [mem_running_ofMembers, ← hmanaged]
    simp only [List.mem_map, List.mem_filter]
    constructor
    · rintro ⟨m, ⟨hm, hrunning⟩, rfl⟩
      refine ⟨⟨m, hm, rfl⟩, ?_⟩
      intro running hin
      have hne := ((hmem m).mp ((firsts_sublist sorted).subset hm)).2
      obtain ⟨first, hfirst, heq, hruns⟩ :=
        exists_mem_firsts hsorted ((hmem (m.1, running)).mpr ⟨hin, hne⟩)
      rw [List.inj_on_of_nodup_map hnodup hfirst hm heq] at hruns
      exact hruns hrunning
    · rintro ⟨⟨m, hm, rfl⟩, hall⟩
      have hin := ((hmem m).mp ((firsts_sublist sorted).subset hm)).1
      exact ⟨m, ⟨hm, hall m.2 hin⟩, rfl⟩

/-! ### The normal form -/

/-- A group has its members in a normal form.  The managed profiles ascend strictly and are the
users that are listed, other than the parent; those that run ascend strictly and are the profiles
that run wherever they are listed.  Another list of the same members, in whatever order and with
whatever repetitions, gives the same group, and so do sorting the members and keeping the first
of each name. -/
theorem ofMembers_normalises (parent : UserId) (members : List (UserId × Bool)) :
  (ofMembers parent members).parent = parent
    ∧ (ofMembers parent members).managed.Pairwise (· < ·)
    ∧ (∀ user, user ∈ (ofMembers parent members).managed
      ↔ user ≠ parent ∧ ∃ running, (user, running) ∈ members)
    ∧ (ofMembers parent members).running.Pairwise (· < ·)
    ∧ (∀ user, user ∈ (ofMembers parent members).running
      ↔ user ∈ (ofMembers parent members).managed
        ∧ ∀ running, (user, running) ∈ members → running = true)
    ∧ (∀ members', (∀ m, m ∈ members' ↔ m ∈ members) →
      ofMembers parent members' = ofMembers parent members)
    ∧ ∀ sorted, sorted.Pairwise Precedes → sorted.Perm (members.filter (·.1 != parent)) →
      ofMembers parent members =
        { parent, managed := (firsts sorted).map (·.1)
          running := ((firsts sorted).filter (·.2)).map (·.1) }
  := by
  refine ⟨rfl, pairwise_managed_ofMembers parent members, ?_,
    pairwise_running_ofMembers parent members, ?_, ?_, ?_⟩
  · intro user
    simp [mem_managed_ofMembers]
  · intro user
    apply mem_running_ofMembers
  · intro members'
    apply ofMembers_congr
  · intro sorted
    apply ofMembers_eq_of_sorted

/-- A profile that is said to run and not to run does not, wherever that is said; the parent is
left out. -/
theorem ofMembers_of_contradiction :
  let members : List (UserId × Bool) := [(11, true), (10, true), (11, false), (0, true), (10, true)]
  let reversed : List (UserId × Bool) := [(10, true), (11, false), (0, true), (11, true)]
  (∀ m, m ∈ reversed ↔ m ∈ members)
    ∧ ofMembers 0 members = { parent := 0, managed := [10, 11], running := [10] }
    ∧ ofMembers 0 reversed = { parent := 0, managed := [10, 11], running := [10] }
  := by
  intro members reversed
  obtain ⟨-, -, -, -, -, hsame, hsorts⟩ := ofMembers_normalises 0 members
  have hmembers : ∀ m, m ∈ reversed ↔ m ∈ members := by
    rintro ⟨user, running⟩
    simp only [members, reversed, List.mem_cons, Prod.mk.injEq, List.not_mem_nil]
    grind
  have hgroup := hsorts [(10, true), (10, true), (11, false), (11, true)]
    (by simp [Precedes]) (by decide)
  refine ⟨hmembers, ?_, ?_⟩
  · rw [hgroup]
    decide
  · rw [hsame reversed hmembers, hgroup]
    decide

end SafetyHub.ProfileGroup
