import SafetyHub.Catalog.Broadcast
import Mathlib.Data.List.Induction
import Mathlib.Data.List.Nodup

/-!
# What broadcasts reach

The broadcasts of a list of sources belong to distinct packages, one for every package that a
source names, and each reaches the sources of its package: it is `Broadcast.reaching` of them.
-/

namespace SafetyHub.Broadcast

/-- The broadcast of a package that reaches the sources of a list. -/
def reaching (package : String) (sources : List Source) : Broadcast where
  package
  forParent := sources.map (·.id)
  forParentOnPageOpen := (sources.filter (·.askedOnPageOpen)).map (·.id)
  forManaged := (sources.filter (·.appliesToManaged)).map (·.id)
  forManagedOnPageOpen :=
    (sources.filter fun s => s.appliesToManaged && s.askedOnPageOpen).map (·.id)

theorem addSource_reaching (package : String) (sources : List Source) (s : Source) :
  (reaching package sources).addSource s = reaching package (sources ++ [s])
  := by
  simp only [reaching, addSource, List.filter_append, List.map_append, List.filter_singleton]
  cases s.appliesToManaged <;> cases s.askedOnPageOpen <;> rfl

/-! ### One source more -/

theorem map_package_insert (s : Source) (package : String) (bs : List Broadcast) :
  (insert s package bs).map (·.package)
    = if package ∈ bs.map (·.package) then bs.map (·.package)
      else bs.map (·.package) ++ [package]
  := by
  induction bs with
  | nil => rfl
  | cons b bs ih =>
    rw [insert]
    by_cases hb : b.package = package
    · simp [hb, addSource]
    · have hne : ¬ package = b.package := fun h => hb h.symm
      simp only [beq_iff_eq, hb, if_false, List.map_cons, ih, List.mem_cons, hne, false_or]
      split
      · rfl
      · rfl

/-- The broadcast of a package that is declared a source reaches it, and the others stay. -/
theorem mem_insert_iff {s : Source} {package : String} {bs : List Broadcast}
    (hdistinct : (bs.map (·.package)).Nodup) {b : Broadcast} :
  b ∈ insert s package bs ↔ b.package ≠ package ∧ b ∈ bs
    ∨ (∃ before ∈ bs, before.package = package ∧ b = before.addSource s)
    ∨ package ∉ bs.map (·.package) ∧ b = addSource { package } s
  := by
  induction bs with
  | nil => simp [insert]
  | cons first bs ih =>
    obtain ⟨hfirst, hdistinct⟩ := List.nodup_cons.mp hdistinct
    rw [insert]
    by_cases hp : first.package = package
    · subst hp
      have hothers : ∀ other ∈ bs, other.package ≠ first.package :=
        fun other hin heq => hfirst (List.mem_map.mpr ⟨other, hin, heq⟩)
      simp only [beq_self_eq_true, if_true, List.mem_cons, List.map_cons, true_or,
        not_true_eq_false, false_and, or_false]
      constructor
      · rintro (rfl | hin)
        · right
          exact ⟨first, .inl rfl, rfl, rfl⟩
        · left
          exact ⟨hothers b hin, .inr hin⟩
      · rintro (⟨hne, rfl | hin⟩ | ⟨before, rfl | hin, heq, rfl⟩)
        · exact absurd rfl hne
        · exact .inr hin
        · exact .inl rfl
        · exact absurd heq (hothers before hin)
    · have hne : ¬ package = first.package := fun h => hp h.symm
      simp only [beq_iff_eq, hp, if_false, List.mem_cons, ih hdistinct, List.map_cons, hne,
        false_or, or_and_right, exists_or, exists_eq_left, false_and, and_or_left]
      constructor
      · rintro (rfl | ⟨hother, hin⟩ | hrest)
        · exact .inl (.inl ⟨hp, rfl⟩)
        · exact .inl (.inr ⟨hother, hin⟩)
        · exact .inr hrest
      · rintro ((⟨-, rfl⟩ | ⟨hother, hin⟩) | hrest)
        · exact .inl rfl
        · exact .inr (.inl ⟨hother, hin⟩)
        · exact .inr (.inr hrest)

/-! ### The broadcasts of a list of sources -/

/-- The broadcasts of sources are of distinct packages, those that the sources name, and each
reaches the sources that name its package. -/
structure Covers (bs : List Broadcast) (sources : List Source) : Prop where
  nodup : (bs.map (·.package)).Nodup
  mem_packages_iff : ∀ package,
    package ∈ bs.map (·.package) ↔ ∃ s ∈ sources, s.package = some package
  eq_reaching : ∀ b ∈ bs, b = reaching b.package (sources.filter (·.package == some b.package))

variable {bs : List Broadcast} {sources : List Source} {s : Source} {package : String}

theorem filter_declared (sources : List Source) (hs : s.package = some package)
    (other : String) :
  (sources ++ [s]).filter (·.package == some other)
    = sources.filter (·.package == some other) ++ if other = package then [s] else []
  := by
  rw [List.filter_append]
  congr 1
  by_cases h : other = package
  · simp [h, hs]
  · simp [h, hs, Ne.symm h]

theorem Covers.declare_other (hcovers : Covers bs sources) (hs : s.package = none) :
  Covers bs (sources ++ [s])
  where
  nodup := hcovers.nodup
  mem_packages_iff other := by
    rw [hcovers.mem_packages_iff]
    simp [or_and_right, exists_or, hs]
  eq_reaching b hb := by
    have same : (sources ++ [s]).filter (·.package == some b.package)
        = sources.filter (·.package == some b.package) := by
      simp [List.filter_append, hs]
    rw [same]
    apply hcovers.eq_reaching b hb

theorem Covers.declare (hcovers : Covers bs sources) (hs : s.package = some package) :
  Covers (insert s package bs) (sources ++ [s])
  where
  nodup := by
    rw [map_package_insert]
    split
    next => apply hcovers.nodup
    next hnew => exact hcovers.nodup.append (List.nodup_singleton package) (by simpa using hnew)
  mem_packages_iff other := by
    rw [map_package_insert, apply_ite (other ∈ ·), List.mem_append, List.mem_singleton]
    simp only [List.mem_append, List.mem_singleton, or_and_right, exists_or, exists_eq_left, hs,
      ← hcovers.mem_packages_iff, Option.some_inj]
    split
    next hin =>
      constructor
      · exact .inl
      · rintro (hother | rfl)
        · exact hother
        · exact hin
    next => rw [eq_comm]
  eq_reaching b hb := by
    obtain ⟨hne, hin⟩ | ⟨before, hin, rfl, rfl⟩ | ⟨hnew, rfl⟩ :=
      (mem_insert_iff hcovers.nodup).mp hb
    · rw [filter_declared sources hs, if_neg hne, List.append_nil]
      apply hcovers.eq_reaching b hin
    · have hfilter := filter_declared sources hs before.package
      rw [if_pos rfl] at hfilter
      dsimp only [addSource]
      rw [hfilter, ← addSource_reaching, ← hcovers.eq_reaching before hin]
      rfl
    · have none : sources.filter (·.package == some package) = [] := by
        rw [List.filter_eq_nil_iff]
        intro t ht htp
        apply hnew
        exact (hcovers.mem_packages_iff package).mpr ⟨t, ht, by simpa using htp⟩
      have hfilter := filter_declared sources hs package
      rw [if_pos rfl, none] at hfilter
      dsimp only [addSource]
      rw [hfilter]
      apply addSource_reaching package [] s

theorem covers_ofSources (sources : List Source) : Covers (ofSources sources) sources := by
  induction sources using List.reverseRecOn with
  | nil => constructor <;> simp [ofSources]
  | append_singleton sources s ih =>
    rw [ofSources, List.foldl_append, ← ofSources, List.foldl_cons, List.foldl_nil]
    split
    next package hs => exact ih.declare hs
    next hs => exact ih.declare_other hs

/-- Packages come in the order in which sources first name them. -/
theorem map_package_ofSources (sources : List Source) :
  (ofSources sources).map (·.package) = (sources.filterMap (·.package)).eraseDups
  := by
  induction sources using List.reverseRecOn with
  | nil => rfl
  | append_singleton sources s ih =>
    rw [ofSources, List.foldl_append, ← ofSources, List.foldl_cons, List.foldl_nil,
      List.filterMap_append, List.eraseDups_append]
    cases hs : s.package with
    | none =>
      have hnone : [s].filterMap (·.package) = [] := List.filterMap_cons_none hs
      rw [hnone, List.nil_removeAll, List.eraseDups_nil, List.append_nil]
      exact ih
    | some package =>
      have hsome : [s].filterMap (·.package) = [package] := List.filterMap_cons_some hs
      dsimp only
      rw [hsome, map_package_insert, ih, List.cons_removeAll, List.nil_removeAll]
      by_cases hin : package ∈ sources.filterMap (·.package)
      · rw [if_pos (List.mem_eraseDups.mpr hin), if_neg (by simpa using hin), List.eraseDups_nil,
          List.append_nil]
      · rw [if_neg (mt List.mem_eraseDups.mp hin), if_pos (by simpa using hin)]
        rfl

/-- The broadcasts of sources reach the sources of each package, in the order in which sources
first name the packages. -/
theorem ofSources_eq (sources : List Source) :
  ofSources sources = (sources.filterMap (·.package)).eraseDups.map fun package =>
    reaching package (sources.filter (·.package == some package))
  := by
  have hreaching := (covers_ofSources sources).eq_reaching
  rw [← map_package_ofSources, List.map_map]
  conv_lhs => rw [← List.map_id (ofSources sources)]
  apply List.map_congr_left hreaching

end SafetyHub.Broadcast
