import SafetyHub.Proofs.Catalog.Violations
import Mathlib.Data.List.Pairwise

/-!
# What a catalog keeps

The sources of a catalog have names, each its own, and exactly those that report name a package.
So a name finds the source that it is the name of, the group that declares this source, and its
position among all sources; a name that is not declared finds nothing.
-/

namespace SafetyHub

namespace Catalog

variable {c : Catalog} {s t : Source}

theorem nodup_sourceIds (c : Catalog) : (c.sources.map (·.id)).Nodup :=
  (check_eq_ok_iff.mp c.consistent).nodup_sources

theorem valid_of_mem (hs : s ∈ c.sources) : s.Valid := by
  obtain ⟨g, hg, hs⟩ := List.mem_flatMap.mp hs
  apply (check_eq_ok_iff.mp c.consistent).valid g hg s hs

/-- A source is known by its name. -/
theorem eq_of_id_eq (hs : s ∈ c.sources) (ht : t ∈ c.sources) (h : s.id = t.id) : s = t :=
  List.inj_on_of_nodup_map c.nodup_sourceIds hs ht h

theorem source?_eq_some_iff {id : String} :
  c.source? id = some s ↔ s ∈ c.sources ∧ s.id = id
  := by
  constructor
  · intro hsource
    exact ⟨List.mem_of_find?_eq_some hsource, by simpa using List.find?_some hsource⟩
  · rintro ⟨hs, rfl⟩
    cases hsource : c.source? s.id with
    | none => simpa using List.find?_eq_none.mp hsource s hs
    | some t =>
      have hid : t.id = s.id := by simpa using List.find?_some hsource
      rw [eq_of_id_eq (List.mem_of_find?_eq_some hsource) hs hid]

theorem source?_eq_some (hs : s ∈ c.sources) : c.source? s.id = some s :=
  source?_eq_some_iff.mpr ⟨hs, rfl⟩

theorem isExternal_iff {id : String} :
  c.isExternal id = true ↔ ∃ s ∈ c.sources, s.id = id ∧ s.isExternal = true
  := by
  simp only [isExternal, Option.any_eq_true, source?_eq_some_iff, and_assoc]

theorem isSome_package_iff (hs : s ∈ c.sources) :
  s.package.isSome = true ↔ s.isExternal = true
  := by
  have hvalid := valid_of_mem hs
  rw [Source.isExternal, bne_iff_ne]
  constructor
  · intro hpackage hkind
    rw [hvalid.package_of_fixed hkind] at hpackage
    cases hpackage
  · intro hkind
    obtain ⟨package, hpackage, -⟩ := hvalid.package_of_reporting hkind
    rw [hpackage, Option.isSome_some]

/-- The group of a source declares it. -/
theorem exists_groupOf? (hs : s ∈ c.sources) : ∃ g, c.groupOf? s.id = some g := by
  obtain ⟨g, hg, hs⟩ := List.mem_flatMap.mp hs
  apply Option.isSome_iff_exists.mp
  rw [groupOf?, List.find?_isSome]
  use g, hg
  rw [List.any_eq_true]
  exact ⟨s, hs, beq_self_eq_true _⟩

/-- A source is declared by one group only. -/
theorem eq_of_mem_sources {g g' : SourceGroup} (hg : g ∈ c.groups) (hg' : g' ∈ c.groups)
    (hs : s ∈ g.sources) (hs' : s ∈ g'.sources) :
  g = g'
  := by
  by_contra hne
  have hnodup : (c.groups.flatMap fun g => g.sources.map (·.id)).Nodup := by
    rw [← List.map_flatMap]
    apply c.nodup_sourceIds
  have hsymm : Std.Symm (Function.onFun List.Disjoint fun g : SourceGroup =>
      g.sources.map (·.id)) := ⟨fun _ _ h _ hid hid' => h hid' hid⟩
  exact (List.nodup_flatMap.mp hnodup).2.forall hg hg' hne
    (List.mem_map_of_mem hs) (List.mem_map_of_mem hs')

theorem groupOf?_eq_some_iff {id : String} {g : SourceGroup} :
  c.groupOf? id = some g ↔ g ∈ c.groups ∧ ∃ s ∈ g.sources, s.id = id
  := by
  constructor
  · intro hgroup
    have hany := List.find?_some hgroup
    simp only [List.any_eq_true, beq_iff_eq] at hany
    exact ⟨List.mem_of_find?_eq_some hgroup, hany⟩
  · rintro ⟨hg, s, hs, rfl⟩
    obtain ⟨g', hgroup⟩ := exists_groupOf? (List.mem_flatMap.mpr ⟨g, hg, hs⟩)
    rw [groupOf?] at hgroup ⊢
    have hg' := List.mem_of_find?_eq_some hgroup
    have hany := List.find?_some hgroup
    obtain ⟨s', hs', hid⟩ := List.any_eq_true.mp hany
    obtain rfl := eq_of_id_eq (List.mem_flatMap.mpr ⟨g', hg', hs'⟩)
      (List.mem_flatMap.mpr ⟨g, hg, hs⟩) (beq_iff_eq.mp hid)
    rw [hgroup, eq_of_mem_sources hg' hg hs' hs]

theorem orderOf?_eq_some_iff {id : String} {n : Nat} :
  c.orderOf? id = some n ↔ ∃ s, c.sources[n]? = some s ∧ s.id = id
  := by
  rw [orderOf?, List.findIdx?_eq_some_iff_getElem]
  simp only [beq_iff_eq]
  constructor
  · rintro ⟨hn, hid, -⟩
    exact ⟨_, List.getElem?_eq_getElem hn, hid⟩
  · rintro ⟨s, hs, rfl⟩
    obtain ⟨hn, rfl⟩ := List.getElem?_eq_some_iff.mp hs
    refine ⟨hn, rfl, ?_⟩
    intro j hj hid
    have hsame := eq_of_id_eq (List.getElem_mem (Nat.lt_trans hj hn)) (List.getElem_mem hn) hid
    have hindex := (c.nodup_sourceIds.of_map _).getElem_inj_iff.mp hsame
    omega

/-- Nothing is found under a name that is not declared. -/
theorem lookups_eq_none {id : String} (hnone : ∀ s ∈ c.sources, s.id ≠ id) :
  c.source? id = none ∧ c.groupOf? id = none ∧ c.orderOf? id = none
  := by
  refine ⟨?_, ?_, ?_⟩
  · simpa [source?] using hnone
  · rw [groupOf?, List.find?_eq_none]
    intro g hg
    simpa using fun s hs => hnone s (List.mem_flatMap.mpr ⟨g, hg, hs⟩)
  · simpa [orderOf?] using hnone

end Catalog

end SafetyHub
