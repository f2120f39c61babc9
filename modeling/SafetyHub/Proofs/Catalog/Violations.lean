import SafetyHub.Catalog.Basic
import Mathlib.Data.List.Induction
import Mathlib.Data.List.Nodup

/-!
# What a catalog refuses

Groups are read in document order, each before its sources: `Catalog.declarations`.  A declaration
may violate what a catalog asks for, given those before it, in one way at most: `Violates`.  The
groups are a catalog exactly when no declaration does, and else the error is that of the first one
that does.
-/

namespace SafetyHub

/-! ### Sources on their own -/

namespace Source

variable {s : Source}

/-- Something other than blanks is in the name of the source. -/
def IsNamed (s : Source) : Prop :=
  ∃ c ∈ s.id.toList, Text.isBlank c = false

/-- A source is named, and it names a package exactly when it reports. -/
structure Valid (s : Source) : Prop where
  named : s.IsNamed
  package_of_fixed : s.kind = .fixed → s.package = none
  package_of_reporting : s.kind ≠ .fixed → ∃ package, s.package = some package ∧ package ≠ ""

/-- What is wrong with a source on its own. -/
inductive HasFault (s : Source) : SourceFault → Prop
  | blankId (hblank : ¬ s.IsNamed) : HasFault s .blankId
  | packageOfFixed (hnamed : s.IsNamed) (hkind : s.kind = .fixed)
      (hpackage : s.package.isSome = true) : HasFault s .packageOfFixed
  | packageMissing (hnamed : s.IsNamed) (hkind : s.kind ≠ .fixed)
      (hpackage : ∀ package, s.package = some package → package = "") :
      HasFault s .packageMissing

theorem allBlank_id_iff : Text.allBlank s.id = true ↔ ¬ s.IsNamed := by
  simp [Text.allBlank, IsNamed]

theorem fault?_eq_some_iff {fault : SourceFault} : s.fault? = some fault ↔ s.HasFault fault := by
  constructor
  · intro hfault
    unfold fault? at hfault
    split at hfault
    next hblank =>
      cases hfault
      exact .blankId (allBlank_id_iff.mp hblank)
    next hblank =>
      have hnamed : s.IsNamed := not_not.mp fun hnot => hblank (allBlank_id_iff.mpr hnot)
      split at hfault
      next hkind hpackage =>
        cases hfault
        exact .packageOfFixed hnamed hkind (by rw [hpackage, Option.isSome_some])
      next => cases hfault
      next hpackage hkind =>
        cases hfault
        exact .packageMissing hnamed hkind (by simp [hpackage])
      next hpackage hkind =>
        split at hfault
        next hempty =>
          cases hfault
          exact .packageMissing hnamed hkind (by simpa [hpackage] using hempty)
        next => cases hfault
  · rintro (hblank | ⟨hnamed, hkind, hpackage⟩ | ⟨hnamed, hkind, hpackage⟩)
    · rw [fault?, if_pos (allBlank_id_iff.mpr hblank)]
    · obtain ⟨package, hpackage⟩ := Option.isSome_iff_exists.mp hpackage
      rw [fault?, if_neg fun hblank => allBlank_id_iff.mp hblank hnamed, hkind, hpackage]
    · rw [fault?, if_neg fun hblank => allBlank_id_iff.mp hblank hnamed]
      split
      next hfixed _ => exact absurd hfixed hkind
      next hfixed _ => exact absurd hfixed hkind
      next => rfl
      next package hsome _ => rw [if_pos (beq_iff_eq.mpr (hpackage package hsome))]

theorem fault?_eq_none_iff : s.fault? = none ↔ s.Valid := by
  constructor
  · intro hfault
    have hnone (fault : SourceFault) : ¬ s.HasFault fault := by
      rw [← fault?_eq_some_iff, hfault]
      exact nofun
    have hnamed : s.IsNamed := not_not.mp fun hblank => hnone _ (.blankId hblank)
    refine ⟨hnamed, ?_, ?_⟩
    · intro hkind
      by_contra hpackage
      exact hnone _ (.packageOfFixed hnamed hkind (Option.isSome_iff_ne_none.mpr hpackage))
    · intro hkind
      by_contra hpackage
      apply hnone _ (.packageMissing hnamed hkind _)
      intro package hsome
      by_contra hne
      exact hpackage ⟨package, hsome, hne⟩
  · intro hvalid
    rw [Option.eq_none_iff_forall_not_mem]
    intro fault hfault
    cases fault?_eq_some_iff.mp hfault with
    | blankId hblank => exact hblank hvalid.named
    | packageOfFixed hnamed hkind hpackage =>
      rw [hvalid.package_of_fixed hkind] at hpackage
      cases hpackage
    | packageMissing hnamed hkind hpackage =>
      obtain ⟨package, hsome, hne⟩ := hvalid.package_of_reporting hkind
      exact hne (hpackage package hsome)

end Source

namespace Catalog

/-! ### Declarations in document order -/

/-- What a document declares. -/
inductive Declaration where
  | group (group : SourceGroup)
  | source (source : Source)

namespace Declaration

/-- The group that is declared. -/
def group? : Declaration → Option SourceGroup
  | .group g => some g
  | .source _ => none

/-- The source that is declared. -/
def source? : Declaration → Option Source
  | .group _ => none
  | .source s => some s

/-- A declaration violates what a catalog asks for, given those before it: the name of a group is
taken, or a source is not valid, or it is but its name is taken. -/
inductive Violates (before : List Declaration) : Declaration → CatalogError → Prop
  | duplicateGroup {g : SourceGroup} (htaken : ∃ g', .group g' ∈ before ∧ g'.id = g.id) :
      Violates before (.group g) (.duplicateGroup g.id)
  | invalidSource {s : Source} {fault : SourceFault} (hfault : s.HasFault fault) :
      Violates before (.source s) (.invalidSource s.id fault)
  | duplicateSource {s : Source} (hvalid : s.Valid)
      (htaken : ∃ s', .source s' ∈ before ∧ s'.id = s.id) :
      Violates before (.source s) (.duplicateSource s.id)

variable {before : List Declaration} {d : Declaration} {e e' : CatalogError}

/-- A declaration violates what is asked for in one way at most. -/
theorem Violates.unique (h : d.Violates before e) (h' : d.Violates before e') : e = e' := by
  cases h with
  | duplicateGroup => cases h' with
    | duplicateGroup => rfl
  | invalidSource hfault =>
    have hsome := Source.fault?_eq_some_iff.mpr hfault
    cases h' with
    | invalidSource hfault' =>
      have hsome' := Source.fault?_eq_some_iff.mpr hfault'
      rw [Option.some_inj.mp (hsome.symm.trans hsome')]
    | duplicateSource hvalid =>
      rw [Source.fault?_eq_none_iff.mpr hvalid] at hsome
      cases hsome
  | duplicateSource hvalid => cases h' with
    | invalidSource hfault =>
      have hsome := Source.fault?_eq_some_iff.mpr hfault
      rw [Source.fault?_eq_none_iff.mpr hvalid] at hsome
      cases hsome
    | duplicateSource => rfl

end Declaration

open Declaration

/-- What a document declares, in order: each group before its sources. -/
def declarations (groups : List SourceGroup) : List Declaration :=
  groups.flatMap fun g => .group g :: g.sources.map .source

/-- No declaration violates what a catalog asks for. -/
def Clean (ds : List Declaration) : Prop :=
  ∀ before d after, ds = before ++ d :: after → ∀ e, ¬ d.Violates before e

/-- The first declaration that violates what a catalog asks for does so with an error. -/
def FirstViolation (ds : List Declaration) (e : CatalogError) : Prop :=
  ∃ before d after, ds = before ++ d :: after ∧ Clean before ∧ d.Violates before e

variable {ds more before : List Declaration} {d : Declaration} {e e' : CatalogError}

theorem clean_nil : Clean [] := by
  intro before d after hsplit
  simp at hsplit

theorem Clean.of_append (hclean : Clean (ds ++ more)) : Clean ds := by
  rintro before d after rfl
  apply hclean before d (after ++ more)
  rw [List.append_assoc, List.cons_append]

theorem clean_concat_iff : Clean (ds ++ [d]) ↔ Clean ds ∧ ∀ e, ¬ d.Violates ds e := by
  constructor
  · intro hclean
    exact ⟨hclean.of_append, hclean ds d [] rfl⟩
  · rintro ⟨hclean, hlast⟩ before d' after hsplit
    obtain rfl | ⟨after, last, rfl⟩ := List.eq_nil_or_concat after
    · obtain ⟨rfl, hd⟩ := List.append_inj' hsplit rfl
      cases hd
      exact hlast
    · rw [List.concat_eq_append, ← List.cons_append, ← List.append_assoc] at hsplit
      exact hclean before d' after (List.append_inj' hsplit rfl).1

theorem FirstViolation.append (hfirst : FirstViolation ds e) (more : List Declaration) :
  FirstViolation (ds ++ more) e
  := by
  obtain ⟨before, d, after, rfl, hclean, hviolates⟩ := hfirst
  exact ⟨before, d, after ++ more, by simp, hclean, hviolates⟩

theorem FirstViolation.not_clean (hfirst : FirstViolation ds e) : ¬ Clean ds := by
  obtain ⟨before, d, after, rfl, -, hviolates⟩ := hfirst
  intro hclean
  exact hclean before d after rfl e hviolates

theorem FirstViolation.unique (hfirst : FirstViolation ds e) (hfirst' : FirstViolation ds e') :
  e = e'
  := by
  obtain ⟨before, d, after, rfl, hclean, hviolates⟩ := hfirst
  obtain ⟨before', d', after', hsplit, hclean', hviolates'⟩ := hfirst'
  -- unless both are the same declaration, one is among those before the other, which are clean
  obtain ⟨between, rfl, hrest⟩ | ⟨between, rfl, hrest⟩ := List.append_eq_append_iff.mp hsplit
  · cases between with
    | nil =>
      cases hrest
      rw [List.append_nil] at hviolates'
      exact hviolates.unique hviolates'
    | cons first rest =>
      cases hrest
      exact absurd hviolates (hclean' before d rest rfl e)
  · cases between with
    | nil =>
      cases hrest
      rw [List.append_nil] at hviolates
      exact hviolates.unique hviolates'
    | cons first rest =>
      cases hrest
      exact absurd hviolates' (hclean before' d' rest rfl e')

/-! ### Catalogs -/

/-- Names of groups are distinct, names of sources are distinct over all groups, and every source
is valid. -/
structure Consistent (groups : List SourceGroup) : Prop where
  nodup_groups : (groups.map (·.id)).Nodup
  nodup_sources : ((groups.flatMap (·.sources)).map (·.id)).Nodup
  valid : ∀ g ∈ groups, ∀ s ∈ g.sources, s.Valid

theorem mem_groups_iff {g : SourceGroup} : g ∈ ds.filterMap group? ↔ .group g ∈ ds := by
  rw [List.mem_filterMap]
  constructor
  · rintro ⟨d, hd, hg⟩
    cases d <;> cases hg
    exact hd
  · intro hg
    exact ⟨_, hg, rfl⟩

theorem mem_sources_iff {s : Source} : s ∈ ds.filterMap Declaration.source? ↔ .source s ∈ ds := by
  rw [List.mem_filterMap]
  constructor
  · rintro ⟨d, hd, hs⟩
    cases d <;> cases hs
    exact hd
  · intro hs
    exact ⟨_, hs, rfl⟩

theorem not_violates_group_iff {g : SourceGroup} :
  (∀ e, ¬ Violates ds (.group g) e) ↔ g.id ∉ (ds.filterMap group?).map (·.id)
  := by
  simp only [List.mem_map, mem_groups_iff]
  constructor
  · intro hnone htaken
    exact hnone _ (.duplicateGroup htaken)
  · rintro hnew e ⟨htaken⟩
    exact hnew htaken

theorem not_violates_source_iff {s : Source} :
  (∀ e, ¬ Violates ds (.source s) e)
    ↔ s.Valid ∧ s.id ∉ (ds.filterMap Declaration.source?).map (·.id)
  := by
  simp only [List.mem_map, mem_sources_iff]
  constructor
  · intro hnone
    have hvalid : s.Valid := by
      rw [← Source.fault?_eq_none_iff, Option.eq_none_iff_forall_not_mem]
      intro fault hfault
      exact hnone _ (.invalidSource (Source.fault?_eq_some_iff.mp hfault))
    exact ⟨hvalid, fun htaken => hnone _ (.duplicateSource hvalid htaken)⟩
  · rintro ⟨hvalid, hnew⟩ e hviolates
    cases hviolates with
    | invalidSource hfault =>
      have hsome := Source.fault?_eq_some_iff.mpr hfault
      rw [Source.fault?_eq_none_iff.mpr hvalid] at hsome
      cases hsome
    | duplicateSource _ htaken => exact hnew htaken

theorem clean_iff :
  Clean ds ↔ ((ds.filterMap group?).map (·.id)).Nodup
    ∧ ((ds.filterMap Declaration.source?).map (·.id)).Nodup
    ∧ ∀ s ∈ ds.filterMap Declaration.source?, s.Valid
  := by
  induction ds using List.reverseRecOn with
  | nil => simp [clean_nil]
  | append_singleton ds d ih =>
    rw [clean_concat_iff, ih, List.filterMap_append, List.filterMap_append]
    cases d with
    | group g =>
      have hgroup : [Declaration.group g].filterMap group? = [g] := rfl
      have hnone : [Declaration.group g].filterMap Declaration.source? = [] := rfl
      rw [not_violates_group_iff, hgroup, hnone, List.append_nil, List.map_append,
        List.map_singleton, ← List.concat_eq_append, List.nodup_concat]
      constructor
      · rintro ⟨⟨hnodup, hrest⟩, hnew⟩
        exact ⟨⟨hnew, hnodup⟩, hrest⟩
      · rintro ⟨⟨hnew, hnodup⟩, hrest⟩
        exact ⟨⟨hnodup, hrest⟩, hnew⟩
    | source s =>
      have hnone : [Declaration.source s].filterMap group? = [] := rfl
      have hsource : [Declaration.source s].filterMap Declaration.source? = [s] := rfl
      rw [not_violates_source_iff, hnone, hsource, List.append_nil, List.map_append,
        List.map_singleton, ← List.concat_eq_append, List.nodup_concat, List.forall_mem_append,
        List.forall_mem_singleton]
      constructor
      · rintro ⟨⟨hnodups, hnodup, hvalid⟩, hlast, hnew⟩
        exact ⟨hnodups, ⟨hnew, hnodup⟩, hvalid, hlast⟩
      · rintro ⟨hnodups, ⟨hnew, hnodup⟩, hvalid, hlast⟩
        exact ⟨⟨hnodups, hnodup, hvalid⟩, hlast, hnew⟩

theorem filterMap_group?_declarations (groups : List SourceGroup) :
  (declarations groups).filterMap group? = groups
  := by
  rw [declarations, List.filterMap_flatMap]
  have hgroup (g : SourceGroup) :
      (Declaration.group g :: g.sources.map .source).filterMap group? = [g] := by
    simp [group?, Function.comp_def]
  simp only [hgroup, List.flatMap_singleton']

theorem filterMap_source?_declarations (groups : List SourceGroup) :
  (declarations groups).filterMap Declaration.source? = groups.flatMap (·.sources)
  := by
  rw [declarations, List.filterMap_flatMap]
  have hgroup (g : SourceGroup) :
      (Declaration.group g :: g.sources.map .source).filterMap Declaration.source?
        = g.sources := by
    rw [List.filterMap_cons_none rfl, List.filterMap_map]
    apply List.filterMap_some
  simp only [hgroup]

theorem clean_declarations_iff {groups : List SourceGroup} :
  Clean (declarations groups) ↔ Consistent groups
  := by
  rw [clean_iff, filterMap_group?_declarations, filterMap_source?_declarations]
  constructor
  · rintro ⟨hgroups, hsources, hvalid⟩
    refine ⟨hgroups, hsources, ?_⟩
    intro g hg s hs
    exact hvalid s (List.mem_flatMap.mpr ⟨g, hg, hs⟩)
  · intro hconsistent
    refine ⟨hconsistent.nodup_groups, hconsistent.nodup_sources, ?_⟩
    intro s hs
    obtain ⟨g, hg, hs⟩ := List.mem_flatMap.mp hs
    exact hconsistent.valid g hg s hs

/-! ### The check -/

/-- Checking the sources of a group goes through all of them, or ends at the first violation. -/
theorem checkSources_cases {seen : List String} (hclean : Clean before)
    (hseen : ∀ id, id ∈ seen ↔ ∃ s, .source s ∈ before ∧ s.id = id) (sources : List Source) :
  let ds := before ++ sources.map .source
  (∃ seen', checkSources seen sources = .ok seen' ∧ Clean ds
      ∧ ∀ id, id ∈ seen' ↔ ∃ s, .source s ∈ ds ∧ s.id = id)
    ∨ ∃ e, checkSources seen sources = .error e ∧ FirstViolation ds e
  := by
  -- the names that have been seen are those declared before, which grow with every source
  induction sources generalizing before seen with
  | nil =>
    left
    use seen, rfl
    rw [List.map_nil, List.append_nil]
    exact ⟨hclean, hseen⟩
  | cons s rest ih =>
    have first (e : CatalogError) (hviolates : Violates before (.source s) e) :
        FirstViolation (before ++ (s :: rest).map .source) e :=
      ⟨before, .source s, rest.map .source, rfl, hclean, hviolates⟩
    rw [checkSources]
    cases hfault : s.fault? with
    | some fault =>
      right
      exact ⟨_, rfl, first _ (.invalidSource (Source.fault?_eq_some_iff.mp hfault))⟩
    | none =>
      have hvalid := Source.fault?_eq_none_iff.mp hfault
      by_cases htaken : s.id ∈ seen
      · right
        refine ⟨_, if_pos (List.contains_iff_mem.mpr htaken), first _ ?_⟩
        exact .duplicateSource hvalid ((hseen s.id).mp htaken)
      · have hnew : s.id ∉ (before.filterMap Declaration.source?).map (·.id) := by
          simpa only [List.mem_map, mem_sources_iff, ← hseen] using htaken
        have hclean' : Clean (before ++ [.source s]) :=
          clean_concat_iff.mpr ⟨hclean, not_violates_source_iff.mpr ⟨hvalid, hnew⟩⟩
        have hseen' (id : String) :
            id ∈ s.id :: seen ↔ ∃ t, .source t ∈ before ++ [.source s] ∧ t.id = id := by
          simp [hseen, or_and_right, exists_or, or_comm, eq_comm (a := id)]
        dsimp only
        rw [if_neg (by simpa using htaken), List.map_cons, List.append_cons]
        exact ih hclean' hseen'

/-- Checking groups goes through all of them, or ends at the first violation. -/
theorem checkGroups_cases {groupIds sourceIds : List String} (hclean : Clean before)
    (hgroups : ∀ id, id ∈ groupIds ↔ ∃ g, .group g ∈ before ∧ g.id = id)
    (hsources : ∀ id, id ∈ sourceIds ↔ ∃ s, .source s ∈ before ∧ s.id = id)
    (groups : List SourceGroup) :
  let ds := before ++ declarations groups
  (checkGroups groupIds sourceIds groups = .ok () ∧ Clean ds)
    ∨ ∃ e, checkGroups groupIds sourceIds groups = .error e ∧ FirstViolation ds e
  := by
  induction groups generalizing before groupIds sourceIds with
  | nil =>
    left
    use rfl
    rwa [declarations, List.flatMap_nil, List.append_nil]
  | cons g rest ih =>
    have hdeclared : before ++ declarations (g :: rest)
        = before ++ [.group g] ++ g.sources.map .source ++ declarations rest := by
      simp [declarations]
    dsimp only
    rw [checkGroups, hdeclared]
    by_cases htaken : g.id ∈ groupIds
    · right
      refine ⟨_, if_pos (List.contains_iff_mem.mpr htaken), before, .group g,
        g.sources.map .source ++ declarations rest, ?_, hclean, ?_⟩
      · simp
      · exact .duplicateGroup ((hgroups g.id).mp htaken)
    · have hnew : g.id ∉ (before.filterMap group?).map (·.id) := by
        simpa only [List.mem_map, mem_groups_iff, ← hgroups] using htaken
      have hclean' : Clean (before ++ [.group g]) :=
        clean_concat_iff.mpr ⟨hclean, not_violates_group_iff.mpr hnew⟩
      have hsources' (id : String) :
          id ∈ sourceIds ↔ ∃ s, .source s ∈ before ++ [.group g] ∧ s.id = id := by
        simp [hsources]
      rw [if_neg (by simpa using htaken)]
      obtain ⟨seen, hok, hclean'', hseen⟩ | ⟨e, herror, hfirst⟩ :=
        checkSources_cases hclean' hsources' g.sources
      · have hgroups' (id : String) : id ∈ g.id :: groupIds
            ↔ ∃ g', .group g' ∈ before ++ [.group g] ++ g.sources.map .source ∧ g'.id = id := by
          simp [hgroups, or_and_right, exists_or, or_comm, eq_comm (a := id)]
        rw [hok]
        exact ih hclean'' hgroups' hseen
      · right
        rw [herror]
        exact ⟨e, rfl, hfirst.append _⟩

/-- A check passes or finds the first violation. -/
theorem check_cases (groups : List SourceGroup) :
  (check groups = .ok () ∧ Consistent groups)
    ∨ ∃ e, check groups = .error e ∧ FirstViolation (declarations groups) e
  := by
  rw [← clean_declarations_iff]
  exact checkGroups_cases clean_nil (by simp) (by simp) groups

theorem check_eq_ok_iff {groups : List SourceGroup} :
  check groups = .ok () ↔ Consistent groups
  := by
  obtain ⟨hok, hconsistent⟩ | ⟨e, herror, hfirst⟩ := check_cases groups
  · exact iff_of_true hok hconsistent
  · rw [herror, ← clean_declarations_iff]
    exact iff_of_false nofun hfirst.not_clean

theorem check_eq_error_iff {groups : List SourceGroup} {e : CatalogError} :
  check groups = .error e ↔ FirstViolation (declarations groups) e
  := by
  obtain ⟨hok, hconsistent⟩ | ⟨e', herror, hfirst'⟩ := check_cases groups
  · rw [hok]
    apply iff_of_false nofun
    intro hfirst
    exact hfirst.not_clean (clean_declarations_iff.mpr hconsistent)
  · rw [herror, Except.error.injEq]
    constructor
    · rintro rfl
      exact hfirst'
    · exact hfirst'.unique

theorem ofGroups_eq_ok_iff {groups : List SourceGroup} {c : Catalog} :
  ofGroups groups = .ok c ↔ c.groups = groups
  := by
  unfold ofGroups
  split
  next hok =>
    rw [Except.ok.injEq]
    constructor
    · rintro rfl
      rfl
    · rintro rfl
      rfl
  next e herror =>
    apply iff_of_false nofun
    rintro rfl
    rw [c.consistent] at herror
    cases herror

theorem ofGroups_eq_error_iff {groups : List SourceGroup} {e : CatalogError} :
  ofGroups groups = .error e ↔ check groups = .error e
  := by
  unfold ofGroups
  split
  next hok => exact iff_of_false nofun fun herror => nomatch hok.symm.trans herror
  next e' herror => rw [herror, Except.error.injEq, Except.error.injEq]

end Catalog

end SafetyHub
