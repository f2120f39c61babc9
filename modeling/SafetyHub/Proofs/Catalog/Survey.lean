import SafetyHub.Proofs.Basic
import SafetyHub.Proofs.Catalog.Broadcasts
import SafetyHub.Proofs.Catalog.Consistency

/-!
# A catalog in one pass

A catalog is checked first, and then names are looked up in its groups and broadcasts derived from
its sources.  A `Survey` is what one pass over the groups gathers on the way: where each name is
declared, what each package is asked, and how many sources there are.  The pass is refused for
what the check finds, and answers what the catalog does.
-/

namespace SafetyHub

open Std

theorem getElem?_concat_eq_some_iff {α : Type} {l : List α} {a b : α} {n : Nat} :
  (l ++ [a])[n]? = some b ↔ l[n]? = some b ∨ n = l.length ∧ a = b
  := by
  obtain hlt | rfl | hgt := Nat.lt_trichotomy n l.length
  · rw [List.getElem?_append_left hlt]
    simp [Nat.ne_of_lt hlt]
  · simp
  · have hlength : (l ++ [a]).length ≤ n := by
      rw [List.length_append]
      exact hgt
    rw [List.getElem?_eq_none hlength, List.getElem?_eq_none (Nat.le_of_lt hgt)]
    simp [Nat.ne_of_gt hgt]

namespace Catalog

/-- Where a source is declared. -/
structure Place where
  /-- The place of its group. -/
  group : Nat
  /-- Its place in the group. -/
  item : Nat
  /-- Its place among all sources. -/
  order : Nat

/-- What a pass over groups has gathered. -/
structure Survey where
  groupIds : List String := []
  /-- Where each source is declared, by its name. -/
  index : ExtTreeMap String Place := ∅
  broadcasts : List Broadcast := []
  /-- The number of sources. -/
  order : Nat := 0

namespace Survey

/-- Takes in the source at a place of a group. -/
def enter (v : Survey) (g i : Nat) (s : Source) : Except CatalogError Survey :=
  match s.fault? with
  | some fault => .error (.invalidSource s.id fault)
  | none =>
    if v.index.contains s.id then .error (.duplicateSource s.id)
    else .ok { v with
      index := v.index.insert s.id ⟨g, i, v.order⟩
      order := v.order + 1
      broadcasts := match s.package with
        | some package => Broadcast.insert s package v.broadcasts
        | none => v.broadcasts }

/-- Takes in the sources of a group from a place on. -/
def enterSources (v : Survey) (g i : Nat) : List Source → Except CatalogError Survey
  | [] => .ok v
  | s :: rest => do
    let v ← v.enter g i s
    v.enterSources g (i + 1) rest

/-- Takes in groups from a place on. -/
def enterGroups (v : Survey) (g : Nat) : List SourceGroup → Except CatalogError Survey
  | [] => .ok v
  | group :: rest =>
    if v.groupIds.contains group.id then .error (.duplicateGroup group.id)
    else do
      let v ← { v with groupIds := group.id :: v.groupIds }.enterSources g 0 group.sources
      v.enterGroups (g + 1) rest

/-- One pass over groups. -/
def ofGroups (groups : List SourceGroup) : Except CatalogError Survey :=
  enterGroups {} 0 groups

/-- The source with a name. -/
def source? (v : Survey) (groups : List SourceGroup) (id : String) : Option Source := do
  let p ← v.index[id]?
  let group ← groups[p.group]?
  group.sources[p.item]?

/-- The group that declares a source. -/
def groupOf? (v : Survey) (groups : List SourceGroup) (id : String) : Option SourceGroup := do
  let p ← v.index[id]?
  groups[p.group]?

/-- The position of a source in declaration order. -/
def orderOf? (v : Survey) (id : String) : Option Nat :=
  v.index[id]?.map (·.order)

/-! ### What is declared where -/

/-- The sources of a group from a place on, each with the place of the group and its own. -/
def placedIn (g i : Nat) (sources : List Source) : List (Nat × Nat × Source) :=
  (sources.zipIdx i).map fun (s, i) => (g, i, s)

/-- The sources of groups from a place on, each with the place of its group and its own. -/
def placed (g : Nat) (groups : List SourceGroup) : List (Nat × Nat × Source) :=
  (groups.zipIdx g).flatMap fun (group, g) => placedIn g 0 group.sources

theorem mem_placed_iff {groups : List SourceGroup} {g i : Nat} {s : Source} :
  (g, i, s) ∈ placed 0 groups ↔ ∃ group, groups[g]? = some group ∧ group.sources[i]? = some s
  := by
  simp only [placed, placedIn, List.mem_flatMap, List.mem_map, Prod.exists,
    List.mem_zipIdx_iff_getElem?, Prod.mk.injEq]
  constructor
  · rintro ⟨group, g', hgroup, s', i', hs, rfl, rfl, rfl⟩
    exact ⟨group, hgroup, hs⟩
  · rintro ⟨group, hgroup, hs⟩
    exact ⟨group, g, hgroup, s, i, hs, rfl, rfl, rfl⟩

theorem map_source_placedIn (g i : Nat) (sources : List Source) :
  (placedIn g i sources).map (·.2.2) = sources
  := by
  simp only [placedIn, List.map_map, Function.comp_def]
  apply List.zipIdx_map_fst

theorem map_source_placed (g : Nat) (groups : List SourceGroup) :
  (placed g groups).map (·.2.2) = groups.flatMap (·.sources)
  := by
  induction groups generalizing g with
  | nil => rfl
  | cons group rest ih =>
    simp only [placed, List.zipIdx_cons, List.flatMap_cons, List.map_append, map_source_placedIn]
    rw [← placed, ih]

/-! ### The pass -/

/-- A survey has gathered a list of sources, each given with the place of its group and its own. -/
structure Holds (v : Survey) (ps : List (Nat × Nat × Source)) : Prop where
  index : ∀ (id : String) (p : Place),
    v.index[id]? = some p ↔ ∃ s : Source, ps[p.order]? = some (p.group, p.item, s) ∧ s.id = id
  broadcasts : v.broadcasts = Broadcast.ofSources (ps.map (·.2.2))
  order : v.order = ps.length

variable {v : Survey} {ps : List (Nat × Nat × Source)}

/-- A valid source with a name of its own is taken in. -/
theorem Holds.enter (hv : v.Holds ps) {s : Source} (hfault : s.fault? = none)
    (hnew : s.id ∉ v.index) (g i : Nat) :
  ∃ v', v.enter g i s = .ok v' ∧ v'.Holds (ps ++ [(g, i, s)]) ∧ v'.groupIds = v.groupIds
    ∧ ∀ id, id ∈ v'.index ↔ id = s.id ∨ id ∈ v.index
  := by
  have hcontains : ¬ v.index.contains s.id = true := by rwa [ExtTreeMap.contains_iff_mem]
  unfold Survey.enter
  rw [hfault]
  dsimp only
  rw [if_neg hcontains]
  refine ⟨_, rfl, ?_, rfl, ?_⟩
  · constructor
    case index =>
      intro id p
      dsimp only
      simp only [ExtTreeMap.getElem?_insert, LawfulEqCmp.compare_eq_iff_eq,
        getElem?_concat_eq_some_iff]
      constructor
      · intro hp
        split at hp
        next hid =>
          cases hp
          exact ⟨s, .inr ⟨hv.order, rfl⟩, hid⟩
        next =>
          obtain ⟨t, ht, hid⟩ := (hv.index id p).mp hp
          exact ⟨t, .inl ht, hid⟩
      · -- the names of earlier sources are in the index, so that of the new one is not among them
        rintro ⟨t, ht | ⟨horder, hlast⟩, rfl⟩
        · have hold := (hv.index t.id p).mpr ⟨t, ht, rfl⟩
          have hne : s.id ≠ t.id := by
            intro hid
            apply hnew
            rw [hid, ExtTreeMap.mem_iff_isSome_getElem?, hold]
            rfl
          rw [if_neg hne, hold]
        · obtain ⟨p, q, order⟩ := p
          cases hlast
          rw [if_pos rfl, hv.order]
          dsimp only at horder
          rw [horder]
    case broadcasts =>
      rw [List.map_append, Broadcast.ofSources, List.foldl_append, ← Broadcast.ofSources,
        ← hv.broadcasts]
      rfl
    case order =>
      rw [List.length_append, ← hv.order]
      rfl
  · intro id
    simp [eq_comm (a := id)]

/-- A pass over the sources of a group comes to what their check comes to. -/
theorem Holds.enterSources {seen : List String} (hv : v.Holds ps)
    (hseen : ∀ id, id ∈ seen ↔ id ∈ v.index) (g i : Nat) (sources : List Source) :
  (∃ seen' v', checkSources seen sources = .ok seen' ∧ v.enterSources g i sources = .ok v'
      ∧ v'.Holds (ps ++ placedIn g i sources) ∧ v'.groupIds = v.groupIds
      ∧ ∀ id, id ∈ seen' ↔ id ∈ v'.index)
    ∨ ∃ e, checkSources seen sources = .error e ∧ v.enterSources g i sources = .error e
  := by
  induction sources generalizing v ps seen i with
  | nil =>
    left
    refine ⟨seen, v, rfl, rfl, ?_, rfl, hseen⟩
    rwa [placedIn, List.zipIdx_nil, List.map_nil, List.append_nil]
  | cons s rest ih =>
    rw [checkSources, Survey.enterSources]
    cases hfault : s.fault? with
    | some fault =>
      right
      use .invalidSource s.id fault, rfl
      rw [Survey.enter, hfault]
      rfl
    | none =>
      by_cases htaken : s.id ∈ seen
      · right
        refine ⟨_, if_pos (List.contains_iff_mem.mpr htaken), ?_⟩
        rw [Survey.enter, hfault]
        dsimp only
        rw [if_pos (by simpa using (hseen s.id).mp htaken)]
        rfl
      · have hnew : s.id ∉ v.index := by rwa [← hseen]
        obtain ⟨v', hok, hv', hgroups, hindex⟩ := hv.enter hfault hnew g i
        have hseen' (id : String) : id ∈ s.id :: seen ↔ id ∈ v'.index := by
          rw [List.mem_cons, hseen, hindex]
        dsimp only
        rw [if_neg (by simpa using htaken), hok]
        have hrest := ih hv' hseen' (i + 1)
        rw [List.append_assoc] at hrest
        rw [← hgroups]
        exact hrest

/-- A pass over groups comes to what their check comes to. -/
theorem Holds.enterGroups {sourceIds : List String} (hv : v.Holds ps)
    (hsources : ∀ id, id ∈ sourceIds ↔ id ∈ v.index) (g : Nat) (groups : List SourceGroup) :
  (∃ v', checkGroups v.groupIds sourceIds groups = .ok () ∧ v.enterGroups g groups = .ok v'
      ∧ v'.Holds (ps ++ placed g groups))
    ∨ ∃ e, checkGroups v.groupIds sourceIds groups = .error e ∧ v.enterGroups g groups = .error e
  := by
  induction groups generalizing v ps sourceIds g with
  | nil =>
    left
    refine ⟨v, rfl, rfl, ?_⟩
    rwa [placed, List.zipIdx_nil, List.flatMap_nil, List.append_nil]
  | cons group rest ih =>
    rw [checkGroups, Survey.enterGroups]
    by_cases htaken : v.groupIds.contains group.id = true
    · right
      rw [if_pos htaken, if_pos htaken]
      exact ⟨_, rfl, rfl⟩
    · rw [if_neg htaken, if_neg htaken]
      have hnamed : { v with groupIds := group.id :: v.groupIds }.Holds ps :=
        ⟨hv.index, hv.broadcasts, hv.order⟩
      obtain ⟨seen, v', hcheck, hpass, hv', hgroups, hseen⟩ | ⟨e, hcheck, hpass⟩ :=
        hnamed.enterSources hsources g 0 group.sources
      · rw [hcheck, hpass]
        have hrest := ih hv' hseen (g + 1)
        rw [hgroups, List.append_assoc] at hrest
        exact hrest
      · right
        rw [hcheck, hpass]
        exact ⟨e, rfl, rfl⟩

/-- A pass is refused for what the check finds, and else it gathers every source. -/
theorem ofGroups_cases (groups : List SourceGroup) :
  (∃ v, check groups = .ok () ∧ ofGroups groups = .ok v ∧ v.Holds (placed 0 groups))
    ∨ ∃ e, check groups = .error e ∧ ofGroups groups = .error e
  := by
  have hempty : Holds {} [] := by
    constructor
    · simp
    · rfl
    · rfl
  exact hempty.enterGroups (by simp) 0 groups

/-! ### Answers -/

/-- A survey answers what a catalog does. -/
structure Answers (v : Survey) (c : Catalog) : Prop where
  source? : ∀ id, v.source? c.groups id = c.source? id
  groupOf? : ∀ id, v.groupOf? c.groups id = c.groupOf? id
  orderOf? : ∀ id, v.orderOf? id = c.orderOf? id
  broadcasts : v.broadcasts = c.broadcasts
  order : v.order = c.sources.length

variable {c : Catalog}

/-- A name has a place, which is where it is declared, or it is not declared. -/
theorem Holds.index_cases (hv : v.Holds (placed 0 c.groups)) (id : String) :
  (v.index[id]? = none ∧ ∀ s ∈ c.sources, s.id ≠ id)
    ∨ ∃ p s group, v.index[id]? = some p ∧ s.id = id ∧ c.sources[p.order]? = some s
      ∧ c.groups[p.group]? = some group ∧ group.sources[p.item]? = some s
  := by
  have hsources : (placed 0 c.groups).map (·.2.2) = c.sources := map_source_placed 0 c.groups
  cases hp : v.index[id]? with
  | none =>
    left
    use rfl
    rintro s hs rfl
    rw [← hsources] at hs
    obtain ⟨⟨g, i, s⟩, hin, rfl⟩ := List.mem_map.mp hs
    obtain ⟨n, hn⟩ := List.mem_iff_getElem?.mp hin
    have hplace := (hv.index s.id ⟨g, i, n⟩).mpr ⟨s, hn, rfl⟩
    rw [hp] at hplace
    cases hplace
  | some p =>
    right
    obtain ⟨s, hs, hid⟩ := (hv.index id p).mp hp
    obtain ⟨group, hgroup, hitem⟩ := mem_placed_iff.mp (List.mem_of_getElem? hs)
    refine ⟨p, s, group, rfl, hid, ?_, hgroup, hitem⟩
    rw [← hsources, List.getElem?_map, hs]
    rfl

/-- A survey that has gathered every source of a catalog answers what the catalog does. -/
theorem Holds.answers (hv : v.Holds (placed 0 c.groups)) : v.Answers c := by
  have hlookups (id : String) : v.source? c.groups id = c.source? id
      ∧ v.groupOf? c.groups id = c.groupOf? id ∧ v.orderOf? id = c.orderOf? id := by
    obtain ⟨hp, hnone⟩ | ⟨p, s, group, hp, hid, hs, hgroup, hitem⟩ := hv.index_cases id
    · obtain ⟨hsource, hgroup, horder⟩ := lookups_eq_none hnone
      rw [hsource, hgroup, horder]
      simp [source?, groupOf?, orderOf?, hp]
    · have hsource := source?_eq_some_iff.mpr ⟨List.mem_of_getElem? hs, hid⟩
      have hgroup' := groupOf?_eq_some_iff.mpr
        ⟨List.mem_of_getElem? hgroup, s, List.mem_of_getElem? hitem, hid⟩
      have horder := orderOf?_eq_some_iff.mpr ⟨s, hs, hid⟩
      rw [hsource, hgroup', horder]
      simp [source?, groupOf?, orderOf?, hp, hgroup, hitem]
  have hsources : (placed 0 c.groups).map (·.2.2) = c.sources := map_source_placed 0 c.groups
  constructor
  case source? => exact fun id => (hlookups id).1
  case groupOf? => exact fun id => (hlookups id).2.1
  case orderOf? => exact fun id => (hlookups id).2.2
  case broadcasts => rw [hv.broadcasts, hsources, Catalog.broadcasts]
  case order => rw [hv.order, ← hsources, List.length_map]

end Survey

/-! ### What a catalog is -/

/-- The packages of the sources that report, in the order in which they are first named. -/
def packages (c : Catalog) : List String :=
  (c.externalSources.filterMap (·.package)).eraseDups

theorem filterMap_package_externalSources (c : Catalog) :
  c.externalSources.filterMap (·.package) = c.sources.filterMap (·.package)
  := by
  rw [externalSources, List.filterMap_filter]
  apply List.filterMap_congr
  intro s hs
  cases hpackage : s.package with
  | none => simp
  | some package =>
    have hexternal := (isSome_package_iff hs).mp (by rw [hpackage, Option.isSome_some])
    rw [if_pos hexternal]

theorem broadcasts_eq (c : Catalog) :
  c.broadcasts = c.packages.map fun package =>
    .reaching package (c.sources.filter (·.package == some package))
  := by
  rw [packages, filterMap_package_externalSources]
  apply Broadcast.ofSources_eq

/-- Groups are a catalog exactly when they are consistent, and else the error is that of the first
violation in document order.  One pass over them is refused for the same.  A catalog keeps the
groups; a name finds the source that it is the name of, the group that declares this source and its
position among all sources, and other names find nothing; and there is one broadcast for every
package of a source that reports, in the order in which the packages are first named, that lists in
declaration order the package's sources, those of them asked when the page is opened, those that
report for managed profiles, and those that are both.  One pass over the groups answers the
same. -/
theorem ofGroups_exact (groups : List SourceGroup) :
  ((∃ c, ofGroups groups = .ok c) ↔ Consistent groups)
    ∧ (∀ e, ofGroups groups = .error e ↔ FirstViolation (declarations groups) e)
    ∧ (∀ e, Survey.ofGroups groups = .error e ↔ ofGroups groups = .error e)
    ∧ ∀ c, ofGroups groups = .ok c →
      c.groups = groups
        ∧ (∀ id s, c.source? id = some s ↔ s ∈ c.sources ∧ s.id = id)
        ∧ (∀ id g, c.groupOf? id = some g ↔ g ∈ c.groups ∧ ∃ s ∈ g.sources, s.id = id)
        ∧ (∀ id n, c.orderOf? id = some n ↔ ∃ s, c.sources[n]? = some s ∧ s.id = id)
        ∧ c.broadcasts = c.packages.map (fun package =>
          .reaching package (c.sources.filter (·.package == some package)))
        ∧ ∃ v, Survey.ofGroups groups = .ok v ∧ v.Answers c
  := by
  refine ⟨?_, ?_, ?_, ?_⟩
  · rw [← check_eq_ok_iff]
    constructor
    · rintro ⟨c, hc⟩
      rw [← ofGroups_eq_ok_iff.mp hc]
      exact c.consistent
    · intro hok
      exact ⟨⟨groups, hok⟩, ofGroups_eq_ok_iff.mpr rfl⟩
  · intro e
    rw [ofGroups_eq_error_iff, check_eq_error_iff]
  · intro e
    rw [ofGroups_eq_error_iff]
    obtain ⟨v, hcheck, hpass, -⟩ | ⟨e', hcheck, hpass⟩ := Survey.ofGroups_cases groups
    · rw [hcheck, hpass]
      exact iff_of_false nofun nofun
    · rw [hcheck, hpass, Except.error.injEq, Except.error.injEq]
  · intro c hc
    obtain rfl := ofGroups_eq_ok_iff.mp hc
    refine ⟨rfl, fun id s => source?_eq_some_iff, fun id g => groupOf?_eq_some_iff,
      fun id n => orderOf?_eq_some_iff, broadcasts_eq c, ?_⟩
    obtain ⟨v, -, hpass, hv⟩ | ⟨e, hcheck, -⟩ := Survey.ofGroups_cases c.groups
    · exact ⟨v, hpass, hv.answers⟩
    · rw [c.consistent] at hcheck
      cases hcheck

/-- Sources of two packages in two groups. -/
theorem ofGroups_two_packages :
  let groups := [
    SourceGroup.titled "security" [
      { id := "lock_screen", kind := .dynamic, package := some "com.settings"
        askedOnPageOpen := true },
      { id := "play_protect", kind := .dynamic, package := some "com.gms", reach := .allProfiles },
      { id := "advanced", kind := .fixed }],
    SourceGroup.titled "privacy" [
      { id := "privacy_issues", kind := .issueOnly, package := some "com.settings"
        reach := .allProfiles }]]
  ∃ c, ofGroups groups = .ok c
    ∧ (∃ v, Survey.ofGroups groups = .ok v ∧ v.orderOf? "privacy_issues" = some 3)
    ∧ c.broadcasts = [
      { package := "com.settings", forParent := ["lock_screen", "privacy_issues"]
        forParentOnPageOpen := ["lock_screen"], forManaged := ["privacy_issues"] },
      { package := "com.gms", forParent := ["play_protect"], forManaged := ["play_protect"] }]
  := by
  intro groups
  have hok : check groups = .ok () := by decide
  have hc : ofGroups groups = .ok ⟨groups, hok⟩ := ofGroups_eq_ok_iff.mpr rfl
  obtain ⟨-, -, -, horder, hbroadcasts, v, hv, hanswers⟩ := (ofGroups_exact groups).2.2.2 _ hc
  refine ⟨_, hc, ⟨v, hv, ?_⟩, ?_⟩
  · rw [hanswers.orderOf?, horder]
    exact ⟨_, rfl, rfl⟩
  · rw [hbroadcasts]
    rfl

end Catalog

end SafetyHub
