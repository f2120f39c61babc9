import SafetyHub.Catalog.Source

/-!
# Broadcasts

A `Broadcast` lists the sources that one package answers for: those asked for the profile
parent, those asked for managed profiles, and of both the ones asked when the page is opened.
`Broadcast.ofSources` derives the broadcasts of a list of sources, one for each package in the
order in which the packages first appear.
-/

namespace SafetyHub

/-- What one package is asked in a refresh. -/
structure Broadcast where
  package : String
  /-- Sources asked for the profile parent. -/
  forParent : List String := []
  /-- Those of them asked when the page is opened. -/
  forParentOnPageOpen : List String := []
  /-- Sources asked once for every managed profile. -/
  forManaged : List String := []
  /-- Those of them asked when the page is opened. -/
  forManagedOnPageOpen : List String := []
deriving DecidableEq, Repr, Inhabited

namespace Broadcast

/-- A broadcast that reaches one source more. -/
def addSource (b : Broadcast) (s : Source) : Broadcast :=
  let only (p : Bool) : List String := if p then [s.id] else []
  { b with
    forParent := b.forParent ++ [s.id]
    forParentOnPageOpen := b.forParentOnPageOpen ++ only s.askedOnPageOpen
    forManaged := b.forManaged ++ only s.appliesToManaged
    forManagedOnPageOpen :=
      b.forManagedOnPageOpen ++ only (s.appliesToManaged && s.askedOnPageOpen) }

/-- The broadcasts after a source of a package is declared: the package's broadcast reaches it,
or a new one at the end. -/
def insert (s : Source) (package : String) : List Broadcast → List Broadcast
  | [] => [addSource { package } s]
  | b :: bs => if b.package == package then b.addSource s :: bs else b :: insert s package bs

/-- The broadcasts of a list of sources in declaration order. -/
def ofSources (sources : List Source) : List Broadcast :=
  sources.foldl (fun bs s => match s.package with
    | some package => insert s package bs
    | none => bs) []

/-- Every source that the broadcast reaches, those for the profile parent first. -/
def allSourceIds (b : Broadcast) : List String :=
  b.forParent ++ b.forManaged.filter (!b.forParent.contains ·)

instance : Encode Broadcast :=
  ⟨fun b => .record [("package_name", encode b.package),
    ("source_ids_for_profile_parent", encode b.forParent),
    ("source_ids_for_profile_parent_on_page_open", encode b.forParentOnPageOpen),
    ("source_ids_for_managed_profiles", encode b.forManaged),
    ("source_ids_for_managed_profiles_on_page_open", encode b.forManagedOnPageOpen)]⟩

instance : Decode Broadcast where
  decode? d v := do
    let r ← v.record? d ["package_name", "source_ids_for_profile_parent",
      "source_ids_for_profile_parent_on_page_open", "source_ids_for_managed_profiles",
      "source_ids_for_managed_profiles_on_page_open"]
    some {
      package := ← r.required "package_name" (decode? d)
      forParent := ← r.required "source_ids_for_profile_parent" (decode? d)
      forParentOnPageOpen :=
        ← r.required "source_ids_for_profile_parent_on_page_open" (decode? d)
      forManaged := ← r.required "source_ids_for_managed_profiles" (decode? d)
      forManagedOnPageOpen :=
        ← r.required "source_ids_for_managed_profiles_on_page_open" (decode? d) }

end Broadcast

end SafetyHub
