import SafetyHub.Catalog.Broadcast
import SafetyHub.Text.Blank

/-!
# The catalog of sources

A `Catalog` is a list of source groups that has passed `Catalog.check`: names of groups are
distinct, names of sources are distinct over all groups and not blank, and exactly the sources
that report have a package.  `check` finds the first fault in document order: a group's name
before its sources, a source's own declaration before its name's second use.
-/

namespace SafetyHub

/-- What is wrong with one declaration. -/
inductive SourceFault where
  | blankId
  | packageOfFixed
  | packageMissing
deriving DecidableEq, Repr

/-- The wording of a fault. -/
def SourceFault.message : SourceFault → String
  | .blankId => "empty id"
  | .packageOfFixed => "static sources cannot declare a package"
  | .packageMissing => "external sources need a package"

/-- Why a list of groups is no catalog. -/
inductive CatalogError where
  | duplicateGroup (id : String)
  | duplicateSource (id : String)
  | invalidSource (id : String) (fault : SourceFault)
deriving DecidableEq, Repr

/-- The wording of an error. -/
def CatalogError.message : CatalogError → String
  | .duplicateGroup id => "duplicate group id: " ++ id
  | .duplicateSource id => "duplicate source id: " ++ id
  | .invalidSource id fault => "invalid source " ++ id ++ ": " ++ fault.message

/-- The fault of a declaration on its own. -/
def Source.fault? (s : Source) : Option SourceFault :=
  if Text.allBlank s.id then some .blankId
  else match s.kind, s.package with
    | .fixed, some _ => some .packageOfFixed
    | .fixed, none => none
    | _, none => some .packageMissing
    | _, some package => if package == "" then some .packageMissing else none

namespace Catalog

/-- Checks the sources of one group against the names of all sources before them. -/
def checkSources (seen : List String) : List Source → Except CatalogError (List String)
  | [] => .ok seen
  | s :: rest =>
    match s.fault? with
    | some fault => .error (.invalidSource s.id fault)
    | none =>
      if seen.contains s.id then .error (.duplicateSource s.id)
      else checkSources (s.id :: seen) rest

/-- Checks groups against the names of all groups and sources before them. -/
def checkGroups (groupIds sourceIds : List String) :
    List SourceGroup → Except CatalogError Unit
  | [] => .ok ()
  | g :: rest =>
    if groupIds.contains g.id then .error (.duplicateGroup g.id)
    else match checkSources sourceIds g.sources with
      | .error e => .error e
      | .ok sourceIds => checkGroups (g.id :: groupIds) sourceIds rest

/-- Finds the first fault of a list of groups. -/
def check (groups : List SourceGroup) : Except CatalogError Unit :=
  checkGroups [] [] groups

end Catalog

/-- A consistent list of source groups. -/
structure Catalog where
  groups : List SourceGroup
  consistent : Catalog.check groups = .ok ()

namespace Catalog

/-- The catalog of a list of groups, or its first fault. -/
def ofGroups (groups : List SourceGroup) : Except CatalogError Catalog :=
  match h : check groups with
  | .ok () => .ok ⟨groups, h⟩
  | .error e => .error e

/-- A catalog without sources. -/
def empty : Catalog := ⟨[], rfl⟩

instance : Inhabited Catalog := ⟨empty⟩

/-- Every source in declaration order. -/
def sources (c : Catalog) : List Source :=
  c.groups.flatMap (·.sources)

/-- The sources that report, in declaration order. -/
def externalSources (c : Catalog) : List Source :=
  c.sources.filter (·.isExternal)

/-- What each package is asked in a refresh. -/
def broadcasts (c : Catalog) : List Broadcast :=
  Broadcast.ofSources c.sources

/-- The source with a name. -/
def source? (c : Catalog) (id : String) : Option Source :=
  c.sources.find? (·.id == id)

/-- The group that declares a source. -/
def groupOf? (c : Catalog) (id : String) : Option SourceGroup :=
  c.groups.find? fun g => g.sources.any (·.id == id)

/-- The position of a source in declaration order. -/
def orderOf? (c : Catalog) (id : String) : Option Nat :=
  c.sources.findIdx? (·.id == id)

/-- Whether a name is that of a source that reports. -/
def isExternal (c : Catalog) (id : String) : Bool :=
  (c.source? id).any (·.isExternal)

end Catalog

end SafetyHub
