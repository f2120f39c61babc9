import SafetyHub.Key

/-!
# Profile groups

A profile group is a profile parent and its managed profiles, some of which are running.
`ProfileGroup.ofMembers` builds one in normal form: both lists of profiles ascend strictly, the
parent is in neither, and a profile runs if it is said to run wherever it is named.

A `Roster` lists the users of the device.  `Roster.resolve?` finds the group of a user: the one
of the user's parent, or of the user where it has none, provided that this parent is known and
is no managed profile itself.
-/

namespace SafetyHub

open Std

/-- A profile parent and its managed profiles. -/
structure ProfileGroup where
  parent : UserId
  managed : List UserId := []
  /-- The managed profiles that are running and not paused. -/
  running : List UserId := []
deriving DecidableEq, Repr, Inhabited

namespace ProfileGroup

/-- A group without managed profiles. -/
def single (user : UserId) : ProfileGroup := { parent := user }

/-- The group of a parent and its managed profiles, each with whether it is running. -/
def ofMembers (parent : UserId) (members : List (UserId × Bool)) : ProfileGroup :=
  let ids := (members.map (·.1)).filter (· != parent)
  let managed := (ExtTreeSet.ofList ids).toList
  { parent, managed
    running := managed.filter fun id => members.all fun m => m.1 != id || m.2 }

/-- Whether a user belongs to the group. -/
def contains (g : ProfileGroup) (user : UserId) : Bool :=
  g.parent == user || g.managed.contains user

/-- Whether a user is a managed profile of the group. -/
def isManaged (g : ProfileGroup) (user : UserId) : Bool :=
  g.managed.contains user

/-- Whether a user of the group can answer now. -/
def isRunning (g : ProfileGroup) (user : UserId) : Bool :=
  g.parent == user || g.running.contains user

/-- All users of the group, the parent first. -/
def members (g : ProfileGroup) : List UserId :=
  g.parent :: g.managed

instance : Encode ProfileGroup :=
  ⟨fun g => .record [("profile_parent", encode g.parent),
    ("managed_profiles", encode g.managed), ("running_managed_profiles", encode g.running)]⟩

instance : Decode ProfileGroup where
  decode? d v := do
    let r ← v.record? d ["profile_parent", "managed_profiles", "running_managed_profiles"]
    some {
      parent := ← r.required "profile_parent" (decode? d)
      managed := ← r.required "managed_profiles" (decode? d)
      running := ← r.required "running_managed_profiles" (decode? d) }

end ProfileGroup

/-- A user of the device. -/
structure UserInfo where
  id : UserId
  /-- The parent of a managed profile. -/
  profileParent : Option UserId
  running : Bool
  /-- Whether a managed profile is paused. -/
  quiet : Bool
deriving DecidableEq, Repr, Inhabited

namespace UserInfo

/-- A running user that is no managed profile. -/
def full (id : UserId) : UserInfo := ⟨id, none, true, false⟩

/-- A running managed profile. -/
def managedBy (id parent : UserId) : UserInfo := ⟨id, some parent, true, false⟩

/-- Whether the user is a managed profile. -/
def isManaged (u : UserInfo) : Bool := u.profileParent.isSome

instance : Encode UserInfo :=
  ⟨fun u => .record [("id", encode u.id), ("profile_parent", encode u.profileParent),
    ("running", encode u.running), ("quiet_mode", encode u.quiet)]⟩

instance : Decode UserInfo where
  decode? d v := do
    let r ← v.record? d ["id", "profile_parent", "running", "quiet_mode"]
    some {
      id := ← r.required "id" (decode? d)
      profileParent := ← r.optional "profile_parent" (decode? d)
      running := ← r.required "running" (decode? d)
      quiet := ← r.required "quiet_mode" (decode? d) }

end UserInfo

/-- The users of the device. -/
abbrev Roster := List UserInfo

namespace Roster

/-- The first user with a name. -/
def user? (r : Roster) (id : UserId) : Option UserInfo :=
  r.find? (·.id == id)

/-- The managed profiles of a parent, each with whether it is running and not paused. -/
def profilesOf (r : Roster) (parent : UserId) : List (UserId × Bool) :=
  (r.filter (·.profileParent == some parent)).map fun u => (u.id, u.running && !u.quiet)

/-- The group that a user belongs to. -/
def resolve? (r : Roster) (id : UserId) : Option ProfileGroup := do
  let user ← r.user? id
  let parentId := user.profileParent.getD user.id
  let parent ← r.user? parentId
  if parent.isManaged then none else some (.ofMembers parentId (r.profilesOf parentId))

/-- Every group, in ascending order of parents. -/
def groups (r : Roster) : List ProfileGroup :=
  (((r.filter (!·.isManaged)).map (·.id)).mergeSort (· ≤ ·)).filterMap r.resolve?

/-- Adds a user at the end, in place of those with its name. -/
def upsert (r : Roster) (u : UserInfo) : Roster :=
  r.filter (·.id != u.id) ++ [u]

/-- Removes the users with a name. -/
def remove (r : Roster) (id : UserId) : Roster :=
  r.filter (·.id != id)

/-- Pauses the first user with a name, or lets it go on. -/
def setQuiet (id : UserId) (quiet : Bool) : Roster → Roster
  | [] => []
  | u :: us => if u.id == id then { u with quiet } :: us else u :: setQuiet id quiet us

end Roster

end SafetyHub
