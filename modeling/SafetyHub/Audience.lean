import SafetyHub.Overview.Basic
import SafetyHub.Profile

/-!
# The audience

Listeners register for the group of a profile parent, each with the package it belongs to.  The
`Audience` keeps the registrations of every group in the order in which they were made, and of
each what it was offered last.  An overview is offered with a sequence number: a registration
takes it if the number is greater than all it was offered before and the overview differs from
the last one it took.

What a registration was offered is kept under its ticket even when it is dropped, because an
offer may be under way by then.
-/

namespace SafetyHub

open Std

/-- Errors that listeners hear of. -/
inductive NoticeKind where
  /-- Some sources did not answer a refresh in time. -/
  | refreshTimeout
  /-- An action failed. -/
  | actionFailed
  /-- An action did not end in time. -/
  | actionTimeout
deriving DecidableEq, Repr, Inhabited

namespace NoticeKind

/-- Every kind. -/
def all : List NoticeKind := [.refreshTimeout, .actionFailed, .actionTimeout]

/-- The name of a kind. -/
def name : NoticeKind → String
  | .refreshTimeout => "RefreshTimeout"
  | .actionFailed => "ActionFailed"
  | .actionTimeout => "ActionTimeout"

end NoticeKind

/-- An error that listeners hear of. -/
structure Notice where
  kind : NoticeKind
  message : String
deriving DecidableEq, Repr, Inhabited

/-- A listener's registration for a group. -/
structure Registration where
  /-- Tells registrations apart. -/
  ticket : Nat
  /-- The name of the listener. -/
  listener : String
  package : String
deriving DecidableEq, Repr, Inhabited

/-- What a registration was offered last. -/
structure Offered where
  /-- The greatest sequence number of an offer. -/
  sequence : Nat := 0
  /-- The overview that was taken last. -/
  taken : Option Overview := none
deriving DecidableEq, Repr, Inhabited

namespace Offered

/-- Whether an offer is taken. -/
def takes (o : Offered) (sequence : Nat) (view : Overview) : Bool :=
  o.sequence < sequence && o.taken != some view

/-- What was offered last, after one offer more. -/
def offer (o : Offered) (sequence : Nat) (view : Overview) : Offered :=
  if o.sequence < sequence then { sequence, taken := some view } else o

end Offered

/-- The registrations of all groups. -/
structure Audience where
  /-- The registrations for each profile parent; no list is empty. -/
  groups : ExtTreeMap UserId (List Registration) := ∅
  /-- What each ticket was offered last. -/
  offered : ExtTreeMap Nat Offered := ∅
  /-- The ticket of the next registration. -/
  nextTicket : Nat := 0

namespace Audience

instance : Inhabited Audience := ⟨{}⟩

/-- The registrations for a profile parent. -/
def registrations (a : Audience) (parent : UserId) : List Registration :=
  a.groups[parent]?.getD []

/-- All registrations. -/
def all (a : Audience) : List Registration :=
  a.groups.values.flatten

/-- Registers a listener for a group, unless it is registered there. -/
def register? (a : Audience) (listener : String) (parent : UserId) (package : String) :
    Option Audience :=
  let present := a.registrations parent
  if present.any (·.listener == listener) then none
  else some {
    groups := a.groups.insert parent
      (present ++ [{ ticket := a.nextTicket, listener, package }])
    offered := a.offered.insert a.nextTicket {}
    nextTicket := a.nextTicket + 1 }

/-- Whether a listener is registered for any group. -/
def hears (a : Audience) (listener : String) : Bool :=
  a.all.any (·.listener == listener)

/-- Drops the registrations of a listener. -/
def unregister (a : Audience) (listener : String) : Audience :=
  { a with
    groups := (a.groups.map fun _ rs => rs.filter (·.listener != listener)).filter
      fun _ rs => !rs.isEmpty }

/-- Drops the registrations for a profile parent. -/
def clearForUser (a : Audience) (parent : UserId) : Audience :=
  { a with groups := a.groups.erase parent }

/-- Drops all registrations. -/
def clear (a : Audience) : Audience := { a with groups := ∅ }

/-- The profile parents with a registration, in order. -/
def parents (a : Audience) : List UserId :=
  a.groups.keys

/-- The packages that listen to a group, in order and each once. -/
def packages (a : Audience) (parent : UserId) : List String :=
  (ExtTreeSet.ofList ((a.registrations parent).map (·.package))).toList

/-- The registrations for a group that belong to a package. -/
def ofPackage (a : Audience) (parent : UserId) (package : String) : List Registration :=
  (a.registrations parent).filter (·.package == package)

/-- What a ticket was offered last. -/
def offeredTo (a : Audience) (ticket : Nat) : Offered :=
  a.offered[ticket]?.getD {}

/-- Offers an overview to a registration.  Says whether it is taken. -/
def offer (a : Audience) (r : Registration) (sequence : Nat) (view : Overview) :
    Bool × Audience :=
  let o := a.offeredTo r.ticket
  (o.takes sequence view,
    { a with offered := a.offered.insert r.ticket (o.offer sequence view) })

/-- Offers an overview to registrations in turn.  Says which take it. -/
def offerEach (a : Audience) (sequence : Nat) (view : Overview) :
    List Registration → List Registration × Audience
  | [] => ([], a)
  | r :: rest =>
    let (taken, a) := a.offer r sequence view
    let (takers, a) := offerEach a sequence view rest
    (if taken then r :: takers else takers, a)

/-- Offers an overview to the registrations for a group that belong to a package. -/
def deliver (a : Audience) (parent : UserId) (package : String) (sequence : Nat)
    (view : Overview) : List Registration × Audience :=
  a.offerEach sequence view (a.ofPackage parent package)

/-- Offers an overview to one listener of a group. -/
def deliverTo (a : Audience) (parent : UserId) (listener : String) (sequence : Nat)
    (view : Overview) : List Registration × Audience :=
  a.offerEach sequence view
    (((a.registrations parent).find? (·.listener == listener)).toList)

end Audience

end SafetyHub
