import SafetyHub.Instant.Basic
import SafetyHub.Key

/-!
# Deadlines

`Deadlines` keeps what is armed, in the order of arming, on a time of its own that counts whole
milliseconds.  Arming what is armed already replaces it and makes it the youngest.  Of the
deadlines of refreshes and actions at most `capacity` are armed: arming one more drops the
oldest of them.  The others are neither counted nor dropped.

`next?` is the deadline whose turn comes first: the earliest, and of those at one time the one
armed first.

These are deadlines as those see them who arm them.  `Scheduler` is what arms them, with tasks that
sleep and may wake too late to be aborted.
-/

namespace SafetyHub

/-- What a deadline is for. -/
inductive DeadlineKey where
  /-- The sources of a refresh must answer. -/
  | refresh (id : BroadcastId)
  /-- An action must end. -/
  | resolveAction (key : ActionKey)
  /-- A dismissed issue comes back. -/
  | resurface
  /-- Changed dismissals are saved. -/
  | persistWrite
deriving DecidableEq, Repr, Inhabited

namespace DeadlineKey

/-- Whether the deadline counts toward the capacity. -/
def isBounded : DeadlineKey → Bool
  | .refresh _ | .resolveAction _ => true
  | .resurface | .persistWrite => false

/-- Whether the deadline is that of a refresh. -/
def isRefresh : DeadlineKey → Bool
  | .refresh _ => true
  | _ => false

instance : ToString DeadlineKey where
  toString
    | .refresh id => s!"refresh:{id}"
    | .resolveAction key => s!"action:{key}"
    | .resurface => "resurface"
    | .persistWrite => "persist"

end DeadlineKey

/-- An armed deadline, with what is to be done when its turn comes. -/
structure Armed (α : Type) where
  key : DeadlineKey
  /-- The time of arming in milliseconds. -/
  armedAt : Nat
  /-- The delay in nanoseconds. -/
  delay : Nat
  task : α
deriving DecidableEq, Repr

/-- The time at which the turn of a deadline comes: its delay after it was armed, rounded up to
whole milliseconds. -/
def Armed.due {α : Type} (e : Armed α) : Nat :=
  e.armedAt + (e.delay + (Instant.millisecond - 1)) / Instant.millisecond

/-- A deadline with another task. -/
def Armed.map {α β : Type} (f : α → β) (e : Armed α) : Armed β :=
  { key := e.key, armedAt := e.armedAt, delay := e.delay, task := f e.task }

/-- The armed deadlines in the order of arming, and the time. -/
structure Deadlines (α : Type) where
  /-- The time in milliseconds. -/
  now : Nat := 0
  armed : List (Armed α) := []
deriving DecidableEq, Repr, Inhabited

namespace Deadlines

variable {α : Type}

/-- The greatest number of armed deadlines of refreshes and actions. -/
def capacity : Nat := 10

/-- The number of armed deadlines that count toward the capacity. -/
def boundedCount (armed : List (Armed α)) : Nat :=
  armed.countP (·.key.isBounded)

/-- Drops the oldest deadline that counts toward the capacity. -/
def evict (armed : List (Armed α)) : List (Armed α) :=
  armed.eraseP (·.key.isBounded)

/-- Drops the oldest deadlines that count toward the capacity until there is room for one. -/
def makeRoom (armed : List (Armed α)) : List (Armed α) :=
  (List.range (boundedCount armed + 1 - capacity)).foldl (fun armed _ => evict armed) armed

/-- Arms a deadline after a delay in nanoseconds. -/
def arm (d : Deadlines α) (key : DeadlineKey) (delay : Nat) (task : α) : Deadlines α :=
  let others := d.armed.filter (·.key != key)
  let others := if key.isBounded then makeRoom others else others
  { d with armed := others ++ [{ key, armedAt := d.now, delay, task }] }

/-- Whether a deadline is armed. -/
def isArmed (d : Deadlines α) (key : DeadlineKey) : Bool :=
  d.armed.any (·.key == key)

/-- Drops a deadline. -/
def disarm (d : Deadlines α) (key : DeadlineKey) : Deadlines α :=
  { d with armed := d.armed.filter (·.key != key) }

/-- Drops the deadlines that satisfy a condition. -/
def disarmMatching (d : Deadlines α) (p : DeadlineKey → Bool) : Deadlines α :=
  { d with armed := d.armed.filter (!p ·.key) }

/-- Drops the deadlines of a list. -/
def disarmEach (d : Deadlines α) (keys : List DeadlineKey) : Deadlines α :=
  keys.foldl disarm d

/-- The deadline of a list whose turn comes first. -/
def first? : List (Armed α) → Option (Armed α)
  | [] => none
  | e :: rest =>
    match first? rest with
    | none => some e
    | some e' => if e'.due < e.due then some e' else some e

/-- The deadline whose turn comes first, if it comes by the given time. -/
def next? (d : Deadlines α) (limit : Nat) : Option (Armed α) :=
  (first? d.armed).filter (·.due ≤ limit)

/-- The deadlines when the turn of one has come: it is dropped, and the time moves on to it. -/
def take (d : Deadlines α) (e : Armed α) : Deadlines α :=
  { now := max d.now e.due, armed := d.armed.filter (·.key != e.key) }

/-- The deadlines at a later time. -/
def moveTo (d : Deadlines α) (time : Nat) : Deadlines α :=
  { d with now := max d.now time }

end Deadlines

end SafetyHub
