import SafetyHub.Instant.Calendar

/-!
# Instants

An `Instant` is a second counted from the beginning of 1970 and a number of nanoseconds within
it.  Any second may last two, the second half of which is a leap second.  `IsSupported` are the
instants whose leap second, if they lie in one, ends a minute, as leap seconds do: only these have
a written form of their own.  Instants lie between the beginning of the year -262143 and the end
of the year 262142.

`add?` moves an instant forward and fails beyond the greatest instant.  `since` is the time
between two instants: a leap second counts when the later instant has the later time of day.

A `Duration` is a length of time as policies may state it, `Millis` one in whole milliseconds.
-/

namespace SafetyHub

namespace Instant

/-- The nanoseconds of a second. -/
def second : Nat := 1000000000

/-- The first second of the year -262143. -/
def minSecond : Int := -8334601228800

/-- The last second of the year 262142. -/
def maxSecond : Int := 8210266876799

example : Date.toDays ⟨-262143, 1, 1⟩ * 86400 = minSecond := by decide
example : Date.toDays ⟨262142, 12, 31⟩ * 86400 + 86399 = maxSecond := by decide

/-- Whether a second lies in the range and can hold a number of nanoseconds. -/
def Holds (seconds : Int) (nanos : Nat) : Prop :=
  minSecond ≤ seconds ∧ seconds ≤ maxSecond ∧ nanos < 2 * second

instance (seconds : Int) (nanos : Nat) : Decidable (Holds seconds nanos) :=
  inferInstanceAs (Decidable (_ ∧ _))

end Instant

/-- An instant. -/
@[ext]
structure Instant where
  /-- Seconds from the beginning of 1970. -/
  seconds : Int
  /-- Nanoseconds within the second; those beyond one second are a leap second's. -/
  nanos : Nat
  holds : Instant.Holds seconds nanos
deriving DecidableEq

namespace Instant

/-- The instant with the given parts, when there is one. -/
def ofParts? (seconds : Int) (nanos : Nat) : Option Instant :=
  if h : Holds seconds nanos then some ⟨seconds, nanos, h⟩ else none

/-- The beginning of 1970. -/
def epoch : Instant := ⟨0, 0, by decide⟩

instance : Inhabited Instant := ⟨epoch⟩

instance : Repr Instant := ⟨fun t _ => s!"{t.seconds}+{t.nanos}"⟩

instance : LT Instant :=
  ⟨fun a b => a.seconds < b.seconds ∨ (a.seconds = b.seconds ∧ a.nanos < b.nanos)⟩

instance : LE Instant :=
  ⟨fun a b => a.seconds < b.seconds ∨ (a.seconds = b.seconds ∧ a.nanos ≤ b.nanos)⟩

instance (a b : Instant) : Decidable (a < b) :=
  inferInstanceAs (Decidable (_ ∨ _))

instance (a b : Instant) : Decidable (a ≤ b) :=
  inferInstanceAs (Decidable (_ ∨ _))

instance : Min Instant := minOfLe

/-- The nanoseconds of a millisecond. -/
def millisecond : Nat := 1000000

/-- The instant a number of milliseconds after the beginning of 1970, or before it. -/
def ofMillis? (ms : Int) : Option Instant :=
  ofParts? (ms / 1000) ((ms % 1000).toNat * millisecond)

/-- The instant a number of milliseconds after the beginning of 1970, or before it; of the
instants in the range the nearest one. -/
def nearestMillis (ms : Int) : Instant :=
  (ofMillis? (max (minSecond * 1000) (min ms (maxSecond * 1000 + 999)))).getD epoch

/-- Whether the instant lies in a leap second. -/
def isLeap (t : Instant) : Bool :=
  second ≤ t.nanos

/-- Whether the instant lies in no leap second but one that ends a minute. -/
def IsSupported (t : Instant) : Prop :=
  t.isLeap = true → t.seconds % 60 = 59

instance (t : Instant) : Decidable t.IsSupported :=
  inferInstanceAs (Decidable (_ → _))

/-- The instant a number of nanoseconds later.  Moving within a leap second stays in it; moving
out of it leaves its extra second behind. -/
def add? (t : Instant) (delay : Nat) : Option Instant :=
  if t.isLeap && t.nanos + delay < 2 * second then
    ofParts? t.seconds (t.nanos + delay)
  else
    let nanos := t.nanos % second + delay
    ofParts? (t.seconds + (nanos / second : Nat)) (nanos % second)

/-- The second of the day. -/
def secondOfDay (t : Instant) : Int :=
  t.seconds % 86400

/-- The nanoseconds from `earlier` to `t`. -/
def since (t earlier : Instant) : Int :=
  let leap : Int :=
    if earlier.secondOfDay < t.secondOfDay && earlier.isLeap then 1
    else if t.secondOfDay < earlier.secondOfDay && t.isLeap then -1
    else 0
  (t.seconds - earlier.seconds + leap) * second + ((t.nanos : Int) - earlier.nanos)

end Instant

/-- A length of time in seconds and nanoseconds. -/
@[ext]
structure Duration where
  seconds : UInt64
  /-- The nanoseconds beyond whole seconds. -/
  nanos : Nat
  nanos_lt : nanos < Instant.second
deriving DecidableEq, Repr

namespace Duration

/-- A length of time in nanoseconds. -/
def total (d : Duration) : Nat :=
  d.seconds.toNat * Instant.second + d.nanos

/-- The greatest length of time in milliseconds that instants can be compared with. -/
def limit : Nat := 9223372036854775807

/-- A length of time in nanoseconds, longer ones shortened to the limit. -/
def clamped (d : Duration) : Nat :=
  min d.total (limit * Instant.millisecond)

end Duration

/-- A length of time in milliseconds, as documents state it. -/
abbrev Millis := UInt64

namespace Millis

/-- A length of time in nanoseconds. -/
def nanos (ms : Millis) : Nat :=
  ms.toNat * Instant.millisecond

/-- A length of time in seconds and nanoseconds. -/
def duration (ms : Millis) : Duration where
  seconds := ms / 1000
  nanos := (ms % 1000).toNat * Instant.millisecond
  nanos_lt := by
    have hlt : ms.toNat % 1000 < 1000 := Nat.mod_lt _ (by decide)
    rw [UInt64.toNat_mod, Instant.second, Instant.millisecond]
    change ms.toNat % 1000 * 1000000 < 1000000000
    omega

theorem total_duration (ms : Millis) : ms.duration.total = ms.nanos := by
  simp only [Duration.total, duration, nanos, UInt64.toNat_div, UInt64.toNat_mod,
    Instant.second, Instant.millisecond]
  change ms.toNat / 1000 * 1000000000 + ms.toNat % 1000 * 1000000 = _
  omega

end Millis

/-- The reading of a clock that moves forward, which beyond the greatest instant it does not. -/
def Instant.advance (t : Instant) (d : Duration) : Instant :=
  (t.add? d.clamped).getD t

end SafetyHub
