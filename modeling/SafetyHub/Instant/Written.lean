import SafetyHub.Instant.Basic
import SafetyHub.Json.Decode
import SafetyHub.Text.Blank

/-!
# Written instants

`Instant.written` writes an instant in universal time, as a date, `T`, a time and `Z`: the year
with a sign when it has not four digits, the fraction of the second with the least of 0, 3, 6
and 9 digits that is exact, and a leap second as the second after it, which at the end of a minute
is second 60.

`Instant.read?` reads that form and wider ones: blanks may stand before every number and every
separator of date and time, `t` or a space may separate date and time, the year may have a
sign and any number of digits, the fraction any number of digits of which nine count, and the
offset from universal time may be `Z`, `z`, `UTC` in letters of either case, or a sign and four
digits with colons or blanks between hours and minutes.
-/

namespace SafetyHub.Instant

/-! ### Writing -/

/-- The year of a date: four digits, or a sign and at least four. -/
def yearChars (y : Int) : List Char :=
  if 0 ≤ y ∧ y ≤ 9999 then Text.padded 4 y.toNat
  else
    let digits := (toString y.natAbs).toList
    (if y < 0 then '-' else '+') :: List.replicate (4 - digits.length) '0' ++ digits

/-- The fraction of a second with the least of 0, 3, 6 and 9 digits that is exact. -/
def fractionChars (nanos : Nat) : List Char :=
  if nanos == 0 then []
  else if nanos % 1000000 == 0 then '.' :: Text.padded 3 (nanos / 1000000)
  else if nanos % 1000 == 0 then '.' :: Text.padded 6 (nanos / 1000)
  else '.' :: Text.padded 9 nanos

/-- The characters of an instant. -/
def chars (t : Instant) : List Char :=
  let date := Date.ofDays (t.seconds / 86400)
  let time := t.secondOfDay.toNat
  let leap := t.nanos / second
  yearChars date.year ++ '-' :: Text.padded 2 date.month ++ '-' :: Text.padded 2 date.day
    ++ 'T' :: Text.padded 2 (time / 3600) ++ ':' :: Text.padded 2 (time / 60 % 60)
    ++ ':' :: Text.padded 2 (time % 60 + leap) ++ fractionChars (t.nanos % second) ++ ['Z']

/-- An instant in universal time. -/
def written (t : Instant) : String :=
  String.ofList t.chars

/-! ### Reading -/

/-- A number of at least one and at most `width` digits. -/
def number? (width : Nat) (cs : List Char) : Option (Nat × List Char) :=
  let ds := (cs.take width).takeWhile Char.isDigit
  if ds.isEmpty then none else some (Text.ofDigits 10 ds, cs.drop ds.length)

/-- A number of any number of digits. -/
def longNumber? (cs : List Char) : Option (Nat × List Char) :=
  number? cs.length cs

/-- A year, with blanks in front. -/
def year? (cs : List Char) : Option (Int × List Char) :=
  match Text.dropBlanks cs with
  | '-' :: rest => (longNumber? rest).map fun (n, rest) => (-(n : Int), rest)
  | '+' :: rest => (longNumber? rest).map fun (n, rest) => ((n : Int), rest)
  | cs => (number? 4 cs).map fun (n, rest) => ((n : Int), rest)

/-- A number of one or two digits between bounds, with blanks in front. -/
def field? (low high : Nat) (cs : List Char) : Option (Nat × List Char) := do
  let (n, rest) ← number? 2 (Text.dropBlanks cs)
  if low ≤ n && n ≤ high then some (n, rest) else none

/-- A separator, with blanks in front. -/
def separator? (c : Char) (cs : List Char) : Option (List Char) :=
  match Text.dropBlanks cs with
  | c' :: rest => if c' == c then some rest else none
  | [] => none

/-- What separates the date from the time of day. -/
def divider? (cs : List Char) : Option (List Char) :=
  match cs with
  | c :: rest => if c == 'T' || c == 't' || c == ' ' then some rest else none
  | [] => none

/-- The fraction of a second in nanoseconds, if one follows; digits after the ninth are
dropped. -/
def fraction? (cs : List Char) : Option (Nat × List Char) :=
  match cs with
  | '.' :: rest =>
    let ds := rest.takeWhile Char.isDigit
    if ds.isEmpty then none
    else
      let nine := ds.take 9
      some (Text.ofDigits 10 nine * Nat.pow 10 (9 - nine.length), rest.dropWhile Char.isDigit)
  | _ => some (0, cs)

/-- The hours and minutes of an offset after its sign, in seconds. -/
def offsetBody? (cs : List Char) : Option (Nat × List Char) :=
  match cs with
  | h₁ :: h₂ :: rest =>
    match rest.dropWhile fun c => c == ':' || Text.isBlank c with
    | m₁ :: m₂ :: rest =>
      if [h₁, h₂, m₁, m₂].all Char.isDigit && m₁ ≤ '5' then
        some (Text.ofDigits 10 [h₁, h₂] * 3600 + Text.ofDigits 10 [m₁, m₂] * 60, rest)
      else none
    | _ => none
  | _ => none

/-- The offset from universal time in seconds, shorter than a day. -/
def offset? (cs : List Char) : Option (Int × List Char) := do
  let (offset, rest) ← match cs with
    | 'Z' :: rest => some ((0 : Int), rest)
    | 'z' :: rest => some (0, rest)
    | '+' :: rest => (offsetBody? rest).map fun (n, rest) => ((n : Int), rest)
    | '-' :: rest => (offsetBody? rest).map fun (n, rest) => (-(n : Int), rest)
    | '\u2212' :: rest => (offsetBody? rest).map fun (n, rest) => (-(n : Int), rest)
    | u :: t :: c :: rest =>
      if [u, t, c].map Char.toUpper == ['U', 'T', 'C'] then some (0, rest) else none
    | _ => none
  if -86400 < offset && offset < 86400 then some (offset, rest) else none

/-- The instant that a date, a time of day and an offset give.  Both the local date and the
instant must be in range; second 60 is the leap second after second 59. -/
def ofLocal? (date : Date) (hour minute sec nanos : Nat) (offset : Int) : Option Instant := do
  if !date.isValid then none
  else
    let (sec, nanos) := if sec == 60 then (59, nanos + second) else (sec, nanos)
    let seconds := date.toDays * 86400 + (hour * 3600 + minute * 60 + sec : Nat)
    let _ ← ofParts? seconds 0
    ofParts? (seconds - offset) nanos

/-- The instant of a list of characters. -/
def readChars? (cs : List Char) : Option Instant := do
  let (year, cs) ← year? cs
  let cs ← separator? '-' cs
  let (month, cs) ← field? 1 12 cs
  let cs ← separator? '-' cs
  let (day, cs) ← field? 1 31 cs
  let cs ← divider? cs
  let (hour, cs) ← field? 0 23 cs
  let cs ← separator? ':' cs
  let (minute, cs) ← field? 0 59 cs
  let cs ← separator? ':' cs
  let (sec, cs) ← field? 0 60 cs
  let (nanos, cs) ← fraction? cs
  let (offset, cs) ← offset? (Text.dropBlanks cs)
  if (Text.dropBlanks cs).isEmpty then ofLocal? ⟨year, month, day⟩ hour minute sec nanos offset
  else none

/-- The instant that a text writes. -/
def read? (s : String) : Option Instant :=
  readChars? s.toList

instance : Encode Instant := ⟨fun t => .string t.written⟩
instance : Decode Instant := ⟨fun _ v => v.string?.bind read?⟩

end SafetyHub.Instant
