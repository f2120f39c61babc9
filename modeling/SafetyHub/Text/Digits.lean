/-!
# Numbers in digits

`natOfDigits?` reads a non-empty run of decimal digits, `readNat?` allows one plus sign before
it and `readInt?` one sign.  None of them limits the size of the number: the reader of a
bounded number compares the answer with its bounds.
-/

namespace SafetyHub.Text

/-- The value of a character as a digit below sixteen; letters of both cases count. -/
def digit? (c : Char) : Option Nat :=
  if '0' ≤ c ∧ c ≤ '9' then some (c.toNat - '0'.toNat)
  else if 'a' ≤ c ∧ c ≤ 'f' then some (c.toNat - 'a'.toNat + 10)
  else if 'A' ≤ c ∧ c ≤ 'F' then some (c.toNat - 'A'.toNat + 10)
  else none

/-- Whether a character is a digit in the given base, which is at most sixteen. -/
def isDigitIn (base : Nat) (c : Char) : Bool :=
  (digit? c).any (· < base)

/-- The number written by digits in the given base, the first digit weighing most. -/
def ofDigits (base : Nat) (ds : List Char) : Nat :=
  ds.foldl (fun n c => n * base + (digit? c).getD 0) 0

/-- The number a non-empty list of decimal digits writes. -/
def natOfDigits? (ds : List Char) : Option Nat :=
  if ds.isEmpty || !ds.all Char.isDigit then none else some (ofDigits 10 ds)

/-- A number with an optional plus sign. -/
def readNat? (s : String) : Option Nat :=
  match s.toList with
  | '+' :: ds => natOfDigits? ds
  | ds => natOfDigits? ds

/-- A number with an optional sign. -/
def readInt? (s : String) : Option Int :=
  match s.toList with
  | '-' :: ds => (natOfDigits? ds).map fun n => -(n : Int)
  | '+' :: ds => (natOfDigits? ds).map fun n => (n : Int)
  | ds => (natOfDigits? ds).map fun n => (n : Int)

/-- The digit of a number below sixteen, in lower case. -/
def hexDigit (n : Nat) : Char :=
  if n < 10 then Char.ofNat ('0'.toNat + n) else Char.ofNat ('a'.toNat + (n - 10))

/-- The hexadecimal digits of a number, the least number of them. -/
def hexDigits (n : Nat) : List Char :=
  Nat.toDigits 16 n

/-- The last `width` decimal digits of a number, zeros in front. -/
def padded : (width : Nat) → Nat → List Char
  | 0, _ => []
  | width + 1, n => padded width (n / 10) ++ [hexDigit (n % 10)]

end SafetyHub.Text
