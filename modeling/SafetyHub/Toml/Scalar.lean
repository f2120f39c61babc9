import SafetyHub.Instant.Calendar
import SafetyHub.Json.Decode

/-!
# Words of settings documents

A value that is no literal, array or table is a word: a truth value, an integer of 64 bits in
decimal, hexadecimal, octal or binary digits, a number with a fraction or an exponent, or a
date, a time of day, or both.  `scalar?` gives the value of a word.  No setting is a date, so of
a date or time only the form is kept.
-/

namespace SafetyHub.Toml

/-! ### Numbers -/

/-- Whether a word is made of digits, with underscores only between two of them. -/
def isSpaced (isDigit : Char → Bool) : List Char → Bool
  | [] => false
  | [c] => isDigit c
  | c :: '_' :: rest => isDigit c && isSpaced isDigit rest
  | c :: rest => isDigit c && isSpaced isDigit rest

/-- The digits of a word, underscores left out. -/
def digits? (isDigit : Char → Bool) (cs : List Char) : Option (List Char) :=
  if isSpaced isDigit cs then some (cs.filter (· != '_')) else none

/-- An integer that 64 bits with a sign hold. -/
def held? (n : Int) : Option Json :=
  if Int64.minValue.toInt ≤ n ∧ n ≤ Int64.maxValue.toInt then some (.int n) else none

/-- An integer in the digits of a base. -/
def based? (base : Nat) (cs : List Char) : Option Json := do
  let ds ← digits? (Text.isDigitIn base) cs
  held? (Text.ofDigits base ds)

/-- The digits of a whole number: no zero stands before another digit. -/
def whole? (cs : List Char) : Option (List Char) :=
  match cs with
  | '0' :: _ :: _ => none
  | cs => digits? Char.isDigit cs

/-- The exponent of a number without its letter. -/
def exponent? : List Char → Option (List Char)
  | '+' :: ds => digits? Char.isDigit ds
  | '-' :: ds => (digits? Char.isDigit ds).map ('-' :: ·)
  | ds => digits? Char.isDigit ds

/-- Whether a character begins an exponent. -/
def isExponentMark (c : Char) : Bool :=
  c == 'e' || c == 'E'

/-- The fraction of a number, with its point. -/
def fraction? : List Char → Option (List Char)
  | [] => some []
  | '.' :: ds => (digits? Char.isDigit ds).map ('.' :: ·)
  | _ => none

/-- A number with a fraction or an exponent, without its sign; underscores left out. -/
def broken? (cs : List Char) : Option (List Char) := do
  let mantissa := cs.takeWhile (!isExponentMark ·)
  let whole ← whole? (mantissa.takeWhile (· != '.'))
  let fraction ← fraction? (mantissa.dropWhile (· != '.'))
  match cs.dropWhile (!isExponentMark ·) with
  | [] => if fraction.isEmpty then none else some (whole ++ fraction)
  | _ :: rest => do
    let exponent ← exponent? rest
    some (whole ++ fraction ++ 'e' :: exponent)

/-- A decimal number without its sign.  A number that is too large for double precision is
refused if it is positive. -/
def decimal? (negative : Bool) (cs : List Char) : Option Json :=
  match whole? cs with
  | some ds =>
    let n : Int := Text.ofDigits 10 ds
    held? (if negative then -n else n)
  | none => do
    let text ← if cs == "inf".toList || cs == "nan".toList then some cs
      else (broken? cs).filter fun text =>
        negative || (Json.Number.other (String.ofList text)).isFinite
    some (.number (.other (String.ofList (if negative then '-' :: text else text))))

/-! ### Dates and times -/

/-- Whether two digits write a number up to a bound. -/
def isField (most : Nat) (a b : Char) : Bool :=
  a.isDigit && b.isDigit && Text.ofDigits 10 [a, b] ≤ most

/-- Whether a word is a date. -/
def isDate : List Char → Bool
  | [y₁, y₂, y₃, y₄, '-', m₁, m₂, '-', d₁, d₂] =>
    [y₁, y₂, y₃, y₄, m₁, m₂, d₁, d₂].all Char.isDigit
      && Date.isValid ⟨Text.ofDigits 10 [y₁, y₂, y₃, y₄], Text.ofDigits 10 [m₁, m₂],
        Text.ofDigits 10 [d₁, d₂]⟩
  | _ => false

/-- What follows a time of day with an optional fraction of a second. -/
def afterTime? : List Char → Option (List Char)
  | h₁ :: h₂ :: ':' :: m₁ :: m₂ :: ':' :: s₁ :: s₂ :: rest =>
    if isField 23 h₁ h₂ && isField 59 m₁ m₂ && isField 60 s₁ s₂ then
      match rest with
      | '.' :: c :: rest => if c.isDigit then some (rest.dropWhile Char.isDigit) else none
      | rest => some rest
    else none
  | _ => none

/-- Whether a word is an offset from universal time. -/
def isOffset : List Char → Bool
  | ['Z'] => true
  | ['z'] => true
  | [sign, h₁, h₂, ':', m₁, m₂] =>
    (sign == '+' || sign == '-') && isField 23 h₁ h₂ && isField 59 m₁ m₂
  | _ => false

/-- Whether a word is a time of day, with or without an offset. -/
def isTime (cs : List Char) : Bool :=
  match afterTime? cs with
  | some rest => rest.isEmpty || isOffset rest
  | none => false

/-- Whether a word is a date and a time of day with a letter between them. -/
def isDateTime (cs : List Char) : Bool :=
  isDate (cs.take 10) && (cs[10]?.any fun c => c == 'T' || c == 't') && isTime (cs.drop 11)

/-- Whether a word is a time of day without offset. -/
def isLocalTime (cs : List Char) : Bool :=
  afterTime? cs == some []

/-- A date or time as a value: a table without settings. -/
def moment (cs : List Char) : Json :=
  .record [("$moment", .string (String.ofList cs))]

/-! ### Words -/

/-- The value of a word. -/
def scalar? (cs : List Char) : Option Json :=
  if cs == "true".toList then some (.bool true)
  else if cs == "false".toList then some (.bool false)
  else if isDate cs || isLocalTime cs || isDateTime cs then some (moment cs)
  else match cs with
    | '0' :: 'x' :: rest => based? 16 rest
    | '0' :: 'o' :: rest => based? 8 rest
    | '0' :: 'b' :: rest => based? 2 rest
    | '+' :: rest => decimal? false rest
    | '-' :: rest => decimal? true rest
    | cs => decimal? false cs

/-- Characters of words. -/
def isWordChar (c : Char) : Bool :=
  c.isAlphanum || c == '+' || c == '-' || c == '_' || c == '.' || c == ':'

/-- The value of the word in front.  A blank may stand between a date and a time of day. -/
def word? (cs : List Char) : Option (Json × List Char) :=
  let word := cs.takeWhile isWordChar
  let rest := cs.dropWhile isWordChar
  match rest with
  | ' ' :: c :: _ =>
    if isDate word && c.isDigit then
      let time := rest.tail.takeWhile isWordChar
      if isTime time then some (moment (word ++ 'T' :: time), rest.tail.dropWhile isWordChar)
      else none
    else (scalar? word).map (·, rest)
  | _ => (scalar? word).map (·, rest)

end SafetyHub.Toml
