import SafetyHub.Json.Basic
import SafetyHub.Text.Digits

/-!
# Reading document values

`Json.parse?` reads a JSON text strictly: no byte order mark, no comments, no trailing commas,
no control characters inside literals, no zeros before a number's digits; spaces, tabs and line
ends may stand around every value.  A string literal is read in two steps: `literal?` fixes
where it ends and `denote?` says which text its characters and escapes denote, if any.
-/

namespace SafetyHub.Json

/-- Characters that may stand between the parts of a document. -/
def isSpace (c : Char) : Bool :=
  c == ' ' || c == '\t' || c == '\n' || c == '\r'

/-- A document without the spaces in front. -/
def skip (cs : List Char) : List Char :=
  cs.dropWhile isSpace

/-! ### String literals -/

/-- A part of a string literal. -/
inductive Piece where
  /-- A character that stands for itself, or a one-letter escape. -/
  | char (c : Char)
  /-- A code unit written as `\u` and four hexadecimal digits. -/
  | unit (n : Nat)
deriving DecidableEq, Repr

/-- The character of a one-letter escape. -/
def escaped? : Char → Option Char
  | '"' => some '"'
  | '\\' => some '\\'
  | '/' => some '/'
  | 'b' => some '\x08'
  | 'f' => some '\x0c'
  | 'n' => some '\n'
  | 'r' => some '\r'
  | 't' => some '\t'
  | _ => none

/-- The number of four hexadecimal digits. -/
def hex4? (a b c d : Char) : Option Nat :=
  if [a, b, c, d].all (Text.isDigitIn 16) then some (Text.ofDigits 16 [a, b, c, d]) else none

/-- The pieces of a string literal, from after the opening quote, and what follows it. -/
def literal? : List Char → Option (List Piece × List Char)
  | [] => none
  | '"' :: rest => some ([], rest)
  | '\\' :: 'u' :: a :: b :: c :: d :: rest => do
    let n ← hex4? a b c d
    let (pieces, rest) ← literal? rest
    some (.unit n :: pieces, rest)
  | '\\' :: c :: rest => do
    let e ← escaped? c
    let (pieces, rest) ← literal? rest
    some (.char e :: pieces, rest)
  | c :: rest =>
    if c == '\\' || c.toNat < 0x20 then none
    else do
      let (pieces, rest) ← literal? rest
      some (.char c :: pieces, rest)

/-- Whether a code unit is the first of a surrogate pair. -/
def isHigh (n : Nat) : Bool := 0xD800 ≤ n && n < 0xDC00

/-- Whether a code unit is the second of a surrogate pair. -/
def isLow (n : Nat) : Bool := 0xDC00 ≤ n && n < 0xE000

/-- The characters that the pieces of a literal denote; none if a surrogate is unpaired. -/
def denote? : List Piece → Option (List Char)
  | [] => some []
  | .char c :: rest => (denote? rest).map (c :: ·)
  | .unit a :: .unit b :: rest =>
    if isHigh a && isLow b then
      (denote? rest).map (Char.ofNat (0x10000 + (a - 0xD800) * 0x400 + (b - 0xDC00)) :: ·)
    else if isHigh a || isLow a then none
    else (denote? (.unit b :: rest)).map (Char.ofNat a :: ·)
  | .unit a :: rest =>
    if isHigh a || isLow a then none else (denote? rest).map (Char.ofNat a :: ·)

/-- A string literal from after the opening quote: its text, if it denotes one. -/
def stringText? (cs : List Char) : Option (Option String × List Char) := do
  let (pieces, rest) ← literal? cs
  some ((denote? pieces).map String.ofList, rest)

/-! ### Numbers -/

/-- The digits in front, at least one. -/
def digits? (cs : List Char) : Option (List Char × List Char) :=
  let ds := cs.takeWhile Char.isDigit
  if ds.isEmpty then none else some (ds, cs.dropWhile Char.isDigit)

/-- The digits of an integer, without zeros in front. -/
def integerDigits? : List Char → Option (List Char × List Char)
  | '0' :: rest => if rest.head?.any Char.isDigit then none else some (['0'], rest)
  | cs => digits? cs

/-- The fraction of a number, if one follows. -/
def fraction? : List Char → Option (List Char × List Char)
  | '.' :: rest => do
    let (ds, rest) ← digits? rest
    some ('.' :: ds, rest)
  | cs => some ([], cs)

/-- The digits of an exponent, after an optional sign. -/
def signedDigits? : List Char → Option (List Char × List Char)
  | '+' :: rest => (digits? rest).map fun (ds, rest) => ('+' :: ds, rest)
  | '-' :: rest => (digits? rest).map fun (ds, rest) => ('-' :: ds, rest)
  | cs => digits? cs

/-- The exponent of a number, if one follows. -/
def exponent? : List Char → Option (List Char × List Char)
  | c :: rest =>
    if c == 'e' || c == 'E' then
      (signedDigits? rest).map fun (ds, rest) => (c :: ds, rest)
    else some ([], c :: rest)
  | [] => some ([], [])

/-- A number from its first digit on, given the sign in front of it. -/
def unsigned? (sign : List Char) (cs : List Char) : Option (Number × List Char) := do
  let (whole, rest) ← integerDigits? cs
  let (fraction, rest) ← fraction? rest
  let (exponent, rest) ← exponent? rest
  let n := Text.ofDigits 10 whole
  if fraction.isEmpty && exponent.isEmpty && !(n == 0 && !sign.isEmpty) then
    some (.integer (if sign.isEmpty then (n : Int) else -(n : Int)), rest)
  else
    some (.other (String.ofList (sign ++ whole ++ fraction ++ exponent)), rest)

/-- A number. -/
def number? : List Char → Option (Number × List Char)
  | '-' :: rest => unsigned? ['-'] rest
  | cs => unsigned? [] cs

/-! ### Values -/

/-- What follows a word, if the document starts with it. -/
def after? (word : String) (cs : List Char) : Option (List Char) :=
  if word.toList.isPrefixOf cs then some (cs.drop word.length) else none

mutual

/-- A value with no spaces in front; `fuel` bounds the depth and the number of its parts. -/
def value? : (fuel : Nat) → List Char → Option (Json × List Char)
  | 0, _ => none
  | fuel + 1, cs =>
    match cs with
    | [] => none
    | '"' :: rest => do
      let (text, rest) ← stringText? rest
      some (match text with | some s => .string s | none => .brokenString, rest)
    | '[' :: rest =>
      match skip rest with
      | ']' :: rest => some (.array [], rest)
      | rest => (elements? fuel rest).map fun (vs, rest) => (.array vs, rest)
    | '\x7b' :: rest =>
      match skip rest with
      | '\x7d' :: rest => some (.object [], rest)
      | rest => (members? fuel rest).map fun (ms, rest) => (.object ms, rest)
    | 'n' :: _ => (after? "null" cs).map fun rest => (.null, rest)
    | 't' :: _ => (after? "true" cs).map fun rest => (.bool true, rest)
    | 'f' :: _ => (after? "false" cs).map fun rest => (.bool false, rest)
    | _ => (number? cs).map fun (n, rest) => (.number n, rest)

/-- The elements of an array from the first one on, and what follows the closing bracket. -/
def elements? : (fuel : Nat) → List Char → Option (List Json × List Char)
  | 0, _ => none
  | fuel + 1, cs => do
    let (v, rest) ← value? fuel cs
    match skip rest with
    | ',' :: rest =>
      let (vs, rest) ← elements? fuel (skip rest)
      some (v :: vs, rest)
    | ']' :: rest => some ([v], rest)
    | _ => none

/-- The members of an object from the first one on, and what follows the closing bracket. -/
def members? : (fuel : Nat) → List Char → Option (List (Option String × Json) × List Char)
  | 0, _ => none
  | fuel + 1, cs =>
    match cs with
    | '"' :: rest => do
      let (name, rest) ← stringText? rest
      match skip rest with
      | ':' :: rest =>
        let (v, rest) ← value? fuel (skip rest)
        match skip rest with
        | ',' :: rest =>
          let (ms, rest) ← members? fuel (skip rest)
          some ((name, v) :: ms, rest)
        | '\x7d' :: rest => some ([(name, v)], rest)
        | _ => none
      | _ => none
    | _ => none

end

/-- The value of a list of characters; each of its parts takes a character, which bounds the
depth of reading. -/
def parseChars? (cs : List Char) : Option Json := do
  let (v, rest) ← value? (cs.length + 1) (skip cs)
  if (skip rest).isEmpty then some v else none

/-- The value of a JSON text. -/
def parse? (text : String) : Option Json :=
  parseChars? text.toList

end SafetyHub.Json
