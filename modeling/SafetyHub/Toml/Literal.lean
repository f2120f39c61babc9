import SafetyHub.Text.Digits

/-!
# Lines, literals and keys of settings documents

A settings document is written in TOML, line by line.  This module reads what its lines are made
of: blanks and comments, the four kinds of string literals, and keys.  Literals between three
quotes may span lines, and a line end in them is a single `\n` however it is written.
-/

namespace SafetyHub.Toml

/-! ### Blanks and line ends -/

/-- Characters that may stand between the parts of a line. -/
def isBlank (c : Char) : Bool :=
  c == ' ' || c == '\t'

/-- Characters that may stand in comments and literals: all but the control characters, of which
only the tab may. -/
def isPlain (c : Char) : Bool :=
  c == '\t' || (0x20 ≤ c.toNat && c.toNat != 0x7f)

/-- A line without the blanks in front. -/
def skip (cs : List Char) : List Char :=
  cs.dropWhile isBlank

/-- What follows a line end. -/
def lineEnd? : List Char → Option (List Char)
  | '\n' :: rest => some rest
  | '\r' :: '\n' :: rest => some rest
  | _ => none

/-- What follows a line of which only blanks and a comment are left. -/
def endLine? (cs : List Char) : Option (List Char) :=
  let rest := match skip cs with
    | '#' :: rest => rest.dropWhile isPlain
    | rest => rest
  if rest.isEmpty then some [] else lineEnd? rest

/-- A document without the blanks and line ends in front. -/
def skipLines : List Char → List Char
  | '\n' :: rest => skipLines rest
  | '\r' :: '\n' :: rest => skipLines rest
  | ' ' :: rest => skipLines rest
  | '\t' :: rest => skipLines rest
  | cs => cs

/-- A document without the blanks, line ends and comments in front. -/
def skipLoose : (inComment : Bool) → List Char → List Char
  | _, '\n' :: rest => skipLoose false rest
  | _, '\r' :: '\n' :: rest => skipLoose false rest
  | true, c :: rest => if isPlain c then skipLoose true rest else c :: rest
  | false, '#' :: rest => skipLoose true rest
  | false, ' ' :: rest => skipLoose false rest
  | false, '\t' :: rest => skipLoose false rest
  | _, cs => cs

/-! ### Pieces of literals

A piece reader takes from a literal what one character, or a line end, or an escape denotes. -/

/-- The character whose number the first hexadecimal digits give. -/
def numbered? (width : Nat) (cs : List Char) : Option (List Char × List Char) :=
  let ds := cs.take width
  let n := Text.ofDigits 16 ds
  if ds.length == width && ds.all (Text.isDigitIn 16) && (Char.ofNat n).toNat == n then
    some ([Char.ofNat n], cs.drop width)
  else none

/-- The character of an escape, from after its backslash. -/
def escape? : List Char → Option (List Char × List Char)
  | '"' :: rest => some (['"'], rest)
  | '\\' :: rest => some (['\\'], rest)
  | 'b' :: rest => some (['\x08'], rest)
  | 'f' :: rest => some (['\x0c'], rest)
  | 'n' :: rest => some (['\n'], rest)
  | 'r' :: rest => some (['\r'], rest)
  | 't' :: rest => some (['\t'], rest)
  | 'u' :: rest => numbered? 4 rest
  | 'U' :: rest => numbered? 8 rest
  | _ => none

/-- A character that stands for itself. -/
def plain? : List Char → Option (List Char × List Char)
  | c :: rest => if isPlain c then some ([c], rest) else none
  | [] => none

/-- A character that stands for itself, or an escape. -/
def escaped? : List Char → Option (List Char × List Char)
  | '\\' :: rest => escape? rest
  | cs => plain? cs

/-- A line end, or a character that stands for itself. -/
def plainLines? (cs : List Char) : Option (List Char × List Char) :=
  match lineEnd? cs with
  | some rest => some (['\n'], rest)
  | none => plain? cs

/-- A line end, a character that stands for itself, or an escape; a backslash at the end of a
line stands for nothing, nor do the blanks and line ends after it. -/
def escapedLines? (cs : List Char) : Option (List Char × List Char) :=
  match lineEnd? cs, cs with
  | some rest, _ => some (['\n'], rest)
  | none, '\\' :: rest =>
    if (lineEnd? (skip rest)).isSome then some ([], skipLines rest) else escape? rest
  | none, cs => plain? cs

/-! ### Literals -/

/-- A literal from after its opening quote; `fuel` bounds the number of its pieces. -/
def short? (quote : Char) (piece? : List Char → Option (List Char × List Char)) :
    (fuel : Nat) → List Char → Option (List Char × List Char)
  | 0, _ => none
  | fuel + 1, cs =>
    if cs.head? == some quote then some ([], cs.tail)
    else do
      let (part, rest) ← piece? cs
      let (body, rest) ← short? quote piece? fuel rest
      some (part ++ body, rest)

/-- A literal from after its three opening quotes; `fuel` bounds the number of its pieces.  Two
quotes may stand in it, also before the three that close it. -/
def long? (quote : Char) (piece? : List Char → Option (List Char × List Char)) :
    (fuel : Nat) → List Char → Option (List Char × List Char)
  | 0, _ => none
  | fuel + 1, cs =>
    let quotes := (cs.takeWhile (· == quote)).length
    if 3 ≤ quotes then
      some (List.replicate (min quotes 5 - 3) quote, cs.drop (min quotes 5))
    else do
      let (part, rest) ← if quotes == 0 then piece? cs
        else some (List.replicate quotes quote, cs.drop quotes)
      let (body, rest) ← long? quote piece? fuel rest
      some (part ++ body, rest)

/-- A string literal of one line. -/
def shortString? : List Char → Option (String × List Char)
  | '"' :: rest => (short? '"' escaped? (rest.length + 1) rest).map fun (s, rest) =>
    (String.ofList s, rest)
  | '\'' :: rest => (short? '\'' plain? (rest.length + 1) rest).map fun (s, rest) =>
    (String.ofList s, rest)
  | _ => none

/-- A long literal without the line end right after its opening quotes. -/
def openLong (cs : List Char) : List Char :=
  (lineEnd? cs).getD cs

/-- A string literal. -/
def string? : List Char → Option (String × List Char)
  | '"' :: '"' :: '"' :: rest =>
    (long? '"' escapedLines? (rest.length + 1) (openLong rest)).map fun (s, rest) =>
      (String.ofList s, rest)
  | '\'' :: '\'' :: '\'' :: rest =>
    (long? '\'' plainLines? (rest.length + 1) (openLong rest)).map fun (s, rest) =>
      (String.ofList s, rest)
  | cs => shortString? cs

/-! ### Keys -/

/-- Characters of a key without quotes. -/
def isKeyChar (c : Char) : Bool :=
  c.isAlphanum || c == '-' || c == '_'

/-- One part of a key. -/
def part? (cs : List Char) : Option (String × List Char) :=
  match cs with
  | '"' :: _ | '\'' :: _ => shortString? cs
  | _ =>
    let name := cs.takeWhile isKeyChar
    if name.isEmpty then none else some (String.ofList name, cs.dropWhile isKeyChar)

/-- The greatest number of parts of a key. -/
def mostParts : Nat := 79

/-- A key of at most `most` parts with dots between them, and blanks around each. -/
def key? : (most : Nat) → List Char → Option (List String × List Char)
  | 0, _ => none
  | most + 1, cs => do
    let (part, rest) ← part? (skip cs)
    match skip rest with
    | '.' :: rest =>
      let (parts, rest) ← key? most rest
      some (part :: parts, rest)
    | rest => some ([part], rest)

end SafetyHub.Toml
