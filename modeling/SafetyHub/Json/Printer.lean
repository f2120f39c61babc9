import SafetyHub.Json.Basic
import SafetyHub.Text.Digits

/-!
# Printing document values

`Json.compact` prints a value on one line without blanks; `Json.pretty` prints every element
and every member on a line of its own, two spaces deeper than what holds it, and an empty array
or object as a pair of brackets.  `Json.quote` escapes the quote, the backslash and the
characters below U+0020, and nothing else.
-/

namespace SafetyHub.Json

/-- The escape of a character inside a string literal. -/
def escape (c : Char) : List Char :=
  match c with
  | '"' => ['\\', '"']
  | '\\' => ['\\', '\\']
  | '\n' => ['\\', 'n']
  | '\r' => ['\\', 'r']
  | '\t' => ['\\', 't']
  | '\x08' => ['\\', 'b']
  | '\x0c' => ['\\', 'f']
  | c =>
    if c.toNat < 0x20 then
      ['\\', 'u', '0', '0', Text.hexDigit (c.toNat / 16), Text.hexDigit (c.toNat % 16)]
    else [c]

/-- The string literal of a text. -/
def quote (s : String) : List Char :=
  '"' :: s.toList.flatMap escape ++ ['"']

/-- A literal that denotes no text. -/
def brokenLiteral : List Char :=
  "\"\\ud800\"".toList

/-- The literal of a member's name. -/
def quoteName : Option String → List Char
  | some s => quote s
  | none => brokenLiteral

/-- A number as it is written. -/
def Number.chars : Number → List Char
  | .integer n => (toString n).toList
  | .other text => text.toList

mutual

/-- The characters of a value on one line. -/
def compactChars : Json → List Char
  | .null => "null".toList
  | .bool true => "true".toList
  | .bool false => "false".toList
  | .number n => n.chars
  | .string s => quote s
  | .brokenString => brokenLiteral
  | .array elements => '[' :: compactElements elements ++ [']']
  | .object members => '\x7b' :: compactMembers members ++ ['\x7d']

/-- The elements of an array, separated by commas. -/
def compactElements : List Json → List Char
  | [] => []
  | [v] => compactChars v
  | v :: vs => compactChars v ++ ',' :: compactElements vs

/-- The members of an object, separated by commas. -/
def compactMembers : List (Option String × Json) → List Char
  | [] => []
  | [(name, v)] => quoteName name ++ ':' :: compactChars v
  | (name, v) :: ms => quoteName name ++ ':' :: compactChars v ++ ',' :: compactMembers ms

end

/-- A value on one line. -/
def compact (v : Json) : String :=
  String.ofList (compactChars v)

/-- A line break, then the indentation of a line at the given depth. -/
def lineAt (depth : Nat) : List Char :=
  '\n' :: List.replicate (2 * depth) ' '

mutual

/-- The characters of a value that starts on a line at the given depth. -/
def prettyChars (depth : Nat) : Json → List Char
  | .array [] => ['[', ']']
  | .array elements =>
    '[' :: lineAt (depth + 1) ++ prettyElements (depth + 1) elements ++ lineAt depth ++ [']']
  | .object [] => ['\x7b', '\x7d']
  | .object members =>
    '\x7b' :: lineAt (depth + 1) ++ prettyMembers (depth + 1) members ++ lineAt depth
      ++ ['\x7d']
  | .null => "null".toList
  | .bool true => "true".toList
  | .bool false => "false".toList
  | .number n => n.chars
  | .string s => quote s
  | .brokenString => brokenLiteral

/-- The elements of an array, each on a line of its own. -/
def prettyElements (depth : Nat) : List Json → List Char
  | [] => []
  | [v] => prettyChars depth v
  | v :: vs => prettyChars depth v ++ ',' :: lineAt depth ++ prettyElements depth vs

/-- The members of an object, each on a line of its own. -/
def prettyMembers (depth : Nat) : List (Option String × Json) → List Char
  | [] => []
  | [(name, v)] => quoteName name ++ ':' :: ' ' :: prettyChars depth v
  | (name, v) :: ms =>
    quoteName name ++ ':' :: ' ' :: prettyChars depth v ++ ',' :: lineAt depth
      ++ prettyMembers depth ms

end

/-- A value over several lines. -/
def pretty (v : Json) : String :=
  String.ofList (prettyChars 0 v)

end SafetyHub.Json
