import SafetyHub.Toml.Literal
import SafetyHub.Toml.Scalar
import SafetyHub.Toml.Table

/-!
# Reading settings documents

`Toml.parse?` reads the document as one value.  Each of its lines is blank, an entry, or a header
that says where the following entries belong; a byte order mark may stand before the first one.
-/

namespace SafetyHub.Toml

/-! ### Values -/

/-- The deepest nesting of arrays and tables in one value. -/
def deepest : Nat := 79

mutual

/-- A value with no blanks in front.  It nests at most `room` arrays and tables; `fuel` bounds
the number of its parts. -/
def value? : (fuel room : Nat) → List Char → Option (Json × List Char)
  | 0, _, _ => none
  | fuel + 1, room, cs =>
    match cs with
    | '"' :: _ | '\'' :: _ => (string? cs).map fun (s, rest) => (.string s, rest)
    | '[' :: rest =>
      if room == 0 then none
      else (elements? fuel (room - 1) (skipLoose false rest)).map fun (vs, rest) =>
        (.array vs, rest)
    | '\x7b' :: rest =>
      if room == 0 then none
      else match skip rest with
        | '\x7d' :: rest => some (.object [], rest)
        | rest => (entries? fuel (room - 1) [] rest).map fun (t, rest) => (t.toJson, rest)
    | cs => word? cs

/-- The elements of an array, from the next one or the closing bracket on. -/
def elements? : (fuel room : Nat) → List Char → Option (List Json × List Char)
  | 0, _, _ => none
  | fuel + 1, room, cs =>
    match cs with
    | ']' :: rest => some ([], rest)
    | cs => do
      let (v, rest) ← value? fuel room cs
      match skipLoose false rest with
      | ',' :: rest =>
        let (vs, rest) ← elements? fuel room (skipLoose false rest)
        some (v :: vs, rest)
      | ']' :: rest => some ([v], rest)
      | _ => none

/-- The table within braces, from an entry on, given the entries before it. -/
def entries? : (fuel room : Nat) → Table → List Char → Option (Table × List Char)
  | 0, _, _, _ => none
  | fuel + 1, room, t, cs => do
    let (path, rest) ← key? mostParts cs
    match rest with
    | '=' :: rest =>
      let (v, rest) ← value? fuel room (skip rest)
      let t ← t.insert? path v
      match skip rest with
      | ',' :: rest => entries? fuel room t rest
      | '\x7d' :: rest => some (t, rest)
      | _ => none
    | _ => none

end

/-! ### Lines -/

/-- The document as far as it is read. -/
structure Draft where
  root : Table := []
  /-- The table that entries belong to. -/
  current : List String := []

/-- The document after one line that is not blank, and what follows the line. -/
def Draft.line? (d : Draft) (cs : List Char) : Option (Draft × List Char) :=
  match cs with
  | '[' :: '[' :: rest => do
    let (path, rest) ← key? mostParts rest
    match rest with
    | ']' :: ']' :: rest =>
      some ({ root := ← d.root.append? path, current := path }, ← endLine? rest)
    | _ => none
  | '[' :: rest => do
    let (path, rest) ← key? mostParts rest
    match rest with
    | ']' :: rest => some ({ root := ← d.root.open? path, current := path }, ← endLine? rest)
    | _ => none
  | cs => do
    let (path, rest) ← key? mostParts cs
    match rest with
    | '=' :: rest =>
      let (v, rest) ← value? (rest.length + 1) deepest (skip rest)
      some ({ d with root := ← d.root.insertAt? d.current path v }, ← endLine? rest)
    | _ => none

/-- The document after all lines; `fuel` bounds their number. -/
def Draft.lines? : (fuel : Nat) → Draft → List Char → Option Draft
  | 0, _, _ => none
  | fuel + 1, d, cs =>
    if cs.isEmpty then some d
    else match endLine? cs with
      | some rest => lines? fuel d rest
      | none => do
        let (d, rest) ← d.line? (skip cs)
        lines? fuel d rest

/-- The value of a list of characters; each line but the last takes a character, which bounds
their number. -/
def parseChars? (cs : List Char) : Option Json :=
  (Draft.lines? (cs.length + 1) {} cs).map (·.root.toJson)

/-- The value of a settings document. -/
def parse? (text : String) : Option Json :=
  match text.toList with
  | '\ufeff' :: cs => parseChars? cs
  | cs => parseChars? cs

end SafetyHub.Toml
