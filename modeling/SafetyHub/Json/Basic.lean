/-!
# Document values

`Json` is the tree that a JSON text stands for, and the form every value takes before it is
written.  An object keeps its members in the order and number in which they were written, so
that the reader of a record can refuse a member that is given twice.  A string literal whose
escapes leave a surrogate unpaired denotes no text: as a value it is `brokenString`, as a
member's name it is `none`.
-/

namespace SafetyHub

/-- A number as it is written. -/
inductive Json.Number where
  /-- Digits with an optional minus sign, other than `-0`. -/
  | integer (value : Int)
  /-- Any other number, kept as written: a fraction, an exponent, or minus zero. -/
  | other (text : String)
deriving DecidableEq, Repr

/-- A document value. -/
inductive Json where
  | null
  | bool (value : Bool)
  | number (value : Json.Number)
  | string (text : String)
  | brokenString
  | array (elements : List Json)
  | object (members : List (Option String × Json))
deriving Repr, Inhabited

namespace Json

/-- An integer as a document value. -/
def int (n : Int) : Json := .number (.integer n)

/-- A natural number as a document value. -/
def nat (n : Nat) : Json := int n

/-- An object with the given members. -/
def record (fields : List (String × Json)) : Json :=
  .object (fields.map fun (name, value) => (some name, value))

/-- A value or `null`. -/
def ofOption {α : Type} (encode : α → Json) : Option α → Json
  | none => .null
  | some a => encode a

/-- The array of the encodings of a list. -/
def list {α : Type} (encode : α → Json) (as : List α) : Json :=
  .array (as.map encode)

end Json

end SafetyHub
