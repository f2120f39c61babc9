import SafetyHub.Json.Basic
import SafetyHub.Text.Digits

/-!
# Decoding document values

`Decode α` reads a value of type `α` from a document value and `Encode α` writes one.  A record
is an object of named members or an array of its fields in declaration order; `record?` brings
both to one form, a `Record`, which the decoder of each type asks for its fields.  Members that
are not fields are ignored; a field given twice, or an array that is too long, is refused.

A `Dialect` holds the two rules on which the readable formats differ: whether surplus array
elements are ignored, and how the empty payload of a constant is written.
-/

namespace SafetyHub

namespace Json

/-- Rules of decoding that depend on the format a document value was read from. -/
structure Dialect where
  /-- Whether an array may have more elements than the record has fields. -/
  ignoresSurplus : Bool
  /-- Whether a value is the payload of a constant that is given as an object. -/
  isEmptyPayload : Json → Bool

/-- Surplus elements are refused and a constant's payload is `null`. -/
def Dialect.json : Dialect where
  ignoresSurplus := false
  isEmptyPayload
    | .null => true
    | _ => false

/-- Surplus elements are ignored and a constant's payload is an empty table or array. -/
def Dialect.toml : Dialect where
  ignoresSurplus := true
  isEmptyPayload
    | .object [] => true
    | .array [] => true
    | _ => false

/-! ### Records -/

/-- The fields that a document value gives a record. -/
structure Record where
  /-- The given fields, each at most once. -/
  fields : List (String × Json)
  /-- Whether they were given by position. -/
  positional : Bool

/-- The members with the given names, when all members have names and none of these is given
twice. -/
def known? (names : List String) : List (Option String × Json) → Option (List (String × Json))
  | [] => some []
  | (none, _) :: _ => none
  | (some name, v) :: ms => do
    let fields ← known? names ms
    if names.contains name then
      if (fields.lookup name).isSome then none else some ((name, v) :: fields)
    else some fields

/-- The fields of a record with the given field names. -/
def record? (d : Dialect) (names : List String) : Json → Option Record
  | .array vs =>
    if d.ignoresSurplus || vs.length ≤ names.length then some ⟨names.zip vs, true⟩ else none
  | .object ms => (known? names ms).map (⟨·, false⟩)
  | _ => none

/-- A field that must be given. -/
def Record.required {α : Type} (r : Record) (name : String) (decode : Json → Option α) :
    Option α :=
  (r.fields.lookup name).bind decode

/-- A field with a default. -/
def Record.defaulted {α : Type} (r : Record) (name : String) (default : α)
    (decode : Json → Option α) : Option α :=
  match r.fields.lookup name with
  | none => some default
  | some v => decode v

/-- A value or `null`. -/
def nullable? {α : Type} (decode : Json → Option α) : Json → Option (Option α)
  | .null => some none
  | v => (decode v).map some

/-- A field that may be `null`, and may be missing unless fields are given by position. -/
def Record.optional {α : Type} (r : Record) (name : String) (decode : Json → Option α) :
    Option (Option α) :=
  match r.fields.lookup name with
  | none => if r.positional then none else some none
  | some v => nullable? decode v

/-! ### Scalars, constants and lists -/

/-- A truth value. -/
def bool? : Json → Option Bool
  | .bool b => some b
  | _ => none

/-- A text. -/
def string? : Json → Option String
  | .string s => some s
  | _ => none

/-- An integer. -/
def int? : Json → Option Int
  | .number (.integer n) => some n
  | _ => none

/-- An integer of 32 bits with a sign. -/
def int32? (v : Json) : Option Int32 := do
  let n ← v.int?
  if Int32.minValue.toInt ≤ n ∧ n ≤ Int32.maxValue.toInt then some (Int32.ofInt n) else none

/-- An integer of 16 bits without sign. -/
def uint16? (v : Json) : Option UInt16 := do
  let n ← v.int?
  if 0 ≤ n ∧ n < UInt16.size then some (UInt16.ofNat n.toNat) else none

/-- An integer of 32 bits without sign. -/
def uint32? (v : Json) : Option UInt32 := do
  let n ← v.int?
  if 0 ≤ n ∧ n < UInt32.size then some (UInt32.ofNat n.toNat) else none

/-- An integer of 64 bits without sign. -/
def uint64? (v : Json) : Option UInt64 := do
  let n ← v.int?
  if 0 ≤ n ∧ n < UInt64.size then some (UInt64.ofNat n.toNat) else none

/-- A list of values. -/
def list? {α : Type} (decode : Json → Option α) : Json → Option (List α)
  | .array vs => vs.mapM decode
  | _ => none

/-- One of the given constants: its name, or an object whose one member has that name and an
empty payload. -/
def constant? {α : Type} (d : Dialect) (names : List (String × α)) : Json → Option α
  | .string s => names.lookup s
  | .object [(some s, payload)] => if d.isEmptyPayload payload then names.lookup s else none
  | _ => none

/-! ### Values that are held before they are decoded -/

/-- The least magnitude that double precision cannot hold: 2^1024 less half a unit in the last
place. -/
def overflow : Nat := Nat.pow 2 1024 - Nat.pow 2 970

/-- Whether a number has a magnitude that double precision can hold. -/
def Number.isFinite : Number → Bool
  | .integer n => n.natAbs < overflow
  | .other text =>
    let cs := text.toList.dropWhile (· == '-')
    let whole := cs.takeWhile Char.isDigit
    let rest := cs.dropWhile Char.isDigit
    let fraction := (rest.dropWhile (· == '.')).takeWhile Char.isDigit
    let exponent :=
      (Text.readInt? (String.ofList ((rest.dropWhile fun c => c != 'e' && c != 'E').drop 1))).getD 0
    let mantissa := Text.ofDigits 10 (whole ++ fraction)
    let scale := exponent - fraction.length
    let size := (Nat.toDigits 10 mantissa).length + scale
    if mantissa == 0 || size < 300 then true
    else if size > 320 then false
    else
      mantissa * Nat.pow 10 scale.toNat < overflow * Nat.pow 10 (-scale).toNat

mutual

/-- Whether a value can be held undecoded: its literals denote texts, its numbers are finite,
and it nests at most `depth` arrays and objects. -/
def isHoldable (depth : Nat) : Json → Bool
  | .brokenString => false
  | .number n => n.isFinite
  | .array vs => match depth with
    | 0 => false
    | depth + 1 => areHoldable depth vs
  | .object ms => match depth with
    | 0 => false
    | depth + 1 => areMembersHoldable depth ms
  | _ => true

/-- Whether all elements can be held. -/
def areHoldable (depth : Nat) : List Json → Bool
  | [] => true
  | v :: vs => isHoldable depth v && areHoldable depth vs

/-- Whether all members have names and can be held. -/
def areMembersHoldable (depth : Nat) : List (Option String × Json) → Bool
  | [] => true
  | (name, v) :: ms => name.isSome && isHoldable depth v && areMembersHoldable depth ms

end

/-- The deepest nesting of a value that is held before it is decoded. -/
def heldDepth : Nat := 127

end Json

/-- A type whose values are written as document values. -/
class Encode (α : Type) where
  encode : α → Json

/-- A type whose values are read from document values. -/
class Decode (α : Type) where
  decode? : Json.Dialect → Json → Option α

export Encode (encode)
export Decode (decode?)

instance : Encode String := ⟨.string⟩
instance : Decode String := ⟨fun _ => Json.string?⟩
instance : Encode Bool := ⟨.bool⟩
instance : Decode Bool := ⟨fun _ => Json.bool?⟩
instance : Encode Int32 := ⟨fun n => .int n.toInt⟩
instance : Decode Int32 := ⟨fun _ => Json.int32?⟩
instance : Encode UInt32 := ⟨fun n => .nat n.toNat⟩
instance : Decode UInt32 := ⟨fun _ => Json.uint32?⟩
instance : Encode UInt64 := ⟨fun n => .nat n.toNat⟩
instance : Decode UInt64 := ⟨fun _ => Json.uint64?⟩

instance {α : Type} [Encode α] : Encode (List α) := ⟨Json.list encode⟩
instance {α : Type} [Decode α] : Decode (List α) := ⟨fun d => Json.list? (decode? d)⟩
instance {α : Type} [Encode α] : Encode (Option α) := ⟨Json.ofOption encode⟩
instance {α : Type} [Decode α] : Decode (Option α) := ⟨fun d => Json.nullable? (decode? d)⟩

end SafetyHub
