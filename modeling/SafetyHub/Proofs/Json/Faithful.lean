import SafetyHub.Json.Decode
import SafetyHub.Proofs.Json.Printed

/-!
# Faithful encodings

A type is `Faithful` when each of its values is encoded plainly and decoded as the same value, so
that its texts `RoundTrip`: what is printed is read back, and what is read need not be read again.
The scalars are faithful, and lists of a faithful type.  For a record, `Json.decode?_record` hands
the decoder the fields that were encoded; members that are not fields would change nothing,
`Json.record?_ignored`.
-/

namespace SafetyHub

open Json

/-- The values of the type are encoded plainly and decoded as they were. -/
class Faithful (α : Type) [Encode α] [Decode α] : Prop where
  isPlain_encode (a : α) : (encode a).IsPlain
  decode?_encode (d : Dialect) (a : α) : decode? d (encode a) = some a

export Faithful (isPlain_encode decode?_encode)

attribute [simp] isPlain_encode decode?_encode

variable {α : Type}

namespace Json

variable {d : Dialect} {names : List String} {name other : String} {v : Json}
  {fields : List (String × Json)}

/-! ### Fields -/

section

variable {positional : Bool} {decode : Json → Option α} {default : α}

@[simp]
theorem Record.required_cons_self :
  Record.required ⟨(name, v) :: fields, positional⟩ name decode = decode v
  := by
  rw [required, List.lookup_cons_self, Option.bind_some]

@[simp]
theorem Record.required_cons_of_ne (h : name ≠ other) :
  Record.required ⟨(other, v) :: fields, positional⟩ name decode
    = Record.required ⟨fields, positional⟩ name decode
  := by
  simp only [required, List.lookup_cons, beq_eq_false_iff_ne.mpr h]

@[simp]
theorem Record.defaulted_nil : Record.defaulted ⟨[], positional⟩ name default decode = default := by
  rfl

@[simp]
theorem Record.defaulted_cons_self :
  Record.defaulted ⟨(name, v) :: fields, positional⟩ name default decode = decode v
  := by
  rw [defaulted, List.lookup_cons_self]

@[simp]
theorem Record.defaulted_cons_of_ne (h : name ≠ other) :
  Record.defaulted ⟨(other, v) :: fields, positional⟩ name default decode
    = Record.defaulted ⟨fields, positional⟩ name default decode
  := by
  simp only [defaulted, List.lookup_cons, beq_eq_false_iff_ne.mpr h]

end

/-! ### Records -/

theorem known?_record (hnodup : (fields.map (·.1)).Nodup) (hknown : fields.map (·.1) ⊆ names) :
  known? names (fields.map fun (name, v) => (some name, v)) = some fields
  := by
  induction fields with
  | nil => rfl
  | cons f fields ih =>
    rw [List.map_cons] at hnodup hknown
    obtain ⟨hnew, hnodup⟩ := List.nodup_cons.mp hnodup
    obtain ⟨hname, hknown⟩ := List.cons_subset.mp hknown
    have hnone : fields.lookup f.1 = none := by
      rw [List.lookup_eq_none_iff]
      intro g hg
      rw [bne_iff_ne]
      intro heq
      exact hnew (heq ▸ List.mem_map_of_mem hg)
    simp [known?, ih hnodup hknown, hname, hnone]

/-- A decoder that asks a record for its fields is given the fields that were encoded. -/
theorem decode?_record [Decode α] {ask : Record → Option α}
    (hdecode : ∀ v, decode? d v = (record? d names v).bind ask)
    (hnodup : (fields.map (·.1)).Nodup) (hknown : fields.map (·.1) ⊆ names) :
  decode? d (.record fields) = ask ⟨fields, false⟩
  := by
  rw [hdecode, record, record?, known?_record hnodup hknown, Option.map_some, Option.bind_some]

/-- A member that is not a field is ignored, wherever it stands. -/
theorem record?_ignored (hname : name ∉ names) (before after : List (Option String × Json)) :
  record? d names (.object (before ++ (some name, v) :: after))
    = record? d names (.object (before ++ after))
  := by
  have hknown :
      known? names (before ++ (some name, v) :: after) = known? names (before ++ after) := by
    induction before with
    | nil => simp [known?, hname]
    | cons m before ih =>
      obtain ⟨_ | other, w⟩ := m
      · rfl
      · simp only [List.cons_append, known?, ih]
  rw [record?, hknown, record?]

/-! ### Numbers -/

theorem int?_int (n : Int) : (int n).int? = some n := rfl

theorem uint32?_nat {n : Nat} (h : n < UInt32.size) :
  uint32? (nat n) = some (UInt32.ofNat n)
  := by
  have hrange : (0 : Int) ≤ n ∧ (n : Int) < UInt32.size :=
    ⟨Int.natCast_nonneg n, Int.ofNat_lt.mpr h⟩
  rw [uint32?, nat, int?_int, Option.bind_eq_bind, Option.bind_some, if_pos hrange,
    Int.toNat_natCast]

theorem uint64?_nat {n : Nat} (h : n < UInt64.size) :
  uint64? (nat n) = some (UInt64.ofNat n)
  := by
  have hrange : (0 : Int) ≤ n ∧ (n : Int) < UInt64.size :=
    ⟨Int.natCast_nonneg n, Int.ofNat_lt.mpr h⟩
  rw [uint64?, nat, int?_int, Option.bind_eq_bind, Option.bind_some, if_pos hrange,
    Int.toNat_natCast]

theorem int32?_int (n : Int32) : int32? (int n.toInt) = some n := by
  have hrange := And.intro n.minValue_le_toInt n.toInt_le
  rw [int32?, int?_int, Option.bind_eq_bind, Option.bind_some, if_pos hrange, Int32.ofInt_toInt]

end Json

/-! ### Scalars and lists -/

namespace Faithful

instance : Faithful String where
  isPlain_encode := .string
  decode?_encode _ _ := rfl

instance : Faithful Bool where
  isPlain_encode := .bool
  decode?_encode _ _ := rfl

instance : Faithful Int32 where
  isPlain_encode _ := .integer _
  decode?_encode _ := int32?_int

instance : Faithful UInt32 where
  isPlain_encode _ := .integer _
  decode?_encode _ n := (uint32?_nat n.toNat_lt_size).trans (by rw [UInt32.ofNat_toNat])

instance : Faithful UInt64 where
  isPlain_encode _ := .integer _
  decode?_encode _ n := (uint64?_nat n.toNat_lt_size).trans (by rw [UInt64.ofNat_toNat])

end Faithful

/-- A list of values that are decoded as they were is decoded as it was. -/
theorem decode?_list [Encode α] [Decode α] {d : Json.Dialect} {as : List α}
    (h : ∀ a ∈ as, decode? d (encode a) = some a) :
  decode? d (encode as) = some as
  := by
  change (as.map encode).mapM (decode? d) = some as
  induction as with
  | nil => rfl
  | cons a as ih =>
    obtain ⟨ha, has⟩ := List.forall_mem_cons.mp h
    simp [ha, ih has]

instance [Encode α] [Decode α] [Faithful α] : Faithful (List α) where
  isPlain_encode _ := .array (by simp)
  decode?_encode _ _ := decode?_list fun _ _ => decode?_encode _ _

/-- A value that is not written as `null` is read where it may be missing. -/
theorem decode?_option [Encode α] [Decode α] [Faithful α] {a : α} (h : encode a ≠ .null)
    (d : Dialect) :
  (decode? d (encode a) : Option (Option α)) = some (some a)
  := by
  change nullable? (decode? d) (encode a) = some (some a)
  rw [nullable?, decode?_encode]
  · rfl
  · exact h

/-! ### What is decoded -/

namespace Json

variable {d : Dialect} {r : Record} {name : String} {decode : Json → Option α} {default a : α}

theorem Record.exists_of_required (h : r.required name decode = some a) :
  ∃ v, decode v = some a
  := by
  obtain ⟨v, -, hv⟩ := Option.bind_eq_some_iff.mp h
  exact ⟨v, hv⟩

theorem Record.of_defaulted (h : r.defaulted name default decode = some a) :
  default = a ∨ ∃ v, decode v = some a
  := by
  unfold defaulted at h
  split at h
  next => exact .inl (Option.some.inj h)
  next v _ => exact .inr ⟨v, h⟩

theorem of_nullable? {v : Json} {o : Option α} (h : nullable? decode v = some o)
    (ho : o = some a) :
  decode v = some a
  := by
  unfold nullable? at h
  split at h
  next =>
    cases h
    cases ho
  next =>
    obtain ⟨b, hb, rfl⟩ := Option.map_eq_some_iff.mp h
    cases ho
    exact hb

theorem exists_of_mem_list? {v : Json} {as : List α} (h : list? decode v = some as)
    (ha : a ∈ as) :
  ∃ v, decode v = some a
  := by
  unfold list? at h
  split at h
  next vs =>
    induction vs generalizing as with
    | nil =>
      cases h
      cases ha
    | cons w vs ih =>
      simp only [List.mapM_cons, Option.bind_eq_bind, Option.bind_eq_some_iff] at h
      obtain ⟨b, hb, bs, hbs, h⟩ := h
      cases h
      obtain rfl | ha := List.mem_cons.mp ha
      · exact ⟨w, hb⟩
      · exact ih ha hbs
  next => cases h

end Json

/-! ### Texts -/

namespace Json

/-- The value that a JSON text encodes. -/
def read? (α : Type) [Decode α] (text : String) : Option α :=
  (parse? text).bind (decode? .json)

/-- What is written is read back, and the texts that are read have a normal form. -/
structure RoundTrips (α : Type) [Encode α] [Decode α] : Prop where
  read?_compact (a : α) : read? α (encode a).compact = some a
  read?_pretty (a : α) : read? α (encode a).pretty = some a
  read?_again {text : String} {a : α} (h : read? α text = some a) :
    read? α (encode a).compact = read? α text ∧ read? α (encode a).pretty = read? α text

theorem RoundTrips.of_faithful [Encode α] [Decode α] [Faithful α] : RoundTrips α :=
  have hcompact (a : α) : read? α (encode a).compact = some a := by
    rw [read?, parse?_compact (isPlain_encode a), Option.bind_some, decode?_encode]
  have hpretty (a : α) : read? α (encode a).pretty = some a := by
    rw [read?, parse?_pretty (isPlain_encode a), Option.bind_some, decode?_encode]
  ⟨hcompact, hpretty, fun h => ⟨(hcompact _).trans h.symm, (hpretty _).trans h.symm⟩⟩

end Json

end SafetyHub
