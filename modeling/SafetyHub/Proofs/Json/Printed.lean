import SafetyHub.Proofs.Json.Writing

/-!
# Printed values are read back

A value that has an exact written form, `IsPlain`, is read back from what either printer makes of
it, `parse?_compact` and `parse?_pretty`.  Both printers make writings of such a value: `compact`
one without spaces, `pretty` one with a line break before every item.
-/

namespace SafetyHub.Json

variable {v : Json} {vs : List Json} {fields : List (String × Json)} {before gap after : List Char}

/-- The numbers of the value are integers, its literals denote texts and its members have names. -/
inductive IsPlain : Json → Prop
  | null : IsPlain .null
  | bool (b : Bool) : IsPlain (.bool b)
  | integer (n : Int) : IsPlain (int n)
  | string (s : String) : IsPlain (.string s)
  | array {vs : List Json} (h : ∀ v ∈ vs, IsPlain v) : IsPlain (.array vs)
  | record {fields : List (String × Json)} (h : ∀ f ∈ fields, IsPlain f.2) :
      IsPlain (.record fields)

/-! ### Writings that a printer makes -/

section

variable {print : Json → List Char}

theorem Writing.array_of_print (hbefore : AreSpaces before) (hafter : AreSpaces after)
    (h : ∀ v ∈ vs, Writing v (print v)) :
  Writing (.array vs) ('[' :: separated before (vs.map print) ++ after ++ [']'])
  := by
  have hwriting := Writing.array (vs.map fun v => (v, print v)) hbefore hafter
    (List.forall_mem_map.mpr h)
  simpa [Function.comp_def] using hwriting

theorem Writing.record_of_print (hbefore : AreSpaces before) (hgap : AreSpaces gap)
    (hafter : AreSpaces after) (h : ∀ f ∈ fields, Writing f.2 (print f.2)) :
  Writing (.record fields)
    ('\x7b' :: separated before (fields.map fun f => memberChars gap f.1 (print f.2)) ++ after
      ++ ['\x7d'])
  := by
  have hwriting := Writing.object (fields.map fun f => (f.1, f.2, print f.2)) hbefore hgap
    hafter (List.forall_mem_map.mpr h)
  simpa [Function.comp_def] using hwriting

end

/-! ### On one line -/

theorem areSpaces_nil : AreSpaces [] := by
  rintro _ ⟨⟩

theorem compactElements_eq (vs : List Json) :
  compactElements vs = separated [] (vs.map compactChars)
  := by
  induction vs with
  | nil => rfl
  | cons v vs ih =>
    cases vs with
    | nil => simp [compactElements, separated, further]
    | cons v' vs =>
      rw [compactElements, ih]
      · simp [separated, further]
      · rintro ⟨⟩

theorem compactMembers_eq (fields : List (String × Json)) :
  compactMembers (fields.map fun f => (some f.1, f.2))
    = separated [] (fields.map fun f => memberChars [] f.1 (compactChars f.2))
  := by
  induction fields with
  | nil => rfl
  | cons f fields ih =>
    cases fields with
    | nil => simp [compactMembers, separated, further, memberChars, quoteName]
    | cons f' fields =>
      rw [List.map_cons, compactMembers, ih]
      · simp [separated, further, memberChars, quoteName]
      · rintro ⟨⟩

theorem writing_compactChars (h : IsPlain v) : Writing v (compactChars v) := by
  induction h with
  | null => exact .null
  | bool b => cases b <;> exact .bool _
  | integer n => exact .integer n
  | string s => exact .string s
  | @array vs _ ih =>
    have hwriting := Writing.array_of_print areSpaces_nil areSpaces_nil ih
    rw [List.append_nil, ← compactElements_eq] at hwriting
    exact hwriting
  | @record fields _ ih =>
    have hwriting := Writing.record_of_print areSpaces_nil areSpaces_nil areSpaces_nil ih
    rw [List.append_nil, ← compactMembers_eq] at hwriting
    exact hwriting

/-! ### Over several lines -/

theorem areSpaces_blank : AreSpaces [' '] := by
  intro c hc
  rw [List.eq_of_mem_singleton hc]
  decide

theorem areSpaces_lineAt (depth : Nat) : AreSpaces (lineAt depth) := by
  intro c hc
  obtain rfl | hc := List.mem_cons.mp hc
  · decide
  · rw [List.eq_of_mem_replicate hc]
    decide

theorem prettyElements_cons (depth : Nat) (v : Json) (vs : List Json) :
  lineAt depth ++ prettyElements depth (v :: vs)
    = separated (lineAt depth) ((v :: vs).map (prettyChars depth))
  := by
  induction vs generalizing v with
  | nil => simp [prettyElements, separated, further]
  | cons v' vs ih =>
    rw [prettyElements, List.append_assoc, List.cons_append, ih]
    · simp [separated, further]
    · rintro ⟨⟩

theorem prettyMembers_cons (depth : Nat) (f : String × Json) (fields : List (String × Json)) :
  lineAt depth ++ prettyMembers depth ((f :: fields).map fun f => (some f.1, f.2))
    = separated (lineAt depth)
        ((f :: fields).map fun f => memberChars [' '] f.1 (prettyChars depth f.2))
  := by
  induction fields generalizing f with
  | nil => simp [prettyMembers, separated, further, memberChars, quoteName]
  | cons f' fields ih =>
    rw [List.map_cons, prettyMembers, List.append_assoc, List.cons_append, ih]
    · simp [separated, further, memberChars, quoteName]
    · rintro ⟨⟩

theorem writing_prettyChars (h : IsPlain v) (depth : Nat) : Writing v (prettyChars depth v) := by
  induction h generalizing depth with
  | null => exact .null
  | bool b => cases b <;> exact .bool _
  | integer n => exact .integer n
  | string s => exact .string s
  | @array vs _ ih =>
    cases vs with
    | nil => exact Writing.array [] areSpaces_nil areSpaces_nil (by rintro _ ⟨⟩)
    | cons v vs =>
      have hwriting := Writing.array_of_print (areSpaces_lineAt (depth + 1))
        (areSpaces_lineAt depth) fun v hv => ih v hv (depth + 1)
      rw [← prettyElements_cons] at hwriting
      exact hwriting
  | @record fields _ ih =>
    cases fields with
    | nil =>
      exact Writing.object [] areSpaces_nil areSpaces_nil areSpaces_nil
        (by rintro _ ⟨⟩)
    | cons f fields =>
      have hwriting := Writing.record_of_print (areSpaces_lineAt (depth + 1))
        areSpaces_blank (areSpaces_lineAt depth) fun f hf => ih f hf (depth + 1)
      rw [← prettyMembers_cons] at hwriting
      exact hwriting

/-! ### Texts -/

theorem parse?_compact (h : IsPlain v) : parse? v.compact = some v :=
  (writing_compactChars h).parse?_ofList

theorem parse?_pretty (h : IsPlain v) : parse? v.pretty = some v :=
  (writing_prettyChars h 0).parse?_ofList

end SafetyHub.Json
