import SafetyHub.Catalog.Source
import SafetyHub.Policy
import SafetyHub.Proofs.Json.Faithful
import SafetyHub.Report.Event

/-!
# Documents are read back

Reports, events, keys, policies and groups of sources are faithful, and so their texts round-trip,
`documents_roundTrip`.  An event is found in its object wherever its type stands,
`Event.decode?_type_anywhere`.
-/

namespace SafetyHub

open Json Std

namespace Faithful

/-! ### Keys and reports -/

instance : Faithful SourceKey where
  isPlain_encode _ := .record (by simp)
  decode?_encode d k := by
    refine (decode?_record (fun _ => rfl) (by simp) (by simp)).trans ?_
    simp

instance : Faithful IssueKey where
  isPlain_encode _ := .record (by simp)
  decode?_encode d k := by
    refine (decode?_record (fun _ => rfl) (by simp) (by simp)).trans ?_
    simp

instance : Faithful BroadcastId where
  isPlain_encode id := isPlain_encode id.text
  decode?_encode d id := by
    change (decode? d (encode id.text)).map _ = some id
    rw [decode?_encode, Option.map_some]

instance : Faithful Severity where
  isPlain_encode _ := .string _
  decode?_encode _ level := by cases level <;> rfl

instance : Faithful IssueCategory where
  isPlain_encode _ := .string _
  decode?_encode _ category := by cases category <;> rfl

instance : Faithful SourceStatus where
  isPlain_encode _ := .record (by simp)
  decode?_encode d s := by
    refine (decode?_record (fun _ => rfl) (by simp) (by simp)).trans ?_
    simp

instance : Faithful IssueAction where
  isPlain_encode _ := .record (by simp)
  decode?_encode d a := by
    refine (decode?_record (fun _ => rfl) (by simp) (by simp)).trans ?_
    simp

instance : Faithful Issue where
  isPlain_encode _ := .record (by simp)
  decode?_encode d i := by
    refine (decode?_record (fun _ => rfl) (by simp) (by simp)).trans ?_
    simp

instance : Faithful Report where
  isPlain_encode r := by
    obtain ⟨_ | s, issues⟩ := r <;> exact .record (by simp)
  decode?_encode d r := by
    obtain ⟨_ | s, issues⟩ := r
    · refine (decode?_record (fun _ => rfl) (by simp) (by simp)).trans ?_
      simp
    · refine (decode?_record (fun _ => rfl) (by simp) (by simp)).trans ?_
      have hstatus := decode?_option (a := s) (by rintro ⟨⟩) d
      simp [hstatus]

instance : Faithful Event where
  isPlain_encode e := by
    cases e <;> exact .record (by simp [Event.fields])
  decode?_encode d e := by
    cases e <;> rfl

/-! ### Policies -/

instance : Faithful SourceIds where
  isPlain_encode ids := isPlain_encode ids.toList
  decode?_encode d ids := by
    change (decode? d (encode ids.toList)).bind _ = some ids
    rw [decode?_encode, Option.bind_some]
    apply congrArg some
    apply ExtTreeSet.ext_mem
    simp

instance {α : Type} [Encode α] [Decode α] [Faithful α] : Faithful (PerSeverity α) where
  isPlain_encode _ := .record (by simp)
  decode?_encode d v := by
    refine (decode?_record (fun _ => rfl) (by simp) (by simp)).trans ?_
    simp

instance : Faithful RefreshReason where
  isPlain_encode _ := .string _
  decode?_encode _ reason := by cases reason <;> rfl

instance : Faithful ReasonTimeout where
  isPlain_encode _ := .record (by simp)
  decode?_encode d t := by
    refine (decode?_record (fun _ => rfl) (by simp) (by simp)).trans ?_
    simp

instance : Faithful CategoryAllowlist where
  isPlain_encode _ := .record (by simp)
  decode?_encode d a := by
    refine (decode?_record (fun _ => rfl) (by simp) (by simp)).trans ?_
    simp

instance : Faithful Policy where
  isPlain_encode _ := .record (by simp)
  decode?_encode d p := by
    refine (decode?_record (fun _ => rfl) (by simp) (by simp [Policy.fieldNames])).trans ?_
    simp

/-! ### Sources -/

instance : Faithful SourceKind where
  isPlain_encode _ := .string _
  decode?_encode _ kind := by cases kind <;> rfl

instance : Faithful Reach where
  isPlain_encode _ := .string _
  decode?_encode _ reach := by cases reach <;> rfl

instance : Faithful InitialDisplay where
  isPlain_encode _ := .string _
  decode?_encode _ display := by cases display <;> rfl

instance : Faithful Source where
  isPlain_encode s := by
    obtain ⟨id, kind, _ | package, _⟩ := s <;> exact .record (by simp)
  decode?_encode d s := by
    obtain ⟨id, kind, _ | package, _⟩ := s
    · refine (decode?_record (fun _ => rfl) (by simp) (by simp)).trans ?_
      simp
    · refine (decode?_record (fun _ => rfl) (by simp) (by simp)).trans ?_
      have hpackage := decode?_option (a := package) (by rintro ⟨⟩) d
      simp [hpackage]

instance : Faithful SourceGroup where
  isPlain_encode _ := .record (by simp)
  decode?_encode d g := by
    refine (decode?_record (fun _ => rfl) (by simp) (by simp)).trans ?_
    simp

end Faithful

/-! ### What else a text may say -/

namespace Json

theorem areMembersHoldable_eq_all (depth : Nat) (ms : List (Option String × Json)) :
  areMembersHoldable depth ms = ms.all fun m => m.1.isSome && isHoldable depth m.2
  := by
  induction ms with
  | nil => rfl
  | cons m ms ih => rw [areMembersHoldable, ih, List.all_cons]

end Json

namespace Event

variable {before after : List (Option String × Json)}

theorem split?_type_anywhere (type : Json) :
  split? (.object (before ++ (some "type", type) :: after))
    = split? (.object ((some "type", type) :: (before ++ after)))
  := by
  simp only [split?, List.filter_append, List.filter_cons, beq_self_eq_true, if_true,
    bne_self_eq_false, Bool.false_eq_true, if_false]
  -- two types are refused, in whatever order they stand
  generalize List.filter _ before = types
  cases types with
  | nil => rfl
  | cons m types => cases types <;> simp

/-- The type of an event may stand anywhere among its members. -/
theorem decode?_type_anywhere (d : Dialect) (type : Json) :
  (decode? d (.object (before ++ (some "type", type) :: after)) : Option Event)
    = decode? d (.object ((some "type", type) :: (before ++ after)))
  := by
  have hheld : isHoldable heldDepth (.object (before ++ (some "type", type) :: after))
      = isHoldable heldDepth (.object ((some "type", type) :: (before ++ after))) := by
    simp only [isHoldable, heldDepth, areMembersHoldable_eq_all, List.all_append, List.all_cons,
      Bool.and_left_comm]
  change (if !isHoldable heldDepth _ then none else (split? _).bind _)
    = if !isHoldable heldDepth _ then none else (split? _).bind _
  rw [hheld, split?_type_anywhere]

end Event

/-! ### Texts -/

/-- Whatever is written of the documents that are exchanged is read back. -/
theorem documents_roundTrip :
  RoundTrips Report ∧ RoundTrips Event ∧ RoundTrips SourceKey ∧ RoundTrips IssueKey
    ∧ RoundTrips Policy ∧ RoundTrips SourceGroup
  := ⟨.of_faithful, .of_faithful, .of_faithful, .of_faithful, .of_faithful, .of_faithful⟩

/-- An event with a member that is not a field and its type at the end is read again from what is
written of it. -/
theorem event_with_type_last :
  let text := "\x7b\"more\":0,\"broadcast_id\":\"b\",\"type\":\"refresh_requested\"\x7d"
  read? Event text = some (.refreshRequested ⟨"b"⟩)
    ∧ read? Event (encode (Event.refreshRequested ⟨"b"⟩)).compact = read? Event text
  := by
  intro text
  have hread : read? Event text = some (.refreshRequested ⟨"b"⟩) := by decide +kernel
  exact ⟨hread, (documents_roundTrip.2.1.read?_again hread).1⟩

-- what has a default may be `null` or missing
example : read? Report "\x7b\"status\":null,\"more\":[1e3]\x7d" = some {} := by
  decide +kernel

end SafetyHub
