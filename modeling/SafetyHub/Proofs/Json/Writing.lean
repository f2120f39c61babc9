import SafetyHub.Proofs.Json.Literal

/-!
# Writings of document values

`Writing v cs` says that the characters write the value: with spaces before its elements and
members, after colons and before closing brackets, or without.  Only values whose literals denote
texts and whose numbers are integers have a writing.  The reader reads every writing,
`Writing.isRead`, and leaves whatever follows it, unless that could go on with a number.
-/

namespace SafetyHub.Json

variable {v : Json} {cs rest before gap after : List Char} {fuel : Nat}

/-! ### Spaces -/

/-- The characters may stand between the parts of a document. -/
def AreSpaces (cs : List Char) : Prop :=
  ∀ c ∈ cs, isSpace c = true

theorem skip_spaces (h : AreSpaces before) : skip (before ++ cs) = skip cs :=
  List.dropWhile_append_of_pos h

theorem skip_cons {c : Char} (h : isSpace c = false) : skip (c :: cs) = c :: cs :=
  List.dropWhile_cons_of_neg (by rw [h]; decide)

theorem skip_to {c : Char} (hafter : AreSpaces after) (h : isSpace c = false) :
  skip (after ++ c :: rest) = c :: rest
  := by
  rw [skip_spaces hafter, skip_cons h]

/-- A number ends at a space. -/
theorem AreSpaces.numberEnds (h : AreSpaces after) (hrest : NumberEnds rest) :
  NumberEnds (after ++ rest)
  := by
  cases after with
  | nil => exact hrest
  | cons c cs =>
    apply NumberEnds.cons
    have hc := h c List.mem_cons_self
    simp only [isSpace, Bool.or_eq_true, beq_iff_eq] at hc
    obtain ((rfl | rfl) | rfl) | rfl := hc <;> decide

/-! ### Writings -/

/-- Items with a comma and spaces before each of them. -/
def further (before : List Char) (items : List (List Char)) : List Char :=
  items.flatMap fun item => ',' :: before ++ item

/-- Items with spaces before each of them and commas between them. -/
def separated (before : List Char) : List (List Char) → List Char
  | [] => []
  | item :: items => before ++ item ++ further before items

theorem further_cons (before item : List Char) (items : List (List Char)) :
  further before (item :: items) = ',' :: (before ++ (item ++ further before items))
  := by
  simp [further]

/-- The writing of a member, with spaces after its colon. -/
def memberChars (gap : List Char) (name : String) (value : List Char) : List Char :=
  quote name ++ ':' :: gap ++ value

theorem skip_memberChars (gap : List Char) (name : String) (value rest : List Char) :
  skip (memberChars gap name value ++ rest) = memberChars gap name value ++ rest
  := skip_cons (by decide)

/-- The characters write the value. -/
inductive Writing : Json → List Char → Prop
  | null : Writing .null "null".toList
  | bool (b : Bool) : Writing (.bool b) (toString b).toList
  | integer (n : Int) : Writing (int n) (toString n).toList
  | string (s : String) : Writing (.string s) (quote s)
  | array (elements : List (Json × List Char)) {before after : List Char}
      (hbefore : AreSpaces before) (hafter : AreSpaces after)
      (h : ∀ e ∈ elements, Writing e.1 e.2) :
      Writing (.array (elements.map (·.1)))
        ('[' :: separated before (elements.map (·.2)) ++ after ++ [']'])
  | object (members : List (String × Json × List Char)) {before gap after : List Char}
      (hbefore : AreSpaces before) (hgap : AreSpaces gap) (hafter : AreSpaces after)
      (h : ∀ m ∈ members, Writing m.2.1 m.2.2) :
      Writing (.record (members.map fun m => (m.1, m.2.1)))
        ('\x7b' :: separated before (members.map fun m => memberChars gap m.1 m.2.2) ++ after
          ++ ['\x7d'])

/-- A writing has no spaces in front and is not a closing bracket. -/
theorem Writing.exists_cons (h : Writing v cs) :
  ∃ c tail, cs = c :: tail ∧ isSpace c = false ∧ c ≠ ']'
  := by
  cases h with
  | null => exact ⟨'n', _, rfl, by decide, by decide⟩
  | bool b => cases b <;> exact ⟨_, _, rfl, by decide, by decide⟩
  | integer n =>
    obtain ⟨c, tail, hc, hhead⟩ := exists_toList_toString n
    refine ⟨c, tail, hc, ?_, ?_⟩
    · obtain rfl | hdigit := hhead
      · decide
      · simp only [isSpace, Bool.or_eq_false_iff, beq_eq_false_iff_ne]
        refine ⟨⟨⟨?_, ?_⟩, ?_⟩, ?_⟩ <;> rintro rfl <;> cases hdigit
    · rintro rfl
      obtain h | h := hhead <;> cases h
  | string s => exact ⟨'"', _, rfl, by decide, by decide⟩
  | array => exact ⟨'[', _, rfl, by decide, by decide⟩
  | object => exact ⟨'\x7b', _, rfl, by decide, by decide⟩

theorem Writing.skip_append (h : Writing v cs) (rest : List Char) :
  skip (cs ++ rest) = cs ++ rest
  := by
  obtain ⟨c, tail, rfl, hc, -⟩ := h.exists_cons
  exact skip_cons hc

/-! ### Readings -/

/-- The value is read from the characters, and what follows them is left. -/
def IsRead (v : Json) (cs : List Char) : Prop :=
  ∀ (fuel : Nat) (rest : List Char), cs.length ≤ fuel → NumberEnds rest →
    value? fuel (cs ++ rest) = some (v, rest)

theorem elements?_read (rest : List Char) (hbefore : AreSpaces before) (hafter : AreSpaces after)
    {e : Json × List Char} {es : List (Json × List Char)}
    (hwriting : ∀ x ∈ e :: es, Writing x.1 x.2) (hread : ∀ x ∈ e :: es, IsRead x.1 x.2)
    (hfuel : (e.2 ++ further before (es.map (·.2))).length < fuel) :
  elements? fuel (e.2 ++ (further before (es.map (·.2)) ++ (after ++ ']' :: rest)))
    = some ((e :: es).map (·.1), rest)
  := by
  induction es generalizing e fuel with
  | nil =>
    obtain _ | fuel := fuel
    · contradiction
    have hend : NumberEnds (after ++ ']' :: rest) := hafter.numberEnds (.cons (by decide))
    have hlast : skip (after ++ ']' :: rest) = ']' :: rest := skip_to hafter (by decide)
    rw [List.length_append] at hfuel
    have hvalue := hread e List.mem_cons_self fuel _ (by omega) hend
    simp only [further, List.map_nil, List.flatMap_nil, List.nil_append, elements?, hvalue, hlast,
      Option.bind_eq_bind, Option.bind_some, List.map_cons]
  | cons e' es ih =>
    obtain _ | fuel := fuel
    · contradiction
    obtain ⟨-, hwriting⟩ := List.forall_mem_cons.mp hwriting
    obtain ⟨hfirst, hread⟩ := List.forall_mem_cons.mp hread
    rw [List.map_cons, further_cons] at hfuel ⊢
    simp only [List.length_append, List.length_cons] at hfuel
    have hmore := ih hwriting hread (show _ < fuel by rw [List.length_append]; omega)
    have hnext := (hwriting e' List.mem_cons_self).skip_append
      (further before (es.map (·.2)) ++ (after ++ ']' :: rest))
    have hvalue := hfirst fuel (',' :: (before ++ (e'.2 ++ further before (es.map (·.2)))
      ++ (after ++ ']' :: rest))) (by omega) (.cons (by decide))
    simp only [List.cons_append, List.append_assoc] at hvalue ⊢
    simp only [elements?, hvalue, skip_cons (show isSpace ',' = false by decide),
      skip_spaces hbefore, hnext, hmore, Option.bind_eq_bind, Option.bind_some, List.map_cons]

/-- A member is read, then, after a comma, the members that follow it. -/
theorem members?_more {more : List Char} (hgap : AreSpaces gap) (name : String)
    (hwriting : Writing v cs) (hread : IsRead v cs) (hfuel : cs.length ≤ fuel) :
  members? (fuel + 1) (memberChars gap name cs ++ ',' :: more)
    = (members? fuel (skip more)).map fun (ms, rest) => ((some name, v) :: ms, rest)
  := by
  have htext := stringText?_quote name (':' :: (gap ++ (cs ++ ',' :: more)))
  have hvalue := hread fuel (',' :: more) hfuel (.cons (by decide))
  simp only [memberChars, quote, List.cons_append, List.append_assoc, List.nil_append, members?,
    htext, skip_cons (show isSpace ':' = false by decide), skip_spaces hgap,
    hwriting.skip_append, hvalue, skip_cons (show isSpace ',' = false by decide),
    Option.bind_eq_bind, Option.bind_some]
  cases members? fuel (skip more) <;> rfl

/-- A member is read, then, before a closing bracket, no more. -/
theorem members?_last (hgap : AreSpaces gap) (hafter : AreSpaces after) (name : String)
    (hwriting : Writing v cs) (hread : IsRead v cs) (hfuel : cs.length ≤ fuel) :
  members? (fuel + 1) (memberChars gap name cs ++ (after ++ '\x7d' :: rest))
    = some ([(some name, v)], rest)
  := by
  have htext := stringText?_quote name (':' :: (gap ++ (cs ++ (after ++ '\x7d' :: rest))))
  have hvalue := hread fuel (after ++ '\x7d' :: rest) hfuel (hafter.numberEnds (.cons (by decide)))
  simp only [memberChars, quote, List.cons_append, List.append_assoc, List.nil_append, members?,
    htext, skip_cons (show isSpace ':' = false by decide), skip_spaces hgap,
    hwriting.skip_append, hvalue, skip_to hafter (show isSpace '\x7d' = false by decide),
    Option.bind_eq_bind, Option.bind_some]

theorem members?_read (rest : List Char) (hbefore : AreSpaces before) (hgap : AreSpaces gap)
    (hafter : AreSpaces after)
    {m : String × Json × List Char} {ms : List (String × Json × List Char)}
    (hwriting : ∀ x ∈ m :: ms, Writing x.2.1 x.2.2) (hread : ∀ x ∈ m :: ms, IsRead x.2.1 x.2.2)
    (hfuel : (memberChars gap m.1 m.2.2
      ++ further before (ms.map fun m => memberChars gap m.1 m.2.2)).length < fuel) :
  members? fuel (memberChars gap m.1 m.2.2
      ++ (further before (ms.map fun m => memberChars gap m.1 m.2.2) ++ (after ++ '\x7d' :: rest)))
    = some ((m :: ms).map fun m => (some m.1, m.2.1), rest)
  := by
  induction ms generalizing m fuel with
  | nil =>
    obtain _ | fuel := fuel
    · contradiction
    simp only [memberChars, List.length_append, List.length_cons] at hfuel
    simp only [List.map_nil, further, List.flatMap_nil, List.nil_append]
    rw [members?_last hgap hafter m.1 (hwriting m List.mem_cons_self)
      (hread m List.mem_cons_self) (by omega)]
    rfl
  | cons m' ms ih =>
    obtain _ | fuel := fuel
    · contradiction
    obtain ⟨hfirst, hwriting⟩ := List.forall_mem_cons.mp hwriting
    obtain ⟨hvalue, hread⟩ := List.forall_mem_cons.mp hread
    rw [List.map_cons, further_cons] at hfuel ⊢
    simp only [List.length_append, List.length_cons] at hfuel
    have hmore := ih hwriting hread (show _ < fuel by rw [List.length_append]; omega)
    have hlength : m.2.2.length ≤ (memberChars gap m.1 m.2.2).length := by
      simp only [memberChars, List.length_append, List.length_cons]
      omega
    rw [List.cons_append, members?_more hgap m.1 hfirst hvalue (by omega)]
    simp only [List.append_assoc, skip_spaces hbefore, skip_memberChars, hmore, Option.map_some,
      List.map_cons]

theorem value?_number {c : Char} (h : c = '-' ∨ c.isDigit = true) :
  value? (fuel + 1) (c :: cs) = (number? (c :: cs)).map fun (n, rest) => (.number n, rest)
  := by
  obtain rfl | hdigit := h
  · rfl
  · rw [value?]
    · rintro ⟨⟩
    all_goals
      rintro _ ⟨⟩
      cases hdigit

theorem value?_elements {c : Char} {tail : List Char} (hskip : skip cs = c :: tail) (hc : c ≠ ']') :
  value? (fuel + 1) ('[' :: cs)
    = (elements? fuel (c :: tail)).map fun (vs, rest) => (.array vs, rest)
  := by
  rw [value?]
  simp only [hskip]
  split
  next h =>
    cases h
    contradiction
  next => rfl

theorem value?_members (fuel : Nat) {c : Char} {tail : List Char} (hskip : skip cs = c :: tail)
    (hc : c ≠ '\x7d') :
  value? (fuel + 1) ('\x7b' :: cs)
    = (members? fuel (c :: tail)).map fun (ms, rest) => (.object ms, rest)
  := by
  rw [value?]
  simp only [hskip]
  split
  next h =>
    cases h
    contradiction
  next => rfl

theorem IsRead.array (hbefore : AreSpaces before) (hafter : AreSpaces after)
    {elements : List (Json × List Char)} (hwriting : ∀ e ∈ elements, Writing e.1 e.2)
    (hread : ∀ e ∈ elements, IsRead e.1 e.2) :
  IsRead (.array (elements.map (·.1)))
    ('[' :: separated before (elements.map (·.2)) ++ after ++ [']'])
  := by
  intro fuel rest hfuel _
  obtain _ | fuel := fuel
  · contradiction
  simp only [List.cons_append, List.append_assoc, List.nil_append, List.length_cons,
    List.length_append] at hfuel ⊢
  cases elements with
  | nil =>
    have hskip : skip (after ++ ']' :: rest) = ']' :: rest := skip_to hafter (by decide)
    simp only [List.map_nil, separated, List.nil_append, value?, hskip]
  | cons e es =>
    simp only [List.map_cons, separated, List.append_assoc, List.length_append] at hfuel ⊢
    have helements := elements?_read rest hbefore hafter hwriting hread
      (show _ < fuel by rw [List.length_append]; omega)
    have hfirst := (hwriting e List.mem_cons_self).skip_append
      (further before (es.map (·.2)) ++ (after ++ ']' :: rest))
    obtain ⟨c, tail, hc, -, hbracket⟩ := (hwriting e List.mem_cons_self).exists_cons
    rw [hc, List.cons_append] at helements hfirst ⊢
    rw [value?_elements ((skip_spaces hbefore).trans hfirst) hbracket, helements]
    rfl

theorem IsRead.object (hbefore : AreSpaces before) (hgap : AreSpaces gap)
    (hafter : AreSpaces after) {members : List (String × Json × List Char)}
    (hwriting : ∀ m ∈ members, Writing m.2.1 m.2.2)
    (hread : ∀ m ∈ members, IsRead m.2.1 m.2.2) :
  IsRead (.record (members.map fun m => (m.1, m.2.1)))
    ('\x7b' :: separated before (members.map fun m => memberChars gap m.1 m.2.2) ++ after
      ++ ['\x7d'])
  := by
  intro fuel rest hfuel _
  obtain _ | fuel := fuel
  · contradiction
  simp only [List.cons_append, List.append_assoc, List.nil_append, List.length_cons,
    List.length_append] at hfuel ⊢
  cases members with
  | nil =>
    have hskip : skip (after ++ '\x7d' :: rest) = '\x7d' :: rest := skip_to hafter (by decide)
    simp only [List.map_nil, separated, List.nil_append, value?, hskip]
    rfl
  | cons m ms =>
    simp only [List.map_cons, separated, List.append_assoc, List.length_append] at hfuel ⊢
    have hmembers := members?_read rest hbefore hgap hafter hwriting hread
      (show _ < fuel by rw [List.length_append]; omega)
    have hfirst := skip_memberChars gap m.1 m.2.2
      (further before (ms.map fun m => memberChars gap m.1 m.2.2) ++ (after ++ '\x7d' :: rest))
    have hvalue := value?_members fuel ((skip_spaces hbefore).trans hfirst) (by decide)
    rw [hvalue]
    refine (congrArg _ hmembers).trans ?_
    simp [record, Function.comp_def]

/-- Every writing is read.  Each part of it takes a character, so that as much fuel as there are
characters is enough. -/
theorem Writing.isRead (h : Writing v cs) : IsRead v cs := by
  induction h with
  | null =>
    intro fuel rest hfuel _
    obtain _ | fuel := fuel
    · contradiction
    rfl
  | bool b =>
    intro fuel rest hfuel _
    obtain _ | fuel := fuel
    · cases b <;> contradiction
    cases b <;> rfl
  | integer n =>
    intro fuel rest hfuel hrest
    obtain ⟨c, tail, hc, hhead⟩ := exists_toList_toString n
    have hread := number?_integer n hrest
    rw [hc] at hfuel hread ⊢
    obtain _ | fuel := fuel
    · contradiction
    rw [List.cons_append] at hread ⊢
    rw [value?_number hhead, hread]
    rfl
  | string s =>
    intro fuel rest hfuel _
    obtain _ | fuel := fuel
    · contradiction
    rw [quote, List.cons_append, List.cons_append, List.append_assoc, List.singleton_append]
    simp only [value?, stringText?_quote, Option.bind_eq_bind, Option.bind_some]
  | array elements hbefore hafter hwriting ih => exact .array hbefore hafter hwriting ih
  | object members hbefore hgap hafter hwriting ih => exact .object hbefore hgap hafter hwriting ih

/-- The text of a writing stands for the value that it writes. -/
theorem Writing.parse?_ofList (h : Writing v cs) : parse? (String.ofList cs) = some v := by
  have hread := h.isRead (cs.length + 1) [] (by omega) (by rintro _ ⟨⟩)
  have hskip := h.skip_append []
  rw [List.append_nil] at hread hskip
  simp only [parse?, parseChars?, String.toList_ofList, hskip, hread, Option.bind_eq_bind,
    Option.bind_some]
  rfl

end SafetyHub.Json
