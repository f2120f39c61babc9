import SafetyHub.Json.Printer
import SafetyHub.Json.Reader
import SafetyHub.Proofs.Text.Digits

/-!
# Literals and numbers that are written and read

The literal of any text is read as that text, `stringText?_quote`, and the digits of any integer as
that integer, `number?_integer`, each up to where it ends: a literal at its closing quote, a number
at the first character that could not belong to it.
-/

namespace SafetyHub.Json

open Text

variable {c e h₁ h₂ h₃ h₄ : Char} {n : Nat} {rest : List Char}

/-! ### Parts of a literal -/

theorem hex4?_hexDigit {a b : Nat} (ha : a < 16) (hb : b < 16) :
  hex4? '0' '0' (hexDigit a) (hexDigit b) = some (a * 16 + b)
  := by
  have hzero : digit? '0' = some 0 := by decide
  simp [hex4?, isDigitIn, ofDigits, digit?_hexDigit, hzero, ha, hb]

theorem literal?_unit (h : hex4? h₁ h₂ h₃ h₄ = some n) :
  literal? ('\\' :: 'u' :: h₁ :: h₂ :: h₃ :: h₄ :: rest)
    = (literal? rest).map fun (pieces, rest) => (.unit n :: pieces, rest)
  := by
  rw [literal?, h]
  cases literal? rest <;> rfl

theorem literal?_letter (h : escaped? c = some e) :
  literal? ('\\' :: c :: rest)
    = (literal? rest).map fun (pieces, rest) => (.char e :: pieces, rest)
  := by
  have hletter : c ≠ 'u' := by
    rintro rfl
    cases h
  rw [literal?, h]
  · cases literal? rest <;> rfl
  · intro _ _ _ _ _ hu
    cases hu
    contradiction

theorem literal?_plain (hquote : c ≠ '"') (hslash : c ≠ '\\') (hplain : 0x20 ≤ c.toNat) :
  literal? (c :: rest) = (literal? rest).map fun (pieces, rest) => (.char c :: pieces, rest)
  := by
  have hhere : (c == '\\' || decide (c.toNat < 0x20)) = false := by
    simp [hslash, hplain]
  rw [literal?, if_neg (by rw [hhere]; decide)]
  · cases literal? rest <;> rfl
  all_goals simp_all

theorem denote?_unit (h : n < 0xD800) (pieces : List Piece) :
  denote? (.unit n :: pieces) = (denote? pieces).map (Char.ofNat n :: ·)
  := by
  have hhigh : isHigh n = false := by
    simp only [isHigh, Bool.and_eq_false_iff, decide_eq_false_iff_not]
    omega
  have hlow : isLow n = false := by
    simp only [isLow, Bool.and_eq_false_iff, decide_eq_false_iff_not]
    omega
  rcases pieces with - | ⟨c | m, pieces⟩ <;> simp [denote?, hhigh, hlow]

/-- The escape of a character is read as one piece, which denotes the character whatever pieces
follow. -/
theorem literal?_escape (c : Char) :
  ∃ piece : Piece,
    (∀ rest, literal? (escape c ++ rest)
      = (literal? rest).map fun (pieces, rest) => (piece :: pieces, rest))
    ∧ ∀ pieces, denote? (piece :: pieces) = (denote? pieces).map (c :: ·)
  := by
  unfold escape
  split
  case h_8 hquote hslash _ _ _ _ _ =>
    split
    next hcontrol =>
      have hread := hex4?_hexDigit (a := c.toNat / 16) (b := c.toNat % 16) (by omega) (by omega)
      rw [Nat.div_add_mod' c.toNat 16] at hread
      refine ⟨.unit c.toNat, fun _ => literal?_unit hread, fun pieces => ?_⟩
      rw [denote?_unit (by omega), Char.ofNat_toNat]
    next hplain =>
      exact ⟨.char c, fun _ => literal?_plain hquote hslash (by omega), fun _ => rfl⟩
  all_goals exact ⟨.char _, fun _ => literal?_letter rfl, fun _ => rfl⟩

/-! ### Literals -/

theorem literal?_flatMap_escape (cs rest : List Char) :
  ∃ pieces, literal? (cs.flatMap escape ++ '"' :: rest) = some (pieces, rest)
    ∧ denote? pieces = some cs
  := by
  induction cs with
  | nil => exact ⟨[], rfl, rfl⟩
  | cons c cs ih =>
    obtain ⟨pieces, hread, hdenote⟩ := ih
    obtain ⟨piece, hone, hmeans⟩ := literal?_escape c
    refine ⟨piece :: pieces, ?_, ?_⟩
    · rw [List.flatMap_cons, List.append_assoc, hone, hread]
      rfl
    · rw [hmeans, hdenote]
      rfl

theorem stringText?_quote (s : String) (rest : List Char) :
  stringText? (s.toList.flatMap escape ++ '"' :: rest) = some (some s, rest)
  := by
  obtain ⟨pieces, hread, hdenote⟩ := literal?_flatMap_escape s.toList rest
  simp only [stringText?, hread, hdenote, Option.bind_eq_bind, Option.bind_some, Option.map_some,
    String.ofList_toList]

/-! ### Numbers -/

/-- The characters do not go on with a number. -/
def NumberEnds (cs : List Char) : Prop :=
  ∀ c ∈ cs.head?, c.isDigit = false ∧ c ≠ '.' ∧ c ≠ 'e' ∧ c ≠ 'E'

theorem NumberEnds.noDigit (h : NumberEnds rest) : NoDigit rest :=
  fun c hc => (h c hc).1

theorem NumberEnds.cons (h : c.isDigit = false ∧ c ≠ '.' ∧ c ≠ 'e' ∧ c ≠ 'E') :
  NumberEnds (c :: rest)
  := by
  intro c' hc'
  cases hc'
  exact h

theorem fraction?_of_ends (h : NumberEnds rest) : fraction? rest = some ([], rest) := by
  unfold fraction?
  split
  next => exact absurd rfl (h '.' rfl).2.1
  next => rfl

theorem exponent?_of_ends (h : NumberEnds rest) : exponent? rest = some ([], rest) := by
  cases rest with
  | nil => rfl
  | cons c cs =>
    obtain ⟨-, -, he, hE⟩ := h c rfl
    simp [exponent?, he, hE]

theorem digits?_toDigits (n : Nat) (h : NoDigit rest) :
  digits? (Nat.toDigits 10 n ++ rest) = some (Nat.toDigits 10 n, rest)
  := by
  simp only [digits?, takeWhile_digits (isDigit_toDigits n) h,
    dropWhile_digits (isDigit_toDigits n) h, List.isEmpty_iff, Nat.toDigits_ne_nil, if_false]

theorem integerDigits?_toDigits (n : Nat) (h : NoDigit rest) :
  integerDigits? (Nat.toDigits 10 n ++ rest) = some (Nat.toDigits 10 n, rest)
  := by
  by_cases hn : n = 0
  · -- a zero is read by itself
    have hdigit : rest.head?.any Char.isDigit = false := (Option.any_eq_false _ _).mpr h
    rw [hn, Nat.toDigits_zero, List.singleton_append, integerDigits?,
      if_neg (by rw [hdigit]; decide)]
  · rw [integerDigits?]
    · exact digits?_toDigits n h
    · intro cs hcs
      obtain ⟨c, tail, hc⟩ := List.exists_cons_of_ne_nil (Nat.toDigits_ne_nil (n := n) (b := 10))
      have hhead := head?_toDigits_ne_zero hn
      rw [hc, List.cons_append] at hcs
      cases hcs
      exact absurd (congrArg List.head? hc) hhead

theorem unsigned?_toDigits {sign : List Char} (h : NumberEnds rest) (hsign : sign = [] ∨ n ≠ 0) :
  unsigned? sign (Nat.toDigits 10 n ++ rest)
    = some (.integer (if sign.isEmpty then (n : Int) else -(n : Int)), rest)
  := by
  have hwhole : (!(n == 0 && !sign.isEmpty)) = true := by
    obtain rfl | hn := hsign
    · simp
    · simp [hn]
  simp only [unsigned?, integerDigits?_toDigits n h.noDigit, fraction?_of_ends h,
    exponent?_of_ends h, ofDigits_toDigits, List.isEmpty_nil, Bool.true_and, hwhole, if_true,
    Option.bind_eq_bind, Option.bind_some]

theorem toList_toString_of_nonneg {n : Int} (h : 0 ≤ n) :
  (toString n).toList = Nat.toDigits 10 n.toNat
  := by
  rw [Int.toString_eq_repr, Int.repr_eq_if, if_pos h, Nat.toList_repr]

theorem toList_toString_of_neg {n : Int} (h : n < 0) :
  (toString n).toList = '-' :: Nat.toDigits 10 (-n).toNat
  := by
  rw [Int.toString_eq_repr, Int.repr_eq_if, if_neg (by omega), String.toList_append,
    Nat.toList_repr]
  rfl

theorem exists_toList_toString (n : Int) :
  ∃ c tail, (toString n).toList = c :: tail ∧ (c = '-' ∨ c.isDigit = true)
  := by
  by_cases hneg : n < 0
  · exact ⟨'-', _, toList_toString_of_neg hneg, .inl rfl⟩
  · obtain ⟨c, tail, hc, hdigit⟩ :=
      exists_digit_cons (isDigit_toDigits n.toNat) Nat.toDigits_ne_nil
    exact ⟨c, tail, (toList_toString_of_nonneg (by omega)).trans hc, .inr hdigit⟩

/-- The digits of an integer, with a minus sign in front of a negative one, are read as it. -/
theorem number?_integer (n : Int) (h : NumberEnds rest) :
  number? ((toString n).toList ++ rest) = some (.integer n, rest)
  := by
  by_cases hneg : n < 0
  · have hback : -(((-n).toNat : Nat) : Int) = n := by omega
    rw [toList_toString_of_neg hneg]
    change unsigned? ['-'] (Nat.toDigits 10 (-n).toNat ++ rest) = some (.integer n, rest)
    rw [unsigned?_toDigits h (.inr (by omega))]
    simp only [List.isEmpty_cons, Bool.false_eq_true, if_false, hback]
  · have hback : ((n.toNat : Nat) : Int) = n := by omega
    rw [toList_toString_of_nonneg (by omega), number?]
    · rw [unsigned?_toDigits h (.inl rfl)]
      simp only [List.isEmpty_nil, if_true, hback]
    · -- no digit is a minus sign
      intro cs hcs
      obtain ⟨c, tail, hc, hdigit⟩ :=
        exists_digit_cons (isDigit_toDigits n.toNat) Nat.toDigits_ne_nil
      rw [hc, List.cons_append] at hcs
      cases hcs
      cases hdigit

end SafetyHub.Json
