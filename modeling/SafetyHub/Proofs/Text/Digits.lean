import SafetyHub.Text.Blank
import SafetyHub.Text.Digits
import Mathlib.Algebra.GroupWithZero.Nat
import Mathlib.Data.List.Induction

/-!
# Digits that are written and read

The decimal digits of a number, with zeros in front of them or without, stand for that number; and
whoever reads digits up to the first character that is none finds all that were written.
-/

namespace SafetyHub.Text

variable {c : Char} {ds rest : List Char} {n width : Nat}

/-! ### One digit -/

theorem isDigit_iff : c.isDigit = true ↔ 48 ≤ c.toNat ∧ c.toNat ≤ 57 := by
  rw [Char.isDigit, Bool.and_eq_true, decide_eq_true_eq, decide_eq_true_eq]
  rfl

theorem digit?_of_isDigit (h : c.isDigit = true) : digit? c = some (c.toNat - 48) := by
  have hbounds := isDigit_iff.mp h
  have hrange : '0' ≤ c ∧ c ≤ '9' := hbounds
  rw [digit?, if_pos hrange]
  rfl

theorem isBlank_of_isDigit (h : c.isDigit = true) : isBlank c = false := by
  rw [isDigit_iff] at h
  simp only [isBlank, Bool.or_eq_false_iff, Bool.and_eq_false_iff, beq_eq_false_iff_ne,
    decide_eq_false_iff_not]
  omega

theorem exists_digit_cons (h : ∀ c ∈ ds, c.isDigit = true) (hne : ds ≠ []) :
  ∃ c cs, ds = c :: cs ∧ c.isDigit = true
  := by
  obtain ⟨c, cs, rfl⟩ := List.exists_cons_of_ne_nil hne
  exact ⟨c, cs, rfl, h c List.mem_cons_self⟩

theorem digit?_hexDigit : ∀ n < 16, digit? (hexDigit n) = some n := by decide

theorem isDigit_hexDigit : ∀ n < 10, (hexDigit n).isDigit = true := by decide

/-! ### Numbers in digits -/

theorem ofDigits_append (base : Nat) (ds rest : List Char) :
  ofDigits base (ds ++ rest)
    = rest.foldl (fun n c => n * base + (digit? c).getD 0) (ofDigits base ds)
  := List.foldl_append

/-- Decimal digits stand for the number that they stand for in the library. -/
theorem ofDigits_eq (h : ∀ c ∈ ds, c.isDigit = true) :
  ofDigits 10 ds = Nat.ofDigitChars 10 ds 0
  := by
  have hfold (start : Nat) :
      ds.foldl (fun n c => n * 10 + (digit? c).getD 0) start = Nat.ofDigitChars 10 ds start := by
    unfold Nat.ofDigitChars
    induction ds generalizing start with
    | nil => rfl
    | cons c rest ih =>
      obtain ⟨hc, hrest⟩ := List.forall_mem_cons.mp h
      rw [List.foldl_cons, List.foldl_cons, ih hrest, digit?_of_isDigit hc, Option.getD_some,
        Nat.mul_comm]
      rfl
  apply hfold

theorem isDigit_toDigits (n : Nat) : ∀ c ∈ Nat.toDigits 10 n, c.isDigit = true :=
  fun _ => Nat.isDigit_of_mem_toDigits (by decide) (by decide)

theorem ofDigits_toDigits (n : Nat) : ofDigits 10 (Nat.toDigits 10 n) = n := by
  rw [ofDigits_eq (isDigit_toDigits n), Nat.ofDigitChars_toDigits (by decide) (by decide)]

theorem ofDigits_lt (h : ∀ c ∈ ds, c.isDigit = true) : ofDigits 10 ds < 10 ^ ds.length := by
  induction ds using List.reverseRecOn with
  | nil => decide
  | append_singleton ds c ih =>
    obtain ⟨hds, hc⟩ := List.forall_mem_append.mp h
    have hlt := ih hds
    have hbounds := isDigit_iff.mp (hc c (List.mem_singleton_self c))
    rw [ofDigits_append, List.foldl_cons, List.foldl_nil,
      digit?_of_isDigit (hc c (List.mem_singleton_self c)), Option.getD_some, List.length_append,
      List.length_singleton, Nat.pow_succ]
    omega

/-- A number other than zero is written without zeros in front. -/
theorem head?_toDigits_ne_zero (hn : n ≠ 0) : (Nat.toDigits 10 n).head? ≠ some '0' := by
  induction n using Nat.strongRecOn with
  | ind n ih =>
    by_cases hlt : n < 10
    · rw [Nat.toDigits_of_lt_base hlt, List.head?_singleton]
      have hdigits : ∀ n < 10, n ≠ 0 → some n.digitChar ≠ some '0' := by decide
      apply hdigits n hlt hn
    · have hhead := ih (n / 10) (by omega) (by omega)
      obtain ⟨c, cs, hc⟩ := List.exists_cons_of_ne_nil (Nat.toDigits_ne_nil (n := n / 10) (b := 10))
      rw [Nat.toDigits_of_base_le (by decide) (by omega), hc]
      rw [hc] at hhead
      exact hhead

/-! ### Digits with zeros in front -/

theorem ofDigits_replicate_zero (k : Nat) (ds : List Char) :
  ofDigits 10 (List.replicate k '0' ++ ds) = ofDigits 10 ds
  := by
  induction k with
  | zero => rfl
  | succ k ih => exact ih

theorem isDigit_padded (width n : Nat) : ∀ c ∈ padded width n, c.isDigit = true := by
  induction width generalizing n with
  | zero => simp [padded]
  | succ width ih =>
    intro c hc
    rw [padded, List.mem_append, List.mem_singleton] at hc
    obtain hc | rfl := hc
    · apply ih _ c hc
    · apply isDigit_hexDigit _ (Nat.mod_lt n (by decide))

@[simp]
theorem length_padded (width n : Nat) : (padded width n).length = width := by
  induction width generalizing n with
  | zero => rfl
  | succ width ih => rw [padded, List.length_append, ih, List.length_singleton]

theorem ofDigits_padded (width n : Nat) : ofDigits 10 (padded width n) = n % 10 ^ width := by
  induction width generalizing n with
  | zero => rw [Nat.pow_zero, Nat.mod_one]; rfl
  | succ width ih =>
    rw [padded, ofDigits_append, ih, List.foldl_cons, List.foldl_nil,
      digit?_hexDigit _ (by omega), Option.getD_some, Nat.pow_succ', Nat.mod_mul]
    omega

theorem padded_ne_nil (h : 0 < width) : padded width n ≠ [] := by
  rw [← List.length_pos_iff, length_padded]
  exact h

/-! ### Where digits end -/

/-- The characters do not begin with a digit. -/
def NoDigit (cs : List Char) : Prop :=
  ∀ c ∈ cs.head?, c.isDigit = false

theorem NoDigit.nil : NoDigit [] := by
  intro c hc
  cases hc

theorem NoDigit.cons (h : c.isDigit = false) : NoDigit (c :: rest) := by
  intro c' hc'
  cases hc'
  exact h

theorem takeWhile_digits (h : ∀ c ∈ ds, c.isDigit = true) (hrest : NoDigit rest) :
  (ds ++ rest).takeWhile Char.isDigit = ds
  := by
  rw [List.takeWhile_append_of_pos h]
  cases rest with
  | nil => rw [List.takeWhile_nil, List.append_nil]
  | cons c cs => rw [List.takeWhile_cons_of_neg (by rw [hrest c rfl]; decide), List.append_nil]

theorem dropWhile_digits (h : ∀ c ∈ ds, c.isDigit = true) (hrest : NoDigit rest) :
  (ds ++ rest).dropWhile Char.isDigit = rest
  := by
  rw [List.dropWhile_append_of_pos h]
  cases rest with
  | nil => rfl
  | cons c cs => rw [List.dropWhile_cons_of_neg (by rw [hrest c rfl]; decide)]

theorem dropBlanks_cons (h : isBlank c = false) : dropBlanks (c :: rest) = c :: rest :=
  List.dropWhile_cons_of_neg (by rw [h]; decide)

/-- Digits have no blanks in front. -/
theorem dropBlanks_digits (h : ∀ c ∈ ds, c.isDigit = true) (hne : ds ≠ []) :
  dropBlanks (ds ++ rest) = ds ++ rest
  := by
  obtain ⟨c, cs, rfl, hc⟩ := exists_digit_cons h hne
  apply dropBlanks_cons (isBlank_of_isDigit hc)

end SafetyHub.Text
