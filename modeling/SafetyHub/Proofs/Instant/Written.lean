import SafetyHub.Instant.Written
import SafetyHub.Proofs.Instant.Calendar
import SafetyHub.Proofs.Instant.Order
import SafetyHub.Proofs.Text.Digits
import Mathlib.Data.List.TakeWhile

/-!
# Written instants are read back

Whatever supported instant is written is read back, `read?_written`: in years of any length and
either sign, with a fraction of the second of any of the lengths in which it is written, and in the
leap second of a minute.  Each part of the written form is read up to where the next begins.

In the middle of a minute a leap second is written like the second after it, and so an instant in
it is read back as one in that second, `asWritten`.  What is read is always supported.
-/

namespace SafetyHub.Instant

open Text

variable {n width low high : Nat} {c : Char} {ds rest : List Char}

/-! ### Numbers -/

theorem number?_padded (hwidth : 0 < width) (hn : n < 10 ^ width) :
  number? width (padded width n ++ rest) = some (n, rest)
  := by
  have hdigits := takeWhile_digits (isDigit_padded width n) .nil
  rw [List.append_nil] at hdigits
  have htake : (padded width n ++ rest).take width = padded width n := by
    rw [List.take_append_of_le_length (by rw [length_padded]),
      List.take_of_length_le (by rw [length_padded])]
  have hdrop : (padded width n ++ rest).drop (padded width n).length = rest :=
    List.drop_left
  simp only [number?, htake, hdigits, hdrop, List.isEmpty_iff, padded_ne_nil hwidth, if_false,
    ofDigits_padded, Nat.mod_eq_of_lt hn]

theorem longNumber?_digits (hdigits : ∀ c ∈ ds, c.isDigit = true) (hne : ds ≠ [])
    (hrest : NoDigit rest) :
  longNumber? (ds ++ rest) = some (ofDigits 10 ds, rest)
  := by
  have hdrop : (ds ++ rest).drop ds.length = rest := List.drop_left
  simp only [longNumber?, number?, List.take_length, takeWhile_digits hdigits hrest, hdrop,
    List.isEmpty_iff, hne, if_false]

theorem longNumber?_zeros (k n : Nat) (hrest : NoDigit rest) :
  longNumber? (List.replicate k '0' ++ Nat.toDigits 10 n ++ rest) = some (n, rest)
  := by
  have hdigits : ∀ c ∈ List.replicate k '0' ++ Nat.toDigits 10 n, c.isDigit = true := by
    intro c hc
    obtain hc | hc := List.mem_append.mp hc
    · rw [List.eq_of_mem_replicate hc]
      rfl
    · apply isDigit_toDigits _ c hc
  have hne : List.replicate k '0' ++ Nat.toDigits 10 n ≠ [] :=
    List.append_ne_nil_of_right_ne_nil _ Nat.toDigits_ne_nil
  rw [longNumber?_digits hdigits hne hrest, ofDigits_replicate_zero, ofDigits_toDigits]

/-! ### The parts of the written form -/

theorem year?_of_isDigit (hc : c.isDigit = true) :
  year? (c :: rest) = (number? 4 (c :: rest)).map fun (n, rest) => ((n : Int), rest)
  := by
  rw [year?, dropBlanks_cons (isBlank_of_isDigit hc)]
  split
  next h =>
    cases h
    cases hc
  next h =>
    cases h
    cases hc
  next => rfl

theorem year?_yearChars (y : Int) (hrest : NoDigit rest) :
  year? (yearChars y ++ rest) = some (y, rest)
  := by
  unfold yearChars
  split
  next hfour =>
    have hread : number? 4 (padded 4 y.toNat ++ rest) = some (y.toNat, rest) :=
      number?_padded (by decide) (by omega)
    obtain ⟨c, cs, hcs, hc⟩ :=
      exists_digit_cons (isDigit_padded 4 y.toNat) (padded_ne_nil (by decide))
    rw [hcs, List.cons_append] at hread ⊢
    simp only [year?_of_isDigit hc, hread, Option.map_some, Int.toNat_of_nonneg hfour.1]
  next =>
    rw [Nat.toString_eq_repr, Nat.toList_repr]
    simp only [List.cons_append]
    split
    next hneg =>
      rw [year?, dropBlanks_cons (by decide)]
      simp only [longNumber?_zeros _ _ hrest, Option.map_some]
      congr 2
      omega
    next hpos =>
      rw [year?, dropBlanks_cons (by decide)]
      simp only [longNumber?_zeros _ _ hrest, Option.map_some]
      congr 2
      omega

theorem field?_padded (hn : n < 100) (hlow : low ≤ n) (hhigh : n ≤ high) :
  field? low high (padded 2 n ++ rest) = some (n, rest)
  := by
  have hread : number? 2 (padded 2 n ++ rest) = some (n, rest) := number?_padded (by decide) hn
  rw [field?, dropBlanks_digits (isDigit_padded 2 n) (padded_ne_nil Nat.two_pos), hread]
  simp [hlow, hhigh]

theorem separator?_cons (hc : isBlank c = false) : separator? c (c :: rest) = some rest := by
  rw [separator?, dropBlanks_cons hc]
  simp

theorem fraction?_digits (hdigits : ∀ c ∈ ds, c.isDigit = true) (hne : ds ≠ [])
    (hlength : ds.length ≤ 9) (hrest : NoDigit rest) :
  fraction? ('.' :: ds ++ rest) = some (ofDigits 10 ds * 10 ^ (9 - ds.length), rest)
  := by
  simp [fraction?, takeWhile_digits hdigits hrest, dropWhile_digits hdigits hrest, hne,
    List.take_of_length_le hlength]

theorem fraction?_fractionChars (hn : n < second) :
  fraction? (fractionChars n ++ ['Z']) = some (n, ['Z'])
  := by
  have hread (width : Nat) (hwidth : 0 < width) (hnine : width ≤ 9) (m : Nat) :
      fraction? ('.' :: padded width m ++ ['Z'])
        = some (m % 10 ^ width * 10 ^ (9 - width), ['Z']) := by
    rw [fraction?_digits (isDigit_padded width m) (padded_ne_nil hwidth) (by rwa [length_padded])
      (.cons rfl), ofDigits_padded, length_padded]
  unfold second at hn
  unfold fractionChars
  split
  next hzero =>
    rw [beq_iff_eq] at hzero
    rw [hzero]
    rfl
  next =>
    split
    next hthree =>
      rw [beq_iff_eq] at hthree
      rw [hread 3 (by decide) (by decide)]
      congr 2
      omega
    next =>
      split
      next hsix =>
        rw [beq_iff_eq] at hsix
        rw [hread 6 (by decide) (by decide)]
        congr 2
        omega
      next =>
        rw [hread 9 (by decide) (by decide)]
        congr 2
        omega

/-! ### Dates and times of day -/

theorem secondOfDay_bounds (t : Instant) : 0 ≤ t.secondOfDay ∧ t.secondOfDay < 86400 := by
  unfold secondOfDay
  omega

/-- A supported leap second is the second half of a minute's last second. -/
theorem IsSupported.leap_second_cases {t : Instant} (ht : t.IsSupported) :
  (t.nanos / second = 0 ∧ t.secondOfDay.toNat % 60 < 60)
    ∨ (t.nanos / second = 1 ∧ t.secondOfDay.toNat % 60 = 59)
  := by
  obtain ⟨-, -, hnanos⟩ := t.holds
  rw [IsSupported, isLeap_iff] at ht
  unfold second secondOfDay at *
  omega

theorem ofParts?_zero {seconds : Int} {nanos : Nat} (h : Holds seconds nanos) :
  (ofParts? seconds 0).isSome = true
  := by
  have hzero : Holds seconds 0 := ⟨h.1, h.2.1, by decide⟩
  rw [ofParts?, dif_pos hzero]
  rfl

/-- The date and the time of day of a supported instant give the instant. -/
theorem ofLocal?_parts {t : Instant} (ht : t.IsSupported) :
  ofLocal? (.ofDays (t.seconds / 86400)) (t.secondOfDay.toNat / 3600)
      (t.secondOfDay.toNat / 60 % 60) (t.secondOfDay.toNat % 60 + t.nanos / second)
      (t.nanos % second) 0
    = some t
  := by
  have hday := secondOfDay_bounds t
  have hseconds : t.seconds / 86400 * 86400 + t.secondOfDay = t.seconds := by
    unfold secondOfDay
    omega
  have hparts : t.seconds / 86400 * 86400
      + ((t.secondOfDay.toNat / 3600 * 3600 + t.secondOfDay.toNat / 60 % 60 * 60
        + t.secondOfDay.toNat % 60 : Nat) : Int) = t.seconds := by
    omega
  obtain ⟨begin, hbegin⟩ := Option.isSome_iff_exists.mp (ofParts?_zero t.holds)
  have hthis : ofParts? t.seconds t.nanos = some t := by
    rw [ofParts?, dif_pos t.holds]
  unfold ofLocal?
  rw [if_neg (by simp [Date.isValid_ofDays]), Date.toDays_ofDays]
  obtain ⟨hleap, hlt⟩ | ⟨hleap, hlast⟩ := ht.leap_second_cases
  · have hsec : (t.secondOfDay.toNat % 60 == 60) = false := by
      rw [beq_eq_false_iff_ne]
      omega
    have hnanos : t.nanos % second = t.nanos := by
      unfold second at *
      omega
    simp only [hleap, Nat.add_zero, hsec, Bool.false_eq_true, if_false, hparts, hbegin,
      Int.sub_zero, hnanos, hthis, Option.bind_eq_bind, Option.bind_some]
  · have hnanos : t.nanos % second + second = t.nanos := by
      unfold second at *
      omega
    rw [hlast] at hparts
    simp only [hleap, hlast, Nat.reduceAdd, beq_self_eq_true, if_true, hparts, hbegin,
      Int.sub_zero, hnanos, hthis, Option.bind_eq_bind, Option.bind_some]

/-! ### Instants -/

theorem readChars?_chars {t : Instant} (ht : t.IsSupported) : readChars? t.chars = some t := by
  have hday := secondOfDay_bounds t
  obtain ⟨hmonth₁, hmonth₂, hday₁, hday₂⟩ :=
    Date.isValid_iff.mp (Date.isValid_ofDays (t.seconds / 86400))
  have hdays := hday₂.trans (Date.daysIn_le _ _)
  have hsecond : t.secondOfDay.toNat % 60 + t.nanos / second ≤ 60 := by
    obtain h | h := ht.leap_second_cases <;> omega
  have hoffset : offset? (dropBlanks ['Z']) = some (0, []) := by decide
  have hdash : isBlank '-' = false := by decide
  have hcolon : isBlank ':' = false := by decide
  unfold chars
  simp only [List.append_assoc, List.cons_append]
  rw [readChars?]
  dsimp only [Option.bind_eq_bind]
  -- each part is read, and what follows it is left for the next
  rw [year?_yearChars _ (.cons (by decide)), Option.bind_some, separator?_cons hdash,
    Option.bind_some, field?_padded (by omega) hmonth₁ hmonth₂, Option.bind_some,
    separator?_cons hdash, Option.bind_some, field?_padded (by omega) hday₁ hdays,
    Option.bind_some, divider?, if_pos (by decide), Option.bind_some,
    field?_padded (by omega) (by omega) (by omega), Option.bind_some, separator?_cons hcolon,
    Option.bind_some,
    field?_padded (by omega) (by omega) (by omega), Option.bind_some, separator?_cons hcolon,
    Option.bind_some, field?_padded (by omega) (Nat.zero_le _) hsecond, Option.bind_some,
    fraction?_fractionChars (Nat.mod_lt _ (by decide)), Option.bind_some, hoffset,
    Option.bind_some]
  apply ofLocal?_parts ht

/-- Whatever supported instant is written is read back. -/
theorem read?_written {t : Instant} (ht : t.IsSupported) : read? t.written = some t := by
  rw [read?, written, String.toList_ofList]
  apply readChars?_chars ht

/-! ### Leap seconds in the middle of a minute -/

theorem lt_of_fraction? {cs : List Char} (h : fraction? cs = some (n, rest)) : n < second := by
  unfold fraction? at h
  split at h
  next digits =>
    simp only [Option.ite_none_left_eq_some, Option.some.injEq, Prod.mk.injEq] at h
    obtain ⟨-, rfl, -⟩ := h
    let nine := (digits.takeWhile Char.isDigit).take 9
    have hdigits : ∀ c ∈ nine, c.isDigit = true :=
      fun c hc => List.mem_takeWhile_imp (List.mem_of_mem_take hc)
    have hnine : nine.length ≤ 9 := List.length_take_le _ _
    calc ofDigits 10 nine * 10 ^ (9 - nine.length)
      _ < 10 ^ nine.length * 10 ^ (9 - nine.length) :=
        Nat.mul_lt_mul_of_pos_right (ofDigits_lt hdigits) (Nat.pow_pos (by decide))
      _ = second := by rw [← Nat.pow_add, Nat.add_sub_cancel' hnine, second]
  next =>
    cases h
    decide

theorem mod_of_offsetBody? {cs : List Char} (h : offsetBody? cs = some (n, rest)) : n % 60 = 0 := by
  unfold offsetBody? at h
  split at h
  next =>
    split at h
    next =>
      simp only [Option.ite_none_right_eq_some, Option.some.injEq, Prod.mk.injEq] at h
      obtain ⟨-, rfl, -⟩ := h
      omega
    next => cases h
  next => cases h

/-- An offset is a number of minutes. -/
theorem mod_of_offset? {cs : List Char} {offset : Int} (h : offset? cs = some (offset, rest)) :
  offset % 60 = 0
  := by
  have hlater {cs : List Char} {p : Int × List Char}
      (hp : (offsetBody? cs).map (fun (n, rest) => ((n : Int), rest)) = some p) :
      p.1 % 60 = 0 := by
    obtain ⟨⟨n, rest⟩, hn, rfl⟩ := Option.map_eq_some_iff.mp hp
    have := mod_of_offsetBody? hn
    dsimp only
    omega
  have hearlier {cs : List Char} {p : Int × List Char}
      (hp : (offsetBody? cs).map (fun (n, rest) => (-(n : Int), rest)) = some p) :
      p.1 % 60 = 0 := by
    obtain ⟨⟨n, rest⟩, hn, rfl⟩ := Option.map_eq_some_iff.mp hp
    have := mod_of_offsetBody? hn
    dsimp only
    omega
  have hshort {o : Option (Int × List Char)} (ho : ∀ p, o = some p → p.1 % 60 = 0)
      (h : (o.bind fun p => if -86400 < p.1 && p.1 < 86400 then some (p.1, p.2) else none)
        = some (offset, rest)) :
      offset % 60 = 0 := by
    obtain ⟨p, hp, h⟩ := Option.bind_eq_some_iff.mp h
    cases (Option.ite_none_right_eq_some.mp h).2
    exact ho p hp
  have hzero {cs : List Char} : ∀ p, some ((0 : Int), cs) = some p → p.1 % 60 = 0 := by
    rintro p ⟨⟩
    rfl
  unfold offset? at h
  split at h
  next => exact hshort hzero h
  next => exact hshort hzero h
  next => exact hshort (fun _ => hlater) h
  next => exact hshort (fun _ => hearlier) h
  next => exact hshort (fun _ => hearlier) h
  next =>
    split at h
    next => exact hshort hzero h
    next => cases h
  next => cases h

theorem isSupported_of_ofLocal? {date : Date} {hour minute sec nanos : Nat} {offset : Int}
    {t : Instant} (hnanos : nanos < second) (hoffset : offset % 60 = 0)
    (h : ofLocal? date hour minute sec nanos offset = some t) :
  t.IsSupported
  := by
  simp only [ofLocal?, Option.ite_none_left_eq_some, Option.bind_eq_bind,
    Option.bind_eq_some_iff] at h
  obtain ⟨-, -, -, h⟩ := h
  obtain ⟨hseconds, hparts⟩ := ofParts?_eq_some_iff.mp h
  rw [IsSupported, isLeap_iff, hseconds, hparts]
  intro hleap
  split at hleap <;> split <;> simp_all <;> omega

/-- Whatever instant is read is supported. -/
theorem isSupported_of_read? {s : String} {t : Instant} (h : read? s = some t) :
  t.IsSupported
  := by
  rw [read?, readChars?] at h
  dsimp only [Option.bind_eq_bind] at h
  -- the date and what follows it
  obtain ⟨⟨year, cs⟩, -, h⟩ := Option.bind_eq_some_iff.mp h
  obtain ⟨cs, -, h⟩ := Option.bind_eq_some_iff.mp h
  obtain ⟨⟨month, cs⟩, -, h⟩ := Option.bind_eq_some_iff.mp h
  obtain ⟨cs, -, h⟩ := Option.bind_eq_some_iff.mp h
  obtain ⟨⟨day, cs⟩, -, h⟩ := Option.bind_eq_some_iff.mp h
  obtain ⟨cs, -, h⟩ := Option.bind_eq_some_iff.mp h
  -- the time of day
  obtain ⟨⟨hour, cs⟩, -, h⟩ := Option.bind_eq_some_iff.mp h
  obtain ⟨cs, -, h⟩ := Option.bind_eq_some_iff.mp h
  obtain ⟨⟨minute, cs⟩, -, h⟩ := Option.bind_eq_some_iff.mp h
  obtain ⟨cs, -, h⟩ := Option.bind_eq_some_iff.mp h
  obtain ⟨⟨sec, cs⟩, -, h⟩ := Option.bind_eq_some_iff.mp h
  obtain ⟨⟨nanos, cs⟩, hnanos, h⟩ := Option.bind_eq_some_iff.mp h
  obtain ⟨⟨offset, cs⟩, hoffset, h⟩ := Option.bind_eq_some_iff.mp h
  have hlocal := (Option.ite_none_right_eq_some.mp h).2
  exact isSupported_of_ofLocal? (lt_of_fraction? hnanos) (mod_of_offset? hoffset) hlocal

end SafetyHub.Instant
