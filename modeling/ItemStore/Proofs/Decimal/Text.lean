import ItemStore.Decimal.Text
import Mathlib.Tactic.Common

/-! Reading back the text of a decimal.

A run of digits is read up to the first character that is none, and its worth is that of the
number whose digits they are: zeros in front change nothing, and a point among the digits only
moves the exponent. `read?_text` puts sign, digits and exponent together: the text of a finite
decimal is read as that decimal, with the same coefficient and the same exponent. -/
namespace ItemStore.Decimal

open ItemStore.Text

/-! ### Digits -/

/-- What a digit from `0` to `9` is worth. -/
def worth (c : Char) : Nat := c.toNat - '0'.toNat

/-- Nothing but digits from `0` to `9`. -/
def AllDigits (cs : List Char) : Prop := ∀ c ∈ cs, c.isDigit = true

/-- The text does not go on with a digit. -/
def EndsDigits (rest : List Char) : Prop := ∀ c ∈ rest.head?, digitValue? c = none

theorem toNat_of_isDigit {c : Char} (h : c.isDigit = true) : 48 ≤ c.toNat ∧ c.toNat ≤ 57 := by
  rw [Char.isDigit, Bool.and_eq_true, decide_eq_true_eq, decide_eq_true_eq] at h
  exact ⟨UInt32.le_iff_toNat_le.mp h.1, UInt32.le_iff_toNat_le.mp h.2⟩

theorem digitValue?_of_isDigit {c : Char} (h : c.isDigit = true) :
    digitValue? c = some (worth c) := by
  obtain ⟨hlow, hhigh⟩ := toNat_of_isDigit h
  have hfirst : (decide (48 ≤ c.toNat) && decide (c.toNat < 48 + 10)) = true := by
    simp only [Bool.and_eq_true, decide_eq_true_eq]
    omega
  rw [digitValue?, digitZeros, List.find?_cons, hfirst]
  rfl

/-- A run of digits is read as a whole. -/
theorem spanDigits_append {cs rest : List Char} (hcs : AllDigits cs) (hrest : EndsDigits rest) :
    spanDigits (cs ++ rest) = (cs.map worth, rest) := by
  induction cs with
  | nil =>
    cases rest with
    | nil => rfl
    | cons c rest =>
      rw [List.nil_append, spanDigits, hrest c rfl]
      rfl
  | cons c cs ih =>
    have hc := digitValue?_of_isDigit (hcs c (List.mem_cons_self ..))
    rw [List.cons_append, spanDigits, hc, ih fun d hd => hcs d (List.mem_cons_of_mem _ hd)]
    rfl

theorem endsDigits_nil : EndsDigits [] := by
  intro c hc
  cases hc

theorem spanDigits_all {cs : List Char} (hcs : AllDigits cs) :
    spanDigits cs = (cs.map worth, []) := by
  have h := spanDigits_append hcs endsDigits_nil
  rwa [List.append_nil] at h

theorem numeralValue_map (cs : List Char) :
    numeralValue (cs.map worth) = Nat.ofDigitChars 10 cs 0 := by
  rw [numeralValue, List.foldl_map]
  rfl

theorem allDigits_digits (n : Nat) : AllDigits (digits n) := fun _ hc =>
  Nat.isDigit_of_mem_toDigits (by decide) (by decide) hc

theorem digits_ne_nil (n : Nat) : digits n ≠ [] := Nat.toDigits_ne_nil

theorem allDigits_zeros (k : Nat) : AllDigits (List.replicate k '0') := by
  intro c hc
  rw [List.eq_of_mem_replicate hc]
  rfl

theorem AllDigits.append {cs ds : List Char} (hcs : AllDigits cs) (hds : AllDigits ds) :
    AllDigits (cs ++ ds) := fun c hc =>
  (List.mem_append.mp hc).elim (hcs c) (hds c)

/-- Zeros in front of a number change nothing. -/
theorem value_padded (k n : Nat) :
    Nat.ofDigitChars 10 (List.replicate k '0' ++ digits n) 0 = n := by
  rw [Nat.ofDigitChars_append, Nat.ofDigitChars_replicate_zero, Nat.mul_zero, digits,
    Nat.ofDigitChars_ten_toDigits]

theorem value_digits (n : Nat) : Nat.ofDigitChars 10 (digits n) 0 = n :=
  Nat.ofDigitChars_ten_toDigits

/-! ### The parts of a numeral -/

theorem readSign_digit {c : Char} (hc : c.isDigit = true) (negative : Bool) (cs : List Char) :
    readSign (signText negative ++ c :: cs) = (negative, c :: cs) := by
  cases negative with
  | true => rfl
  | false =>
    rw [signText, if_neg (by decide), List.nil_append, readSign]
    · intro ds h
      cases h
      cases hc
    · intro ds h
      cases h
      cases hc

/-- A mark, the sign of the exponent and its digits, zeros in front included. -/
theorem readExponent?_exponentText {mark : Char} (hmark : mark.toLower = 'e') (width : Nat)
    (e : Int) : readExponent? (mark :: exponentText width e) = some e := by
  have hspan := spanDigits_all ((allDigits_zeros (width - (digits e.natAbs).length)).append
    (allDigits_digits e.natAbs))
  have hvalue := value_padded (width - (digits e.natAbs).length) e.natAbs
  rw [← numeralValue_map] at hvalue
  obtain ⟨d, ds, hds⟩ : ∃ d ds, ((List.replicate (width - (digits e.natAbs).length) '0' ++
      digits e.natAbs).map worth) = d :: ds := by
    refine List.exists_cons_of_ne_nil fun h => digits_ne_nil e.natAbs ?_
    exact (List.append_eq_nil_iff.mp (List.map_eq_nil_iff.mp h)).2
  rw [hds] at hspan hvalue
  rw [readExponent?, if_pos hmark, exponentText]
  by_cases he : e < 0
  · simp only [if_pos he, readSign, hspan, hvalue]
    simp only [if_true, Option.some.injEq]
    omega
  · simp only [if_neg he, readSign, hspan, hvalue]
    simp only [Bool.false_eq_true, if_false, Option.some.injEq]
    omega

variable {whole fraction rest : List Char} {e : Int}

/-- A numeral without a point. -/
theorem readFinite?_whole (negative : Bool) (hwhole : AllDigits whole) (hne : whole ≠ [])
    (hends : EndsDigits rest) (hpoint : rest.head? ≠ some '.')
    (he : readExponent? rest = some e) :
    readFinite? negative (whole ++ rest) =
      some (.finite negative (Nat.ofDigitChars 10 whole 0) e) := by
  have hnonempty : (whole.map worth).isEmpty = false := by simpa using hne
  simp only [readFinite?, spanDigits_append hwhole hends]
  split
  · exact absurd rfl hpoint
  · simp only [hnonempty, he, List.append_nil, numeralValue_map]
    simp

/-- A numeral with a point behind its whole part. -/
theorem readFinite?_point (negative : Bool) (hwhole : AllDigits whole) (hne : whole ≠ [])
    (hfraction : AllDigits fraction) (hends : EndsDigits rest)
    (he : readExponent? rest = some e) :
    readFinite? negative (whole ++ '.' :: (fraction ++ rest)) =
      some (.finite negative (Nat.ofDigitChars 10 (whole ++ fraction) 0)
        (e - fraction.length)) := by
  have hnonempty : (whole.map worth).isEmpty = false := by simpa using hne
  have hpoint : EndsDigits ('.' :: (fraction ++ rest)) := by
    intro c hc
    cases hc
    decide +kernel
  simp only [readFinite?, spanDigits_append hwhole hpoint, spanDigits_append hfraction hends,
    hnonempty, he, ← List.map_append, numeralValue_map]
  simp

/-! ### The text of a finite decimal -/

theorem toLower_digit {c : Char} (h : c.isDigit = true) : c.toLower = c := by
  refine dif_neg fun hupper => ?_
  have hA : 65 ≤ c.toNat := UInt32.le_iff_toNat_le.mp hupper.1
  have := (toNat_of_isDigit h).2
  omega

/-- A text that begins with a digit behind its sign is no word. -/
theorem readChars?_digits (negative : Bool) (hwhole : AllDigits whole) (hne : whole ≠ []) :
    readChars? (signText negative ++ (whole ++ rest)) = readFinite? negative (whole ++ rest) := by
  obtain ⟨c, cs, rfl⟩ := List.exists_cons_of_ne_nil hne
  have hc := hwhole c (List.mem_cons_self ..)
  have hword : ∀ {d : Char} {ds es : List Char}, d.isDigit = false → c :: ds ≠ d :: es := by
    intro d ds es hd h
    rw [(List.cons.inj h).1, hd] at hc
    cases hc
  rw [List.cons_append, readChars?, readSign_digit hc]
  simp only [List.map_cons, toLower_digit hc]
  split
  · exact absurd ‹_› (hword (by decide))
  · exact absurd ‹_› (hword (by decide))
  · exact absurd ‹_› (hword (by decide))
  · exact absurd ‹_› (hword (by decide))
  · rfl

/-- What stands in front of the point, and what behind it. -/
theorem plain_eq (n : Nat) {places : Nat} (h : places ≠ 0) :
    ∃ whole fraction, plain (digits n) places = whole ++ '.' :: fraction ∧ AllDigits whole ∧
      whole ≠ [] ∧ AllDigits fraction ∧ fraction.length = places ∧
      Nat.ofDigitChars 10 (whole ++ fraction) 0 = n := by
  have hall := (allDigits_zeros (places + 1 - (digits n).length)).append (allDigits_digits n)
  have hvalue := value_padded (places + 1 - (digits n).length) n
  have hlength : places < (List.replicate (places + 1 - (digits n).length) '0' ++
      digits n).length := by
    rw [List.length_append, List.length_replicate]
    omega
  generalize hpadded : List.replicate (places + 1 - (digits n).length) '0' ++ digits n = padded
    at hall hvalue hlength
  refine ⟨padded.take (padded.length - places), padded.drop (padded.length - places), ?_,
    fun c hc => hall c (List.mem_of_mem_take hc), ?_,
    fun c hc => hall c (List.mem_of_mem_drop hc), ?_, ?_⟩
  · rw [plain, if_neg h, ← hpadded]
  · rw [← List.length_pos_iff, List.length_take]
    omega
  · rw [List.length_drop]
    omega
  · rw [List.take_append_drop, hvalue]

/-- A decimal written without an exponent. -/
theorem readChars?_plain (negative : Bool) (n places : Nat) :
    readChars? (signText negative ++ plain (digits n) places) =
      some (.finite negative n (-places)) := by
  by_cases h : places = 0
  · have hread := readFinite?_whole negative (allDigits_digits n) (digits_ne_nil n) endsDigits_nil
      (by decide) rfl
    rw [← readChars?_digits negative (allDigits_digits n) (digits_ne_nil n), List.append_nil]
      at hread
    rw [plain, if_pos h, hread, value_digits, h]
    rfl
  · obtain ⟨whole, fraction, htext, hwhole, hne, hfraction, hlength, hvalue⟩ := plain_eq n h
    have hread := readFinite?_point negative hwhole hne hfraction endsDigits_nil rfl
    rw [← readChars?_digits negative hwhole hne, List.append_nil] at hread
    rw [htext, hread, hvalue, hlength, Int.zero_sub]

/-- A mark in front of an exponent. -/
def IsMark (mark : Char) : Prop := mark = 'E' ∨ mark = 'e'

theorem IsMark.toLower {mark : Char} (h : IsMark mark) : mark.toLower = 'e' := by
  rcases h with rfl | rfl <;> rfl

theorem IsMark.endsDigits {mark : Char} (h : IsMark mark) (cs : List Char) :
    EndsDigits (mark :: cs) := by
  intro c hc
  cases hc
  rcases h with rfl | rfl <;> decide +kernel

/-- A decimal written with one digit in front of the point and an exponent. -/
theorem readChars?_scientific (negative : Bool) (n : Nat) (e : Int) {mark : Char}
    (hmark : IsMark mark) (width : Nat) :
    readChars? (signText negative ++
        (mantissa (digits n) ++ mark :: exponentText width (adjusted n e))) =
      some (.finite negative n e) := by
  have hexponent := readExponent?_exponentText hmark.toLower width (adjusted n e)
  have hends := hmark.endsDigits (exponentText width (adjusted n e))
  have hpoint : (mark :: exponentText width (adjusted n e)).head? ≠ some '.' := by
    rcases hmark with rfl | rfl <;> simp
  have hall := allDigits_digits n
  have hvalue := value_digits n
  have hadjusted : adjusted n e = e + ((digits n).length : Int) - 1 := rfl
  rcases hds : digits n with _ | ⟨d, _ | ⟨d', ds⟩⟩
  · exact absurd hds (digits_ne_nil n)
  · rw [hds] at hall hvalue hadjusted
    rw [mantissa, readChars?_digits negative hall (List.cons_ne_nil _ _),
      readFinite?_whole negative hall (List.cons_ne_nil _ _) hends hpoint hexponent, hvalue,
      hadjusted]
    · simp
    · intro _ _ _ h
      cases h
  · rw [hds] at hall hvalue hadjusted
    have hfirst : AllDigits [d] := fun c hc => hall c (List.mem_cons.mpr (.inl (by simpa using hc)))
    have hothers : AllDigits (d' :: ds) := fun c hc => hall c (List.mem_cons_of_mem _ hc)
    have hread := readFinite?_point negative hfirst (List.cons_ne_nil _ _) hothers hends hexponent
    rw [← readChars?_digits negative hfirst (List.cons_ne_nil _ _)] at hread
    rw [mantissa]
    refine Eq.trans hread ?_
    rw [List.singleton_append, hvalue, hadjusted]
    congr 2
    simp
    omega

/-- **Reading back.** The text of a finite decimal is read as that decimal: the same sign, the
same coefficient and the same exponent. -/
theorem read?_text (negative : Bool) (c : Nat) (e : Int) :
    read? (text (.finite negative c e)) = some (.finite negative c e) := by
  rw [read?, text, String.toList_ofList, chars]
  split
  · next h =>
    rw [readChars?_plain, Int.toNat_of_nonneg (by omega), Int.neg_neg]
  · exact readChars?_scientific negative c e (.inl rfl) 1

end ItemStore.Decimal
