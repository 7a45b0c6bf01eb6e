import ChainAgent.Json.Printer
import ChainAgent.Json.Reader
import ChainAgent.Proofs.Json.Strings
import Mathlib.Algebra.Group.Int.Defs
import Mathlib.Algebra.Group.Nat.Defs

/-! Parsing of numbers and words.

A number ends at the first character that could not be part of it. A number that ends before the end
of its text is parsed alike whatever is appended to that text (`readScalar_append`), and no number
and no word contains a bracket or a quote (`readScalar_taken`). A printed integer is parsed as that
integer, if the text after it could not be part of it (`readScalar_integer`). -/
namespace ChainAgent.Json

/-! ### Digits -/

theorem readDigits_taken {cs ds rest : List Char} (h : readDigits cs = some (ds, rest)) :
    cs = ds ++ rest ∧ ds ≠ [] ∧ ∀ c ∈ ds, c.isDigit = true := by
  simp only [readDigits] at h
  split at h
  · cases h
  · rename_i hne
    cases h
    exact ⟨List.takeWhile_append_dropWhile.symm, by simpa using hne,
      List.all_eq_true.mp List.all_takeWhile⟩

theorem readDigits_append {cs ds rest : List Char} (more : List Char)
    (h : readDigits cs = some (ds, rest)) (hr : rest ≠ []) :
    readDigits (cs ++ more) = some (ds, rest ++ more) := by
  simp only [readDigits] at h ⊢
  split at h
  · cases h
  · rename_i hne
    cases h
    have hlen : (cs.takeWhile Char.isDigit).length ≠ cs.length := by
      intro hlen
      have hcs := congrArg List.length (List.takeWhile_append_dropWhile (p := Char.isDigit) (l := cs))
      rw [List.length_append, hlen] at hcs
      exact hr (List.eq_nil_of_length_eq_zero (by omega))
    have hdrop : (cs.dropWhile Char.isDigit).isEmpty = false := by simpa using hr
    rw [List.takeWhile_append, if_neg hlen, List.dropWhile_append, hdrop]
    simp [hne]

/-- All digits before a character that is none are parsed. -/
theorem readDigits_digits {ds rest : List Char} (hne : ds ≠ []) (hd : ∀ c ∈ ds, c.isDigit = true)
    (hr : ∀ c ∈ rest.head?, c.isDigit = false) : readDigits (ds ++ rest) = some (ds, rest) := by
  have htake : (ds ++ rest).takeWhile Char.isDigit = ds := by
    rw [List.takeWhile_append_of_pos hd]
    cases rest with
    | nil => simp
    | cons c rest => simp [hr c rfl]
  have hdrop : (ds ++ rest).dropWhile Char.isDigit = rest := by
    rw [List.dropWhile_append_of_pos hd]
    cases rest with
    | nil => simp
    | cons c rest => simp [hr c rfl]
  simp [readDigits, htake, hdrop, hne]

/-! ### Fractions and exponents -/

/-- The characters of numbers. -/
def isNumberChar (c : Char) : Bool :=
  c.isDigit || c == '.' || c == 'e' || c == 'E' || c == '+' || c == '-'

theorem readDigits_numberChars {cs ds rest : List Char} (h : readDigits cs = some (ds, rest)) :
    ∃ taken, cs = taken ++ rest ∧ taken ≠ [] ∧ taken.all isNumberChar := by
  obtain ⟨hcs, hne, hd⟩ := readDigits_taken h
  exact ⟨ds, hcs, hne, List.all_eq_true.mpr fun c hc => by simp [isNumberChar, hd c hc]⟩

theorem readFraction_taken {cs rest : List Char} {fraction : Option (List Char)}
    (h : readFraction cs = some (fraction, rest)) :
    ∃ taken, cs = taken ++ rest ∧ taken.all isNumberChar := by
  unfold readFraction at h
  split at h
  · rename_i tail
    obtain ⟨⟨ds, rest'⟩, hds, heq⟩ := Option.map_eq_some_iff.mp h
    cases heq
    obtain ⟨taken, rfl, -, htaken⟩ := readDigits_numberChars hds
    exact ⟨'.' :: taken, rfl, by simpa [isNumberChar] using htaken⟩
  · cases h
    exact ⟨[], rfl, rfl⟩

theorem readFraction_append {cs rest : List Char} {fraction : Option (List Char)}
    (more : List Char) (h : readFraction cs = some (fraction, rest)) (hr : rest ≠ []) :
    readFraction (cs ++ more) = some (fraction, rest ++ more) := by
  unfold readFraction at h
  split at h
  · rename_i tail
    obtain ⟨⟨ds, rest'⟩, hds, heq⟩ := Option.map_eq_some_iff.mp h
    cases heq
    simp [readFraction, readDigits_append more hds hr]
  · rename_i hdot
    cases h
    obtain ⟨c, tail, rfl⟩ := List.exists_cons_of_ne_nil hr
    unfold readFraction
    split
    · rename_i heq
      cases heq
      exact absurd rfl (hdot _)
    · rfl

theorem readSigned_taken {cs rest : List Char} {e : Int} (h : readSigned cs = some (e, rest)) :
    ∃ taken, cs = taken ++ rest ∧ taken.all isNumberChar := by
  unfold readSigned at h
  split at h <;>
    (obtain ⟨⟨ds, rest'⟩, hds, heq⟩ := Option.map_eq_some_iff.mp h
     cases heq
     obtain ⟨taken, rfl, -, htaken⟩ := readDigits_numberChars hds)
  · exact ⟨'+' :: taken, rfl, by simpa [isNumberChar] using htaken⟩
  · exact ⟨'-' :: taken, rfl, by simpa [isNumberChar] using htaken⟩
  · exact ⟨taken, rfl, htaken⟩

theorem readSigned_append {cs rest : List Char} {e : Int} (more : List Char)
    (h : readSigned cs = some (e, rest)) (hr : rest ≠ []) :
    readSigned (cs ++ more) = some (e, rest ++ more) := by
  unfold readSigned at h
  split at h <;>
    (obtain ⟨⟨ds, rest'⟩, hds, heq⟩ := Option.map_eq_some_iff.mp h
     cases heq)
  · simp [readSigned, readDigits_append more hds hr]
  · simp [readSigned, readDigits_append more hds hr]
  · rename_i hplus hminus
    have hcs : cs ≠ [] := by
      rintro rfl
      simp [readDigits] at hds
    obtain ⟨c, tail, rfl⟩ := List.exists_cons_of_ne_nil hcs
    unfold readSigned
    split
    · rename_i heq
      cases heq
      exact absurd rfl (hplus _)
    · rename_i heq
      cases heq
      exact absurd rfl (hminus _)
    · rw [readDigits_append more hds hr]
      rfl

theorem readExponent_taken {cs rest : List Char} {e : Option Int}
    (h : readExponent cs = some (e, rest)) :
    ∃ taken, cs = taken ++ rest ∧ taken.all isNumberChar := by
  unfold readExponent at h
  split at h
  · obtain ⟨⟨e, rest'⟩, he, heq⟩ := Option.map_eq_some_iff.mp h
    cases heq
    obtain ⟨taken, rfl, htaken⟩ := readSigned_taken he
    exact ⟨'e' :: taken, rfl, by simpa [isNumberChar] using htaken⟩
  · obtain ⟨⟨e, rest'⟩, he, heq⟩ := Option.map_eq_some_iff.mp h
    cases heq
    obtain ⟨taken, rfl, htaken⟩ := readSigned_taken he
    exact ⟨'E' :: taken, rfl, by simpa [isNumberChar] using htaken⟩
  · cases h
    exact ⟨[], rfl, rfl⟩

theorem readExponent_append {cs rest : List Char} {e : Option Int} (more : List Char)
    (h : readExponent cs = some (e, rest)) (hr : rest ≠ []) :
    readExponent (cs ++ more) = some (e, rest ++ more) := by
  unfold readExponent at h
  split at h
  · obtain ⟨⟨e, rest'⟩, he, heq⟩ := Option.map_eq_some_iff.mp h
    cases heq
    simp [readExponent, readSigned_append more he hr]
  · obtain ⟨⟨e, rest'⟩, he, heq⟩ := Option.map_eq_some_iff.mp h
    cases heq
    simp [readExponent, readSigned_append more he hr]
  · rename_i hlow hup
    cases h
    obtain ⟨c, tail, rfl⟩ := List.exists_cons_of_ne_nil hr
    unfold readExponent
    split
    · rename_i heq
      cases heq
      exact absurd rfl (hlow _)
    · rename_i heq
      cases heq
      exact absurd rfl (hup _)
    · rfl

/-! ### Numbers -/

theorem readMagnitude_eq_some_iff {isNegative : Bool} {cs rest : List Char} {v : Option Numeral} :
    readMagnitude isNegative cs = some (v, rest) ↔
      ∃ whole fraction exponent behindWhole behindFraction,
        readDigits cs = some (whole, behindWhole) ∧
        (1 < whole.length && whole.head? == some '0') = false ∧
        readFraction behindWhole = some (fraction, behindFraction) ∧
        readExponent behindFraction = some (exponent, rest) ∧
        v = numeral isNegative whole fraction exponent := by
  constructor
  · intro h
    simp only [readMagnitude, Option.bind_eq_bind, Option.bind_eq_some_iff] at h
    obtain ⟨⟨whole, behindWhole⟩, hwhole, h⟩ := h
    split at h
    · cases h
    · rename_i hzero
      simp only [Option.bind_eq_some_iff] at h
      obtain ⟨⟨fraction, behindFraction⟩, hfraction, ⟨exponent, rest'⟩, hexponent, heq⟩ := h
      cases heq
      exact ⟨whole, fraction, exponent, behindWhole, behindFraction, hwhole,
        Bool.eq_false_iff.mpr hzero, hfraction, hexponent, rfl⟩
  · rintro ⟨whole, fraction, exponent, behindWhole, behindFraction, hwhole, hzero, hfraction,
      hexponent, rfl⟩
    simp only [readMagnitude, hwhole, Option.bind_eq_bind, Option.bind_some, hzero, hfraction,
      hexponent]
    rfl

theorem readMagnitude_taken {isNegative : Bool} {cs rest : List Char} {v : Option Numeral}
    (h : readMagnitude isNegative cs = some (v, rest)) :
    ∃ taken, cs = taken ++ rest ∧ taken ≠ [] ∧ taken.all isNumberChar := by
  obtain ⟨whole, fraction, exponent, _, _, hwhole, _, hfraction, hexponent, _⟩ :=
    readMagnitude_eq_some_iff.mp h
  obtain ⟨a, rfl, hne, ha⟩ := readDigits_numberChars hwhole
  obtain ⟨b, rfl, hb⟩ := readFraction_taken hfraction
  obtain ⟨c, rfl, hc⟩ := readExponent_taken hexponent
  exact ⟨a ++ (b ++ c), by simp, by simp [hne], by simp only [List.all_append, ha, hb, hc]; rfl⟩

theorem readMagnitude_append {isNegative : Bool} {cs rest : List Char} {v : Option Numeral}
    (more : List Char) (h : readMagnitude isNegative cs = some (v, rest)) (hr : rest ≠ []) :
    readMagnitude isNegative (cs ++ more) = some (v, rest ++ more) := by
  obtain ⟨whole, fraction, exponent, behindWhole, behindFraction, hwhole, hzero, hfraction,
    hexponent, hv⟩ := readMagnitude_eq_some_iff.mp h
  have hr₂ : behindFraction ≠ [] := by
    obtain ⟨c, rfl, _⟩ := readExponent_taken hexponent
    simp [hr]
  have hr₁ : behindWhole ≠ [] := by
    obtain ⟨b, rfl, _⟩ := readFraction_taken hfraction
    simp [hr₂]
  exact readMagnitude_eq_some_iff.mpr ⟨whole, fraction, exponent, behindWhole ++ more,
    behindFraction ++ more, readDigits_append more hwhole hr₁, hzero,
    readFraction_append more hfraction hr₂, readExponent_append more hexponent hr, hv⟩

theorem readNumber_taken {cs rest : List Char} {v : Option Numeral}
    (h : readNumber cs = some (v, rest)) :
    ∃ taken, cs = taken ++ rest ∧ taken ≠ [] ∧ taken.all isNumberChar := by
  unfold readNumber at h
  split at h
  · obtain ⟨taken, rfl, _, htaken⟩ := readMagnitude_taken h
    exact ⟨'-' :: taken, rfl, by simp, by simpa [isNumberChar] using htaken⟩
  · exact readMagnitude_taken h

theorem readNumber_append {cs rest : List Char} {v : Option Numeral} (more : List Char)
    (h : readNumber cs = some (v, rest)) (hr : rest ≠ []) :
    readNumber (cs ++ more) = some (v, rest ++ more) := by
  have hcs : cs ≠ [] := by
    obtain ⟨taken, rfl, hne, _⟩ := readNumber_taken h
    simp [hne]
  unfold readNumber at h
  split at h
  · exact readMagnitude_append more h hr
  · rename_i hminus
    obtain ⟨c, tail, rfl⟩ := List.exists_cons_of_ne_nil hcs
    unfold readNumber
    split
    · rename_i heq
      cases heq
      exact absurd rfl (hminus _)
    · exact readMagnitude_append more h hr

/-! ### Leaves other than strings -/

/-- The characters of numbers and words. -/
def isScalarChar (c : Char) : Bool := isNumberChar c || c.isLower

theorem readScalar_taken {cs rest : List Char} {n : Node} (h : readScalar cs = (n, some rest)) :
    ∃ taken, cs = taken ++ rest ∧ taken ≠ [] ∧ taken.all isScalarChar := by
  unfold readScalar at h
  split at h
  · cases h
    exact ⟨['n', 'u', 'l', 'l'], rfl, by decide, by decide⟩
  · cases h
    exact ⟨['t', 'r', 'u', 'e'], rfl, by decide, by decide⟩
  · cases h
    exact ⟨['f', 'a', 'l', 's', 'e'], rfl, by decide, by decide⟩
  · split at h
    · rename_i hnumber
      cases h
      obtain ⟨taken, rfl, hne, htaken⟩ := readNumber_taken hnumber
      refine ⟨taken, rfl, hne, List.all_eq_true.mpr fun c hc => ?_⟩
      simp [isScalarChar, List.all_eq_true.mp htaken c hc]
    · cases h

/-- What parses as a number does not parse as a word. -/
theorem readScalar_of_number {cs rest : List Char} {v : Option Numeral}
    (h : readNumber cs = some (v, rest)) : readScalar cs = (.number v, some rest) := by
  obtain ⟨taken, hcs, hne, htaken⟩ := readNumber_taken h
  obtain ⟨c, tail, rfl⟩ := List.exists_cons_of_ne_nil hne
  have hc : isNumberChar c = true := List.all_eq_true.mp htaken c (by simp)
  unfold readScalar
  split
  · rw [List.cons_append, List.cons.injEq] at hcs
    rw [← hcs.1] at hc
    exact absurd hc (by decide)
  · rw [List.cons_append, List.cons.injEq] at hcs
    rw [← hcs.1] at hc
    exact absurd hc (by decide)
  · rw [List.cons_append, List.cons.injEq] at hcs
    rw [← hcs.1] at hc
    exact absurd hc (by decide)
  · rw [h]

theorem readScalar_append {cs rest : List Char} {n : Node} (more : List Char)
    (h : readScalar cs = (n, some rest)) (hr : rest ≠ []) :
    readScalar (cs ++ more) = (n, some (rest ++ more)) := by
  unfold readScalar at h
  split at h
  · cases h
    rfl
  · cases h
    rfl
  · cases h
    rfl
  · split at h
    · rename_i hnumber
      cases h
      exact readScalar_of_number (readNumber_append more hnumber hr)
    · cases h

/-! ### Integers as they are written -/

/-- A 64-bit integer, signed or unsigned. -/
def IsWord (i : Int) : Prop := -2 ^ 63 ≤ i ∧ i < 2 ^ 63

/-- A text that could not continue a number. -/
def EndsNumber (rest : List Char) : Prop := ∀ c ∈ rest.head?, isNumberChar c = false

theorem digitsValue_natDigits (n : Nat) : digitsValue (Decimal.natDigits n) = n := by
  have hfold : digitsValue (Decimal.natDigits n) = Nat.ofDigitChars 10 (Nat.toDigits 10 n) 0 := by
    simp only [digitsValue, Decimal.natDigits, Nat.ofDigitChars_eq_foldl, Nat.mul_comm]
    rfl
  rw [hfold, Nat.ofDigitChars_ten_toDigits]

theorem natDigits_isDigit (n : Nat) : ∀ c ∈ Decimal.natDigits n, c.isDigit = true :=
  fun _ hc => Nat.isDigit_of_mem_toDigits (by decide) (by decide) hc

theorem natDigits_head_ne_zero {n : Nat} (hn : 0 < n) :
    (Decimal.natDigits n).head? ≠ some '0' := by
  have hdigit : ∀ d < 10, 0 < d → Nat.digitChar d ≠ '0' := by decide
  unfold Decimal.natDigits
  induction n using Nat.strongRecOn with
  | _ n ih =>
    by_cases h : n < 10
    · rw [Nat.toDigits_of_lt_base h]
      simpa using hdigit n h hn
    · have hdiv := ih (n / 10) (by omega) (by omega)
      obtain ⟨c, tail, hds⟩ := List.exists_cons_of_ne_nil (Nat.toDigits_ne_nil (n := n / 10) (b := 10))
      rw [Nat.toDigits_of_base_le (by decide) (by omega), hds]
      rw [hds] at hdiv
      simpa using hdiv

/-- Only zero itself begins with a zero. -/
theorem natDigits_zero_first (n : Nat) :
    (1 < (Decimal.natDigits n).length && (Decimal.natDigits n).head? == some '0') = false := by
  cases n with
  | zero => decide
  | succ n =>
    rw [Bool.and_eq_false_iff]
    exact .inr (beq_eq_false_iff_ne.mpr (natDigits_head_ne_zero (Nat.succ_pos n)))

theorem EndsNumber.readFraction {rest : List Char} (hr : EndsNumber rest) :
    readFraction rest = some (none, rest) := by
  unfold Json.readFraction
  split
  · exact absurd (hr '.' rfl) (by decide)
  · rfl

theorem EndsNumber.readExponent {rest : List Char} (hr : EndsNumber rest) :
    readExponent rest = some (none, rest) := by
  unfold Json.readExponent
  split
  · exact absurd (hr 'e' rfl) (by decide)
  · exact absurd (hr 'E' rfl) (by decide)
  · rfl

theorem readMagnitude_natDigits (isNegative : Bool) (n : Nat) {rest : List Char}
    (hr : EndsNumber rest) :
    readMagnitude isNegative (Decimal.natDigits n ++ rest) =
      some (integralNumeral isNegative n, rest) := by
  have hdigits : readDigits (Decimal.natDigits n ++ rest) = some (Decimal.natDigits n, rest) := by
    refine readDigits_digits Nat.toDigits_ne_nil (natDigits_isDigit n) fun c hc => ?_
    have := hr c hc
    simp only [isNumberChar, Bool.or_eq_false_iff] at this
    exact this.1.1.1.1.1
  refine readMagnitude_eq_some_iff.mpr ⟨_, _, _, _, _, hdigits, natDigits_zero_first n,
    hr.readFraction, hr.readExponent, ?_⟩
  simp only [numeral, digitsValue_natDigits]

theorem integralNumeral_natural {n : Nat} (hn : n < 2 ^ 63) :
    integralNumeral false n = some (.natural n) := by
  have : n < UInt64.size := Nat.lt_trans hn (by decide)
  simp [integralNumeral, this]

theorem integralNumeral_negative {n : Nat} (hpos : 0 < n) (hn : n ≤ 2 ^ 63) :
    integralNumeral true n = some (.negative n) := by
  have : n ≤ Decimal.integerBound := hn
  simp [integralNumeral, hpos, this]

theorem readScalar_integer {i : Int} {rest : List Char} (hi : IsWord i) (hr : EndsNumber rest) :
    readScalar ((Numeral.ofInt i).chars ++ rest) =
      (.number (some (Numeral.ofInt i)), some rest) := by
  obtain ⟨hlow, hhigh⟩ := hi
  apply readScalar_of_number
  cases i with
  | ofNat n =>
    have hn : n < 2 ^ 63 := by
      rw [Int.ofNat_eq_natCast] at hhigh
      omega
    obtain ⟨c, tail, hds⟩ := List.exists_cons_of_ne_nil (Nat.toDigits_ne_nil (n := n) (b := 10))
    have hc : c.isDigit = true := natDigits_isDigit n c (by simp [Decimal.natDigits, hds])
    have hread := readMagnitude_natDigits false n hr
    rw [integralNumeral_natural hn] at hread
    simp only [Numeral.ofInt, Numeral.chars, readNumber]
    split
    · rename_i heq
      rw [Decimal.natDigits, hds, List.cons_append, List.cons.injEq] at heq
      rw [heq.1] at hc
      exact absurd hc (by decide)
    · exact hread
  | negSucc n =>
    have hn : n + 1 ≤ 2 ^ 63 := by
      rw [Int.negSucc_eq] at hlow
      omega
    have hread := readMagnitude_natDigits true (n + 1) hr
    rw [integralNumeral_negative (Nat.succ_pos n) hn] at hread
    exact hread

end ChainAgent.Json
