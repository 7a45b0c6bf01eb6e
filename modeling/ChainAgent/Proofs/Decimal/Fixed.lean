import ChainAgent.Time.Span
import ChainAgent.Proofs.Decimal.Pointed

/-! Fixed-point amounts.

An amount in a small unit is printed in a larger one: the integer part, and after a decimal point
the fractional digits without trailing zeros (`plain_fixed`). A plain decimal has one value
(`Plain.unique`), so different amounts have different texts. -/
namespace ChainAgent.Decimal

open Json (digitsValue digitsValue_natDigits natDigits_isDigit natDigits_head_ne_zero)
open Time.Span (places)

/-- The digits of a value, with an optional decimal point and more digits that do not end in a
zero. -/
inductive Plain : List Char → ℚ → Prop
  | whole {whole : List Char} : (∀ c ∈ whole, c.isDigit = true) → whole ≠ [] →
      (whole.length = 1 ∨ whole.head? ≠ some '0') → Plain whole (digitsValue whole)
  | pointed {whole fraction : List Char} {v : ℚ} : Pointed whole fraction v →
      fraction.getLast? ≠ some '0' → Plain (whole ++ '.' :: fraction) v

/-- The value is that of all digits, divided by a power of ten. -/
theorem Plain.value_eq {text : List Char} {v : ℚ} (h : Plain text v) :
    v = digitsValue (text.filter Char.isDigit) / 10 ^ (text.dropWhile Char.isDigit).tail.length := by
  cases h with
  | whole hdigits _ _ =>
    rw [List.filter_eq_self.mpr hdigits, List.dropWhile_eq_nil_iff.mpr hdigits]
    simp
  | @pointed whole fraction _ hpointed _ =>
    rw [← hpointed.value, List.filter_append, List.filter_eq_self.mpr hpointed.wholeDigits,
      List.filter_cons_of_neg (by decide), List.filter_eq_self.mpr hpointed.fractionDigits,
      List.dropWhile_append_of_pos hpointed.wholeDigits, List.dropWhile_cons_of_neg (by decide),
      List.tail_cons]

theorem Plain.unique {text : List Char} {v v' : ℚ} (h : Plain text v) (h' : Plain text v') : v = v' :=
  h.value_eq.trans h'.value_eq.symm

/-! ### Places -/

/-- Digits are the digits without trailing zeros, and these zeros. -/
theorem exists_trimmed (ds : List Char) :
    ∃ zeros, ds = (ds.reverse.dropWhile (· == '0')).reverse ++ List.replicate zeros '0' := by
  refine ⟨(ds.reverse.takeWhile (· == '0')).length, ?_⟩
  have hzero : ∀ c ∈ ds.reverse.takeWhile (· == '0'), c = '0' := fun c hc =>
    beq_iff_eq.mp (List.mem_takeWhile_imp (p := (· == '0')) hc)
  have hzeros : ds.reverse.takeWhile (· == '0') =
      List.replicate (ds.reverse.takeWhile (· == '0')).length '0' :=
    List.eq_replicate_iff.mpr ⟨rfl, hzero⟩
  rw [← List.reverse_replicate, ← hzeros, ← List.reverse_append, List.takeWhile_append_dropWhile,
    List.reverse_reverse]

theorem getLast?_trimmed_ne (ds : List Char) :
    (ds.reverse.dropWhile (· == '0')).reverse.getLast? ≠ some '0' := by
  rw [List.getLast?_reverse]
  intro h
  have hnot := List.head?_dropWhile_not (· == '0') ds.reverse
  rw [h] at hnot
  cases hnot

/-- The fractional digits, and the trailing zeros that were removed. -/
theorem exists_places {width fraction : ℕ} (hwidth : 0 < width) (h : fraction < 10 ^ width) :
    ∃ zeros, (places width fraction).length + zeros = width ∧
      digitsValue (places width fraction) * 10 ^ zeros = fraction ∧
      (∀ c ∈ places width fraction, c.isDigit = true) ∧
      (places width fraction).getLast? ≠ some '0' := by
  have hlength : (natDigits fraction).length ≤ width :=
    (Nat.length_toDigits_le_iff (by decide) hwidth).mpr h
  obtain ⟨zeros, hpadded⟩ :=
    exists_trimmed (List.replicate (width - (natDigits fraction).length) '0' ++ natDigits fraction)
  rw [← places] at hpadded
  refine ⟨zeros, ?_, ?_, ?_, getLast?_trimmed_ne _⟩
  · have hsame := congrArg List.length hpadded
    simp only [List.length_append, List.length_replicate] at hsame
    omega
  · have hvalue := congrArg digitsValue hpadded
    rwa [digitsValue_append, digitsValue_append, digitsValue_zeros, digitsValue_zeros, zero_mul,
      zero_add, add_zero, digitsValue_natDigits, List.length_replicate, eq_comm] at hvalue
  · have hdigits : ∀ c ∈ List.replicate (width - (natDigits fraction).length) '0' ++ natDigits fraction,
        c.isDigit = true :=
      List.forall_mem_append.mpr ⟨isDigit_zeros _, natDigits_isDigit _⟩
    rw [hpadded] at hdigits
    exact (List.forall_mem_append.mp hdigits).1

/-- Only zero itself has a leading zero. -/
theorem natDigits_trimmed (n : ℕ) :
    (natDigits n).length = 1 ∨ (natDigits n).head? ≠ some '0' := by
  obtain rfl | hn := Nat.eq_zero_or_pos n
  · exact .inl rfl
  · exact .inr (natDigits_head_ne_zero hn)

/-- **An amount is printed as the plain decimal of its value.** -/
theorem plain_fixed {width : ℕ} (hwidth : 0 < width) (n : ℕ) :
    Plain (natDigits (n / 10 ^ width) ++ if (places width (n % 10 ^ width)).isEmpty then [] else
      '.' :: places width (n % 10 ^ width)) (n / 10 ^ width) := by
  obtain ⟨zeros, hlength, hvalue, hdigits, hlast⟩ :=
    exists_places hwidth (Nat.mod_lt n (Nat.pow_pos (by decide : 0 < 10)))
  have hamount : (n : ℚ) = 10 ^ width * (n / 10 ^ width : ℕ) + (n % 10 ^ width : ℕ) := by
    exact_mod_cast (Nat.div_add_mod n (10 ^ width)).symm
  rw [← hvalue] at hamount
  rw [hamount]
  generalize places width (n % 10 ^ width) = fraction at *
  generalize n / 10 ^ width = whole
  subst hlength
  by_cases hnone : fraction = []
  · subst hnone
    have hwhole := Plain.whole (natDigits_isDigit whole) Nat.toDigits_ne_nil (natDigits_trimmed whole)
    rw [digitsValue_natDigits] at hwhole
    simpa [digitsValue] using hwhole
  · rw [if_neg (by simpa using hnone)]
    refine .pointed ⟨natDigits_isDigit _, hdigits, Nat.toDigits_ne_nil, hnone, natDigits_trimmed _, ?_⟩ hlast
    rw [digitsValue_append, digitsValue_natDigits, div_eq_div_iff (by positivity) (by positivity)]
    push_cast
    ring

end ChainAgent.Decimal
