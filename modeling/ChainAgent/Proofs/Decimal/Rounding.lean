import Mathlib

/-! Rounding to a floating-point number.

A value is truncated to the bits of a mantissa with guard and sticky bits (`Shows`). The result is
the number in whose rounding interval the value lies (`Near`), also where rounding carries the
mantissa into the next power of two (`roundWithAccuracy_near`). So the quotient of two numbers is
rounded to the nearest number (`div_near`). -/
namespace ChainAgent.Decimal

open Float.Model Float.Model.UnpackedFloat

/-! ### Natural numbers nearest to a value -/

/-- The natural number nearest to a value, and the even one in a tie. -/
structure RoundsTo (u : ℚ) (n : ℕ) : Prop where
  low : n - 1 / 2 ≤ u
  high : u ≤ n + 1 / 2
  even : u = n - 1 / 2 ∨ u = n + 1 / 2 → n % 2 = 0

theorem RoundsTo.le {u : ℚ} {m n : ℕ} (hm : RoundsTo u m) (hn : RoundsTo u n) : m ≤ n := by
  by_contra hlt
  have hnext : n + 1 ≤ m := by omega
  have hcast : (n : ℚ) + 1 ≤ m := by exact_mod_cast hnext
  have hlow := hm.low
  have hhigh := hn.high
  have hsame : m = n + 1 := by
    have : (m : ℚ) ≤ n + 1 := by linarith
    exact le_antisymm (by exact_mod_cast this) hnext
  have hmeven := hm.even (.inl (by linarith))
  have hneven := hn.even (.inr (by linarith))
  omega

theorem RoundsTo.unique {u : ℚ} {m n : ℕ} (hm : RoundsTo u m) (hn : RoundsTo u n) : m = n :=
  le_antisymm (hm.le hn) (hn.le hm)

/-! ### Mantissas with a rest -/

/-- An extended mantissa represents a value: the mantissa is its integer part, and guard and sticky
bit say where the rest lies. -/
inductive Shows : ExtendedMantissa → ℚ → Prop
  | exact (m : ℕ) : Shows ⟨m, false, false⟩ m
  | below {m : ℕ} {u : ℚ} : m < u → u < m + 1 / 2 → Shows ⟨m, false, true⟩ u
  | half (m : ℕ) : Shows ⟨m, true, false⟩ (m + 1 / 2)
  | above {m : ℕ} {u : ℚ} : m + 1 / 2 < u → u < m + 1 → Shows ⟨m, true, true⟩ u

theorem Shows.low {em : ExtendedMantissa} {u : ℚ} (h : Shows em u) : em.mantissa ≤ u := by
  cases h with
  | exact m => exact le_refl _
  | below hlow _ => exact hlow.le
  | half m => simp
  | above hlow _ => linarith

theorem Shows.high {em : ExtendedMantissa} {u : ℚ} (h : Shows em u) : u < em.mantissa + 1 := by
  cases h with
  | exact m => simp
  | below _ hhigh => linarith
  | half m => norm_num
  | above _ hhigh => exact hhigh

/-- A mantissa is rounded to the nearest. -/
theorem Shows.rounded {em : ExtendedMantissa} {u : ℚ} (h : Shows em u) :
    RoundsTo u em.roundedMantissa := by
  cases h with
  | exact m =>
    show RoundsTo m m
    constructor
    · linarith
    · linarith
    · rintro (h | h) <;> linarith
  | @below m u hlow hhigh =>
    show RoundsTo u m
    constructor
    · linarith
    · linarith
    · rintro (h | h) <;> linarith
  | half m =>
    show RoundsTo (m + 1 / 2) (m + m % 2)
    obtain heven | hodd := Nat.mod_two_eq_zero_or_one m
    · rw [heven, Nat.add_zero]
      constructor
      · linarith
      · linarith
      · exact fun _ => heven
    · rw [hodd]
      constructor
      · push_cast; linarith
      · push_cast; linarith
      · exact fun _ => by omega
  | @above m u hlow hhigh =>
    show RoundsTo u (m + 1)
    constructor
    · push_cast; linarith
    · push_cast; linarith
    · rintro (h | h) <;> push_cast at h <;> linarith

theorem Shows.shiftRightOne {em : ExtendedMantissa} {u : ℚ} (h : Shows em u) :
    Shows em.shiftRightOne (u / 2) := by
  have heven (k : ℕ) (r s : Bool) :
      ExtendedMantissa.shiftRightOne ⟨2 * k, r, s⟩ = ⟨k, false, r || s⟩ := by
    simp [ExtendedMantissa.shiftRightOne]
  have hodd (k : ℕ) (r s : Bool) :
      ExtendedMantissa.shiftRightOne ⟨2 * k + 1, r, s⟩ = ⟨k, true, r || s⟩ := by
    simp [ExtendedMantissa.shiftRightOne, Nat.add_mod]
    omega
  obtain ⟨k, hk | hk⟩ := Nat.even_or_odd' em.mantissa
  · cases h with
    | exact m =>
      obtain rfl : m = 2 * k := hk
      have hvalue : ((2 * k : ℕ) : ℚ) / 2 = k := by push_cast; ring
      rw [heven, hvalue]
      exact .exact k
    | @below m u hlow hhigh =>
      obtain rfl : m = 2 * k := hk
      push_cast at hlow hhigh
      rw [heven]
      exact .below (by linarith) (by linarith)
    | half m =>
      obtain rfl : m = 2 * k := hk
      rw [heven]
      exact .below (by push_cast; linarith) (by push_cast; linarith)
    | @above m u hlow hhigh =>
      obtain rfl : m = 2 * k := hk
      push_cast at hlow hhigh
      rw [heven]
      exact .below (by linarith) (by linarith)
  · cases h with
    | exact m =>
      obtain rfl : m = 2 * k + 1 := hk
      have hvalue : ((2 * k + 1 : ℕ) : ℚ) / 2 = k + 1 / 2 := by push_cast; ring
      rw [hodd, hvalue]
      exact .half k
    | @below m u hlow hhigh =>
      obtain rfl : m = 2 * k + 1 := hk
      push_cast at hlow hhigh
      rw [hodd]
      exact .above (by linarith) (by linarith)
    | half m =>
      obtain rfl : m = 2 * k + 1 := hk
      rw [hodd]
      exact .above (by push_cast; linarith) (by push_cast; linarith)
    | @above m u hlow hhigh =>
      obtain rfl : m = 2 * k + 1 := hk
      push_cast at hlow hhigh
      rw [hodd]
      exact .above (by linarith) (by linarith)

theorem Shows.shiftRight {em : ExtendedMantissa} {u : ℚ} (h : Shows em u) (k : ℕ) :
    Shows (em >>> k) (u / 2 ^ k) := by
  induction k with
  | zero =>
    rw [pow_zero, div_one]
    exact h
  | succ k ih =>
    have hstep := ih.shiftRightOne
    rw [div_div, ← pow_succ] at hstep
    exact hstep

theorem shows_quotient (m : ℕ) {d : ℕ} (hd : 0 < d) :
    Shows (.ofMantissaAndAccuracy (m / d) (accuracyOfFraction (m % d) d)) (m / d : ℚ) := by
  have hpos : (0 : ℚ) < d := by exact_mod_cast hd
  have hsplit : (m / d : ℚ) = (m / d : ℕ) + (m % d : ℕ) / d := by
    rw [div_eq_iff hpos.ne', add_mul, div_mul_cancel₀ _ hpos.ne']
    exact_mod_cast (Nat.div_add_mod' m d).symm
  have hrest := Nat.mod_lt m hd
  rw [hsplit]
  generalize m / d = q at *
  generalize m % d = r at *
  unfold accuracyOfFraction
  split
  · rename_i hzero
    rw [hzero, Nat.cast_zero, zero_div, add_zero]
    exact .exact q
  · rename_i hsome
    have hr : (0 : ℚ) < r := by exact_mod_cast Nat.pos_of_ne_zero hsome
    have hbelow : (r : ℚ) / d < 1 := by
      rw [div_lt_one hpos]
      exact_mod_cast hrest
    have habove : 0 < (r : ℚ) / d := div_pos hr hpos
    obtain hlt | heq | hgt := lt_trichotomy (2 * r) d
    · rw [Nat.compare_eq_lt.mpr hlt]
      have hhalf : (r : ℚ) / d < 1 / 2 := by
        rw [div_lt_div_iff₀ hpos (by norm_num)]
        have : ((2 * r : ℕ) : ℚ) < d := by exact_mod_cast hlt
        push_cast at this
        linarith
      exact .below (by linarith) (by linarith)
    · rw [Nat.compare_eq_eq.mpr heq]
      have hhalf : (r : ℚ) / d = 1 / 2 := by
        rw [div_eq_div_iff hpos.ne' (by norm_num)]
        have : ((2 * r : ℕ) : ℚ) = d := by exact_mod_cast heq
        push_cast at this
        linarith
      rw [hhalf]
      exact .half q
    · rw [Nat.compare_eq_gt.mpr hgt]
      have hhalf : 1 / 2 < (r : ℚ) / d := by
        rw [div_lt_div_iff₀ (by norm_num) hpos]
        have : (d : ℚ) < (2 * r : ℕ) := by exact_mod_cast hgt
        push_cast at this
        linarith
      exact .above (by linarith) (by linarith)

/-! ### The interval of a number -/

/-- The canonical mantissa and exponent of a number other than zero. -/
structure IsCanonical (m : ℕ) (e : ℤ) : Prop where
  pos : 0 < m
  fits : m < 2 ^ 53
  least : -1074 ≤ e
  full : 2 ^ 52 ≤ m ∨ e = -1074

/-- How far the rounding interval of a number reaches down: below a power of two the numbers are
closer. -/
def reach (m : ℕ) (e : ℤ) : ℚ := if m = 2 ^ 52 ∧ -1074 < e then 1 / 4 else 1 / 2

theorem reach_pos (m : ℕ) (e : ℤ) : 0 < reach m e := by
  unfold reach
  split <;> norm_num

theorem reach_le (m : ℕ) (e : ℤ) : reach m e ≤ 1 / 2 := by
  unfold reach
  split <;> norm_num

/-- A value in the rounding interval of a number; its ends belong to it if the mantissa is even. -/
structure Near (m : ℕ) (e : ℤ) (v : ℚ) : Prop where
  low : (m - reach m e) * 2 ^ e ≤ v
  high : v ≤ (m + 1 / 2) * 2 ^ e
  even : v = (m - reach m e) * 2 ^ e ∨ v = (m + 1 / 2) * 2 ^ e → m % 2 = 0

theorem targetExponent_eq (q : ℕ) (E : ℤ) :
    Format.binary64.targetExponent (totalExponent q E) = max (q.log2 + E - 52) (-1074) := by
  simp only [Format.targetExponent, totalExponent, Format.mantissaBits, Format.minExponent]
  norm_num
  omega

/-- The exponent that a value is truncated to. -/
theorem targetExponent_of_bounds {q : ℕ} {E : ℤ} {u : ℚ} (hlow : q ≤ u) (hhigh : u < q + 1)
    (hcut : 52 ≤ q.log2 ∨ E ≤ -1074) {e : ℤ} (he : -1074 ≤ e) (hbelow : u * 2 ^ E < 2 ^ (53 + e))
    (habove : 2 ^ (52 + e) ≤ u * 2 ^ E ∨ e = -1074) :
    Format.binary64.targetExponent (totalExponent q E) = e := by
  have hone : (1 : ℚ) < 2 := by norm_num
  have hscale : (0 : ℚ) < 2 ^ E := by positivity
  have hupper : u * 2 ^ E < 2 ^ (q.log2 + 1 + E : ℤ) := by
    have hbits : (q : ℚ) + 1 ≤ 2 ^ (q.log2 + 1) := by exact_mod_cast Nat.lt_log2_self
    rw [zpow_add₀ (by norm_num)]
    exact mul_lt_mul_of_pos_right (hhigh.trans_le (by exact_mod_cast hbits)) hscale
  have hle : q.log2 + E - 52 ≤ e := by
    by_cases hq : q = 0
    · rw [hq, Nat.log2_zero] at hcut ⊢
      omega
    · have hbits : (2 : ℚ) ^ q.log2 ≤ u := le_trans (by exact_mod_cast Nat.log2_self_le hq) hlow
      have hlower : (2 : ℚ) ^ (q.log2 + E : ℤ) ≤ u * 2 ^ E := by
        rw [zpow_add₀ (by norm_num)]
        exact mul_le_mul_of_nonneg_right (by exact_mod_cast hbits) hscale.le
      have := (zpow_lt_zpow_iff_right₀ hone).mp (hlower.trans_lt hbelow)
      omega
  rw [targetExponent_eq]
  obtain habove | rfl := habove
  · have := (zpow_lt_zpow_iff_right₀ hone).mp (habove.trans_lt hupper)
    omega
  · omega

/-- The truncated mantissa at the exponent of the result, with guard and sticky bits. -/
theorem shows_shifted {q : ℕ} {E e : ℤ} {acc : Accuracy} {u : ℚ}
    (hshows : Shows (.ofMantissaAndAccuracy q acc) u)
    (htarget : Format.binary64.targetExponent (totalExponent q E) = e)
    (hcut : 52 ≤ q.log2 ∨ E ≤ -1074) :
    ∃ em, shiftToTargetExponent .binary64 q E acc = (em, e) ∧ Shows em (u * 2 ^ E / 2 ^ e) := by
  have hle : E ≤ e := by
    rw [targetExponent_eq] at htarget
    omega
  refine ⟨ExtendedMantissa.ofMantissaAndAccuracy q acc >>> (e - E).toNat, ?_, ?_⟩
  · rw [shiftToTargetExponent, htarget, shiftToExponent]
    have : E + (e - E).toNat = e := by omega
    simp only [this]
  · have hvalue : u * 2 ^ E / 2 ^ e = u / 2 ^ (e - E).toNat := by
      have hsplit : (2 : ℚ) ^ e = 2 ^ (e - E).toNat * 2 ^ E := by
        rw [← zpow_natCast, ← zpow_add₀ (by norm_num)]
        congr 1
        omega
      rw [hsplit]
      field_simp
    rw [hvalue]
    exact hshows.shiftRight _

/-- A mantissa that fits is not truncated. -/
theorem shiftToTargetExponent_fits {m : ℕ} {e : ℤ} (hm : m < 2 ^ 53) (he : -1074 ≤ e) :
    shiftToTargetExponent .binary64 m e .exact = (⟨m, false, false⟩, e) := by
  have hbits : m.log2 ≤ 52 := by
    by_cases hzero : m = 0
    · simp [hzero]
    · have := (Nat.log2_lt hzero).mpr hm
      omega
  have hshift : (Format.binary64.targetExponent (totalExponent m e) - e).toNat = 0 := by
    rw [targetExponent_eq]
    omega
  rw [shiftToTargetExponent, shiftToExponent, hshift]
  simp only [Nat.cast_zero, add_zero]
  rfl

/-- A mantissa that rounding has carried loses its last bit. -/
theorem shiftToTargetExponent_carried {e : ℤ} (he : -1074 ≤ e) :
    shiftToTargetExponent .binary64 (2 ^ 53) e .exact = (⟨2 ^ 52, false, false⟩, e + 1) := by
  have hshift : (Format.binary64.targetExponent (totalExponent (2 ^ 53) e) - e).toNat = 1 := by
    rw [targetExponent_eq, Nat.log2_two_pow]
    omega
  rw [shiftToTargetExponent, shiftToExponent, hshift]
  simp only [Nat.cast_one]
  rfl

theorem mantissa_ofMantissaAndAccuracy (q : ℕ) (acc : Accuracy) :
    (ExtendedMantissa.ofMantissaAndAccuracy q acc).mantissa = q := by
  cases acc with
  | exact => rfl
  | inexact o => cases o <;> rfl

section Values

variable {q : ℕ} {E e : ℤ} {acc : Accuracy} {u : ℚ}

/-- Below a power of two the exponent is one less; a mantissa that is rounded up to the power is
carried. -/
theorem roundWithAccuracy_carried (hshows : Shows (.ofMantissaAndAccuracy q acc) u)
    (hcut : 52 ≤ q.log2 ∨ E ≤ -1074) (he : -1074 < e) (hnear : Near (2 ^ 52) e (u * 2 ^ E))
    (hbelow : u * 2 ^ E < 2 ^ (52 + e)) (s : Sign) :
    roundWithAccuracy .binary64 s q E acc = .finite s (2 ^ 52) e (by norm_num) := by
  have hlow := hshows.low
  have hhigh := hshows.high
  rw [mantissa_ofMantissaAndAccuracy] at hlow hhigh
  have hsplit (k : ℤ) : (2 : ℚ) ^ (k + e) = 2 ^ k * 2 ^ e := zpow_add₀ (by norm_num) k e
  have hhalf : (2 : ℚ) ^ e = 2 * 2 ^ (e - 1) := by
    rw [zpow_sub_one₀ (by norm_num)]
    ring
  have hquarter : ((2 : ℚ) ^ 52 - 1 / 4) * 2 ^ e ≤ u * 2 ^ E := by
    have := hnear.low
    rw [reach, if_pos ⟨rfl, he⟩] at this
    exact_mod_cast this
  have htarget : Format.binary64.targetExponent (totalExponent q E) = e - 1 := by
    refine targetExponent_of_bounds hlow hhigh hcut (by omega) ?_ (.inl ?_)
    · rw [show 53 + (e - 1) = 52 + e by ring]
      exact hbelow
    · rw [show 52 + (e - 1) = 51 + e by ring, hsplit]
      refine le_trans ?_ hquarter
      gcongr
      norm_num
  obtain ⟨em, hfirst, hem⟩ := shows_shifted hshows htarget hcut
  have hrounded : em.roundedMantissa = 2 ^ 53 := by
    refine hem.rounded.unique ⟨?_, ?_, fun _ => by norm_num⟩
    · rw [le_div_iff₀ (by positivity)]
      push_cast
      rw [hhalf] at hquarter
      linarith
    · rw [div_le_iff₀ (by positivity)]
      rw [hsplit, hhalf] at hbelow
      push_cast
      have : (0 : ℚ) < 2 ^ (e - 1) := by positivity
      nlinarith
  rw [roundWithAccuracy, hfirst]
  simp only [hrounded, shiftToTargetExponent_carried (show -1074 ≤ e - 1 by omega)]
  simp

/-- From the power of two on, a value is truncated at the exponent of the number; nothing is
carried. -/
theorem roundWithAccuracy_cut (hshows : Shows (.ofMantissaAndAccuracy q acc) u)
    (hcut : 52 ≤ q.log2 ∨ E ≤ -1074) {m : ℕ} (hm : IsCanonical m e) (hnear : Near m e (u * 2 ^ E))
    (habove : 2 ^ (52 + e) ≤ u * 2 ^ E ∨ e = -1074) (s : Sign) :
    roundWithAccuracy .binary64 s q E acc = .finite s m e hm.pos := by
  have hlow := hshows.low
  have hhigh := hshows.high
  rw [mantissa_ofMantissaAndAccuracy] at hlow hhigh
  have hscale : (0 : ℚ) < 2 ^ e := by positivity
  have hbelow : u * 2 ^ E < 2 ^ (53 + e) := by
    have hfits : (m : ℚ) + 1 ≤ 2 ^ 53 := by exact_mod_cast hm.fits
    rw [zpow_add₀ (by norm_num)]
    refine hnear.high.trans_lt (mul_lt_mul_of_pos_right ?_ hscale)
    norm_num at hfits ⊢
    linarith
  have htarget := targetExponent_of_bounds hlow hhigh hcut hm.least hbelow habove
  obtain ⟨em, hfirst, hem⟩ := shows_shifted hshows htarget hcut
  have hrounded : em.roundedMantissa = m := by
    refine hem.rounded.unique ⟨?_, ?_, ?_⟩
    · rw [le_div_iff₀ hscale]
      refine le_trans (mul_le_mul_of_nonneg_right ?_ hscale.le) hnear.low
      linarith [reach_le m e]
    · rw [div_le_iff₀ hscale]
      exact hnear.high
    · rw [div_eq_iff hscale.ne', div_eq_iff hscale.ne']
      intro hend
      by_cases hpower : m = 2 ^ 52 ∧ -1074 < e
      · rw [hpower.1]
        norm_num
      · have heven := hnear.even
        rw [reach, if_neg hpower] at heven
        exact heven hend
  rw [roundWithAccuracy, hfirst]
  simp only [hrounded, shiftToTargetExponent_fits hm.fits hm.least, dif_neg hm.pos.ne']

/-- A number that is no power of two has its whole rounding interval above the power below it. -/
theorem Near.power_le {m : ℕ} {v : ℚ} (hm : IsCanonical m e) (hnear : Near m e v)
    (hpower : m ≠ 2 ^ 52) (he : e ≠ -1074) : 2 ^ (52 + e) ≤ v := by
  have hfull := hm.full.resolve_right he
  have hnext : (2 : ℚ) ^ 52 + 1 ≤ m := by
    have : 2 ^ 52 + 1 ≤ m := by omega
    exact_mod_cast this
  have hcast : (2 : ℚ) ^ (52 : ℤ) = 2 ^ 52 := by norm_cast
  rw [zpow_add₀ (by norm_num)]
  refine le_trans (mul_le_mul_of_nonneg_right ?_ (by positivity)) hnear.low
  linarith [reach_le m e]

/-- **A value is rounded to the number in whose rounding interval it lies.** -/
theorem roundWithAccuracy_near (hshows : Shows (.ofMantissaAndAccuracy q acc) u)
    (hcut : 52 ≤ q.log2 ∨ E ≤ -1074) {m : ℕ} (hm : IsCanonical m e) (hnear : Near m e (u * 2 ^ E))
    (s : Sign) : roundWithAccuracy .binary64 s q E acc = .finite s m e hm.pos := by
  by_cases habove : 2 ^ (52 + e) ≤ u * 2 ^ E ∨ e = -1074
  · exact roundWithAccuracy_cut hshows hcut hm hnear habove s
  · obtain ⟨hbelow, he⟩ := not_or.mp habove
    obtain rfl : m = 2 ^ 52 := by
      by_contra hpower
      exact hbelow (hnear.power_le hm hpower he)
    have hleast := hm.least
    exact roundWithAccuracy_carried hshows hcut (by omega) hnear (not_le.mp hbelow) s

end Values

/-! ### Quotients -/

/-- A quotient is computed with enough bits. -/
theorem divCore_cut {m₁ m₂ : ℕ} (h₁ : 0 < m₁) (h₂ : 0 < m₂) (e₁ e₂ : ℤ) {q : ℕ} {E : ℤ}
    {acc : Accuracy} (h : divCore .binary64 m₁ e₁ m₂ e₂ = (q, E, acc)) :
    (52 ≤ q.log2 ∨ E ≤ -1074) ∧
      Shows (.ofMantissaAndAccuracy q acc) (m₁ * 2 ^ e₁ / (m₂ * 2 ^ e₂) / 2 ^ E) := by
  obtain ⟨hq, hE, hacc⟩ : _ ∧ _ ∧ _ := by simpa only [divCore, Prod.mk.injEq] using h
  have htarget : Format.binary64.targetExponent (totalExponent m₁ e₁ - totalExponent m₂ e₂) =
      max (m₁.log2 + e₁ - (m₂.log2 + e₂) - 53) (-1074) := by
    simp only [Format.targetExponent, totalExponent, Format.mantissaBits, Format.minExponent]
    norm_num
    omega
  rw [htarget] at hq hE hacc
  rw [hE] at hq hacc
  generalize hs : (e₁ - e₂ - E).toNat = s at hq hacc
  have hshift : e₁ = e₂ + E + s := by omega
  refine ⟨?_, ?_⟩
  · by_contra hfew
    obtain ⟨hbits, hexponent⟩ := not_or.mp hfew
    have henough : 2 ^ 52 * m₂ ≤ m₁ <<< s := by
      rw [Nat.shiftLeft_eq]
      calc 2 ^ 52 * m₂ ≤ 2 ^ 52 * 2 ^ (m₂.log2 + 1) :=
            Nat.mul_le_mul_left _ Nat.lt_log2_self.le
        _ = 2 ^ (m₂.log2 + 53) := by rw [← pow_add]; congr 1; omega
        _ ≤ 2 ^ (m₁.log2 + s) := Nat.pow_le_pow_right (by norm_num) (by omega)
        _ = 2 ^ m₁.log2 * 2 ^ s := pow_add _ _ _
        _ ≤ m₁ * 2 ^ s := Nat.mul_le_mul_right _ (Nat.log2_self_le h₁.ne')
    rw [← Nat.le_div_iff_mul_le h₂, hq] at henough
    exact hbits ((Nat.le_log2 (by omega)).mpr henough)
  · have hvalue : (m₁ * 2 ^ e₁ / (m₂ * 2 ^ e₂) / 2 ^ E : ℚ) = ((m₁ <<< s : ℕ) : ℚ) / m₂ := by
      rw [Nat.shiftLeft_eq, hshift, zpow_add₀ (by norm_num), zpow_add₀ (by norm_num), zpow_natCast]
      push_cast
      field_simp
    rw [hvalue, ← hq, ← hacc]
    exact shows_quotient _ h₂

/-- **A quotient is rounded to the number in whose rounding interval it lies.** -/
theorem div_near {m₁ m₂ : ℕ} (h₁ : 0 < m₁) (h₂ : 0 < m₂) (e₁ e₂ : ℤ) {m : ℕ} {e : ℤ}
    (hm : IsCanonical m e) (hnear : Near m e (m₁ * 2 ^ e₁ / (m₂ * 2 ^ e₂))) :
    UnpackedFloat.div .binary64 (.finite .positive m₁ e₁ h₁) (.finite .positive m₂ e₂ h₂) =
      .finite .positive m e hm.pos := by
  obtain ⟨⟨q, E, acc⟩, hcore⟩ : ∃ core, divCore .binary64 m₁ e₁ m₂ e₂ = core := ⟨_, rfl⟩
  obtain ⟨hcut, hshows⟩ := divCore_cut h₁ h₂ e₁ e₂ hcore
  rw [UnpackedFloat.div, hcore]
  refine roundWithAccuracy_near hshows hcut hm ?_ _
  rwa [div_mul_cancel₀ _ (by positivity)]

end ChainAgent.Decimal
