import Mathlib
import ChainAgent.Proofs.Decimal.Rounding

/-! Numbers from decimal digits.

Digits with a decimal exponent are a quotient of two natural numbers. It is rounded directly, or
computed from two exact floating-point numbers; either way the result is the number whose rounding
interval it lies in (`ofScientific_near`). -/
namespace ChainAgent.Decimal

open Float.Model Float.Model.UnpackedFloat

/-! ### Numbers that are exact -/

/-- Unpacking inverts packing for a full mantissa. -/
theorem unpack_pack {m : ℕ} {e : ℤ} (hm : IsCanonical m e) (hfull : 2 ^ 52 ≤ m) (he : e ≤ 971) :
    (Float.Model.pack (.finite .positive m e hm.pos)).unpack = .finite .positive m e hm.pos := by
  have hbits : m.log2 = 52 := (Nat.log2_eq_iff hm.pos.ne').mpr ⟨hfull, hm.fits⟩
  have hleast := hm.least
  have hfits := hm.fits
  obtain ⟨b, rfl⟩ : ∃ b : ℕ, e = b - 1075 := ⟨(e + 1075).toNat, by omega⟩
  have hexponent : ((b - 1075 : ℤ) + Format.binary64.exponentBias +
      Format.binary64.mantissaBitsWithoutImplicit).toNat = b := by
    simp only [Format.exponentBias]
    omega
  have hb : (BitVec.ofNat 11 b).toNat = b := by
    rw [BitVec.toNat_ofNat]
    omega
  have hpacked : UnpackedFloat.pack .binary64 (.finite .positive m (b - 1075) hm.pos) =
      packComponents .binary64 .positive (BitVec.ofNat _ b) (BitVec.ofNat _ m) := by
    rw [UnpackedFloat.pack]
    simp only [hexponent, hbits]
    rw [if_neg, if_pos]
    · rfl
    · show ¬ 2 ^ 11 ≤ b + 1
      omega
  have hmantissa : (1#1 ++ BitVec.ofNat 52 m).toNat = m := by
    rw [BitVec.toNat_append, ← Nat.shiftLeft_add_eq_or_of_lt (BitVec.isLt _), Nat.shiftLeft_eq,
      BitVec.toNat_ofNat]
    show 1 * 2 ^ 52 + m % 2 ^ 52 = m
    omega
  show UnpackedFloat.unpack .binary64 (UnpackedFloat.pack .binary64 _) = _
  rw [hpacked, UnpackedFloat.unpack]
  simp only [unpackMantissa_packComponents, unpackExponent_packComponents,
    unpackSign_packComponents, Sign.ofBitVec_toBitVec]
  rw [if_neg, if_neg]
  · simp only [hmantissa, hb]
    rfl
  · intro h
    have hzero : b = 0 := hb.symm.trans (congrArg BitVec.toNat h)
    omega
  · intro h
    have hones : b = 2047 := hb.symm.trans (congrArg BitVec.toNat h)
    omega

/-- A floating-point number with exactly this value. -/
def Holds (x : Float.Model) (v : ℚ) : Prop :=
  ∃ (m : ℕ) (e : ℤ) (hm : 0 < m), x.unpack = .finite .positive m e hm ∧ (m * 2 ^ e : ℚ) = v

theorem holds_pack {m : ℕ} {e : ℤ} (hm : IsCanonical m e) (hfull : 2 ^ 52 ≤ m) (he : e ≤ 971) :
    Holds (.pack (.finite .positive m e hm.pos)) (m * 2 ^ e) :=
  ⟨m, e, hm.pos, unpack_pack hm hfull he, rfl⟩

theorem near_self (m : ℕ) (e : ℤ) : Near m e (m * 2 ^ e) := by
  have hscale : (0 : ℚ) < 2 ^ e := by positivity
  have hreach := reach_pos m e
  refine ⟨by nlinarith, by nlinarith, ?_⟩
  rintro (hend | hend)
  · nlinarith
  · nlinarith

/-- A natural number that fits into a mantissa is exact. -/
theorem holds_ofNat {n : ℕ} (hn : 0 < n) (hfits : n < 2 ^ 53) : Holds (.ofNat n) n := by
  have hbits : n.log2 ≤ 52 := by
    have := (Nat.log2_lt hn.ne').mpr hfits
    omega
  obtain ⟨s, hs⟩ : ∃ s, n.log2 + s = 52 := ⟨52 - n.log2, by omega⟩
  have htarget : Format.binary64.targetExponent (totalExponent n 0) = -s := by
    rw [targetExponent_eq]
    omega
  have hfull : 2 ^ 52 ≤ n <<< s := by
    rw [Nat.shiftLeft_eq, ← hs, pow_add]
    exact Nat.mul_le_mul_right _ (Nat.log2_self_le hn.ne')
  have hbelow : n <<< s < 2 ^ 53 := by
    have hsum : 53 = n.log2 + 1 + s := by omega
    rw [Nat.shiftLeft_eq, hsum, pow_add]
    exact Nat.mul_lt_mul_of_pos_right Nat.lt_log2_self (by positivity)
  have hm : IsCanonical (n <<< s) (-s) := ⟨by omega, hbelow, by omega, .inl hfull⟩
  have hnat : UnpackedFloat.ofNat .binary64 n = .finite .positive (n <<< s) (-s) hm.pos := by
    have hshown : Shows (.ofMantissaAndAccuracy (n <<< s) .exact) (n <<< s : ℕ) := .exact _
    have hcut : 52 ≤ (n <<< s).log2 := (Nat.le_log2 (by omega)).mpr hfull
    have hround := roundWithAccuracy_near hshown (.inl hcut) hm (near_self _ _) .positive
    have hsign : compare (n : ℤ) 0 = .gt := by
      rw [Int.compare_eq_gt]
      omega
    rw [UnpackedFloat.ofNat, UnpackedFloat.ofInt, UnpackedFloat.normalize, hsign]
    show UnpackedFloat.round .binary64 .positive n 0 = _
    rw [UnpackedFloat.round, htarget, decreaseExponent]
    simp only [sub_neg_eq_add, zero_add, Int.toNat_natCast, zero_sub]
    exact hround
  have hvalue : ((n <<< s : ℕ) * 2 ^ (-s : ℤ) : ℚ) = n := by
    rw [Nat.shiftLeft_eq, zpow_neg, zpow_natCast]
    push_cast
    field_simp
  rw [Float.Model.ofNat, hnat, ← hvalue]
  exact holds_pack hm hfull (by omega)

/-- The tabulated powers of ten are exact. -/
theorem holds_powerOfTen {k : ℕ} (hk : k < Float.exactlyRepresentablePowersOfTen.size) :
    Holds Float.exactlyRepresentablePowersOfTen[k].toModel (10 ^ k) := by
  have hsize : Float.exactlyRepresentablePowersOfTen.size = 23 := rfl
  -- Fifty-three bits of the power: it is moved up by some, down by others.
  let up (k : ℕ) := 52 - (10 ^ k).log2
  let down (k : ℕ) := (10 ^ k).log2 - 52
  let bits (k : ℕ) := 10 ^ k * 2 ^ up k / 2 ^ down k
  have hbits : ∀ k < 23, (2 ^ 52 ≤ bits k ∧ bits k < 2 ^ 53) ∧ (up k ≤ 52 ∧ down k ≤ 971) ∧
      bits k * 2 ^ down k = 10 ^ k * 2 ^ up k := by
    decide +kernel
  have htable : ∀ k < 23, ∀ h : 0 < bits k,
      Float.exactlyRepresentablePowersOfTen[k]?.map Float.toModel =
        some (.pack (.finite .positive (bits k) (down k - up k) h)) := by
    decide +kernel
  obtain ⟨⟨hfull, hfits⟩, ⟨hup, hdown⟩, hexact⟩ := hbits k (hsize ▸ hk)
  have hm : IsCanonical (bits k) (down k - up k) := ⟨by omega, hfits, by omega, .inl hfull⟩
  have hpacked := htable k (hsize ▸ hk) hm.pos
  rw [Array.getElem?_eq_getElem hk, Option.map_some, Option.some.injEq] at hpacked
  have hvalue : ((bits k : ℕ) * 2 ^ (down k - up k : ℤ) : ℚ) = 10 ^ k := by
    rw [zpow_sub₀ (by norm_num), zpow_natCast, zpow_natCast, ← mul_div_assoc,
      div_eq_iff (by positivity)]
    exact_mod_cast hexact
  rw [hpacked, ← hvalue]
  exact holds_pack hm hfull (by omega)

/-! ### Digits behind a point -/

theorem div_of_holds {x y : Float.Model} {v w : ℚ} (hx : Holds x v) (hy : Holds y w) {m : ℕ} {e : ℤ}
    (hm : IsCanonical m e) (hnear : Near m e (v / w)) :
    x / y = .pack (.finite .positive m e hm.pos) := by
  obtain ⟨m₁, e₁, h₁, hx, rfl⟩ := hx
  obtain ⟨m₂, e₂, h₂, hy, rfl⟩ := hy
  show Float.Model.pack (UnpackedFloat.div .binary64 x.unpack y.unpack) = _
  rw [hx, hy, div_near h₁ h₂ e₁ e₂ hm hnear]

/-- **Decimal digits are rounded to the number whose rounding interval their value lies in.** -/
theorem ofScientific_near {n k : ℕ} (hn : 0 < n) (hpoint : 0 < k) (hk : k ≤ 2048 + n.log2) {m : ℕ}
    {e : ℤ} (hm : IsCanonical m e) (hnear : Near m e (n / 10 ^ k)) :
    Float.ofScientific n true k = .ofModel (.pack (.finite .positive m e hm.pos)) := by
  unfold Float.ofScientific
  split
  · rename_i hfast
    have hsame : n.toUInt64.toNat = n := by
      show n % 2 ^ 64 = n
      omega
    have hnat : Holds (.ofUInt64 n.toUInt64) n := by
      show Holds (.ofNat n.toUInt64.toNat) n
      rw [hsame]
      exact holds_ofNat hn hfast.1
    have hbelow : k < Float.exactlyRepresentablePowersOfTen.size := by
      show k < 23
      omega
    exact congrArg Float.ofModel (div_of_holds hnat (holds_powerOfTen hbelow) hm hnear)
  · have hnegative : ¬ (0 : ℤ) ≤ -(k : ℤ) := by omega
    have htop : ¬ -(k : ℤ) > 2 ^ Format.binary64.exponentBits := by
      show ¬ -(k : ℤ) > 2048
      omega
    have hbottom : ¬ -(k : ℤ) < -((2 ^ Format.binary64.exponentBits : ℤ) + n.log2) := by
      show ¬ -(k : ℤ) < -(2048 + (n.log2 : ℤ))
      omega
    have hten : 0 < 10 ^ k := by positivity
    have hquotient := div_near hn hten 0 0 hm (by
      rw [zpow_zero, mul_one, mul_one]
      exact_mod_cast hnear)
    have hexponent : Int.negOfNat k = -(k : ℤ) := Int.negOfNat_eq
    show Float.ofModel (.pack (UnpackedFloat.ofScientific .binary64 n (.negOfNat k))) = _
    rw [hexponent, UnpackedFloat.ofScientific, dif_neg hn.ne', if_neg htop, if_neg hbottom,
      if_neg hnegative]
    simp only [neg_neg, Int.toNat_natCast]
    exact congrArg (Float.ofModel ∘ Float.Model.pack) hquotient

end ChainAgent.Decimal
