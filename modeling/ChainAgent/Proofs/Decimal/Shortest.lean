import ChainAgent.Proofs.Decimal.Reading
import ChainAgent.Decimal.Notation

/-! The shortest decimal of a number lies in its rounding interval.

Comparisons of decimals with binary numbers are exact (`scaledLe_iff`), so a decimal round-trips if
its value lies in the interval (`readsBack_iff`). The shortest decimal is one that round-trips, and
if none of few digits does, the number itself (`finds_shortest`); so its digits are rounded to the
number they were taken from (`ofScientific_shortest`). -/
namespace ChainAgent.Decimal

open Float.Model (Format UnpackedFloat)
open Float.Model.UnpackedFloat

/-! ### Decimals that read back -/

/-- The value of a decimal. -/
def Scaled.value (d : Scaled) : ℚ := d.digits * 10 ^ d.exponent

theorem zpow_eq_div (b : ℚ) (e : ℤ) : b ^ e = b ^ e.toNat / b ^ (-e).toNat := by
  obtain ⟨n, rfl | rfl⟩ := e.eq_nat_or_neg
  · simp
  · simp

theorem scaledLe_iff {a b : ℕ} {e q : ℤ} :
    scaledLe a e b q = true ↔ (a * 10 ^ e : ℚ) ≤ b * 2 ^ q := by
  rw [scaledLe, decide_eq_true_iff, zpow_eq_div 10 e, zpow_eq_div 2 q,
    ← mul_div_assoc, ← mul_div_assoc, div_le_div_iff₀ (by positivity) (by positivity)]
  exact_mod_cast Iff.rfl

theorem scaledGe_iff {a b : ℕ} {e q : ℤ} :
    scaledGe a e b q = true ↔ (b * 2 ^ q : ℚ) ≤ a * 10 ^ e := by
  rw [scaledGe, decide_eq_true_iff, zpow_eq_div 10 e, zpow_eq_div 2 q,
    ← mul_div_assoc, ← mul_div_assoc, div_le_div_iff₀ (by positivity) (by positivity)]
  exact_mod_cast Iff.rfl

/-- The representation of a finite number other than zero. -/
structure Binary.IsNumber (x : Binary) : Prop extends IsCanonical x.mantissa x.exponent where
  narrow : x.narrowBelow = decide (x.mantissa = 2 ^ 52 ∧ -1074 < x.exponent)

namespace Binary

variable {x : Binary}

/-- A decimal round-trips if its value lies in the rounding interval of the number. -/
theorem readsBack_iff (hx : x.IsNumber) (d : Scaled) :
    x.readsBack d = true ↔ Near x.mantissa x.exponent d.value := by
  have hquarter : (2 : ℚ) ^ (x.exponent - 2) = 2 ^ x.exponent / 4 := by
    rw [zpow_sub₀ (by norm_num)]
    norm_num
  have hbelow : ((4 * x.mantissa - (if x.narrowBelow then 1 else 2) : ℕ) : ℚ) *
      2 ^ (x.exponent - 2) = (x.mantissa - reach x.mantissa x.exponent) * 2 ^ x.exponent := by
    have hpos := hx.pos
    rw [hquarter, hx.narrow, reach]
    split <;> rename_i h
    · rw [if_pos (of_decide_eq_true h), Nat.cast_sub (by omega)]
      push_cast
      ring
    · rw [if_neg (of_decide_eq_false (by simpa using h)), Nat.cast_sub (by omega)]
      push_cast
      ring
  have habove : ((4 * x.mantissa + 2 : ℕ) : ℚ) * 2 ^ (x.exponent - 2) =
      (x.mantissa + 1 / 2) * 2 ^ x.exponent := by
    rw [hquarter]
    push_cast
    ring
  simp only [readsBack]
  split <;> rename_i h
  · rw [Bool.and_eq_true, scaledGe_iff, scaledLe_iff, hbelow, habove]
    rw [beq_iff_eq] at h
    exact ⟨fun hends => ⟨hends.1, hends.2, fun _ => h⟩, fun hnear => ⟨hnear.low, hnear.high⟩⟩
  · rw [Bool.and_eq_true, Bool.not_eq_true', Bool.not_eq_true', ← Bool.not_eq_true,
      ← Bool.not_eq_true, scaledGe_iff, scaledLe_iff, hbelow, habove, not_le, not_le]
    rw [beq_iff_eq] at h
    constructor
    · rintro ⟨hlow, hhigh⟩
      refine ⟨hlow.le, hhigh.le, ?_⟩
      rintro (hend | hend)
      · exact absurd hend.symm hlow.ne
      · exact absurd hend hhigh.ne
    · intro hnear
      refine ⟨hnear.low.lt_of_ne fun hend => h (hnear.even (.inl hend.symm)), ?_⟩
      exact hnear.high.lt_of_ne fun hend => h (hnear.even (.inr hend))

/-! ### The shortest decimal -/

/-- A decimal other than zero that round-trips. -/
def Finds (x : Binary) (d : Scaled) : Prop :=
  0 < d.digits ∧ Near x.mantissa x.exponent d.value

theorem finds_hit (hx : x.IsNumber) {e : ℤ} {d : Scaled} (h : x.hit e = some d) : x.Finds d := by
  have hupper : x.readsBack ⟨(x.onGrid e).1 + 1, e⟩ → x.Finds ⟨(x.onGrid e).1 + 1, e⟩ :=
    fun hreads => ⟨Nat.succ_pos _, (readsBack_iff hx _).mp hreads⟩
  have hlower : (x.readsBack ⟨(x.onGrid e).1, e⟩ && (x.onGrid e).1 != 0) →
      x.Finds ⟨(x.onGrid e).1, e⟩ := by
    rw [Bool.and_eq_true, bne_iff_ne]
    rintro ⟨hreads, hsome⟩
    exact ⟨Nat.pos_of_ne_zero hsome, (readsBack_iff hx _).mp hreads⟩
  simp only [hit] at h
  split at h
  · rename_i hl hu
    cases h
    split
    · exact hlower hl
    · exact hupper hu
  · rename_i hl _
    cases h
    exact hlower hl
  · rename_i _ hu
    cases h
    exact hupper hu
  · cases h

theorem finds_exact (hx : x.IsNumber) : x.Finds x.exact := by
  have hvalue : x.exact.value = x.mantissa * 2 ^ x.exponent := by
    rw [Scaled.value, exact]
    split
    · rename_i hpos
      obtain ⟨n, hn⟩ := Int.eq_ofNat_of_zero_le hpos
      simp [hn]
    · rename_i hneg
      obtain ⟨n, hn⟩ : ∃ n : ℕ, x.exponent = -n := ⟨(-x.exponent).toNat, by omega⟩
      have hten : (10 : ℚ) ^ n = 5 ^ n * 2 ^ n := by rw [← mul_pow]; norm_num
      simp only [hn, neg_neg, Int.toNat_natCast, zpow_neg, zpow_natCast, hten, Nat.pow_eq]
      push_cast
      field_simp
  refine ⟨?_, hvalue ▸ near_self _ _⟩
  have hpos := hx.pos
  rw [exact]
  split
  · exact Nat.mul_pos hpos (Nat.pow_pos (by norm_num))
  · exact Nat.mul_pos hpos (Nat.pow_pos (by norm_num))

theorem finds_strip {d : Scaled} (h : x.Finds d) (fuel : ℕ) : x.Finds (d.strip fuel) := by
  induction fuel generalizing d with
  | zero => exact h
  | succ fuel ih =>
    rw [Scaled.strip]
    split
    · rename_i hends
      obtain ⟨hpos, hnear⟩ := h
      rw [Bool.and_eq_true, beq_iff_eq] at hends
      have htens : d.digits = d.digits / 10 * 10 := by omega
      have hvalue : Scaled.value ⟨d.digits / 10, d.exponent + 1⟩ = d.value := by
        rw [Scaled.value, Scaled.value, zpow_add_one₀ (by norm_num)]
        conv_rhs => rw [htens]
        push_cast
        ring
      have hsome : 0 < d.digits / 10 := by omega
      exact ih ⟨hsome, hvalue ▸ hnear⟩
    · exact h

/-- **The shortest decimal of a number lies in its rounding interval.** -/
theorem finds_shortest (hx : x.IsNumber) : x.Finds x.shortest := by
  have hfound (found : Option Scaled) (h : ∀ d, found = some d → x.Finds d) :
      x.Finds (found.getD x.exact) := by
    cases found with
    | none => exact finds_exact hx
    | some d => exact h d rfl
  refine finds_strip (hfound _ fun d hd => ?_) 400
  obtain ⟨n, -, hhit⟩ := List.exists_of_findSome?_eq_some hd
  exact finds_hit hx hhit

end Binary

/-! ### The number of a float -/

theorem field_eq (bits : UInt64) : ((bits >>> 52) &&& 0x7FF).toNat =
    (@unpackExponent .binary64 bits.toBitVec).toNat := by
  rw [unpackExponent_def, BitVec.extractLsb'_toNat, UInt64.toNat_and, UInt64.toNat_shiftRight]
  show (bits.toNat >>> 52) &&& (2 ^ 11 - 1) = bits.toNat >>> 52 % 2 ^ 11
  rw [Nat.and_two_pow_sub_one_eq_mod]

theorem fraction_eq (bits : UInt64) : (bits &&& 0xFFFFFFFFFFFFF).toNat =
    (@unpackMantissa .binary64 bits.toBitVec).toNat := by
  rw [unpackMantissa_def, BitVec.extractLsb'_toNat, UInt64.toNat_and]
  show bits.toNat &&& (2 ^ 52 - 1) = bits.toNat >>> 0 % 2 ^ 52
  rw [Nat.and_two_pow_sub_one_eq_mod, Nat.shiftRight_zero]

/-- The two representations of a finite number other than zero, normal and subnormal. -/
theorem fields_of_unpack {bits : UInt64} {s : Sign} {m : ℕ} {e : ℤ} {hm : 0 < m}
    (h : UnpackedFloat.unpack .binary64 bits.toBitVec = .finite s m e hm) :
    let field := ((bits >>> 52) &&& 0x7FF).toNat
    let fraction := (bits &&& 0xFFFFFFFFFFFFF).toNat
    field < 2047 ∧ fraction < 2 ^ 52 ∧
      (field = 0 ∧ m = fraction ∧ e = -1074 ∨
        0 < field ∧ m = 2 ^ 52 + fraction ∧ e = field - 1075) := by
  rw [field_eq, fraction_eq]
  have hfield := (@unpackExponent .binary64 bits.toBitVec).isLt
  have hfraction := (@unpackMantissa .binary64 bits.toBitVec).isLt
  simp only [UnpackedFloat.unpack] at h
  split at h
  · split at h <;> cases h
  · rename_i hfinite
    have hbelow : (@unpackExponent .binary64 bits.toBitVec).toNat < 2047 := by
      refine lt_of_le_of_ne (Nat.le_of_lt_succ hfield) fun hones => hfinite ?_
      exact BitVec.eq_of_toNat_eq hones
    refine ⟨hbelow, hfraction, ?_⟩
    split at h
    · rename_i hzero
      split at h
      · cases h
      · cases h
        rw [hzero]
        exact .inl ⟨rfl, rfl, rfl⟩
    · rename_i hnormal
      cases h
      refine .inr ⟨?_, ?_, rfl⟩
      · exact Nat.pos_of_ne_zero fun hzero => hnormal (BitVec.eq_of_toNat_eq hzero)
      · rw [BitVec.toNat_append, ← Nat.shiftLeft_add_eq_or_of_lt hfraction, Nat.shiftLeft_eq]
        rfl

/-- The bits of a finite number other than zero represent what it unpacks to. -/
theorem ofBits_of_unpack {x : Float} {s : Sign} {m : ℕ} {e : ℤ} {hm : 0 < m}
    (h : x.toModel.unpack = .finite s m e hm) :
    Binary.ofBits x.toBits = ⟨m, e, decide (m = 2 ^ 52 ∧ -1074 < e)⟩ ∧ IsCanonical m e ∧
      e ≤ 971 := by
  obtain ⟨hfield, hfraction, hspelt⟩ := @fields_of_unpack x.toBits s m e hm h
  rw [Binary.ofBits]
  generalize ((x.toBits >>> 52) &&& 0x7FF).toNat = field at *
  generalize (x.toBits &&& 0xFFFFFFFFFFFFF).toNat = fraction at *
  have hpower : Nat.pow 2 52 = 2 ^ 52 := rfl
  obtain ⟨rfl, rfl, rfl⟩ | ⟨hnormal, rfl, rfl⟩ := hspelt
  · refine ⟨?_, ⟨hm, by omega, by norm_num, .inr rfl⟩, by norm_num⟩
    simp
  · refine ⟨?_, ⟨by omega, by omega, by omega, .inl (by omega)⟩, by omega⟩
    have hnarrow : (fraction == 0 && decide (field > 1)) =
        decide (2 ^ 52 + fraction = 2 ^ 52 ∧ (-1074 : ℤ) < field - 1075) := by
      rw [Bool.eq_iff_iff, Bool.and_eq_true, beq_iff_eq, decide_eq_true_iff, decide_eq_true_iff]
      omega
    simp only [beq_eq_false_iff_ne.mpr hnormal.ne', hpower, hnarrow]
    rfl

theorem isNumber_of_unpack {x : Float} {s : Sign} {m : ℕ} {e : ℤ} {hm : 0 < m}
    (h : x.toModel.unpack = .finite s m e hm) : (Binary.ofBits x.toBits).IsNumber := by
  obtain ⟨hbits, hcanonical, -⟩ := ofBits_of_unpack h
  rw [hbits]
  exact ⟨hcanonical, rfl⟩

/-- A float is what it unpacks to. -/
theorem pack_unpack (x : Float) : Float.ofModel (.pack x.toModel.unpack) = x := x.ofBits_toBits

/-- **Digits with the value of the shortest decimal are rounded to the number.** -/
theorem ofScientific_shortest {x : Float} {m : ℕ} {e : ℤ} {hm : 0 < m}
    (h : x.toModel.unpack = .finite .positive m e hm) {n k : ℕ} (hpoint : 0 < k)
    (hk : k ≤ 2048 + n.log2)
    (hvalue : (n / 10 ^ k : ℚ) = (Binary.ofBits x.toBits).shortest.value) :
    Float.ofScientific n true k = x := by
  obtain ⟨hbits, hcanonical, -⟩ := ofBits_of_unpack h
  obtain ⟨hdigits, hnear⟩ := Binary.finds_shortest (isNumber_of_unpack h)
  have hpos : 0 < n := by
    rw [Nat.pos_iff_ne_zero]
    rintro rfl
    have hzero : (Binary.ofBits x.toBits).shortest.value ≠ 0 :=
      mul_ne_zero (by exact_mod_cast hdigits.ne') (by positivity)
    exact hzero (by rw [← hvalue]; simp)
  rw [← hvalue, hbits] at hnear
  rw [ofScientific_near hpos hpoint hk hcanonical hnear, ← h, pack_unpack]

/-- The rounding interval of a number lies between these powers of ten. -/
theorem Near.bounds {m : ℕ} {e : ℤ} {v : ℚ} (hm : IsCanonical m e) (he : e ≤ 971)
    (h : Near m e v) : 10 ^ (-400 : ℤ) < v ∧ v < 10 ^ (400 : ℤ) := by
  have hpos : (1 : ℚ) ≤ m := by exact_mod_cast hm.pos
  have hfits : (m : ℚ) + 1 ≤ 2 ^ 53 := by exact_mod_cast hm.fits
  have hreach := reach_le m e
  have hten : (2 : ℚ) ^ (1200 : ℤ) < 10 ^ (400 : ℤ) := by
    have height : (2 : ℚ) ^ (1200 : ℤ) = (2 ^ (3 : ℤ)) ^ (400 : ℤ) := (zpow_mul 2 3 400)
    rw [height]
    exact zpow_lt_zpow_left₀ (by norm_num) (by norm_num) (by norm_num)
  constructor
  · calc (10 : ℚ) ^ (-400 : ℤ) < 2 ^ (-1200 : ℤ) := by
          rw [zpow_neg, zpow_neg]
          exact inv_strictAnti₀ (by positivity) hten
      _ ≤ 2 ^ (-1075 : ℤ) := zpow_le_zpow_right₀ (by norm_num) (by norm_num)
      _ = 1 / 2 * 2 ^ (-1074 : ℤ) := by
          rw [show (-1075 : ℤ) = -1 + -1074 by norm_num, zpow_add₀ (by norm_num)]
          norm_num
      _ ≤ (m - reach m e) * 2 ^ e :=
          mul_le_mul (by linarith) (zpow_le_zpow_right₀ (by norm_num) hm.least) (by positivity)
            (by linarith)
      _ ≤ v := h.low
  · calc v ≤ (m + 1 / 2) * 2 ^ e := h.high
      _ ≤ 2 ^ 53 * 2 ^ (971 : ℤ) :=
          mul_le_mul (by linarith) (zpow_le_zpow_right₀ (by norm_num) he) (by positivity)
            (by positivity)
      _ = 2 ^ (1024 : ℤ) := by
          rw [show (1024 : ℤ) = (53 : ℕ) + 971 by norm_num, zpow_add₀ (by norm_num), zpow_natCast]
      _ ≤ 2 ^ (1200 : ℤ) := zpow_le_zpow_right₀ (by norm_num) (by norm_num)
      _ < 10 ^ (400 : ℤ) := hten

/-- The shortest decimal of a number lies between them. -/
theorem shortest_bounds {x : Float} {s : Sign} {m : ℕ} {e : ℤ} {hm : 0 < m}
    (h : x.toModel.unpack = .finite s m e hm) :
    10 ^ (-400 : ℤ) < (Binary.ofBits x.toBits).shortest.value ∧
      (Binary.ofBits x.toBits).shortest.value < 10 ^ (400 : ℤ) := by
  obtain ⟨hbits, hcanonical, hmost⟩ := ofBits_of_unpack h
  have hnear := (Binary.finds_shortest (isNumber_of_unpack h)).2
  rw [hbits] at hnear ⊢
  exact hnear.bounds hcanonical hmost

end ChainAgent.Decimal
