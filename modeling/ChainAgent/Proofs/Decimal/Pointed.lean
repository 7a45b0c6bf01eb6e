import ChainAgent.Proofs.Decimal.Notation
import ChainAgent.Proofs.Decimal.Shortest

/-! Numbers in positional notation with a decimal point.

Wherever the point is placed, the digits have the value that they are given with (`plain_pointed`),
so a finite positive number is printed with digits of the value of its shortest decimal
(`render_finite`). -/
namespace ChainAgent.Decimal

open Json (digitsValue digitsValue_natDigits natDigits_isDigit natDigits_head_ne_zero)
open Float.Model (Format UnpackedFloat)
open Float.Model.UnpackedFloat

/-! ### The value of digits -/

theorem digitsValue_append (ds es : List Char) :
    digitsValue (ds ++ es) = digitsValue ds * 10 ^ es.length + digitsValue es := by
  have hfrom (n : ℕ) : es.foldl (fun n c => n * 10 + (c.toNat - 48)) n =
      n * 10 ^ es.length + digitsValue es := by
    induction es generalizing n with
    | nil => simp [digitsValue]
    | cons e es ih =>
      rw [digitsValue, List.foldl_cons, List.foldl_cons, ih, ih, List.length_cons]
      ring
  rw [digitsValue, List.foldl_append, hfrom]
  rfl

theorem digitsValue_zeros (k : ℕ) : digitsValue (List.replicate k '0') = 0 := by
  induction k with
  | zero => rfl
  | succ k ih =>
    rw [List.replicate_succ', digitsValue_append, ih]
    rfl

/-- Digits on both sides of a point, without a superfluous leading zero, and their value. -/
structure Pointed (whole fraction : List Char) (v : ℚ) : Prop where
  wholeDigits : ∀ c ∈ whole, c.isDigit = true
  fractionDigits : ∀ c ∈ fraction, c.isDigit = true
  hasWhole : whole ≠ []
  hasFraction : fraction ≠ []
  trimmed : whole.length = 1 ∨ whole.head? ≠ some '0'
  value : (digitsValue (whole ++ fraction) / 10 ^ fraction.length : ℚ) = v

theorem isDigit_zeros (k : ℕ) : ∀ c ∈ List.replicate k '0', c.isDigit = true := by
  intro c hc
  rw [(List.mem_replicate.mp hc).2]
  decide

theorem head_append_ne {ds : List Char} (es : List Char) (hne : ds ≠ []) (h : ds.head? ≠ some '0') :
    (ds ++ es).head? ≠ some '0' := by
  obtain ⟨d, ds, rfl⟩ := List.exists_cons_of_ne_nil hne
  exact h

/-- **Wherever the point is placed, the digits have their value.** -/
theorem plain_pointed {n : ℕ} (hn : 0 < n) (e : ℤ) :
    ∃ whole fraction, positionalPointed.plain (natDigits n) e = whole ++ '.' :: fraction ∧
      Pointed whole fraction (n * 10 ^ e) := by
  have hdigits := natDigits_isDigit n
  have hhead := natDigits_head_ne_zero hn
  have hvalue := digitsValue_natDigits n
  have hsome : natDigits n ≠ [] := Nat.toDigits_ne_nil
  have hzero : digitsValue ['0'] = 0 := digitsValue_zeros 1
  generalize natDigits n = ds at *
  have hlength : 0 < ds.length := List.length_pos_of_ne_nil hsome
  simp only [Layout.plain]
  by_cases hright : 0 ≤ e
  · obtain ⟨k, rfl⟩ := Int.eq_ofNat_of_zero_le hright
    refine ⟨ds ++ List.replicate k '0', ['0'], by simp [positionalPointed], ?_⟩
    refine ⟨List.forall_mem_append.mpr ⟨hdigits, isDigit_zeros k⟩, isDigit_zeros 1, by simp [hsome],
      by simp, .inr (head_append_ne _ hsome hhead), ?_⟩
    rw [digitsValue_append, digitsValue_append, hvalue, digitsValue_zeros, List.length_replicate,
      hzero]
    push_cast
    simp
  · obtain ⟨k, rfl⟩ : ∃ k : ℕ, e = -k := ⟨(-e).toNat, by omega⟩
    have hscaled {m : ℕ} (hm : m = k) : ((n : ℕ) / 10 ^ m : ℚ) = n * 10 ^ (-k : ℤ) := by
      rw [hm, zpow_neg, zpow_natCast, div_eq_mul_inv]
    rw [if_neg hright]
    by_cases hinside : 0 < (ds.length : ℤ) + -k
    · obtain ⟨p, hp⟩ : ∃ p : ℕ, (ds.length : ℤ) + -k = p :=
        ⟨_, (Int.toNat_of_nonneg hinside.le).symm⟩
      rw [if_pos hinside, hp, Int.toNat_natCast]
      refine ⟨ds.take p, ds.drop p, rfl, fun c hc => hdigits c (List.mem_of_mem_take hc),
        fun c hc => hdigits c (List.mem_of_mem_drop hc), ?_, ?_, .inr ?_, ?_⟩
      · rw [Ne, List.take_eq_nil_iff, not_or]
        exact ⟨by omega, hsome⟩
      · rw [Ne, List.drop_eq_nil_iff]
        omega
      · rwa [List.head?_take, if_neg (by omega)]
      · rw [List.take_append_drop, hvalue, List.length_drop]
        exact hscaled (by omega)
    · rw [if_neg hinside]
      refine ⟨['0'], List.replicate (-((ds.length : ℤ) + -k)).toNat '0' ++ ds, rfl, isDigit_zeros 1,
        List.forall_mem_append.mpr ⟨isDigit_zeros _, hdigits⟩, by simp, by simp [hsome], .inl rfl,
        ?_⟩
      rw [digitsValue_append, digitsValue_append, hvalue, digitsValue_zeros, List.length_append,
        List.length_replicate, hzero, zero_mul, zero_mul, zero_add, zero_add]
      exact hscaled (by omega)

/-- A value between two powers of ten has few enough digits to be parsed. -/
theorem Pointed.bounds {whole fraction : List Char} {v : ℚ} (h : Pointed whole fraction v)
    (hlow : 10 ^ (-400 : ℤ) < v) (hhigh : v < 10 ^ (400 : ℤ)) :
    let n := digitsValue (whole ++ fraction)
    let size := (natDigits n).length
    0 < n ∧ fraction.length < size + 400 ∧ size ≤ fraction.length + 400 ∧
      fraction.length ≤ 2048 + n.log2 := by
  have hvalue := h.value
  generalize digitsValue (whole ++ fraction) = n at *
  generalize fraction.length = k at *
  subst hvalue
  have hk : (0 : ℚ) < 10 ^ k := by positivity
  have hleast : 10 ^ k < n * 10 ^ 400 := by
    rw [zpow_neg, inv_eq_one_div, div_lt_div_iff₀ (by positivity) hk, one_mul] at hlow
    exact_mod_cast hlow
  have hmost : n < 10 ^ (k + 400) := by
    rw [div_lt_iff₀ hk, mul_comm] at hhigh
    rw [pow_add]
    exact_mod_cast hhigh
  have hpos : 0 < n := Nat.pos_of_lt_mul_right hleast
  have hsize : n < 10 ^ (natDigits n).length :=
    (Nat.length_toDigits_le_iff (by decide) (List.length_pos_of_ne_nil Nat.toDigits_ne_nil)).mp
      (Nat.le_refl _)
  have hlog : n < 10 ^ (n.log2 + 1) :=
    Nat.lt_log2_self.trans_le (Nat.pow_le_pow_left (by norm_num) _)
  have hfew {p : ℕ} (hp : n < 10 ^ p) : k < p + 400 := by
    refine (Nat.pow_lt_pow_iff_right (by norm_num : 1 < 10)).mp ?_
    calc 10 ^ k < n * 10 ^ 400 := hleast
      _ < 10 ^ p * 10 ^ 400 := Nat.mul_lt_mul_of_pos_right hp (by positivity)
      _ = 10 ^ (p + 400) := (pow_add 10 p 400).symm
  refine ⟨hpos, hfew hsize, (Nat.length_toDigits_le_iff (by decide) (by omega)).mpr hmost, ?_⟩
  have := hfew hlog
  omega

/-! ### Numbers as they are written -/

theorem signBit_eq (bits : UInt64) :
    (bits >>> 63).toNat = (@unpackSign .binary64 bits.toBitVec).toNat := by
  rw [unpackSign_def, BitVec.extractLsb'_toNat, UInt64.toNat_shiftRight]
  show bits.toNat >>> 63 = bits.toNat >>> 63 % 2 ^ 1
  have hsmall := bits.toNat_lt
  rw [Nat.shiftRight_eq_div_pow]
  omega

/-- A positive number has no sign. -/
theorem unsigned_of_unpack {bits : UInt64} {m : ℕ} {e : ℤ} {hm : 0 < m}
    (h : UnpackedFloat.unpack .binary64 bits.toBitVec = .finite .positive m e hm) :
    (bits >>> 63 == 1) = false := by
  have hsign : Sign.ofBitVec (@unpackSign .binary64 bits.toBitVec) = .positive := by
    simp only [UnpackedFloat.unpack] at h
    split at h
    · split at h <;> cases h
    · split at h
      · split at h
        · cases h
        · injection h
      · injection h
  have hzero : @unpackSign .binary64 bits.toBitVec = 0#1 := by
    rw [Sign.ofBitVec] at hsign
    split at hsign
    · assumption
    · cases hsign
  rw [beq_eq_false_iff_ne]
  intro hone
  have hbit := signBit_eq bits
  rw [hone, hzero] at hbit
  cases hbit

/-- **A positive number is printed with digits of the value of its shortest decimal.** -/
theorem render_finite {x : Float} {m : ℕ} {e : ℤ} {hm : 0 < m}
    (h : x.toModel.unpack = .finite .positive m e hm) :
    ∃ whole fraction, (positionalPointed.render x).toList = whole ++ '.' :: fraction ∧
      Pointed whole fraction (Binary.ofBits x.toBits).shortest.value := by
  obtain ⟨hbits, -⟩ := ofBits_of_unpack h
  have hnan : x.isNaN = false := by
    show x.toModel.unpack.isNaN = false
    rw [h]
    rfl
  have hinf : x.isInf = false := by
    show x.toModel.unpack.isInf = false
    rw [h]
    rfl
  have hdigits := (Binary.finds_shortest (isNumber_of_unpack h)).1
  have hmantissa : ((Binary.ofBits x.toBits).mantissa == 0) = false := by
    rw [hbits, beq_eq_false_iff_ne]
    exact hm.ne'
  have hsign : (x.toBits >>> 63 == 1) = false := @unsigned_of_unpack x.toBits m e hm h
  obtain ⟨whole, fraction, hplain, hpointed⟩ :=
    plain_pointed hdigits (Binary.ofBits x.toBits).shortest.exponent
  refine ⟨whole, fraction, ?_, hpointed⟩
  simp only [Layout.render, hnan, hsign, hinf, Bool.false_eq_true, if_false,
    Layout.magnitude, hmantissa]
  simpa [positionalPointed] using hplain

/-- A number that is neither negative nor infinite nor NaN; zero may have a sign. -/
def IsMagnitude (x : Float) : Prop :=
  (∃ s, x.toModel.unpack = .zero s) ∨ ∃ m e hm, x.toModel.unpack = .finite .positive m e hm

/-- Comparisons with two bounds make a magnitude. -/
theorem isMagnitude_of_le {x : Float} (hlow : 0 ≤ x) (hhigh : x ≤ 2) : IsMagnitude x := by
  have hzero : (0 : Float).toModel.unpack = .zero .positive := by rfl
  have htwo : (2 : Float).toModel.unpack = .finite .positive (2 ^ 52) (-51) (by norm_num) := by rfl
  have hlow : (0 : Float).toModel.unpack.le x.toModel.unpack = true := of_decide_eq_true hlow
  have hhigh : x.toModel.unpack.le (2 : Float).toModel.unpack = true := of_decide_eq_true hhigh
  rw [hzero] at hlow
  rw [htwo] at hhigh
  cases hx : x.toModel.unpack with
  | notANumber =>
    rw [hx] at hlow
    cases hlow
  | infinity s =>
    rw [hx] at hlow hhigh
    cases s
    · cases hlow
    · cases hhigh
  | zero s => exact .inl ⟨s, hx⟩
  | finite s m e hm =>
    rw [hx] at hlow
    cases s
    · cases hlow
    · exact .inr ⟨m, e, hm, hx⟩

end ChainAgent.Decimal
