import ChainAgent.Proofs.Decimal.Pointed
import ChainAgent.Toml.Reader

/-! Parsing inverts printing for values on one line.

A word without a colon and without an inner hyphen is no date and no time (`isMoment_eq_false`).
Then digits alone are an integer (`scalar?_natural`), and digits on both sides of a point are the
number that they were printed from (`scalar?_real`). -/
namespace ChainAgent.Toml

open Decimal (natDigits positionalPointed Pointed)
open Json (digitsValue digitsValue_natDigits natDigits_isDigit natDigits_head_ne_zero)

/-! ### Words -/

/-- A value without quotes and brackets ends with its line. -/
theorem scalar_word {word : List Char} (hword : ∀ c ∈ word, isScalarChar c = true)
    (rest : List Char) :
    scalar (word ++ '\n' :: rest) = (scalar? word).map (·, '\n' :: rest) := by
  have htake : (word ++ '\n' :: rest).takeWhile isScalarChar = word := by
    rw [List.takeWhile_append_of_pos hword, List.takeWhile_cons_of_neg (by decide), List.append_nil]
  simp only [scalar, htake, List.drop_left]
  rfl

theorem pair?_eq_some {low below n : ℕ} {cs rest : List Char}
    (h : pair? low below cs = some (n, rest)) : ∀ c ∈ rest, c ∈ cs := by
  unfold pair? at h
  split at h
  · simp only [Option.ite_none_right_eq_some, Option.some.injEq, Prod.mk.injEq] at h
    obtain ⟨-, -, rfl⟩ := h
    exact fun c hc => List.mem_cons_of_mem _ (List.mem_cons_of_mem _ hc)
  · cases h

theorem time?_eq_none {cs : List Char} (h : ':' ∉ cs) : time? cs = none := by
  unfold time?
  cases hpair : pair? 0 24 cs with
  | none => rfl
  | some found =>
    obtain ⟨n, rest⟩ := found
    have hrest : ':' ∉ rest := fun hc => h (pair?_eq_some hpair _ hc)
    simp only [Option.bind_eq_bind, Option.bind_some]
    split
    · rename_i heq
      cases heq
      exact absurd List.mem_cons_self hrest
    · rfl

theorem date?_eq_none {cs : List Char} (h : '-' ∉ cs.tail) : date? cs = none := by
  have hdrop : '-' ∉ cs.drop 4 := by
    rw [← List.drop_one] at h
    intro hc
    rw [show cs.drop 4 = (cs.drop 1).drop 3 by rw [List.drop_drop]] at hc
    exact h (List.mem_of_mem_drop hc)
  simp only [date?]
  split
  · rfl
  · split
    · rename_i heq
      rw [heq] at hdrop
      exact absurd List.mem_cons_self hdrop
    · rfl

/-- A word without a colon and without an inner hyphen is no date and no time. -/
theorem isMoment_eq_false {cs : List Char} (hcolon : ':' ∉ cs) (hdash : '-' ∉ cs.tail) :
    isMoment cs = false := by
  rw [isMoment, date?_eq_none hdash]
  simp only [time?_eq_none hcolon]
  rfl

/-! ### Digits -/

theorem not_mem_of_isDigit {ds : List Char} (hds : ∀ c ∈ ds, c.isDigit = true) {c : Char}
    (hc : c.isDigit = false) : c ∉ ds := fun h => by
  rw [hds c h] at hc
  cases hc

theorem plainDigits_digits {ds : List Char} (hsome : ds ≠ []) (hds : ∀ c ∈ ds, c.isDigit = true) :
    plainDigits Char.isDigit ds = some ds := by
  induction ds with
  | nil => exact absurd rfl hsome
  | cons c ds ih =>
    obtain ⟨hc, hrest⟩ := List.forall_mem_cons.mp hds
    cases ds with
    | nil => simp [plainDigits, hc]
    | cons d ds =>
      have hd : d ≠ '_' := by
        rintro rfl
        exact absurd (hrest '_' List.mem_cons_self) (by decide)
      rw [plainDigits]
      · rw [if_pos hc, ih (List.cons_ne_nil d ds) hrest]
        rfl
      · exact nofun
      · rintro rest h
        exact hd (List.cons.inj h).1

/-- The digits of a number are its digits and underscores. -/
theorem mem_of_plainDigits {cs ds : List Char} (h : plainDigits Char.isDigit cs = some ds) :
    ∀ c ∈ cs, c.isDigit = true ∨ c = '_' := by
  fun_induction plainDigits Char.isDigit cs generalizing ds with
  | case1 => cases h
  | case2 c hc => simpa using .inl hc
  | case3 => cases h
  | case4 c rest hc ih =>
    obtain ⟨ds', hds', -⟩ := Option.map_eq_some_iff.mp h
    exact List.forall_mem_cons.mpr ⟨.inl hc, List.forall_mem_cons.mpr ⟨.inr rfl, ih hds'⟩⟩
  | case5 => cases h
  | case6 c rest _ _ hc ih =>
    obtain ⟨ds', hds', -⟩ := Option.map_eq_some_iff.mp h
    exact List.forall_mem_cons.mpr ⟨.inl hc, ih hds'⟩
  | case7 => cases h

/-- A text that begins with a digit has no sign, and is no word. -/
theorem signOf_digit {c : Char} (hc : c.isDigit = true) (rest : List Char) :
    signOf (c :: rest) = (false, c :: rest) := by
  unfold signOf
  split
  · rename_i h
    rw [(List.cons.inj h).1] at hc
    exact absurd hc (by decide)
  · rename_i h
    rw [(List.cons.inj h).1] at hc
    exact absurd hc (by decide)
  · rfl

/-- Without a sign and a base prefix an integer is its decimal digits. -/
theorem integer?_decimal {c : Char} {cs : List Char} (hc : c.isDigit = true)
    (hbase : ∀ d ∈ cs.head?, d ≠ 'x' ∧ d ≠ 'o' ∧ d ≠ 'b') :
    integer? (c :: cs) = (plainDigits Char.isDigit (c :: cs)).bind fun ds =>
      if !isTrimmed ds then none else bounded (digitsValue ds) := by
  unfold integer?
  split
  · rename_i h
    obtain ⟨rfl, rfl⟩ := List.cons.inj h
    exact absurd rfl (hbase _ rfl).1
  · rename_i h
    obtain ⟨rfl, rfl⟩ := List.cons.inj h
    exact absurd rfl (hbase _ rfl).2.1
  · rename_i h
    obtain ⟨rfl, rfl⟩ := List.cons.inj h
    exact absurd rfl (hbase _ rfl).2.2
  · rw [signOf_digit hc]
    rfl

theorem scalar?_of_digit {c : Char} {cs : List Char} (hc : c.isDigit = true)
    (hmoment : isMoment (c :: cs) = false) :
    scalar? (c :: cs) = (integer? (c :: cs) <|> real? (c :: cs)) := by
  have htrue : c ≠ 't' := by
    rintro rfl
    exact absurd hc (by decide)
  have hfalse : c ≠ 'f' := by
    rintro rfl
    exact absurd hc (by decide)
  simp [scalar?, htrue, hfalse, hmoment]

/-! ### Integers -/

/-- **A natural number is parsed as it is printed.** -/
theorem scalar?_natural {n : ℕ} (hn : n < 2 ^ 128) : scalar? (natDigits n) = some (.integer n) := by
  have hdigits := natDigits_isDigit n
  have hvalue := digitsValue_natDigits n
  have htrimmed : isTrimmed (natDigits n) = true := by
    obtain rfl | hpos := Nat.eq_zero_or_pos n
    · rfl
    · rw [isTrimmed, Bool.or_eq_true, bne_iff_ne]
      exact .inr (natDigits_head_ne_zero hpos)
  have hplain := @plainDigits_digits (natDigits n) Nat.toDigits_ne_nil hdigits
  obtain ⟨c, cs, hcs⟩ := List.exists_cons_of_ne_nil (@Nat.toDigits_ne_nil n 10)
  rw [← natDigits] at hcs
  rw [hcs] at hdigits hvalue htrimmed hplain ⊢
  have hc := hdigits c List.mem_cons_self
  have hmoment : isMoment (c :: cs) = false :=
    isMoment_eq_false (not_mem_of_isDigit hdigits (by decide)) fun h =>
      not_mem_of_isDigit hdigits (by decide) (List.mem_of_mem_tail h)
  have hbase : ∀ d ∈ cs.head?, d ≠ 'x' ∧ d ≠ 'o' ∧ d ≠ 'b' := by
    intro d hd
    have hdigit := hdigits d (List.mem_cons_of_mem _ (List.mem_of_mem_head? hd))
    refine ⟨?_, ?_, ?_⟩ <;> rintro rfl <;> exact absurd hdigit (by decide)
  have hbounded : bounded n = some (.integer n) := by
    rw [bounded, if_pos]
    rw [Bool.and_eq_true, decide_eq_true_iff, decide_eq_true_iff]
    exact ⟨(neg_nonpos.mpr (Int.natCast_nonneg _)).trans (Int.natCast_nonneg n),
      Int.ofNat_lt.mpr hn⟩
  rw [scalar?_of_digit hc hmoment, integer?_decimal hc hbase, hplain]
  simp [htrimmed, hvalue, hbounded]

/-! ### Numbers with a point -/

section Pointed

variable {whole fraction : List Char} {v : ℚ} (h : Pointed whole fraction v)
include h

theorem mem_pointed : ∀ c ∈ whole ++ '.' :: fraction, c.isDigit = true ∨ c = '.' :=
  List.forall_mem_append.mpr ⟨fun c hc => .inl (h.wholeDigits c hc),
    List.forall_mem_cons.mpr ⟨.inr rfl, fun c hc => .inl (h.fractionDigits c hc)⟩⟩

theorem not_mem_pointed {c : Char} (hdigit : c.isDigit = false) (hpoint : c ≠ '.') :
    c ∉ whole ++ '.' :: fraction := by
  intro hc
  obtain hc | hc := mem_pointed h c hc
  · rw [hdigit] at hc
    cases hc
  · exact hpoint hc

/-- Digits on both sides of a point are no integer. -/
theorem scalar?_pointed :
    scalar? (whole ++ '.' :: fraction) = real? (whole ++ '.' :: fraction) := by
  have hnone : plainDigits Char.isDigit (whole ++ '.' :: fraction) = none := by
    cases hplain : plainDigits Char.isDigit (whole ++ '.' :: fraction) with
    | none => rfl
    | some ds => exact absurd (mem_of_plainDigits hplain '.' (by simp)) (by decide)
  have hmoment : isMoment (whole ++ '.' :: fraction) = false :=
    isMoment_eq_false (not_mem_pointed h (by decide) (by decide)) fun hc =>
      not_mem_pointed h (by decide) (by decide) (List.mem_of_mem_tail hc)
  have hletter {c : Char} (hc : c ∈ whole ++ '.' :: fraction) : c ≠ 'x' ∧ c ≠ 'o' ∧ c ≠ 'b' := by
    refine ⟨?_, ?_, ?_⟩ <;> rintro rfl <;> exact not_mem_pointed h (by decide) (by decide) hc
  obtain ⟨c, cs, rfl⟩ := List.exists_cons_of_ne_nil h.hasWhole
  have hc := h.wholeDigits c List.mem_cons_self
  rw [List.cons_append] at *
  rw [scalar?_of_digit hc hmoment, integer?_decimal hc fun d hd =>
    hletter (List.mem_cons_of_mem _ (List.mem_of_mem_head? hd)), hnone]
  rfl

/-- Digits on both sides of a point have their value. -/
theorem real?_pointed : real? (whole ++ '.' :: fraction) =
    scaled? false (whole ++ fraction) (-fraction.length) := by
  have hmark : (whole ++ '.' :: fraction).takeWhile (fun c => !(c == 'e' || c == 'E')) =
      whole ++ '.' :: fraction := by
    rw [List.takeWhile_eq_self_iff]
    intro c hc
    have he : c ≠ 'e' := fun he => not_mem_pointed h (by decide) (by decide) (he ▸ hc)
    have hE : c ≠ 'E' := fun hE => not_mem_pointed h (by decide) (by decide) (hE ▸ hc)
    simp [he, hE]
  have hpoint : ∀ c ∈ whole, (c != '.') = true := by
    intro c hc
    rw [bne_iff_ne]
    rintro rfl
    exact absurd (h.wholeDigits _ hc) (by decide)
  have hbefore : (whole ++ '.' :: fraction).takeWhile (· != '.') = whole := by
    rw [List.takeWhile_append_of_pos hpoint, List.takeWhile_cons_of_neg (by decide),
      List.append_nil]
  have hbehind : (whole ++ '.' :: fraction).dropWhile (· != '.') = '.' :: fraction := by
    rw [List.dropWhile_append_of_pos hpoint, List.dropWhile_cons_of_neg (by decide)]
  have htrimmed : isTrimmed whole = true := by
    rw [isTrimmed, Bool.or_eq_true, beq_iff_eq, bne_iff_ne]
    exact h.trimmed
  have hword {w : List Char} (hw : 'n' ∈ w) : ((whole ++ '.' :: fraction) == w) = false := by
    rw [beq_eq_false_iff_ne]
    rintro rfl
    exact not_mem_pointed h (by decide) (by decide) hw
  have hsign : signOf (whole ++ '.' :: fraction) = (false, whole ++ '.' :: fraction) := by
    obtain ⟨c, cs, rfl⟩ := List.exists_cons_of_ne_nil h.hasWhole
    exact signOf_digit (h.wholeDigits c List.mem_cons_self) _
  have hinf : ((whole ++ '.' :: fraction) == ['i', 'n', 'f']) = false := hword (by decide)
  have hnan : ((whole ++ '.' :: fraction) == ['n', 'a', 'n']) = false := hword (by decide)
  simp only [real?, hsign, hinf, hnan, Bool.false_eq_true, if_false, hmark, List.drop_length,
    hbefore, hbehind, plainDigits_digits h.hasWhole h.wholeDigits,
    plainDigits_digits h.hasFraction h.fractionDigits]
  simp [htrimmed]

end Pointed

/-- Digits with the value of a number's shortest decimal are parsed as that number. -/
theorem scaled?_shortest {x : Float} {m : ℕ} {e : ℤ} {hm : 0 < m}
    (h : x.toModel.unpack = .finite .positive m e hm) {whole fraction : List Char}
    (hdigits : Pointed whole fraction (Decimal.Binary.ofBits x.toBits).shortest.value) :
    scaled? false (whole ++ fraction) (-fraction.length) = some (.real x) := by
  obtain ⟨hlow, hhigh⟩ := Decimal.shortest_bounds h
  obtain ⟨hpos, hleast, hmost, hfew⟩ := hdigits.bounds hlow hhigh
  have hpoint : 0 < fraction.length := List.length_pos_of_ne_nil hdigits.hasFraction
  have hread := Decimal.ofScientific_shortest h hpoint hfew hdigits.value
  have hnumber :
      Decimal.ofScaled false (digitsValue (whole ++ fraction)) (-fraction.length) = x := by
    have hnegative : decide ((-fraction.length : ℤ) < 0) = true := by
      rw [decide_eq_true_iff]
      omega
    simp only [Decimal.ofScaled, hnegative, Int.natAbs_neg, Int.natAbs_natCast, hread]
    rfl
  have hinf : x.isInf = false := by
    show x.toModel.unpack.isInf = false
    rw [h]
    rfl
  simp only [scaled?, hnumber, hinf]
  rw [if_neg, if_neg]
  · rfl
  · omega
  · simp only [Bool.or_eq_true, beq_iff_eq, decide_eq_true_iff]
    omega

/-! ### Numbers as they are written -/

/-- **A number that is not negative is parsed as it is printed**, zero with its sign. -/
theorem scalar?_real {x : Float} (h : Decimal.IsMagnitude x) :
    scalar? (positionalPointed.render x).toList = some (.real x) := by
  obtain ⟨s, hzero⟩ | ⟨m, e, hm, hx⟩ := h
  · have hsame := Decimal.pack_unpack x
    rw [hzero] at hsame
    subst hsame
    cases s with
    | negative =>
      have htext : (positionalPointed.render (.ofModel (.pack (.zero .negative)))).toList =
          ['-', '0', '.', '0'] := by decide +kernel
      rw [htext]
      rfl
    | positive =>
      have htext : (positionalPointed.render (.ofModel (.pack (.zero .positive)))).toList =
          ['0', '.', '0'] := by decide +kernel
      rw [htext]
      rfl
  · obtain ⟨whole, fraction, htext, hdigits⟩ := Decimal.render_finite hx
    rw [htext, scalar?_pointed hdigits, real?_pointed hdigits, scaled?_shortest hx hdigits]

end ChainAgent.Toml
