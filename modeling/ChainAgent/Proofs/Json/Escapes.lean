import ChainAgent.Proofs.Json.HexDigits
import ChainAgent.Proofs.Json.Strings

/-! Strings with all their escapes.

A string consists of UTF-16 code units: a character as it is, an escape of one letter, or four hex
digits each. Code units encode characters, one or, as a surrogate pair, two for a character; with a
lone surrogate the string is no text. The parser accepts exactly these strings
(`readText_eq_some_iff`). -/
namespace ChainAgent.Json

open Text (isHexDigit)

/-! ### The grammar -/

/-- The texts of a code unit in a string. -/
inductive WritesUnit : Nat → List Char → Prop
  | plain {c : Char} : c ≠ '"' → c ≠ '\\' → 32 ≤ c.toNat → WritesUnit c.toNat [c]
  | short {e : Char} {n : Nat} : shortEscape e = some n → WritesUnit n ['\\', e]
  | hex {digits : List Char} : digits.length = 4 → (∀ d ∈ digits, isHexDigit d = true) →
      WritesUnit (spelled digits) ('\\' :: 'u' :: digits)

/-- The text of code units in a string. -/
inductive WritesUnits : List Nat → List Char → Prop
  | nil : WritesUnits [] []
  | cons {n : Nat} {units : List Nat} {ds es : List Char} :
      WritesUnit n ds → WritesUnits units es → WritesUnits (n :: units) (ds ++ es)

/-- The characters that code units encode. -/
inductive Stand : List Nat → List Char → Prop
  | nil : Stand [] []
  | one {units : List Nat} {cs : List Char} (c : Char) : Stand units cs → Stand (c.toNat :: units) (c :: cs)
  | pair {high low : Nat} {units : List Nat} {cs : List Char} {c : Char} :
      isHighSurrogate high = true → isLowSurrogate low = true →
      c.toNat = 0x10000 + (high - 0xD800) * 0x400 + (low - 0xDC00) →
      Stand units cs → Stand (high :: low :: units) (c :: cs)

/-- The text of a string between its quotes; none where its code units have a lone surrogate. -/
inductive WritesText : Option String → List Char → Prop
  | whole {s : String} {units : List Nat} {ds : List Char} :
      WritesUnits units ds → Stand units s.toList → WritesText (some s) ds
  | halved {units : List Nat} {ds : List Char} :
      WritesUnits units ds → (∀ cs, ¬ Stand units cs) → WritesText none ds

/-! ### Units -/

theorem WritesUnit.read {n : Nat} {ds : List Char} (h : WritesUnit n ds) (units : List Nat)
    (rest : List Char) : readUnits units (ds ++ rest) = readUnits (n :: units) rest := by
  cases h with
  | plain hq hs hc => exact readUnits_plain units rest hq hs hc
  | short hn => exact readUnits_escape units rest hn
  | @hex digits hfour hdigits =>
    match digits, hfour with
    | [a, b, c, d], _ => exact readUnits_unit units rest (hexUnit_eq_some_iff.mpr ⟨hdigits, rfl⟩)

theorem WritesUnits.read {made : List Nat} {ds : List Char} (h : WritesUnits made ds) (units : List Nat)
    (rest : List Char) :
    readUnits units (ds ++ '"' :: rest) = some (made.reverse ++ units, rest) := by
  induction h generalizing units with
  | nil => exact readUnits_close units rest
  | cons hunit _ ih =>
    rw [List.append_assoc, hunit.read, ih, List.reverse_cons, List.append_assoc, List.singleton_append]

/-- The code units that are parsed up to the quote are those of the text. -/
theorem writesUnits_of_read {units made : List Nat} {cs rest : List Char}
    (h : readUnits units cs = some (made, rest)) :
    ∃ new ds, WritesUnits new ds ∧ cs = ds ++ '"' :: rest ∧ made = new.reverse ++ units := by
  have hstep {n : Nat} {units : List Nat} {ds tail : List Char} (hunit : WritesUnit n ds)
      (ih : ∃ new es, WritesUnits new es ∧ tail = es ++ '"' :: rest ∧ made = new.reverse ++ n :: units) :
      ∃ new es, WritesUnits new es ∧ ds ++ tail = es ++ '"' :: rest ∧ made = new.reverse ++ units := by
    obtain ⟨new, es, hnew, rfl, rfl⟩ := ih
    exact ⟨n :: new, ds ++ es, .cons hunit hnew, by rw [List.append_assoc], by simp⟩
  fun_induction readUnits units cs with
  | case1 | case4 | case6 | case7 => cases h
  | case2 units tail =>
    cases h
    exact ⟨[], [], .nil, rfl, rfl⟩
  | case3 units a b c d tail n hn ih =>
    obtain ⟨hdigits, rfl⟩ := hexUnit_eq_some_iff.mp hn
    exact hstep (@WritesUnit.hex [a, b, c, d] rfl hdigits) (ih h)
  | case5 units e tail hu n hn ih => exact hstep (.short hn) (ih h)
  | case8 units c tail hq _ _ hc ih =>
    simp only [Bool.or_eq_true, decide_eq_true_eq, beq_iff_eq, not_or, Nat.not_lt] at hc
    exact hstep (.plain hq hc.2 hc.1) (ih h)

/-- Code units have 16 bits. -/
theorem WritesUnit.lt {n : Nat} {ds : List Char} (h : WritesUnit n ds) : n < 0x110000 := by
  cases h with
  | @plain c _ _ _ =>
    have hv : c.toNat < 0xD800 ∨ (0xDFFF < c.toNat ∧ c.toNat < 0x110000) := c.valid
    omega
  | @short e _ hn =>
    unfold shortEscape at hn
    split at hn <;> cases hn <;> decide
  | hex hfour hdigits =>
    have hlt := spelled_lt hdigits
    rw [hfour] at hlt
    omega

theorem WritesUnits.forall_lt {units : List Nat} {ds : List Char} (h : WritesUnits units ds) :
    ∀ n ∈ units, n < 0x110000 := by
  induction h with
  | nil => exact nofun
  | cons hunit _ ih => exact List.forall_mem_cons.mpr ⟨hunit.lt, ih⟩

/-! ### Characters -/

theorem toNat_ofNat {n : Nat} (h : n.isValidChar) : (Char.ofNat n).toNat = n := by
  rw [Char.ofNat, dif_pos h]
  rfl

/-- A code unit that is no surrogate is the number of a character. -/
theorem toNat_ofNat_unit {n : Nat} (h : n < 0x110000) (hlow : isLowSurrogate n = false)
    (hhigh : isHighSurrogate n = false) : (Char.ofNat n).toNat = n := by
  simp only [isLowSurrogate, isHighSurrogate, Bool.and_eq_false_iff, decide_eq_false_iff_not] at hlow hhigh
  exact toNat_ofNat (by unfold Nat.isValidChar; omega)

theorem toNat_ofNat_pair {high low : Nat} (hhigh : isHighSurrogate high = true)
    (hlow : isLowSurrogate low = true) :
    (Char.ofNat (0x10000 + (high - 0xD800) * 0x400 + (low - 0xDC00))).toNat =
      0x10000 + (high - 0xD800) * 0x400 + (low - 0xDC00) := by
  simp only [isLowSurrogate, isHighSurrogate, Bool.and_eq_true, decide_eq_true_eq] at hlow hhigh
  exact toNat_ofNat (by unfold Nat.isValidChar; omega)

theorem joinUnits_one (c : Char) (made : List Char) (back : List Nat) :
    joinUnits made (c.toNat :: back) = joinUnits (c :: made) back := by
  obtain ⟨hlow, hhigh⟩ := not_surrogate c
  cases back with
  | nil => simp [joinUnits, hlow, hhigh]
  | cons n back => simp [joinUnits, hlow, hhigh]

theorem joinUnits_pair {high low : Nat} (hhigh : isHighSurrogate high = true)
    (hlow : isLowSurrogate low = true) (made : List Char) (back : List Nat) :
    joinUnits made (low :: high :: back) =
      joinUnits (Char.ofNat (0x10000 + (high - 0xD800) * 0x400 + (low - 0xDC00)) :: made) back := by
  rw [joinUnits, if_pos hlow, if_pos hhigh]

/-- Code units are decoded to their characters, after any others. -/
theorem Stand.join {units : List Nat} {cs : List Char} (h : Stand units cs) (made : List Char)
    (front : List Nat) : joinUnits made (units.reverse ++ front) = joinUnits (cs ++ made) front := by
  induction h generalizing front with
  | nil => rfl
  | one c _ ih =>
    rw [List.reverse_cons, List.append_assoc, List.singleton_append, ih, joinUnits_one, List.cons_append]
  | pair hhigh hlow hc _ ih =>
    rw [List.reverse_cons, List.reverse_cons, List.append_assoc, List.append_assoc,
      List.singleton_append, List.singleton_append, ih, joinUnits_pair hhigh hlow, ← hc,
      Char.ofNat_toNat, List.cons_append]

theorem Stand.append {us vs : List Nat} {cs ds : List Char} (h : Stand us cs) (h' : Stand vs ds) :
    Stand (us ++ vs) (cs ++ ds) := by
  induction h with
  | nil => exact h'
  | one c _ ih => exact .one c ih
  | pair hhigh hlow hc _ ih => exact .pair hhigh hlow hc ih

/-- Decoded characters are encoded by the code units. -/
theorem stand_of_join {units : List Nat} {made cs : List Char} (hsmall : ∀ n ∈ units, n < 0x110000)
    (h : joinUnits made units = some cs) :
    ∃ new, Stand units.reverse new ∧ cs = new ++ made := by
  have hone {n : Nat} {front : List Nat} {made : List Char} (hn : (Char.ofNat n).toNat = n)
      (ih : ∃ new, Stand front.reverse new ∧ cs = new ++ Char.ofNat n :: made) :
      ∃ new, Stand (n :: front).reverse new ∧ cs = new ++ made := by
    obtain ⟨new, hnew, rfl⟩ := ih
    have hlast := Stand.one (Char.ofNat n) .nil
    rw [hn] at hlast
    refine ⟨new ++ [Char.ofNat n], ?_, by rw [List.append_assoc, List.singleton_append]⟩
    rw [List.reverse_cons]
    exact hnew.append hlast
  -- The code units are in reverse, so each character is put before those decoded so far.
  fun_induction joinUnits made units with
  | case1 made =>
    cases h
    exact ⟨[], .nil, rfl⟩
  | case2 made low high front hlow hhigh ih =>
    obtain ⟨new, hnew, rfl⟩ := ih (fun n hn => hsmall n (by simp [hn])) h
    refine ⟨new ++ [_], ?_, by rw [List.append_assoc, List.singleton_append]⟩
    rw [List.reverse_cons, List.reverse_cons, List.append_assoc]
    exact hnew.append (.pair hhigh hlow (toNat_ofNat_pair hhigh hlow) .nil)
  | case3 | case4 | case6 => cases h
  | case5 made n next front hlow hhigh ih =>
    exact hone (toNat_ofNat_unit (hsmall n (by simp)) (by simpa using hlow) (by simpa using hhigh))
      (ih (fun n hn => hsmall n (List.mem_cons_of_mem _ hn)) h)
  | case7 made n hnot =>
    cases h
    simp only [Bool.or_eq_true, not_or, Bool.not_eq_true] at hnot
    exact hone (toNat_ofNat_unit (hsmall n (by simp)) hnot.1 hnot.2) ⟨[], .nil, rfl⟩

theorem joinUnits_eq_some_iff {units : List Nat} {cs : List Char} (hsmall : ∀ n ∈ units, n < 0x110000) :
    joinUnits [] units.reverse = some cs ↔ Stand units cs := by
  constructor
  · intro h
    obtain ⟨new, hnew, rfl⟩ := stand_of_join (fun n hn => hsmall n (List.mem_reverse.mp hn)) h
    rw [List.reverse_reverse] at hnew
    rwa [List.append_nil]
  · intro h
    have hjoin := h.join [] []
    rwa [List.append_nil, List.append_nil] at hjoin

/-! ### Strings -/

/-- The text up to the quote determines the string. -/
theorem WritesText.join {s : Option String} {ds : List Char} (h : WritesText s ds) :
    ∃ units, WritesUnits units ds ∧ (joinUnits [] units.reverse).map String.ofList = s := by
  cases h with
  | @whole s units _ hunits hstand =>
    refine ⟨units, hunits, ?_⟩
    rw [(joinUnits_eq_some_iff hunits.forall_lt).mpr hstand, Option.map_some, String.ofList_toList]
  | @halved units _ hunits hnone =>
    refine ⟨units, hunits, ?_⟩
    rw [Option.map_eq_none_iff, Option.eq_none_iff_forall_ne_some]
    exact fun cs hcs => hnone cs ((joinUnits_eq_some_iff hunits.forall_lt).mp hcs)

theorem writesText_of_join {units : List Nat} {ds : List Char} (h : WritesUnits units ds) :
    WritesText ((joinUnits [] units.reverse).map String.ofList) ds := by
  cases hjoin : joinUnits [] units.reverse with
  | none =>
    refine .halved h fun cs hcs => ?_
    rw [(joinUnits_eq_some_iff h.forall_lt).mpr hcs] at hjoin
    cases hjoin
  | some cs =>
    refine .whole h ?_
    rw [String.toList_ofList]
    exact (joinUnits_eq_some_iff h.forall_lt).mp hjoin

/-- **A string is parsed if it consists of characters and escapes up to its quote.** -/
theorem readText_eq_some_iff {s : Option String} {cs rest : List Char} :
    readText cs = some (s, rest) ↔ ∃ ds, WritesText s ds ∧ cs = ds ++ '"' :: rest := by
  constructor
  · intro h
    obtain ⟨⟨made, tail⟩, hread, heq⟩ := Option.map_eq_some_iff.mp h
    cases heq
    obtain ⟨units, ds, hunits, rfl, rfl⟩ := writesUnits_of_read hread
    rw [List.append_nil]
    exact ⟨ds, writesText_of_join hunits, rfl⟩
  · rintro ⟨ds, htext, rfl⟩
    obtain ⟨units, hunits, rfl⟩ := htext.join
    rw [readText, hunits.read, Option.map_some, List.append_nil]

/-- Characters that need no escape are in a string as they are. -/
theorem writesText_plain {s : String}
    (h : ∀ c ∈ s.toList, c ≠ '"' ∧ c ≠ '\\' ∧ 32 ≤ c.toNat) : WritesText (some s) s.toList := by
  suffices hchars : ∀ cs : List Char, (∀ c ∈ cs, c ≠ '"' ∧ c ≠ '\\' ∧ 32 ≤ c.toNat) →
      ∃ units, WritesUnits units cs ∧ Stand units cs by
    obtain ⟨units, hunits, hstand⟩ := hchars s.toList h
    exact .whole hunits hstand
  intro cs
  induction cs with
  | nil => exact fun _ => ⟨[], .nil, .nil⟩
  | cons c cs ih =>
    intro h
    obtain ⟨⟨hq, hs, hc⟩, hcs⟩ := List.forall_mem_cons.mp h
    obtain ⟨units, hunits, hstand⟩ := ih hcs
    exact ⟨c.toNat :: units, .cons (.plain hq hs hc) hunits, .one c hstand⟩

end ChainAgent.Json
