import ChainAgent.Json.Printer
import ChainAgent.Json.Reader

/-! Parsing of strings.

Parsing a string consumes the text up to the closing quote and looks no further (`readText_append`).
A printed string is parsed as its text (`readText_quote`). -/
namespace ChainAgent.Json

/-! ### One step of the reader -/

theorem readUnits_close (units : List Nat) (rest : List Char) :
    readUnits units ('"' :: rest) = some (units, rest) := rfl

theorem readUnits_unit {a b c d : Char} {n : Nat} (units : List Nat) (rest : List Char)
    (hn : hexUnit a b c d = some n) :
    readUnits units ('\\' :: 'u' :: a :: b :: c :: d :: rest) = readUnits (n :: units) rest := by
  rw [readUnits, hn]

theorem readUnits_escape {e : Char} {n : Nat} (units : List Nat) (rest : List Char)
    (hn : shortEscape e = some n) :
    readUnits units ('\\' :: e :: rest) = readUnits (n :: units) rest := by
  rw [readUnits, hn]
  rintro _ _ _ _ _ rfl
  simp [shortEscape] at hn

theorem readUnits_plain {c : Char} (units : List Nat) (rest : List Char) (hq : c ≠ '"')
    (hs : c ≠ '\\') (hc : 32 ≤ c.toNat) :
    readUnits units (c :: rest) = readUnits (c.toNat :: units) rest := by
  rw [readUnits]
  · simp [hs, Nat.not_lt.mpr hc]
  · exact hq
  · intro _ _ _ _ _ h
    exact absurd h hs
  · intro _ _ h
    exact absurd h hs

/-! ### Where a string ends -/

/-- The rest after a string is the text after its quote. -/
theorem readUnits_suffix {units made : List Nat} {cs rest : List Char}
    (h : readUnits units cs = some (made, rest)) : ∃ front, cs = front ++ '"' :: rest := by
  fun_induction readUnits units cs with
  | case1 | case4 | case6 | case7 => cases h
  | case2 units tail =>
    cases h
    exact ⟨[], rfl⟩
  | case3 units a b c d tail n hn ih =>
    obtain ⟨front, rfl⟩ := ih h
    exact ⟨'\\' :: 'u' :: a :: b :: c :: d :: front, rfl⟩
  | case5 units e tail hu n hn ih =>
    obtain ⟨front, rfl⟩ := ih h
    exact ⟨'\\' :: e :: front, rfl⟩
  | case8 units c tail hq _ _ hc ih =>
    obtain ⟨front, rfl⟩ := ih h
    exact ⟨c :: front, rfl⟩

theorem readUnits_append {units made : List Nat} {cs rest : List Char} (more : List Char)
    (h : readUnits units cs = some (made, rest)) :
    readUnits units (cs ++ more) = some (made, rest ++ more) := by
  fun_induction readUnits units cs with
  | case1 | case4 | case6 | case7 => cases h
  | case2 units tail =>
    cases h
    exact readUnits_close _ _
  | case3 units a b c d tail n hn ih =>
    rw [← ih h]
    exact readUnits_unit units _ hn
  | case5 units e tail hu n hn ih =>
    rw [← ih h]
    exact readUnits_escape units _ hn
  | case8 units c tail hq _ _ hc ih =>
    simp only [Bool.or_eq_true, decide_eq_true_eq, beq_iff_eq, not_or, Nat.not_lt] at hc
    rw [← ih h]
    exact readUnits_plain units _ hq hc.2 hc.1

/-- If a prefix without a character is removed, that character stays in the rest. -/
theorem rest_of_taken {x : Char} {front tail taken rest : List Char}
    (h : front ++ x :: tail = taken ++ rest) (hx : x ∉ taken) :
    ∃ between, front = taken ++ between ∧ rest = between ++ x :: tail := by
  obtain ⟨as, rfl, has⟩ | ⟨between, hfront, hrest⟩ := List.append_eq_append_iff.mp h
  · cases as with
    | nil => exact ⟨[], by simp, has.symm⟩
    | cons a as =>
      cases has
      exact absurd (by simp) hx
  · exact ⟨between, hfront, hrest⟩

theorem hexUnit_brace {a b c d : Char} {n : Nat} (h : hexUnit a b c d = some n) :
    '{' ∉ [a, b, c, d] := by
  have hb : hexValue '{' = none := by decide
  intro hmem
  simp only [List.mem_cons, List.not_mem_nil, or_false] at hmem
  obtain rfl | rfl | rfl | rfl := hmem <;> simp [hexUnit, hb] at h

/-- A string that begins before an object ends before it, or at the quote of the object's first key:
only a plain character of a string can be the brace. -/
theorem readUnits_before_object {units made : List Nat} {front rest tail : List Char}
    (h : readUnits units (front ++ '{' :: '"' :: tail) = some (made, rest)) :
    (∃ between, rest = between ++ '{' :: '"' :: tail) ∨ rest = tail := by
  generalize hcs : front ++ '{' :: '"' :: tail = cs at h
  fun_induction readUnits units cs generalizing front with
  | case1 | case4 | case6 | case7 => cases h
  | case2 units rest =>
    cases h
    cases front with
    | nil => cases hcs
    | cons c front =>
      cases hcs
      exact .inl ⟨front, rfl⟩
  | case3 units a b c d rest n hn ih =>
    have hx : '{' ∉ ['\\', 'u', a, b, c, d] := by
      simpa using hexUnit_brace hn
    obtain ⟨between, -, rfl⟩ := rest_of_taken hcs hx
    exact ih rfl h
  | case5 units e rest hu n hn ih =>
    have hx : '{' ∉ ['\\', e] := by
      simp only [List.mem_cons, List.not_mem_nil, or_false]
      rintro (hx | rfl)
      · cases hx
      · simp [shortEscape] at hn
    obtain ⟨between, -, rfl⟩ := rest_of_taken hcs hx
    exact ih rfl h
  | case8 units c rest hq _ _ hc ih =>
    by_cases hx : c = '{'
    · cases front with
      | nil =>
        cases hcs
        rw [readUnits_close] at h
        cases h
        exact .inr rfl
      | cons a front =>
        cases hcs
        exact ih rfl h
    · have hcs' : front ++ '{' :: '"' :: tail = [c] ++ rest := hcs
      obtain ⟨between, -, rfl⟩ := rest_of_taken hcs' (by simpa using Ne.symm hx)
      exact ih rfl h

/-! ### Strings as they are written -/

theorem hexUnit_control :
    ∀ n < 32, hexUnit '0' '0' (hexDigit (n / 16)) (hexDigit (n % 16)) = some n := by
  decide

/-- However a character is escaped, it is parsed as one code unit. -/
theorem readUnits_escapeChar (c : Char) (units : List Nat) (rest : List Char) :
    readUnits units (escapeChar c ++ rest) = readUnits (c.toNat :: units) rest := by
  unfold escapeChar
  split
  · exact readUnits_escape units rest rfl
  · exact readUnits_escape units rest rfl
  · exact readUnits_escape units rest rfl
  · exact readUnits_escape units rest rfl
  · exact readUnits_escape units rest rfl
  · rename_i hq hs _ _ _
    split
    · rename_i h8
      rw [beq_iff_eq] at h8
      rw [h8]
      exact readUnits_escape units rest rfl
    · split
      · rename_i h12
        rw [beq_iff_eq] at h12
        rw [h12]
        exact readUnits_escape units rest rfl
      · split
        · rename_i hc
          exact readUnits_unit units rest (hexUnit_control c.toNat hc)
        · rename_i hc
          exact readUnits_plain units rest hq hs (Nat.not_lt.mp hc)

theorem readUnits_escaped (cs : List Char) (units : List Nat) (rest : List Char) :
    readUnits units (cs.flatMap escapeChar ++ '"' :: rest) =
      some ((cs.map Char.toNat).reverse ++ units, rest) := by
  induction cs generalizing units with
  | nil => exact readUnits_close units rest
  | cons c cs ih =>
    rw [List.flatMap_cons, List.append_assoc, readUnits_escapeChar, ih]
    simp

/-- No character is a surrogate. -/
theorem not_surrogate (c : Char) :
    isLowSurrogate c.toNat = false ∧ isHighSurrogate c.toNat = false := by
  have hv : c.toNat < 0xD800 ∨ (0xDFFF < c.toNat ∧ c.toNat < 0x110000) := c.valid
  simp only [isLowSurrogate, isHighSurrogate, Bool.and_eq_false_iff, decide_eq_false_iff_not]
  omega

theorem joinUnits_chars (cs made : List Char) :
    joinUnits made (cs.map Char.toNat) = some (cs.reverse ++ made) := by
  induction cs generalizing made with
  | nil => rfl
  | cons c cs ih =>
    obtain ⟨hlow, hhigh⟩ := not_surrogate c
    cases cs with
    | nil => simp [joinUnits, hlow, hhigh]
    | cons d cs =>
      rw [List.map_cons, List.map_cons, joinUnits, hlow, hhigh]
      simp only [Bool.false_eq_true, if_false, Char.ofNat_toNat]
      rw [← List.map_cons, ih]
      simp

/-! ### Texts between quotes -/

/-- A printed string is parsed as its text. -/
theorem readText_quote (s : String) (rest : List Char) :
    readText (s.toList.flatMap escapeChar ++ '"' :: rest) = some (some s, rest) := by
  have hjoin := joinUnits_chars s.toList.reverse []
  rw [List.map_reverse, List.reverse_reverse, List.append_nil] at hjoin
  simp [readText, readUnits_escaped, hjoin]

theorem readText_before_object {front rest tail : List Char} {s : Option String}
    (h : readText (front ++ '{' :: '"' :: tail) = some (s, rest)) :
    (∃ between, rest = between ++ '{' :: '"' :: tail) ∨ rest = tail := by
  obtain ⟨⟨units, rest'⟩, hunits, heq⟩ := Option.map_eq_some_iff.mp h
  cases heq
  exact readUnits_before_object hunits

theorem readText_append {cs rest : List Char} {s : Option String} (more : List Char)
    (h : readText cs = some (s, rest)) : readText (cs ++ more) = some (s, rest ++ more) := by
  obtain ⟨⟨units, rest'⟩, hunits, heq⟩ := Option.map_eq_some_iff.mp h
  cases heq
  simp [readText, readUnits_append more hunits]

theorem readText_suffix {cs rest : List Char} {s : Option String}
    (h : readText cs = some (s, rest)) : ∃ front, cs = front ++ '"' :: rest := by
  obtain ⟨⟨units, rest'⟩, hunits, heq⟩ := Option.map_eq_some_iff.mp h
  cases heq
  exact readUnits_suffix hunits

end ChainAgent.Json
