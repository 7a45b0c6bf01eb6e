import ChainAgent.Proofs.Toml.Scalars
import ChainAgent.Proofs.Toml.Strings
import ChainAgent.Toml.Printer

/-! Parsing inverts printing for the lines of a document.

A plain value is on one line after its key (`value_plain`), and so is a header with the path of its
table (`header_path`). Parsing a line is adding the line's member or opening its header's table, and
then parsing the lines after it (`Reads.line`, `Reads.header`). -/
namespace ChainAgent.Toml

open Decimal (natDigits positionalPointed)

/-! ### Plain values -/

/-- A value that is printed on one line and parsed there. -/
inductive IsPlain : Value → Prop where
  | text (s : String) : IsPlain (.text s)
  | natural {n : ℕ} (hn : n < 2 ^ 128) : IsPlain (.integer n)
  | real {x : Float} (hx : Decimal.IsMagnitude x) : IsPlain (.real x)
  | bool (b : Bool) : IsPlain (.bool b)
  | noTables : IsPlain (.tables [])

/-- The parse of a plain value: an empty array of tables is parsed as an empty array. -/
def inlined : Value → Value
  | .tables [] => .array []
  | v => v

theorem value_word {word : List Char} (hsome : word ≠ [])
    (hword : ∀ c ∈ word, isScalarChar c = true) (fuel : ℕ) (rest : List Char) :
    value 0 (fuel + 1) (word ++ '\n' :: rest) = (scalar? word).map (·, '\n' :: rest) := by
  rw [← scalar_word hword]
  obtain ⟨c, word, rfl⟩ := List.exists_cons_of_ne_nil hsome
  have hc := hword c List.mem_cons_self
  rw [List.cons_append, value]
  · rintro tail h
    rw [(List.cons.inj h).1] at hc
    exact absurd hc (by decide)
  · rintro tail h
    rw [(List.cons.inj h).1] at hc
    exact absurd hc (by decide)
  · rintro tail h
    rw [(List.cons.inj h).1] at hc
    exact absurd hc (by decide)
  · rintro tail h
    rw [(List.cons.inj h).1] at hc
    exact absurd hc (by decide)

theorem quote_head (s : String) : ∃ q text, IsQuote q ∧ (quote s).toList = q :: text := by
  simp only [quote]
  cases styleOf s.toList with
  | basic => exact ⟨'"', _, .inl rfl, by simp; rfl⟩
  | literal => exact ⟨'\'', _, .inr rfl, by simp; rfl⟩
  | basicLines => exact ⟨'"', _, .inl rfl, by simp; rfl⟩
  | literalLines => exact ⟨'\'', _, .inr rfl, by simp; rfl⟩

theorem isScalarChar_of_isNotation {c : Char} (h : Decimal.IsNotation c) :
    isScalarChar c = true := by
  obtain hdigit | hmark := h
  · simp [isScalarChar, Char.isAlphanum, hdigit]
  · fin_cases hmark <;> decide

theorem isScalarChar_render (x : Float) :
    ∀ c ∈ (positionalPointed.render x).toList, isScalarChar c = true := by
  have hnan : positionalPointed.notANumber.toList.all isScalarChar = true := by decide
  have hinf : positionalPointed.infinity.toList.all isScalarChar = true := by decide
  intro c hc
  obtain h | h | h := Decimal.Layout.mem_render hc
  · exact isScalarChar_of_isNotation h
  · exact List.all_eq_true.mp hnan c h
  · exact List.all_eq_true.mp hinf c h

/-- A word that is parsed as a value can stand on its line. -/
theorem value_scalar {word : List Char} {v : Value} (hword : ∀ c ∈ word, isScalarChar c = true)
    (h : scalar? word = some v) :
    (∀ c ∈ word.head?, isSpace c = false) ∧ ∀ rest fuel,
      value 0 (fuel + 1) (word ++ '\n' :: rest) = some (v, '\n' :: rest) := by
  have hsome : word ≠ [] := by
    rintro rfl
    cases h
  constructor
  · intro c hc
    have hscalar := hword c (List.mem_of_mem_head? hc)
    rw [Bool.eq_false_iff]
    intro hspace
    rw [isSpace, Bool.or_eq_true, beq_iff_eq, beq_iff_eq] at hspace
    obtain rfl | rfl := hspace <;> exact absurd hscalar (by decide)
  · intro rest fuel
    rw [value_word hsome hword, h]
    rfl

/-- **A plain value is parsed as it is printed.** -/
theorem value_plain {v : Value} (h : IsPlain v) :
    ∃ text, plainText v = some text ∧ (∀ c ∈ text.toList.head?, isSpace c = false) ∧
      ∀ rest fuel, value 0 (fuel + 2) (text.toList ++ '\n' :: rest) =
        some (inlined v, '\n' :: rest) := by
  cases h with
  | text s =>
    obtain ⟨q, text, hq, hquote⟩ := quote_head s
    refine ⟨quote s, rfl, ?_, fun rest fuel => ?_⟩
    · rw [hquote]
      obtain rfl | rfl := hq <;> simp [isSpace]
    · have hread := readText_quote s rest
      rw [hquote] at hread ⊢
      obtain rfl | rfl := hq <;> simp only [List.cons_append, value] at hread ⊢ <;>
        rw [hread] <;> rfl
  | @natural n hn =>
    have htext : (toString (n : ℤ)).toList = natDigits n := Decimal.toList_toString_int n
    have hdigits : ∀ c ∈ natDigits n, isScalarChar c = true := fun c hc =>
      isScalarChar_of_isNotation (Decimal.isNotation_natDigits n c hc)
    obtain ⟨hhead, hread⟩ := value_scalar hdigits (scalar?_natural hn)
    exact ⟨toString (n : ℤ), rfl, htext ▸ hhead, fun rest fuel => htext ▸ hread rest (fuel + 1)⟩
  | @real x hx =>
    obtain ⟨hhead, hread⟩ := value_scalar (isScalarChar_render x) (scalar?_real hx)
    exact ⟨_, rfl, hhead, fun rest fuel => hread rest (fuel + 1)⟩
  | bool b =>
    have hword : ∀ c ∈ (toString b).toList, isScalarChar c = true := by
      rw [← List.all_eq_true]
      cases b <;> decide
    have hvalue : scalar? (toString b).toList = some (.bool b) := by
      cases b <;> rfl
    obtain ⟨hhead, hread⟩ := value_scalar hword hvalue
    exact ⟨_, rfl, hhead, fun rest fuel => hread rest (fuel + 1)⟩
  | noTables => exact ⟨"[]", rfl, by simp [isSpace], fun rest fuel => rfl⟩

/-! ### Keys -/

/-- A bare key, which needs no quotes. -/
def IsBare (key : String) : Prop := key.toList ≠ [] ∧ key.toList.all isKeyChar = true

instance : DecidablePred IsBare := fun _ => inferInstanceAs (Decidable (_ ∧ _))

/-- A character that begins no whitespace, comment or line break. -/
def IsSolid (c : Char) : Prop := isSpace c = false ∧ c ≠ '#' ∧ c ≠ '\n' ∧ c ≠ '\r'

theorem isSolid_of_isKeyChar {c : Char} (h : isKeyChar c = true) : IsSolid c := by
  refine ⟨?_, ?_, ?_, ?_⟩
  · rw [Bool.eq_false_iff]
    intro hspace
    rw [isSpace, Bool.or_eq_true, beq_iff_eq, beq_iff_eq] at hspace
    obtain rfl | rfl := hspace <;> exact absurd h (by decide)
  all_goals
    rintro rfl
    exact absurd h (by decide)

theorem IsBare.exists_cons {key : String} (h : IsBare key) :
    ∃ c cs, key.toList = c :: cs ∧ isKeyChar c = true := by
  obtain ⟨hsome, hchars⟩ := h
  obtain ⟨c, cs, hkey⟩ := List.exists_cons_of_ne_nil hsome
  rw [hkey, List.all_cons, Bool.and_eq_true] at hchars
  exact ⟨c, cs, hkey, hchars.1⟩

theorem skipSpace_solid {c : Char} (h : isSpace c = false) (cs : List Char) :
    skipSpace (c :: cs) = c :: cs :=
  List.dropWhile_cons_of_neg (by simp [h])

theorem keyPart_bare {key : String} (h : IsBare key) {rest : List Char}
    (hrest : ∀ c ∈ rest.head?, isKeyChar c = false) :
    keyPart (skipSpace (key.toList ++ rest)) = some (key, rest) := by
  have htake : (key.toList ++ rest).takeWhile isKeyChar = key.toList := by
    rw [List.takeWhile_append_of_pos (List.all_eq_true.mp h.2)]
    cases rest with
    | nil => simp
    | cons c rest => rw [List.takeWhile_cons_of_neg (by simp [hrest c rfl]), List.append_nil]
  obtain ⟨c, cs, hkey, hc⟩ := h.exists_cons
  have hskip : skipSpace (key.toList ++ rest) = key.toList ++ rest := by
    rw [hkey, List.cons_append, skipSpace_solid (isSolid_of_isKeyChar hc).1]
  have hnone : (key.toList).isEmpty = false := by
    rw [hkey]
    rfl
  rw [hskip, keyPart]
  · simp only [htake, hnone, Bool.false_eq_true, if_false, List.drop_left, String.ofList_toList]
  · rintro tail h
    rw [hkey, List.cons_append] at h
    rw [(List.cons.inj h).1] at hc
    exact absurd hc (by decide)
  · rintro tail h
    rw [hkey, List.cons_append] at h
    rw [(List.cons.inj h).1] at hc
    exact absurd hc (by decide)

/-- A path of bare keys is parsed as it is printed. -/
theorem keyParts_path {path : List String} (hsome : path ≠ []) (hbare : ∀ key ∈ path, IsBare key)
    {rest : List Char} (hrest : ∀ c ∈ rest.head?, isKeyChar c = false)
    (hpoint : (skipSpace rest).head? ≠ some '.') {fuel : ℕ} (hfuel : path.length ≤ fuel) :
    keyParts fuel ((".".intercalate path).toList ++ rest) = some (path, skipSpace rest) := by
  induction path generalizing fuel with
  | nil => exact absurd rfl hsome
  | cons key path ih =>
    obtain ⟨fuel, rfl⟩ := Nat.exists_eq_succ_of_ne_zero (Nat.ne_zero_of_lt hfuel)
    obtain ⟨hkey, hlater⟩ := List.forall_mem_cons.mp hbare
    cases path with
    | nil =>
      have hlast : ".".intercalate [key] = key := by simp
      rw [hlast, keyParts, keyPart_bare hkey hrest]
      simp only [Option.bind_eq_bind, Option.bind_some]
      split
      · rename_i tail h
        rw [h] at hpoint
        exact absurd rfl hpoint
      · rfl
    | cons next path =>
      have hpath : (".".intercalate (key :: next :: path)).toList ++ rest =
          key.toList ++ '.' :: ((".".intercalate (next :: path)).toList ++ rest) := by simp
      have hmark : ∀ c ∈ ('.' :: ((".".intercalate (next :: path)).toList ++ rest)).head?,
          isKeyChar c = false := by
        simp only [List.head?_cons, Option.mem_some_iff, forall_eq']
        decide
      have hnext := ih (List.cons_ne_nil next path) hlater (Nat.le_of_succ_le_succ hfuel)
      rw [hpath, keyParts, keyPart_bare hkey hmark]
      simp only [Option.bind_eq_bind, Option.bind_some]
      rw [skipSpace_solid (by decide)]
      simp only [hnext, Option.bind_some]
      rfl

/-- A path has at least one character for each of its keys. -/
theorem length_le_path {path : List String} (hbare : ∀ key ∈ path, IsBare key) :
    path.length ≤ (".".intercalate path).toList.length := by
  induction path with
  | nil => exact Nat.zero_le _
  | cons key path ih =>
    obtain ⟨hkey, hlater⟩ := List.forall_mem_cons.mp hbare
    have hlength : 0 < key.toList.length := List.length_pos_of_ne_nil hkey.1
    cases path with
    | nil =>
      have hlast : ".".intercalate [key] = key := by simp
      rw [hlast]
      exact hlength
    | cons next path =>
      have hpath : (".".intercalate (key :: next :: path)).toList.length =
          key.toList.length + ((".".intercalate (next :: path)).toList.length + 1) := by simp
      have hnext := ih hlater
      rw [hpath, List.length_cons]
      omega

theorem key_path {path : List String} (hsome : path ≠ []) (hbare : ∀ key ∈ path, IsBare key)
    {rest : List Char} (hrest : ∀ c ∈ rest.head?, isKeyChar c = false)
    (hpoint : (skipSpace rest).head? ≠ some '.') :
    key ((".".intercalate path).toList ++ rest) = some (path, skipSpace rest) := by
  refine keyParts_path hsome hbare hrest hpoint ?_
  have := length_le_path hbare
  rw [List.length_append]
  omega

/-! ### Line after line -/

/-- The lines of a text change the members so far, under a header. Line breaks before the text are
ignored. -/
def Reads (current : List String) (ms : Members) (cs : List Char) (found : Members) : Prop :=
  ∀ fuel, (cs.dropWhile (· == '\n')).length < fuel → readLines current ms fuel cs = some found

theorem skipBlank_break (cs : List Char) : skipBlank ('\n' :: cs) = skipBlank cs := rfl

theorem skipBlank_solid {c : Char} (h : IsSolid c) (cs : List Char) :
    skipBlank (c :: cs) = some (c :: cs) := by
  obtain ⟨hspace, hmark, hfeed, hreturn⟩ := h
  have hcomment : skipComment (c :: cs) = some (c :: cs) := by
    unfold skipComment
    split
    · rename_i h
      exact absurd (List.cons.inj h).1 hmark
    · rfl
  rw [skipBlank, skipLines, skipSpace_solid hspace, hcomment]
  simp only [Option.bind_eq_bind, Option.bind_some, lineBreak?_eq_none cs hfeed hreturn]
  rfl

/-- A line that begins with a solid character leaves fuel for the text after it. -/
theorem length_behind {c : Char} (hc : IsSolid c) (line : List Char) {cs rest : List Char}
    {fuel : ℕ} (hline : c :: cs = line ++ rest) (hsome : line ≠ [])
    (hfuel : ((c :: cs).dropWhile (· == '\n')).length < fuel + 1) : rest.length < fuel := by
  have hlength : 0 < line.length := List.length_pos_of_ne_nil hsome
  rw [List.dropWhile_cons_of_neg (by simpa using hc.2.2.1), hline, List.length_append] at hfuel
  omega

section Reads

variable {current : List String} {ms ms' found : Members} {rest : List Char}

theorem Reads.nil : Reads current ms [] ms := by
  intro fuel hfuel
  obtain ⟨fuel, rfl⟩ := Nat.exists_eq_succ_of_ne_zero (Nat.ne_zero_of_lt hfuel)
  rfl

theorem reads_break : Reads current ms ('\n' :: rest) found ↔ Reads current ms rest found := by
  have hsame (fuel : ℕ) :
      readLines current ms fuel ('\n' :: rest) = readLines current ms fuel rest := by
    cases fuel with
    | zero => rfl
    | succ fuel => rw [readLines, readLines, skipBlank_break]
  simp only [Reads, hsame]
  rfl

/-- The parse of the text after a line does not depend on the fuel left. -/
theorem Reads.run (h : Reads current ms rest found) {fuel : ℕ} (hfuel : rest.length < fuel) :
    readLines current ms fuel rest = some found :=
  h fuel (Nat.lt_of_le_of_lt (List.length_dropWhile_le _ rest) hfuel)

theorem endLine_break (cs : List Char) : endLine ('\n' :: cs) = some cs := rfl

/-- **A line adds its member**, and the lines after it are parsed with that member there. -/
theorem Reads.line {key text : String} {v : Value} (hkey : IsBare key)
    (htext : ∀ c ∈ text.toList.head?, isSpace c = false)
    (hvalue : ∀ rest fuel, value 0 (fuel + 2) (text.toList ++ '\n' :: rest) =
      some (v, '\n' :: rest))
    (hput : putUnder current [] key v ms = some ms') (h : Reads current ms' rest found) :
    Reads current ms ((key ++ " = " ++ text ++ "\n").toList ++ rest) found := by
  intro fuel hfuel
  obtain ⟨fuel, rfl⟩ := Nat.exists_eq_succ_of_ne_zero (Nat.ne_zero_of_lt hfuel)
  obtain ⟨c, cs, hname, hc⟩ := hkey.exists_cons
  have hline : (key ++ " = " ++ text ++ "\n").toList ++ rest =
      key.toList ++ ' ' :: '=' :: ' ' :: (text.toList ++ '\n' :: rest) := by simp
  have hparts : Toml.key (key.toList ++ ' ' :: '=' :: ' ' :: (text.toList ++ '\n' :: rest)) =
      some ([key], '=' :: ' ' :: (text.toList ++ '\n' :: rest)) := by
    have hlast : ".".intercalate [key] = key := by simp
    have hpoint :
        (skipSpace (' ' :: '=' :: ' ' :: (text.toList ++ '\n' :: rest))).head? ≠ some '.' := by
      show some '=' ≠ some '.'
      decide
    have hpath := key_path (List.cons_ne_nil key []) (by simpa using hkey) (by simp; decide) hpoint
    rwa [hlast] at hpath
  have hskip : skipSpace (' ' :: (text.toList ++ '\n' :: rest)) = text.toList ++ '\n' :: rest := by
    show skipSpace (text.toList ++ '\n' :: rest) = _
    cases htoken : text.toList with
    | nil => exact skipSpace_solid (by decide) rest
    | cons d ds =>
      rw [htoken] at htext
      exact skipSpace_solid (htext d rfl) _
  have hfuelled :
      (text.toList ++ '\n' :: rest).length + 1 = text.toList.length + rest.length + 2 := by
    simp only [List.length_append, List.length_cons]
    omega
  rw [hline] at hfuel ⊢
  have hshort : rest.length < fuel := by
    rw [hname, List.cons_append] at hfuel
    refine length_behind (isSolid_of_isKeyChar hc)
      (c :: cs ++ ' ' :: '=' :: ' ' :: (text.toList ++ ['\n'])) ?_ (by simp) hfuel
    simp
  have hblank : skipBlank (key.toList ++ ' ' :: '=' :: ' ' :: (text.toList ++ '\n' :: rest)) =
      some (key.toList ++ ' ' :: '=' :: ' ' :: (text.toList ++ '\n' :: rest)) := by
    rw [hname, List.cons_append, skipBlank_solid (isSolid_of_isKeyChar hc)]
  rw [readLines, hblank]
  simp only [Option.bind_eq_bind, Option.bind_some]
  split
  · rename_i h
    rw [hname] at h
    cases h
  · rename_i h
    rw [hname, List.cons_append] at h
    rw [(List.cons.inj h).1] at hc
    exact absurd hc (by decide)
  · rename_i h
    rw [hname, List.cons_append] at h
    rw [(List.cons.inj h).1] at hc
    exact absurd hc (by decide)
  · rw [hparts]
    simp only [Option.bind_some, hskip, hfuelled, hvalue, List.dropLast_singleton,
      List.getLast?_singleton, Option.getD_some, hput, endLine_break]
    exact h.run hshort

/-! ### Headers -/

variable {path : List String} {name : String}

theorem isSolid_bracket : IsSolid '[' := ⟨by decide, by decide, by decide, by decide⟩

/-- A path begins with a character of its first key. -/
theorem path_head (hpath : ∀ key ∈ path, IsBare key) (hname : IsBare name) :
    ∃ c cs, (".".intercalate (path ++ [name])).toList = c :: cs ∧ isKeyChar c = true := by
  have hbegins {key : String} (hkey : IsBare key) (later : List Char) :
      ∃ c cs, key.toList ++ later = c :: cs ∧ isKeyChar c = true := by
    obtain ⟨c, cs, hname, hc⟩ := hkey.exists_cons
    exact ⟨c, cs ++ later, by rw [hname]; rfl, hc⟩
  match path, hpath with
  | [], _ => simpa using hbegins hname []
  | [key], h => simpa using hbegins (h key List.mem_cons_self) ('.' :: name.toList)
  | key :: next :: path, h =>
    simpa using hbegins (h key List.mem_cons_self)
      ('.' :: (".".intercalate (next :: path ++ [name])).toList)

/-- A header is parsed as the path of its table. -/
theorem header_path (hpath : ∀ key ∈ path, IsBare key) (hname : IsBare name)
    {closing : List Char} (hclosing : closing = [']'] ∨ closing = [']', ']']) (rest : List Char) :
    header closing ((".".intercalate (path ++ [name])).toList ++ (closing ++ '\n' :: rest)) =
      some (path ++ [name], rest) := by
  have hbare : ∀ key ∈ path ++ [name], IsBare key :=
    List.forall_mem_append.mpr ⟨hpath, by simpa using hname⟩
  have hsome : path ++ [name] ≠ [] := by simp
  have hkey : Toml.key ((".".intercalate (path ++ [name])).toList ++ (closing ++ '\n' :: rest)) =
      some (path ++ [name], closing ++ '\n' :: rest) := by
    obtain rfl | rfl := hclosing <;>
      exact key_path hsome hbare (by simp; decide) (by
        show some ']' ≠ some '.'
        decide)
  rw [header, hkey]
  obtain rfl | rfl := hclosing <;> rfl

/-- **A header opens its table**, and the lines after it are parsed under it. -/
theorem Reads.header (hpath : ∀ key ∈ path, IsBare key) (hname : IsBare name)
    (hopen : openTable path name ms = some ms') (h : Reads (path ++ [name]) ms' rest found) :
    Reads current ms (("[" ++ ".".intercalate (path ++ [name]) ++ "]" ++ "\n").toList ++ rest)
      found := by
  intro fuel hfuel
  obtain ⟨fuel, rfl⟩ := Nat.exists_eq_succ_of_ne_zero (Nat.ne_zero_of_lt hfuel)
  have hline : ("[" ++ ".".intercalate (path ++ [name]) ++ "]" ++ "\n").toList ++ rest =
      '[' :: ((".".intercalate (path ++ [name])).toList ++ ([']'] ++ '\n' :: rest)) := by simp
  have hread := header_path hpath hname (.inl rfl) rest
  obtain ⟨c, cs, hhead, hc⟩ := path_head hpath hname
  rw [hline] at hfuel ⊢
  have hshort : rest.length < fuel :=
    length_behind isSolid_bracket
      ('[' :: ((".".intercalate (path ++ [name])).toList ++ [']', '\n'])) (by simp) (by simp)
      hfuel
  rw [readLines, skipBlank_solid isSolid_bracket]
  simp only [Option.bind_eq_bind, Option.bind_some]
  split
  · rename_i h
    cases h
  · rename_i tail h
    rw [hhead, List.cons_append, List.cons.injEq, List.cons.injEq] at h
    rw [h.2.1] at hc
    exact absurd hc (by decide)
  · rename_i tail _ h
    rw [← (List.cons.inj h).2, hread]
    simp only [Option.bind_some, List.dropLast_concat, List.getLast?_concat, Option.getD_some,
      hopen]
    exact Reads.run ‹_› hshort
  · rename_i h
    exact absurd rfl (h _)

/-- **A repeated header adds a table to the array.** -/
theorem Reads.nextHeader (hpath : ∀ key ∈ path, IsBare key) (hname : IsBare name)
    (hopen : openNext path name ms = some ms') (h : Reads (path ++ [name]) ms' rest found) :
    Reads current ms (("[[" ++ ".".intercalate (path ++ [name]) ++ "]]" ++ "\n").toList ++ rest)
      found := by
  intro fuel hfuel
  obtain ⟨fuel, rfl⟩ := Nat.exists_eq_succ_of_ne_zero (Nat.ne_zero_of_lt hfuel)
  have hline : ("[[" ++ ".".intercalate (path ++ [name]) ++ "]]" ++ "\n").toList ++ rest =
      '[' :: '[' ::
        ((".".intercalate (path ++ [name])).toList ++ ([']', ']'] ++ '\n' :: rest)) := by
    simp
  rw [hline] at hfuel ⊢
  have hshort : rest.length < fuel :=
    length_behind isSolid_bracket
      ('[' :: '[' :: ((".".intercalate (path ++ [name])).toList ++ [']', ']', '\n']))
      (by simp) (by simp) hfuel
  rw [readLines, skipBlank_solid isSolid_bracket]
  simp only [Option.bind_eq_bind, Option.bind_some, header_path hpath hname (.inr rfl) rest,
    List.dropLast_concat, List.getLast?_concat, Option.getD_some, hopen]
  exact h.run hshort

end Reads

end ChainAgent.Toml
