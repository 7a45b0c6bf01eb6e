import ChainAgent.Toml.Text

/-! Parsing inverts printing for strings.

Of the four forms of a string, the two on one line are parsed character by character
(`lineText_escaped`, `lineText_raw`). In the two multi-line forms up to two quotes may stand in a
row, also before the three that close the string, so a run of them is parsed at once; `Spells`
describes such a text, run by run. Whichever form the printer chooses, the text is parsed as it was
printed (`readText_quote`). -/
namespace ChainAgent.Toml

/-! ### Escapes -/

/-- The digits of an escape name a character before any text. -/
theorem codeEscape_append {count : Nat} {digits : List Char} {c : Char}
    (h : codeEscape count digits = some (c, [])) (rest : List Char) :
    codeEscape count (digits ++ rest) = some (c, rest) := by
  simp only [codeEscape, Option.bind_eq_bind] at h
  obtain ⟨n, hn, h⟩ := Option.bind_eq_some_iff.mp h
  split at h
  · rename_i hlength
    obtain ⟨c', hc, h⟩ := Option.bind_eq_some_iff.mp h
    obtain ⟨rfl, hdrop⟩ : c' = c ∧ digits.drop count = [] := by simpa using h
    have hcount : digits.length = count := by
      have hleast := List.drop_eq_nil_iff.mp hdrop
      have hmost : min count digits.length = count := by simpa using hlength
      omega
    have htake : (digits ++ rest).take count = digits.take count := by simp [← hcount]
    have hdrop' : (digits ++ rest).drop count = rest := by simp [← hcount]
    simp only [codeEscape, Option.bind_eq_bind, htake, hn, Option.bind_some, hlength, if_true, hc,
      hdrop']
    rfl
  · cases h

theorem codeEscape_control : ∀ n < 128, n < 32 ∨ n = 127 →
    codeEscape 4 ['0', '0', (Json.hexDigit (n / 16)).toUpper, (Json.hexDigit (n % 16)).toUpper] =
      some (Char.ofNat n, []) := by
  decide

theorem lineBreak?_eq_none {c : Char} (rest : List Char) (hfeed : c ≠ '\n') (hreturn : c ≠ '\r') :
    lineBreak? (c :: rest) = none := by
  unfold lineBreak?
  split
  · rename_i h
    exact absurd (List.cons.inj h).1 hfeed
  · rename_i h
    exact absurd (List.cons.inj h).1 hreturn
  · rfl

/-- Before a character that is neither whitespace nor a line break nothing is removed. -/
theorem foldedBreak?_eq_none {c : Char} (rest : List Char) (hblank : isSpace c = false)
    (hfeed : c ≠ '\n') (hreturn : c ≠ '\r') : foldedBreak? (c :: rest) = none := by
  rw [foldedBreak?, List.dropWhile_cons_of_neg (by simp [hblank]), Option.map_eq_none_iff]
  exact lineBreak?_eq_none rest hfeed hreturn

/-- However a character is escaped, the escape is parsed as the character. -/
theorem escape_escapeOf {several : Bool} {c : Char} {e : List Char}
    (h : escapeOf several c = some e) :
    ∃ mark digits, e = '\\' :: mark :: digits ∧
      (∀ rest, escape (mark :: digits ++ rest) = some (c, rest)) ∧
        isSpace mark = false ∧ mark ≠ '\n' ∧ mark ≠ '\r' := by
  simp only [escapeOf] at h
  split at h
  · rename_i hc
    cases h
    rw [beq_iff_eq] at hc
    exact ⟨'t', [], rfl, fun rest => hc ▸ rfl, by decide⟩
  split at h
  · rename_i hc
    rw [beq_iff_eq] at hc
    split at h <;> cases h
    exact ⟨'n', [], rfl, fun rest => hc ▸ rfl, by decide⟩
  split at h
  · rename_i hc
    cases h
    rw [beq_iff_eq] at hc
    exact ⟨'r', [], rfl, fun rest => hc ▸ rfl, by decide⟩
  split at h
  · rename_i hc
    cases h
    rw [beq_iff_eq] at hc
    subst hc
    exact ⟨'\\', [], rfl, fun rest => rfl, by decide⟩
  split at h
  · rename_i hc
    cases h
    have hc : c = Char.ofNat 8 := by rw [← beq_iff_eq.mp hc, Char.ofNat_toNat]
    exact ⟨'b', [], rfl, fun rest => hc ▸ rfl, by decide⟩
  split at h
  · rename_i hc
    cases h
    have hc : c = Char.ofNat 12 := by rw [← beq_iff_eq.mp hc, Char.ofNat_toNat]
    exact ⟨'f', [], rfl, fun rest => hc ▸ rfl, by decide⟩
  split at h
  · rename_i hcontrol
    cases h
    have hcode : c.toNat < 32 ∨ c.toNat = 127 := by
      simp only [isControl, Bool.or_eq_true, Bool.and_eq_true, decide_eq_true_iff, beq_iff_eq]
        at hcontrol
      exact hcontrol.imp And.left id
    have hread := codeEscape_control c.toNat (by omega) hcode
    rw [Char.ofNat_toNat] at hread
    exact ⟨'u', _, rfl, fun rest => codeEscape_append hread rest, by decide⟩
  · cases h

/-- A character that is not escaped may stand as it is. -/
theorem plain_of_escapeOf {several : Bool} {c : Char} (h : escapeOf several c = none) :
    c ≠ '\\' ∧ (isControl c = false ∨ several = true ∧ c = '\n') := by
  simp only [escapeOf] at h
  split at h
  · cases h
  split at h
  · rename_i hc
    rw [beq_iff_eq] at hc
    subst hc
    split at h
    · rename_i hseveral
      exact ⟨by decide, .inr ⟨hseveral, rfl⟩⟩
    · cases h
  split at h
  · cases h
  split at h
  · cases h
  rename_i hsolidus
  split at h
  · cases h
  split at h
  · cases h
  split at h
  · cases h
  · rename_i hcontrol
    exact ⟨by simpa using hsolidus, .inl (by simpa using hcontrol)⟩

/-! ### Strings on one line -/

theorem lineText_close (quote : Char) (made rest : List Char) {fuel : Nat} (hfuel : 0 < fuel) :
    lineText quote made fuel (quote :: rest) = some (String.ofList made.reverse, rest) := by
  obtain ⟨fuel, rfl⟩ := Nat.exists_eq_succ_of_ne_zero (Nat.pos_iff_ne_zero.mp hfuel)
  simp [lineText]

theorem lineText_plain {quote c : Char} (made rest : List Char) (fuel : Nat) (hquote : c ≠ quote)
    (hsolidus : c = '\\' → quote ≠ '"') (hcontrol : isControl c = false) :
    lineText quote made (fuel + 1) (c :: rest) = lineText quote (c :: made) fuel rest := by
  have hescape : (c == '\\' && quote == '"') = false := by
    rw [Bool.and_eq_false_imp, beq_iff_eq, beq_eq_false_iff_ne]
    exact hsolidus
  simp [lineText, hquote, hescape, hcontrol]

theorem lineText_escape {c : Char} {escaping rest : List Char} (made : List Char) (fuel : Nat)
    (h : escape escaping = some (c, rest)) :
    lineText '"' made (fuel + 1) ('\\' :: escaping) = lineText '"' (c :: made) fuel rest := by
  simp [lineText, h]

theorem escaped_cons {several : Bool} {limit run : Nat} {c : Char} (rest : List Char)
    (h : c ≠ '"') : escaped several limit run (c :: rest) =
      (escapeOf several c).getD [c] ++ escaped several limit 0 rest := by
  rw [escaped, if_neg (by simpa using h)]
  cases escapeOf several c <;> rfl

/-- A text with all its quotes escaped is parsed as that text. -/
theorem lineText_escaped (cs made rest : List Char) {fuel : Nat}
    (hfuel : (escaped false 0 0 cs).length < fuel) :
    lineText '"' made fuel (escaped false 0 0 cs ++ '"' :: rest) =
      some (String.ofList (made.reverse ++ cs), rest) := by
  induction cs generalizing made fuel with
  | nil =>
    rw [List.append_nil]
    exact lineText_close '"' made rest (Nat.zero_lt_of_lt hfuel)
  | cons c cs ih =>
    obtain ⟨fuel, rfl⟩ := Nat.exists_eq_succ_of_ne_zero (Nat.ne_zero_of_lt hfuel)
    have hlater (hshort : (escaped false 0 0 cs).length < fuel) :
        lineText '"' (c :: made) fuel (escaped false 0 0 cs ++ '"' :: rest) =
          some (String.ofList (made.reverse ++ c :: cs), rest) := by
      rw [ih (c :: made) hshort, List.reverse_cons, List.append_assoc]
      rfl
    by_cases hquote : c = '"'
    · subst hquote
      have hwritten : escaped false 0 0 ('"' :: cs) = '\\' :: '"' :: escaped false 0 0 cs := by
        simp [escaped]
      rw [hwritten] at hfuel ⊢
      rw [List.cons_append, lineText_escape made fuel rfl]
      exact hlater (by simp only [List.length_cons] at hfuel; omega)
    · rw [escaped_cons cs hquote] at hfuel ⊢
      cases he : escapeOf false c with
      | none =>
        obtain ⟨hsolidus, hplain⟩ := plain_of_escapeOf he
        have hcontrol : isControl c = false := by simpa using hplain
        rw [he] at hfuel
        rw [Option.getD_none, List.append_assoc, List.singleton_append,
          lineText_plain made _ fuel hquote (absurd · hsolidus) hcontrol]
        exact hlater (by simpa using hfuel)
      | some e =>
        obtain ⟨mark, digits, rfl, hread, -⟩ := escape_escapeOf he
        rw [he] at hfuel
        rw [Option.getD_some, List.append_assoc, List.cons_append,
          lineText_escape made fuel (hread _)]
        simp only [Option.getD_some, List.length_append, List.length_cons] at hfuel
        exact hlater (by omega)

/-- A text that may stand in a literal string is parsed as it is. -/
theorem lineText_raw (cs made rest : List Char) {fuel : Nat} (hfuel : cs.length < fuel)
    (hplain : ∀ c ∈ cs, c ≠ '\'' ∧ isControl c = false) :
    lineText '\'' made fuel (cs ++ '\'' :: rest) =
      some (String.ofList (made.reverse ++ cs), rest) := by
  induction cs generalizing made fuel with
  | nil =>
    rw [List.append_nil]
    exact lineText_close '\'' made rest (Nat.zero_lt_of_lt hfuel)
  | cons c cs ih =>
    obtain ⟨fuel, rfl⟩ := Nat.exists_eq_succ_of_ne_zero (Nat.ne_zero_of_lt hfuel)
    obtain ⟨⟨hquote, hcontrol⟩, hrest⟩ := List.forall_mem_cons.mp hplain
    rw [List.cons_append, lineText_plain made _ fuel hquote (fun _ => by decide) hcontrol,
      ih (c :: made) (by simpa using hfuel) hrest, List.reverse_cons, List.append_assoc]
    rfl

/-! ### Strings over several lines -/

/-- The text of a multi-line string, run by run: the text and its value. -/
inductive Spells (quote : Char) : List Char → List Char → Prop where
  | nil : Spells quote [] []
  | plain {c : Char} {text content : List Char} (hquote : c ≠ quote)
      (hsolidus : c = '\\' → quote ≠ '"') (hcontrol : isControl c = false ∨ c = '\n')
      (h : Spells quote text content) : Spells quote (c :: text) (c :: content)
  | escape {mark c : Char} {digits text content : List Char} (hquote : quote = '"')
      (hread : ∀ rest, escape (mark :: digits ++ rest) = some (c, rest))
      (hfold : ∀ rest, foldedBreak? (mark :: digits ++ rest) = none)
      (h : Spells quote text content) :
      Spells quote ('\\' :: mark :: digits ++ text) (c :: content)
  | quotes {run : Nat} {text content : List Char} (hsome : 0 < run) (hfew : run ≤ 2)
      (hbehind : text.head? ≠ some quote) (h : Spells quote text content) :
      Spells quote (List.replicate run quote ++ text) (List.replicate run quote ++ content)

theorem takeWhile_run (quote : Char) (run : Nat) {rest : List Char}
    (h : rest.head? ≠ some quote) :
    (List.replicate run quote ++ rest).takeWhile (· == quote) = List.replicate run quote := by
  rw [List.takeWhile_append_of_pos (by simp)]
  cases rest with
  | nil => simp
  | cons c rest =>
    have hc : c ≠ quote := by simpa using h
    rw [List.takeWhile_cons_of_neg (by simpa using hc), List.append_nil]

/-- A run of quotes is parsed at once. -/
theorem linesText_run {quote : Char} {run : Nat} {rest : List Char} (made : List Char) (fuel : Nat)
    (hsome : 0 < run) (h : rest.head? ≠ some quote) :
    linesText quote made (fuel + 1) (List.replicate run quote ++ rest) =
      if run < 3 then linesText quote (List.replicate run quote ++ made) fuel rest
      else if 5 < run then none
      else some (String.ofList (List.replicate (run - 3) quote ++ made).reverse, rest) := by
  have hrun := takeWhile_run quote run h
  obtain ⟨run, rfl⟩ := Nat.exists_eq_succ_of_ne_zero (Nat.pos_iff_ne_zero.mp hsome)
  rw [List.replicate_succ, List.cons_append] at hrun ⊢
  rw [linesText]
  simp only [beq_self_eq_true, if_true, hrun, List.length_cons, List.length_replicate,
    List.drop_succ_cons]
  rw [List.drop_left' List.length_replicate]

theorem Spells.eq_nil {quote : Char} {content : List Char} (h : Spells quote [] content) :
    content = [] := by
  generalize htext : ([] : List Char) = text at h
  cases h with
  | nil => rfl
  | plain => cases htext
  | escape => cases htext
  | quotes hsome =>
    have hlength := congrArg List.length htext
    simp only [List.length_nil, List.length_append, List.length_replicate] at hlength
    omega

/-- **A text is parsed as what it spells**, before the three quotes that close it and a character
that is no quote. -/
theorem linesText_spells {quote : Char} {text content rest : List Char}
    (h : Spells quote text content) (hrest : rest.head? ≠ some quote) (made : List Char)
    {fuel : Nat} (hfuel : text.length < fuel) :
    linesText quote made fuel (text ++ (List.replicate 3 quote ++ rest)) =
      some (String.ofList (made.reverse ++ content), rest) := by
  induction h generalizing made fuel with
  | nil =>
    obtain ⟨fuel, rfl⟩ := Nat.exists_eq_succ_of_ne_zero (Nat.ne_zero_of_lt hfuel)
    rw [List.nil_append, linesText_run made fuel (by decide) hrest]
    simp
  | @plain c text content hquote hsolidus hcontrol h ih =>
    obtain ⟨fuel, rfl⟩ := Nat.exists_eq_succ_of_ne_zero (Nat.ne_zero_of_lt hfuel)
    have hescape : (c == '\\' && quote == '"') = false := by
      rw [Bool.and_eq_false_imp, beq_iff_eq, beq_eq_false_iff_ne]
      exact hsolidus
    have hlater := ih (c :: made) (by simpa using hfuel)
    rw [List.reverse_cons, List.append_assoc, List.singleton_append] at hlater
    rw [List.cons_append, linesText, if_neg (by simpa using hquote), hescape]
    by_cases hfeed : c = '\n'
    · subst hfeed
      exact hlater
    · have hplain : isControl c = false := hcontrol.resolve_right hfeed
      have hreturn : c ≠ '\r' := by
        rintro rfl
        exact absurd hplain (by decide)
      simp only [Bool.false_eq_true, if_false, lineBreak?_eq_none _ hfeed hreturn, hplain]
      exact hlater
  | @escape mark c digits text content hquote hread hfold h ih =>
    obtain ⟨fuel, rfl⟩ := Nat.exists_eq_succ_of_ne_zero (Nat.ne_zero_of_lt hfuel)
    have hshort : text.length < fuel := by
      simp only [List.length_append, List.length_cons] at hfuel
      omega
    have hlater := ih (c :: made) hshort
    rw [List.reverse_cons, List.append_assoc, List.singleton_append] at hlater
    subst hquote
    rw [List.append_assoc, List.cons_append, linesText, if_neg (by decide)]
    simp only [hfold, hread]
    exact hlater
  | @quotes run text content hsome hfew hbehind h ih =>
    obtain ⟨fuel, rfl⟩ := Nat.exists_eq_succ_of_ne_zero (Nat.ne_zero_of_lt hfuel)
    cases text with
    | nil =>
      -- The quotes that close the string go on with the run.
      rw [h.eq_nil, List.append_nil, ← List.append_assoc, List.replicate_append_replicate,
        linesText_run made fuel (by omega) hrest, if_neg (by omega), if_neg (by omega),
        Nat.add_sub_cancel]
      simp
    | cons c text =>
      have hbefore : (c :: text ++ (List.replicate 3 quote ++ rest)).head? ≠ some quote := hbehind
      rw [List.append_assoc, linesText_run made fuel hsome hbefore, if_pos (by omega)]
      have hshort : (c :: text).length < fuel := by
        simp only [List.length_append, List.length_replicate] at hfuel
        omega
      rw [ih (List.replicate run quote ++ made) hshort, List.reverse_append, List.reverse_replicate,
        List.append_assoc]

/-! ### What the writer spells -/

/-- Up to two quotes may stand before a text that does not begin with one. -/
theorem Spells.after_run {quote : Char} {run : Nat} {text content : List Char} (hfew : run ≤ 2)
    (hbehind : text.head? ≠ some quote) (h : Spells quote text content) :
    Spells quote (List.replicate run quote ++ text) (List.replicate run quote ++ content) := by
  cases run with
  | zero => exact h
  | succ run => exact .quotes (Nat.succ_pos run) hfew hbehind h

/-- A text with the third of three quotes escaped spells itself, also after up to two quotes. -/
theorem spells_escaped (cs : List Char) {run : Nat} (hrun : run ≤ 2) :
    Spells '"' (List.replicate run '"' ++ escaped true 2 run cs)
      (List.replicate run '"' ++ cs) := by
  induction cs generalizing run with
  | nil => exact .after_run hrun (by simp [escaped]) .nil
  | cons c cs ih =>
    have hlater : Spells '"' (escaped true 2 0 cs) cs := ih (Nat.zero_le 2)
    by_cases hquote : c = '"'
    · subst hquote
      by_cases hfull : 2 ≤ run
      · have hwritten : escaped true 2 run ('"' :: cs) = '\\' :: '"' :: escaped true 2 0 cs := by
          simp [escaped, hfull]
        rw [hwritten]
        have hescape : Spells '"' ('\\' :: '"' :: [] ++ escaped true 2 0 cs) ('"' :: cs) :=
          .escape rfl (fun _ => rfl)
            (fun rest => foldedBreak?_eq_none rest (by decide) (by decide) (by decide)) hlater
        exact .after_run hrun (by simp) hescape
      · have hwritten : escaped true 2 run ('"' :: cs) = '"' :: escaped true 2 (run + 1) cs := by
          simp [escaped, hfull]
        have hnext := @ih (run + 1) (by omega)
        rw [List.replicate_succ', List.append_assoc, List.append_assoc] at hnext
        rw [hwritten]
        exact hnext
    · rw [escaped_cons cs hquote]
      cases he : escapeOf true c with
      | none =>
        obtain ⟨hsolidus, hplain⟩ := plain_of_escapeOf he
        exact .after_run hrun (by simpa using hquote)
          (.plain hquote (absurd · hsolidus) (hplain.imp_right And.right) hlater)
      | some e =>
        obtain ⟨mark, digits, rfl, hread, hblank, hfeed, hreturn⟩ := escape_escapeOf he
        exact .after_run hrun (by simp) (.escape rfl hread
          (fun rest => foldedBreak?_eq_none _ hblank hfeed hreturn) hlater)

/-- The longest run of a character in a text, after a run of it and with the best one so far. -/
def longestFrom (q : Char) (best run : Nat) (cs : List Char) : Nat :=
  (cs.foldl (fun (best, run) c => if c == q then (max best (run + 1), run + 1) else (best, 0))
    (best, run)).1

section Runs

variable {q : Char}

theorem longestFrom_hit (best run : Nat) (cs : List Char) :
    longestFrom q best run (q :: cs) = longestFrom q (max best (run + 1)) (run + 1) cs := by
  simp [longestFrom]

theorem longestFrom_other {c : Char} (hc : c ≠ q) (best run : Nat) (cs : List Char) :
    longestFrom q best run (c :: cs) = longestFrom q best 0 cs := by
  simp [longestFrom, hc]

theorem le_longestFrom (best run : Nat) (cs : List Char) : best ≤ longestFrom q best run cs := by
  induction cs generalizing best run with
  | nil => exact Nat.le_refl best
  | cons c cs ih =>
    by_cases hc : c = q
    · rw [hc, longestFrom_hit]
      exact Nat.le_trans (Nat.le_max_left _ _) (ih _ _)
    · rw [longestFrom_other hc]
      exact ih _ _

theorem run_lt_longestFrom (best run : Nat) (cs : List Char) :
    run < longestFrom q best run (q :: cs) := by
  rw [longestFrom_hit]
  exact Nat.le_trans (Nat.le_max_right best (run + 1)) (le_longestFrom _ _ _)

/-- A character without a run is not in a text. -/
theorem ne_of_longestRun {cs : List Char} (h : longestRun q cs = 0) : ∀ c ∈ cs, c ≠ q := by
  have hfrom (run : Nat) (hrun : longestFrom q 0 run cs = 0) : ∀ c ∈ cs, c ≠ q := by
    clear h
    induction cs generalizing run with
    | nil => exact nofun
    | cons c cs ih =>
      have hc : c ≠ q := by
        rintro rfl
        exact absurd hrun (Nat.ne_of_gt (Nat.zero_lt_of_lt (run_lt_longestFrom 0 run cs)))
      rw [longestFrom_other hc] at hrun
      exact List.forall_mem_cons.mpr ⟨hc, ih 0 hrun⟩
  exact hfrom 0 h

/-- A text without a run of three quotes that may stand as it is spells itself. -/
theorem spells_raw {cs : List Char} (hquote : q ≠ '"')
    (hplain : ∀ c ∈ cs, isControl c = false ∨ c = '\n') {best run : Nat}
    (hfew : longestFrom q best run cs ≤ 2) (hrun : run ≤ 2) :
    Spells q (List.replicate run q ++ cs) (List.replicate run q ++ cs) := by
  induction cs generalizing best run with
  | nil => exact .after_run hrun (by simp) .nil
  | cons c cs ih =>
    obtain ⟨hc, hcs⟩ := List.forall_mem_cons.mp hplain
    by_cases hquote' : c = q
    · subst hquote'
      have hless : run < longestFrom c best run (c :: cs) := run_lt_longestFrom best run cs
      rw [longestFrom_hit] at hfew hless
      have hnext := ih hcs hfew (by omega)
      rw [List.replicate_succ', List.append_assoc] at hnext
      exact hnext
    · rw [longestFrom_other hquote'] at hfew
      have hlater : Spells q cs cs := ih hcs hfew (Nat.zero_le 2)
      exact .after_run hrun (by simpa using hquote') (.plain hquote' (fun _ => hquote) hc hlater)

end Runs

/-! ### Strings as they are written -/

/-- The two kinds of quotes. -/
def IsQuote (q : Char) : Prop := q = '"' ∨ q = '\''

theorem readText_line {q : Char} (hq : IsQuote q) {text rest : List Char}
    (hhead : text.head? ≠ some q) (hrest : rest.head? ≠ some q) :
    readText (q :: (text ++ q :: rest)) =
      lineText q [] ((text ++ q :: rest).length + 1) (text ++ q :: rest) := by
  have hshort (behind : List Char) : text ++ q :: rest ≠ q :: q :: behind := by
    cases text with
    | nil =>
      rintro h
      exact hrest (by rw [List.nil_append, List.cons.injEq] at h; simp [h.2])
    | cons c text =>
      rintro h
      exact hhead (by simp [(List.cons.inj h).1])
  generalize text ++ q :: rest = cs at hshort
  obtain rfl | rfl := hq
  · unfold readText
    split
    · rename_i behind h
      exact absurd (List.cons.inj h).2 (hshort behind)
    · rename_i h
      cases h
    · rename_i h
      cases h
      rfl
    · rename_i h
      cases h
    · rename_i h _
      exact absurd rfl (h _)
  · unfold readText
    split
    · rename_i h
      cases h
    · rename_i behind h
      exact absurd (List.cons.inj h).2 (hshort behind)
    · rename_i h
      cases h
    · rename_i h
      cases h
      rfl
    · rename_i h
      exact absurd rfl (h _)

theorem readText_lines {q : Char} (hq : IsQuote q) (cs : List Char) :
    readText (q :: q :: q :: cs) =
      linesText q [] (cs.length + 1) ((lineBreak? cs).getD cs) := by
  obtain rfl | rfl := hq <;> rfl

/-- A multi-line string is parsed as what it spells, with a line break at its start if it has others
and without one if it has none. -/
theorem readText_spells {q : Char} (hq : IsQuote q) {text content rest : List Char}
    (hspells : Spells q text content) (hrest : rest.head? ≠ some q) {first : String}
    (hfirst : first = "\n" ∨ first = "" ∧ text.head? ≠ some '\n' ∧ text.head? ≠ some '\r') :
    readText (q :: q :: q :: (first.toList ++ (text ++ (List.replicate 3 q ++ rest)))) =
      some (String.ofList content, rest) := by
  rw [readText_lines hq]
  have hbreak : (lineBreak? (first.toList ++ (text ++ (List.replicate 3 q ++ rest)))).getD
      (first.toList ++ (text ++ (List.replicate 3 q ++ rest))) =
      text ++ (List.replicate 3 q ++ rest) := by
    obtain rfl | ⟨rfl, hfeed, hreturn⟩ := hfirst
    · rfl
    · cases text with
      | nil =>
        obtain rfl | rfl := hq <;> rfl
      | cons c text =>
        rw [String.toList_empty, List.nil_append, List.cons_append, lineBreak?_eq_none _
          (by simpa using hfeed) (by simpa using hreturn), Option.getD_none]
  rw [hbreak, linesText_spells hspells hrest []]
  · rfl
  · simp only [List.length_append]
    omega

/-- The first character of an escaped text. -/
theorem head_escaped {several : Bool} {limit : Nat} {cs : List Char} {c : Char}
    (h : (escaped several limit 0 cs).head? = some c) :
    (c = '"' → limit ≠ 0) ∧ c ≠ '\r' ∧ (c = '\n' → '\n' ∈ cs) := by
  cases cs with
  | nil => cases h
  | cons d cs =>
    by_cases hquote : d = '"'
    · subst hquote
      rw [escaped, if_pos (by decide)] at h
      split at h
      · cases h
        exact ⟨nofun, by decide, nofun⟩
      · rename_i hlimit
        cases h
        exact ⟨fun _ => by omega, by decide, nofun⟩
    · rw [escaped_cons cs hquote] at h
      cases he : escapeOf several d with
      | none =>
        rw [he] at h
        cases h
        refine ⟨fun hc => absurd hc hquote, ?_, fun hc => hc ▸ List.mem_cons_self⟩
        rintro rfl
        exact absurd he (by simp [escapeOf])
      | some e =>
        obtain ⟨mark, digits, rfl, -⟩ := escape_escapeOf he
        rw [he] at h
        cases h
        exact ⟨nofun, by decide, nofun⟩

theorem any_codes {cs : List Char} (h : (cs.any fun c => isControl c && c != '\n') = false) :
    ∀ c ∈ cs, isControl c = false ∨ c = '\n' := by
  intro c hc
  have hplain := List.any_eq_false.mp h c hc
  rw [Bool.not_eq_true, Bool.and_eq_false_iff] at hplain
  exact hplain.imp_right (by simp)

/-- A literal string on one line has no apostrophe and no control character. -/
theorem styleOf_literal {cs : List Char} (h : styleOf cs = .literal) :
    ∀ c ∈ cs, c ≠ '\'' ∧ isControl c = false := by
  simp only [styleOf] at h
  split at h
  · cases h
  split at h
  · rename_i hplain
    simp only [Bool.and_eq_true, Bool.not_eq_true', beq_iff_eq] at hplain
    obtain ⟨⟨hcodes, hrun⟩, hbreaks⟩ := hplain
    intro c hc
    have hfeed : c ≠ '\n' := by simpa using List.any_eq_false.mp hbreaks c hc
    exact ⟨ne_of_longestRun hrun c hc, (any_codes hcodes c hc).resolve_right hfeed⟩
  split at h
  · cases h
  split at h
  · cases h
  split at h <;> cases h

/-- A multi-line literal string has no run of three apostrophes and no control character but line
breaks. -/
theorem styleOf_literalLines {cs : List Char} (h : styleOf cs = .literalLines) :
    longestRun '\'' cs ≤ 2 ∧ ∀ c ∈ cs, isControl c = false ∨ c = '\n' := by
  simp only [styleOf] at h
  split at h
  · cases h
  split at h
  · cases h
  split at h
  · cases h
  split at h
  · rename_i hplain
    simp only [Bool.and_eq_true, Bool.not_eq_true', decide_eq_true_iff] at hplain
    exact ⟨hplain.2, any_codes hplain.1⟩
  split at h <;> cases h

/-- **A printed string is parsed as its text.** -/
theorem readText_quote (s : String) (rest : List Char) :
    readText ((quote s).toList ++ '\n' :: rest) = some (s, '\n' :: rest) := by
  have hrest {q : Char} (hq : IsQuote q) : ('\n' :: rest).head? ≠ some q := by
    obtain rfl | rfl := hq <;> simp
  have hline (q : Char) (text : List Char) :
      text.length < (text ++ q :: '\n' :: rest).length + 1 := by
    rw [List.length_append]
    omega
  -- A text that begins with a line break has one, and then the writer puts another in front of it.
  have hfirst {text : List Char} (hreturn : text.head? ≠ some '\r')
      (hfeed : text.head? = some '\n' → '\n' ∈ s.toList) :
      (if s.toList.any (· == '\n') then "\n" else "") = "\n" ∨
        (if s.toList.any (· == '\n') then "\n" else "") = "" ∧
          text.head? ≠ some '\n' ∧ text.head? ≠ some '\r' := by
    by_cases hbreaks : '\n' ∈ s.toList
    · exact .inl (if_pos (by simpa using hbreaks))
    · exact .inr ⟨if_neg (by simpa using hbreaks), fun h => hbreaks (hfeed h), hreturn⟩
  simp only [quote]
  cases hstyle : styleOf s.toList with
  | basic =>
    have hhead : (escaped false 0 0 s.toList).head? ≠ some '"' :=
      fun h => (head_escaped h).1 rfl rfl
    have hread := lineText_escaped s.toList [] ('\n' :: rest) (hline '"' _)
    simpa [readText_line (.inl rfl) hhead (hrest (.inl rfl))] using hread
  | literal =>
    have hplain := styleOf_literal hstyle
    have hhead : s.toList.head? ≠ some '\'' :=
      fun h => (hplain _ (List.mem_of_mem_head? h)).1 rfl
    have hread := lineText_raw s.toList [] ('\n' :: rest) (hline '\'' _) hplain
    simpa [readText_line (.inr rfl) hhead (hrest (.inr rfl))] using hread
  | basicLines =>
    have hspells : Spells '"' (escaped true 2 0 s.toList) s.toList :=
      spells_escaped _ (Nat.zero_le 2)
    have hread := readText_spells (.inl rfl) hspells (hrest (.inl rfl))
      (hfirst (fun h => (head_escaped h).2.1 rfl) (fun h => (head_escaped h).2.2 rfl))
    simpa using hread
  | literalLines =>
    obtain ⟨hfew, hplain⟩ := styleOf_literalLines hstyle
    have hspells : Spells '\'' s.toList s.toList :=
      spells_raw (by decide) hplain hfew (Nat.zero_le 2)
    have hreturn : s.toList.head? ≠ some '\r' := fun h =>
      absurd (hplain _ (List.mem_of_mem_head? h)) (by decide)
    have hread := readText_spells (.inr rfl) hspells (hrest (.inr rfl))
      (hfirst hreturn List.mem_of_mem_head?)
    simpa using hread

end ChainAgent.Toml
