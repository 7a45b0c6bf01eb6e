import ChainAgent.Text.Blank

/-! Trimming.

A text without leading and trailing whitespace is unchanged by trimming, also after whitespace
(`trimChars_blank_append`); a trimmed text is a substring. -/
namespace ChainAgent.Text

theorem trimStart_cons {c : Char} (hc : isBlank c = false) (cs : List Char) :
    trimStart (c :: cs) = c :: cs := by
  simp [trimStart, hc]

theorem trimStart_blank_append {front : List Char} (hfront : front.all isBlank) (cs : List Char) :
    trimStart (front ++ cs) = trimStart cs := by
  rw [trimStart, List.dropWhile_append_of_pos fun c hc => List.all_eq_true.mp hfront c hc]
  rfl

/-- Trimming the start keeps everything from the first character that is not whitespace. -/
theorem trimStart_append {front : List Char} (hfront : front.all isBlank = false)
    (cs : List Char) :
    ∃ c between, isBlank c = false ∧ trimStart (front ++ cs) = c :: (between ++ cs) := by
  induction front with
  | nil => cases hfront
  | cons c front ih =>
    by_cases hc : isBlank c
    · have hskip : trimStart (c :: front ++ cs) = trimStart (front ++ cs) := by simp [trimStart, hc]
      rw [hskip]
      exact ih (by simpa [hc] using hfront)
    · rw [Bool.not_eq_true] at hc
      exact ⟨c, front, hc, trimStart_cons hc _⟩

theorem trimEnd_append {c : Char} (hc : isBlank c = false) (cs : List Char) :
    trimEnd (cs ++ [c]) = cs ++ [c] := by
  simp [trimEnd, hc]

theorem trimEnd_isPrefix (cs : List Char) : trimEnd cs <+: cs := by
  rw [trimEnd, ← List.reverse_suffix, List.reverse_reverse]
  exact List.dropWhile_suffix _

theorem trimEnd_cons {c : Char} (hc : isBlank c = false) (cs : List Char) :
    trimEnd (c :: cs) = c :: trimEnd cs := by
  rw [trimEnd, List.reverse_cons, List.dropWhile_append]
  split
  · rename_i hblank
    rw [List.isEmpty_iff] at hblank
    simp [trimEnd, hc, hblank]
  · simp [trimEnd]

/-- Whitespace before a text that has no whitespace at its ends is removed. -/
theorem trimChars_blank_append {c d : Char} {front cs between : List Char}
    (hfront : front.all isBlank)
    (hc : isBlank c = false) (hd : isBlank d = false) (hends : c :: cs = between ++ [d]) :
    trimChars (front ++ c :: cs) = c :: cs := by
  rw [trimChars, trimStart_blank_append hfront, trimStart_cons hc, hends, trimEnd_append hd]

theorem trimEnd_append_blank {back : List Char} (hback : back.all isBlank) (cs : List Char) :
    trimEnd (cs ++ back) = trimEnd cs := by
  rw [← List.all_reverse] at hback
  rw [trimEnd, List.reverse_append, ← trimStart, trimStart_blank_append hback]
  rfl

/-- Whitespace on both sides of such a text is removed. -/
theorem trimChars_blanks {c d : Char} {front cs between back : List Char} (hfront : front.all isBlank)
    (hback : back.all isBlank) (hc : isBlank c = false) (hd : isBlank d = false)
    (hends : c :: cs = between ++ [d]) : trimChars (front ++ (c :: cs ++ back)) = c :: cs := by
  rw [trimChars, trimStart_blank_append hfront, List.cons_append, trimStart_cons hc, ← List.cons_append,
    trimEnd_append_blank hback, hends, trimEnd_append hd]

theorem trimStart_split (cs : List Char) :
    ∃ front, front.all isBlank = true ∧ cs = front ++ trimStart cs := by
  refine ⟨cs.takeWhile isBlank, ?_, List.takeWhile_append_dropWhile.symm⟩
  exact List.all_takeWhile

theorem trimEnd_split (cs : List Char) :
    ∃ back, back.all isBlank = true ∧ cs = trimEnd cs ++ back := by
  obtain ⟨back, hblank, hsplit⟩ := trimStart_split cs.reverse
  refine ⟨back.reverse, by rwa [List.all_reverse], ?_⟩
  rw [trimEnd, ← List.reverse_append, ← List.reverse_eq_iff]
  exact hsplit

/-- There is no whitespace left at the end. -/
theorem getLast?_trimEnd (cs : List Char) : ∀ c ∈ (trimEnd cs).getLast?, isBlank c = false := by
  intro c hc
  rw [trimEnd, List.getLast?_reverse] at hc
  have hfirst := List.head?_dropWhile_not isBlank cs.reverse
  rw [hc] at hfirst
  exact hfirst

/-- A prefix of a text that does not end with whitespace is kept. -/
theorem prefix_trimEnd {front cs : List Char} (h : front <+: cs)
    (hends : ∀ c ∈ front.getLast?, isBlank c = false) : front <+: trimEnd cs := by
  obtain ⟨back, hback, hsplit⟩ := trimEnd_split cs
  obtain hinside | ⟨more, rfl⟩ := List.prefix_or_prefix_of_prefix h (trimEnd_isPrefix cs)
  · exact hinside
  · -- what goes on behind the trimmed text is blank, so there is nothing of it
    have hmore : trimEnd cs ++ more <+: trimEnd cs ++ back := by rwa [← hsplit]
    rw [List.prefix_append_right_inj] at hmore
    cases hlast : more.getLast? with
    | none => simp [List.getLast?_eq_none_iff.mp hlast]
    | some c =>
      have hblank := List.all_eq_true.mp hback c (hmore.subset (List.mem_of_getLast? hlast))
      have hmark := hends c (by rw [List.getLast?_append, hlast]; rfl)
      rw [hblank] at hmark
      cases hmark

/-- Only whitespace is removed. -/
theorem trim_split (s : String) :
    ∃ front back, saysNothing front = true ∧ saysNothing back = true ∧
      s = front ++ trim s ++ back := by
  obtain ⟨front, hfront, hstart⟩ := trimStart_split s.toList
  obtain ⟨back, hback, hend⟩ := trimEnd_split (trimStart s.toList)
  refine ⟨String.ofList front, String.ofList back, by simpa [saysNothing] using hfront,
    by simpa [saysNothing] using hback, ?_⟩
  rw [trim, ← String.ofList_append, ← String.ofList_append, List.append_assoc, trimChars, ← hend,
    ← hstart, String.ofList_toList]

/-- A trimmed text is empty only if the text is blank. -/
theorem trim_ne_empty {s : String} (h : saysNothing s = false) : trim s ≠ "" := by
  have hchars : s.toList.all isBlank = false := h
  obtain ⟨c, between, hc, hstart⟩ := trimStart_append hchars []
  rw [List.append_nil] at hstart
  intro hempty
  have hchars := congrArg String.toList hempty
  rw [trim, String.toList_ofList, trimChars, hstart, trimEnd_cons hc] at hchars
  cases hchars

theorem trimStart_prefix {cs ds : List Char} (h : ds <+: trimStart cs) : trimStart ds = ds := by
  cases ds with
  | nil => rfl
  | cons c ds =>
    obtain ⟨rest, hrest⟩ := h
    have hfirst := List.head?_dropWhile_not isBlank cs
    rw [← trimStart, ← hrest] at hfirst
    exact trimStart_cons hfirst ds

theorem trimEnd_trimEnd (cs : List Char) : trimEnd (trimEnd cs) = trimEnd cs := by
  have hagain := trimStart_prefix (List.prefix_refl (trimStart cs.reverse))
  rw [trimStart, trimStart] at hagain
  rw [trimEnd, trimEnd, List.reverse_reverse, hagain]

/-- Trimming is idempotent. -/
theorem trim_trim (s : String) : trim (trim s) = trim s := by
  rw [trim, trim, String.toList_ofList, trimChars, trimChars, trimStart_prefix (trimEnd_isPrefix _),
    trimEnd_trimEnd]

end ChainAgent.Text
