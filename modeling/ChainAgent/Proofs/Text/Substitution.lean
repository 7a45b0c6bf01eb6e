import ChainAgent.Proofs.Text.Keys

/-! Redaction as a substitution.

A redacted text is the text with some substrings replaced, each by one `[REDACTED]`, and everything
else in its place (`Masked`). A pass keeps what an earlier pass has written, so it replaces
substrings of the text itself (`IsPass.masked`), and so do all passes together. A text without signs
is fixed by every pass; the result of all passes has no sign with a secret after it, and the last
pass scans its own output as it has scanned its input, so redaction is idempotent
(`redact_substitutes`). -/
namespace ChainAgent.Text

/-- A text with some nonempty substrings replaced. -/
inductive Masked : List Char → List Char → Prop
  | nil : Masked [] []
  | kept {cs ds : List Char} (c : Char) : Masked cs ds → Masked (c :: cs) (c :: ds)
  | hidden {cs ds stretch : List Char} : stretch ≠ [] → Masked cs ds →
    Masked (stretch ++ cs) (redacted ++ ds)

/-! ### Masked texts -/

namespace Masked

variable {cs ds : List Char}

theorem refl (cs : List Char) : Masked cs cs := by
  induction cs with
  | nil => exact .nil
  | cons c cs ih => exact .kept c ih

theorem append {front made : List Char} (hfront : Masked front made) (h : Masked cs ds) :
    Masked (front ++ cs) (made ++ ds) := by
  induction hfront with
  | nil => exact h
  | kept c _ ih => exact .kept c ih
  | hidden hne _ ih =>
    rw [List.append_assoc, List.append_assoc]
    exact .hidden hne ih

theorem whole {stretch : List Char} (h : stretch ≠ []) : Masked stretch redacted := by
  have hnothing := Masked.hidden h .nil
  rwa [List.append_nil, List.append_nil] at hnothing

/-- A masked text begins as the text does, up to the first bracket. -/
theorem exists_rest {part : List Char} (h : Masked cs (part ++ ds)) (hpart : '[' ∉ part) :
    ∃ rest, cs = part ++ rest ∧ Masked rest ds := by
  induction part generalizing cs with
  | nil => exact ⟨cs, rfl, h⟩
  | cons c part ih =>
    rw [List.cons_append] at h
    generalize hwhole : c :: (part ++ ds) = whole at h
    cases h with
    | nil => cases hwhole
    | kept d hrest =>
      cases hwhole
      obtain ⟨rest, rfl, hmasked⟩ := ih hrest (List.not_mem_of_not_mem_cons hpart)
      exact ⟨rest, rfl, hmasked⟩
    | hidden _ _ =>
      have hfirst : c = '[' := (List.cons.inj hwhole).1
      exact absurd (by simp [hfirst]) hpart

/-- The replaced substrings, each with what is kept before it. -/
theorem exists_pieces (h : Masked cs ds) :
    ∃ (pieces : List (List Char × List Char)) (last : List Char), (∀ p ∈ pieces, p.2 ≠ []) ∧
      cs = pieces.flatMap (fun p => p.1 ++ p.2) ++ last ∧
      ds = pieces.flatMap (fun p => p.1 ++ redacted) ++ last := by
  induction h with
  | nil => exact ⟨[], [], nofun, rfl, rfl⟩
  | kept c _ ih =>
    obtain ⟨pieces, last, hne, rfl, rfl⟩ := ih
    cases pieces with
    | nil => exact ⟨[], c :: last, hne, rfl, rfl⟩
    | cons p pieces =>
      refine ⟨(c :: p.1, p.2) :: pieces, last, ?_, rfl, rfl⟩
      exact List.forall_mem_cons.mpr (List.forall_mem_cons.mp hne)
  | @hidden _ _ stretch hstretch _ ih =>
    obtain ⟨pieces, last, hne, rfl, rfl⟩ := ih
    refine ⟨([], stretch) :: pieces, last, List.forall_mem_cons.mpr ⟨hstretch, hne⟩, ?_, ?_⟩
    · simp
    · simp

end Masked

/-! ### Passes -/

/-- A pass scans a text from the left. It keeps what has been written in place of a secret;
elsewhere it keeps one character, or replaces a substring without brackets. -/
structure IsPass (pass : List Char → List Char) : Prop where
  nil : pass [] = []
  written : ∀ ds, pass (redacted ++ ds) = redacted ++ pass ds
  next : ∀ c rest, pass (c :: rest) = c :: pass rest ∨
    ∃ stretch made behind, c :: rest = stretch ++ behind ∧ stretch ≠ [] ∧ '[' ∉ stretch ∧
      Masked stretch made ∧ pass (c :: rest) = made ++ pass behind

/-- **A pass replaces substrings of a masked text that are the text's own.** -/
theorem IsPass.masked {pass : List Char → List Char} (h : IsPass pass) {cs ds : List Char}
    (hmasked : Masked cs ds) : Masked cs (pass ds) := by
  induction hn : ds.length using Nat.strong_induction_on generalizing cs ds with
  | h n ih =>
    subst hn
    cases hmasked with
    | nil =>
      rw [h.nil]
      exact .nil
    | @hidden cs ds _ hne hrest =>
      have hshorter : ds.length < (redacted ++ ds).length :=
        List.length_append ▸ Nat.lt_add_of_pos_left (by decide)
      rw [h.written]
      exact .hidden hne (ih _ hshorter hrest rfl)
    | @kept cs ds c hrest =>
      obtain hstands | ⟨stretch, made, behind, hsplit, hne, hplain, hmade, hover⟩ := h.next c ds
      · rw [hstands]
        exact .kept c (ih _ (Nat.lt_succ_self _) hrest rfl)
      · have hwhole : Masked (c :: cs) (stretch ++ behind) := hsplit ▸ .kept c hrest
        obtain ⟨rest, hcs, hbehind⟩ := hwhole.exists_rest hplain
        have hshorter : behind.length < (c :: ds).length := by
          rw [hsplit, List.length_append]
          exact Nat.lt_add_of_pos_left (List.length_pos_iff.mpr hne)
        rw [hover, hcs]
        exact hmade.append (ih _ hshorter hbehind rfl)

/-- A text that does not begin with a run has none at its front. -/
theorem nothing_taken {p : Char → Bool} {cs : List Char} (h : ∀ c ∈ cs.head?, p c = false) :
    cs.takeWhile p = [] ∧ cs.dropWhile p = cs := by
  cases cs with
  | nil => exact ⟨rfl, rfl⟩
  | cons c cs =>
    have hc : ¬ p c = true := by simp [h c rfl]
    exact ⟨List.takeWhile_cons_of_neg hc, List.dropWhile_cons_of_neg hc⟩

/-! ### Passes for signs -/

section Signs

variable {g : Sign}

theorem redactSign_other {c : Char} {rest : List Char} (h : ¬ g.label <+: c :: rest) :
    redactSign g (c :: rest) = c :: redactSign g rest := by
  rw [redactSign, if_neg fun hbegins => h (List.isPrefixOf_iff_prefix.mp hbegins.1)]

/-- The replacement of a sign and the secret after it. -/
def signRedacted (g : Sign) (run : List Char) : List Char :=
  if run.isEmpty then g.label else if g.kept then g.label ++ redacted else redacted

theorem redactSign_label (hlabel : g.label ≠ []) (behind : List Char) :
    redactSign g (g.label ++ behind) = signRedacted g (behind.takeWhile isSecretChar) ++
      redactSign g (behind.dropWhile isSecretChar) := by
  obtain ⟨c, label, hcons⟩ := List.exists_cons_of_ne_nil hlabel
  have hwhole : g.label ++ behind = c :: (label ++ behind) := by rw [hcons, List.cons_append]
  have hbegins : g.label.isPrefixOf (c :: (label ++ behind)) ∧ g.label ≠ [] :=
    ⟨List.isPrefixOf_iff_prefix.mpr ⟨behind, hwhole⟩, hlabel⟩
  have hafter : (c :: (label ++ behind)).drop g.label.length = behind := by
    rw [← hwhole, List.drop_left]
  rw [hwhole, redactSign, if_pos hbegins]
  simp only [hafter, drop_length_takeWhile]
  rfl

/-- Inside `[REDACTED]` no sign begins. -/
theorem Sign.IsSound.not_begins (hg : g.IsSound) {front : List Char} (hfront : front <:+ redacted)
    (hne : front ≠ []) (ds : List Char) : ¬ g.label <+: front ++ ds := by
  intro hbegins
  have hclosed : ']' ∈ front := by
    have hlast : redacted.getLast? = some ']' := by decide
    obtain ⟨before, hbefore⟩ := hfront
    rw [← hbefore, List.getLast?_append, List.getLast?_eq_some_getLast hne, Option.some_or] at hlast
    exact Option.some.inj hlast ▸ List.getLast_mem hne
  obtain hinside | hbeyond := List.prefix_or_prefix_of_prefix hbegins (List.prefix_append front ds)
  · obtain ⟨c, hc, hout⟩ := hg.foreign.letter
    exact hout (hfront.subset (hinside.subset hc))
  · exact hg.foreign.closing (hbeyond.subset hclosed)

theorem isPass_redactSign (hg : g.IsSound) : IsPass (redactSign g) where
  nil := by rw [redactSign]
  written ds := by
    have hsuffix {front : List Char} (hfront : front <:+ redacted) :
        redactSign g (front ++ ds) = front ++ redactSign g ds := by
      induction front with
      | nil => rfl
      | cons c front ih =>
        have hother := hg.not_begins hfront (List.cons_ne_nil c front) ds
        have hrest := ih ((List.suffix_cons c front).trans hfront)
        rw [List.cons_append] at hother ⊢
        rw [redactSign_other hother, hrest, List.cons_append]
    exact hsuffix List.suffix_rfl
  next c rest := by
    by_cases hbegins : g.label <+: c :: rest
    · right
      obtain ⟨behind, hsplit⟩ := hbegins
      refine ⟨g.label ++ behind.takeWhile isSecretChar,
        signRedacted g (behind.takeWhile isSecretChar), behind.dropWhile isSecretChar, ?_, ?_, ?_, ?_, ?_⟩
      · rw [List.append_assoc, List.takeWhile_append_dropWhile, hsplit]
      · simp [hg.label_ne]
      · rw [List.mem_append, not_or]
        refine ⟨hg.foreign.opening, fun hmem => ?_⟩
        have hsecret := List.all_eq_true.mp List.all_takeWhile _ hmem
        exact absurd hsecret (by decide)
      · unfold signRedacted
        split
        · rename_i hnone
          rw [List.isEmpty_iff.mp hnone, List.append_nil]
          exact .refl _
        · rename_i hsome
          split
          · exact (Masked.refl _).append (.whole fun h => hsome (by rw [h]; rfl))
          · exact .whole (by simp [hg.label_ne])
      · rw [← hsplit, redactSign_label hg.label_ne]
    · exact .inl (redactSign_other hbegins)

/-- A pass changes nothing where no secret follows its sign. -/
theorem redactSign_of_isClearOf (hlabel : g.label ≠ []) {cs : List Char}
    (h : IsClearOf g.label cs) : redactSign g cs = cs := by
  induction hn : cs.length using Nat.strong_induction_on generalizing cs with
  | h n ih =>
    subst hn
    cases cs with
    | nil => rw [redactSign]
    | cons c rest =>
      by_cases hbegins : g.label <+: c :: rest
      · obtain ⟨behind, hsplit⟩ := hbegins
        have hends : EndsRun behind := by
          intro d hd
          rw [← Bool.not_eq_true]
          intro hsecret
          obtain ⟨more, rfl⟩ := List.head?_eq_some_iff.mp hd
          exact h d hsecret ⟨[], more, by simp [← hsplit]⟩
        obtain ⟨hnone, hall⟩ := nothing_taken hends
        have hshorter : behind.length < (c :: rest).length := by
          rw [← hsplit, List.length_append]
          exact Nat.lt_add_of_pos_left (List.length_pos_iff.mpr hlabel)
        have hclear : IsClearOf g.label behind := h.mono (hsplit ▸ List.suffix_append ..).isInfix
        rw [← hsplit, redactSign_label hlabel, hnone, hall, ih _ hshorter hclear rfl]
        rfl
      · have hclear : IsClearOf g.label rest := h.mono (List.suffix_cons c rest).isInfix
        rw [redactSign_other hbegins, ih _ (Nat.lt_succ_self _) hclear rfl]

end Signs

/-! ### The pass for keys -/

section Keys

theorem redactKeys_other {c : Char} {cs : List Char} (h : c = '0' → cs.head? ≠ some 'x') :
    redactKeys (c :: cs) = c :: redactKeys cs := by
  rw [redactKeys]
  rintro rest rfl rfl
  exact h rfl rfl

theorem redactKeys_zero_x (cs : List Char) : redactKeys ('0' :: 'x' :: cs) =
    keyRedacted (cs.takeWhile isHexDigit) ++ redactKeys (cs.dropWhile isHexDigit) := by
  rw [redactKeys]
  simp only [drop_length_takeWhile]
  rfl

theorem isPass_redactKeys : IsPass redactKeys where
  nil := by rw [redactKeys]
  written ds := by
    have hplain {front : List Char} (hfront : '0' ∉ front) :
        redactKeys (front ++ ds) = front ++ redactKeys ds := by
      induction front with
      | nil => rfl
      | cons c front ih =>
        rw [List.mem_cons, not_or] at hfront
        rw [List.cons_append, redactKeys_other fun hzero => absurd hzero.symm hfront.1, ih hfront.2,
          List.cons_append]
    exact hplain (by decide)
  next c rest := by
    by_cases hzero : c = '0' ∧ rest.head? = some 'x'
    · right
      obtain ⟨rfl, hx⟩ := hzero
      obtain ⟨behind, rfl⟩ := List.head?_eq_some_iff.mp hx
      refine ⟨'0' :: 'x' :: behind.takeWhile isHexDigit, keyRedacted (behind.takeWhile isHexDigit),
        behind.dropWhile isHexDigit, ?_, List.cons_ne_nil _ _, ?_, ?_, redactKeys_zero_x behind⟩
      · rw [List.cons_append, List.cons_append, List.takeWhile_append_dropWhile]
      · simp only [List.mem_cons, not_or]
        refine ⟨by decide, by decide, fun hmem => ?_⟩
        have hdigit := List.all_eq_true.mp List.all_takeWhile _ hmem
        exact absurd hdigit (by decide)
      · unfold keyRedacted
        split
        · exact .whole (List.cons_ne_nil _ _)
        · exact .refl _
    · exact .inl (redactKeys_other fun hc hx => hzero ⟨hc, hx⟩)

/-- The last pass keeps its replacement of a `0x` and its digits. -/
theorem redactKeys_keyRedacted {digits rest : List Char} (hdigits : AreDigits digits)
    (hrest : ∀ c ∈ rest.head?, isHexDigit c = false) :
    redactKeys (keyRedacted digits ++ rest) = keyRedacted digits ++ redactKeys rest := by
  by_cases hkey : digits.length == keyDigits
  · rw [keyRedacted, if_pos hkey, isPass_redactKeys.written]
  · obtain ⟨hnone, hall⟩ := nothing_taken hrest
    have hown : keyRedacted digits = '0' :: 'x' :: digits := if_neg hkey
    rw [hown, List.cons_append, List.cons_append, redactKeys_zero_x,
      List.takeWhile_append_of_pos hdigits, List.dropWhile_append_of_pos hdigits, hnone, hall,
      List.append_nil, hown]

/-- **The last pass scans its output as it has scanned its input.** -/
theorem KeySweep.fixed {cs ds : List Char} (h : KeySweep cs ds) : redactKeys ds = ds := by
  induction h with
  | nil => rw [redactKeys]
  | other hother hrest ih =>
    rw [redactKeys_other fun hzero => hrest.head?_ne (hother hzero), ih]
  | @final digits hdigits =>
    have hnothing : ∀ c ∈ ([] : List Char).head?, isHexDigit c = false := by simp
    have hown := redactKeys_keyRedacted hdigits hnothing
    rwa [List.append_nil, redactKeys, List.append_nil] at hown
  | @found digits cs ds c hdigits hc _ ih =>
    have hother : c = '0' → ds.head? ≠ some 'x' := by
      rintro rfl
      exact absurd hc (by decide)
    have hends : ∀ d ∈ (c :: ds).head?, isHexDigit d = false := by
      intro d hd
      cases hd
      exact hc
    rw [redactKeys_keyRedacted hdigits hends, redactKeys_other hother, ih]

/-- The last pass changes nothing where there is no `0x`. -/
theorem redactKeys_of_not_infix {cs : List Char} (h : ¬ ['0', 'x'] <:+: cs) : redactKeys cs = cs := by
  induction cs with
  | nil => rw [redactKeys]
  | cons c cs ih =>
    have hother : c = '0' → cs.head? ≠ some 'x' := by
      rintro rfl hx
      obtain ⟨behind, rfl⟩ := List.head?_eq_some_iff.mp hx
      exact h ⟨[], behind, rfl⟩
    rw [redactKeys_other hother, ih fun hlater => h (List.infix_cons hlater)]

end Keys

/-! ### All passes -/

/-- Passes for signs change nothing where no secret follows any of them. -/
theorem foldl_of_isClearOf {gs : List Sign} (hlabels : ∀ g ∈ gs, g.label ≠ []) {cs : List Char}
    (h : ∀ g ∈ gs, IsClearOf g.label cs) : gs.foldl (fun text g => redactSign g text) cs = cs := by
  induction gs with
  | nil => rfl
  | cons g gs ih =>
    rw [List.foldl_cons, redactSign_of_isClearOf (hlabels g List.mem_cons_self) (h g List.mem_cons_self)]
    exact ih (fun g hg => hlabels g (List.mem_cons_of_mem _ hg)) fun g hg => h g (List.mem_cons_of_mem _ hg)

theorem signs_label_ne : ∀ g ∈ signs, g.label ≠ [] := fun g hg => (signs_sound g hg).label_ne

theorem redactChars_masked (cs : List Char) : Masked cs (redactChars cs) := by
  have hsigns {gs : List Sign} (hsound : ∀ g ∈ gs, g.IsSound) {ds : List Char} (h : Masked cs ds) :
      Masked cs (gs.foldl (fun text g => redactSign g text) ds) := by
    induction gs generalizing ds with
    | nil => exact h
    | cons g gs ih =>
      have hfirst := (isPass_redactSign (hsound g List.mem_cons_self)).masked h
      exact ih (fun g hg => hsound g (List.mem_cons_of_mem _ hg)) hfirst
  exact isPass_redactKeys.masked (hsigns signs_sound (.refl cs))

/-- **All passes together are idempotent.** -/
theorem redactChars_redactChars (cs : List Char) : redactChars (redactChars cs) = redactChars cs := by
  have hsigned := foldl_of_isClearOf signs_label_ne fun _ hg => redactChars_isClearOf cs hg
  have hkeys : redactKeys (redactChars cs) = redactChars cs := (keySweep_redactKeys _).fixed
  rw [redactChars, hsigned, hkeys]

/-- **The passes change nothing in a text that is not suspicious.** -/
theorem redactChars_of_not_suspicious {cs : List Char} (h : isSuspicious cs = false) :
    redactChars cs = cs := by
  rw [isSuspicious, Bool.or_eq_false_iff, List.any_eq_false] at h
  obtain ⟨hsigns, hzero⟩ := h
  have hclear : ∀ g ∈ signs, IsClearOf g.label cs := fun g hg c _ hshown =>
    hsigns g hg (occurs_iff.mpr ((List.prefix_append g.label [c]).isInfix.trans hshown))
  rw [redactChars, foldl_of_isClearOf signs_label_ne hclear, redactKeys_of_not_infix]
  rw [← occurs_iff, hzero]
  exact Bool.false_ne_true

theorem toList_redact (s : String) : (redact s).toList = redactChars s.toList := by
  unfold redact
  split
  · rw [String.toList_ofList]
  · rename_i hnone
    rw [redactChars_of_not_suspicious (by simpa using hnone)]

/-- **A redacted text is the text with some substrings replaced, and redacting it again changes
nothing.** The passes leave a text as it is that is not suspicious. So one is borrowed, not copied,
exactly if they change nothing in it. -/
theorem redact_substitutes (s : String) :
    (∃ (pieces : List (List Char × List Char)) (last : List Char), (∀ p ∈ pieces, p.2 ≠ []) ∧
      s.toList = pieces.flatMap (fun p => p.1 ++ p.2) ++ last ∧
      (redact s).toList = pieces.flatMap (fun p => p.1 ++ "[REDACTED]".toList) ++ last) ∧
    (isSuspicious s.toList = false → redactChars s.toList = s.toList) ∧
    (isClean s = true ↔ redactChars s.toList = s.toList) ∧
    redact (redact s) = redact s := by
  refine ⟨?_, redactChars_of_not_suspicious, ?_, ?_⟩
  · rw [toList_redact]
    exact (redactChars_masked s.toList).exists_pieces
  · rw [isClean, Bool.or_eq_true, Bool.not_eq_true', beq_iff_eq]
    exact ⟨fun h => h.elim redactChars_of_not_suspicious id, .inr⟩
  · rw [← String.toList_inj, toList_redact, toList_redact, redactChars_redactChars]

/-- A text that is not suspicious is unchanged by all passes, and borrowed. -/
theorem redact_substitutes_plain : isClean "retry in 5 s" = true := by
  obtain ⟨-, hpasses, hclean, -⟩ := redact_substitutes "retry in 5 s"
  exact hclean.mpr (hpasses (by decide))

end ChainAgent.Text
