import ChainAgent.Proofs.Json.Grammar

/-! Truncated objects, and objects after other text.

A proper prefix of an object's text is no document (`readDocument_cut`). An object whose first key
begins with a lowercase letter is no document after other text: whatever stands before it either
ends before the object, or runs into the quote of that key (`readDocument_in_front`). -/
namespace ChainAgent.Json

/-! ### Cut off -/

/-- Only an object begins with a brace. -/
theorem Spells.isClosed_of_brace {n : Node} {tail rest : List Char}
    (h : Spells (.value n) ('{' :: tail) rest) : (Phrase.value n).IsClosed := by
  have hskip : skipSpace ('{' :: tail) = '{' :: tail := skipSpace_cons (by decide) tail
  cases h with
  | scalar hread =>
    rw [hskip] at hread
    exact absurd (isScalarChar_of_readScalar hread) (by decide)
  | text | emptyArray | array | emptyObject | object => trivial

/-- **A truncated object is no document.** -/
theorem readDocument_cut {n : Node} {front behind : List Char}
    (h : Spells (.value n) ('{' :: (front ++ behind)) []) (hne : behind ≠ []) :
    (readDocument (String.ofList ('{' :: front))).2 = false := by
  rw [Bool.eq_false_iff]
  intro hended
  obtain ⟨rest, hspells, -⟩ := readDocument_eq_iff.mp (Prod.ext rfl hended)
  rw [String.toList_ofList] at hspells
  have hwhole := hspells.append behind (.inr hspells.isClosed_of_brace)
  rw [List.cons_append] at hwhole
  exact hne (List.append_eq_nil_iff.mp (hwhole.value_unique h).2).2

/-! ### Something in front -/

/-- The first character that is not whitespace is the brace of the object, or it is before the
object. -/
theorem skipSpace_suffix {cs tail : List Char} (h : '{' :: tail <:+ cs) :
    skipSpace cs = '{' :: tail ∨ ∃ c rest, skipSpace cs = c :: rest ∧ '{' :: tail <:+ rest := by
  induction cs with
  | nil => exact absurd (List.suffix_nil.mp h) (by simp)
  | cons c cs ih =>
    obtain heq | hsuffix := List.suffix_cons_iff.mp h
    · rw [← heq]
      exact .inl (skipSpace_cons (by decide) tail)
    · by_cases hc : isSpace c
      · have hskip : skipSpace (c :: cs) = skipSpace cs := by simp [skipSpace, hc]
        rw [hskip]
        exact ih hsuffix
      · exact .inr ⟨c, cs, skipSpace_cons (by simpa using hc) cs, hsuffix⟩

/-- A character other than the brace ends before the object. -/
theorem suffix_of_mark {c : Char} {cs rest tail : List Char} (h : '{' :: tail <:+ cs)
    (hskip : skipSpace cs = c :: rest) (hc : c ≠ '{') : '{' :: tail <:+ rest := by
  obtain hobject | ⟨d, rest', hd, hsuffix⟩ := skipSpace_suffix h
  · rw [hobject, List.cons.injEq] at hskip
    exact absurd hskip.1.symm hc
  · rw [hd, List.cons.injEq] at hskip
    rwa [← hskip.2]

/-- A number or a word ends before the object. -/
theorem suffix_of_readScalar {n : Node} {cs rest tail : List Char} (h : '{' :: tail <:+ cs)
    (hread : readScalar cs = (n, some rest)) : '{' :: tail <:+ rest := by
  obtain ⟨front, rfl⟩ := h
  obtain ⟨taken, htaken, -, hall⟩ := readScalar_taken hread
  have hbrace : '{' ∉ taken := fun hmem => absurd (List.all_eq_true.mp hall _ hmem) (by decide)
  obtain ⟨between, -, hrest⟩ := rest_of_taken htaken hbrace
  exact ⟨between, hrest.symm⟩

section InFront

variable {c : Char} {cs rest tail : List Char}

theorem skipSpace_lower (hc : c.isLower) : skipSpace (c :: tail) = c :: tail := by
  refine skipSpace_cons ?_ _
  rw [Bool.eq_false_iff]
  intro hspace
  simp only [isSpace, Bool.or_eq_true, beq_iff_eq] at hspace
  obtain ((rfl | rfl) | rfl) | rfl := hspace <;> exact absurd hc (by decide)

/-- A string ends before the object, or at the quote of its first key. -/
theorem suffix_of_readText {s : Option String} (h : '{' :: '"' :: c :: tail <:+ cs)
    (hread : readText cs = some (s, rest)) :
    '{' :: '"' :: c :: tail <:+ rest ∨ rest = c :: tail := by
  obtain ⟨front, rfl⟩ := h
  obtain ⟨between, rfl⟩ | hrest := readText_before_object hread
  · exact .inl ⟨between, rfl⟩
  · exact .inr hrest

/-- If a value ends before the object or runs into it, what follows a separator does too: the
separator is no letter of the key. -/
theorem suffix_of_next {d : Char} {next : List Char} (hc : c.isLower) (hd : d ≠ '{')
    (hlower : d.isLower = false) (hskip : skipSpace cs = d :: next)
    (h : '{' :: '"' :: c :: tail <:+ cs ∨ cs = c :: tail ∨ cs = []) :
    '{' :: '"' :: c :: tail <:+ next := by
  obtain hsuffix | rfl | rfl := h
  · exact suffix_of_mark hsuffix hskip hd
  · rw [skipSpace_lower hc, List.cons.injEq] at hskip
    rw [hskip.1, hlower] at hc
    cases hc
  · cases hskip

/-- A phrase that begins before an object ends before it, unless it is a string that ends at the
quote of the object's first key, or the object itself. -/
theorem Spells.before_object {φ : Phrase} (hc : c.isLower)
    (hobject : ∀ n rest, Spells (.value n) ('{' :: '"' :: c :: tail) rest → rest = [])
    (h : Spells φ cs rest) (hcs : '{' :: '"' :: c :: tail <:+ cs) :
    '{' :: '"' :: c :: tail <:+ rest ∨
      (∃ n, φ = .value n) ∧
        (rest = c :: tail ∨ rest = [] ∧ skipSpace cs = '{' :: '"' :: c :: tail) := by
  induction h with
  | scalar hread =>
    obtain hskip | ⟨d, inside, hskip, hsuffix⟩ := skipSpace_suffix hcs
    · rw [hskip] at hread
      exact absurd (isScalarChar_of_readScalar hread) (by decide)
    · rw [hskip] at hread
      exact .inl (suffix_of_readScalar (hsuffix.trans (List.suffix_cons d inside)) hread)
  | text hq hread =>
    obtain hsuffix | hrest := suffix_of_readText (suffix_of_mark hcs hq (by decide)) hread
    · exact .inl hsuffix
    · exact .inr ⟨⟨_, rfl⟩, .inl hrest⟩
  | emptyArray hopen hclose =>
    exact .inl (suffix_of_mark (suffix_of_mark hcs hopen (by decide)) hclose (by decide))
  | array hopen _ ih =>
    obtain hsuffix | ⟨⟨n, hn⟩, -⟩ := ih (suffix_of_mark hcs hopen (by decide))
    · exact .inl hsuffix
    · cases hn
  | emptyObject hopen hclose =>
    obtain hskip | ⟨d, inside, hskip, hsuffix⟩ := skipSpace_suffix hcs
    · rw [hskip, List.cons.injEq] at hopen
      rw [← hopen.2, skipSpace_cons (by decide)] at hclose
      exact absurd (List.cons.inj hclose).1 (by decide)
    · rw [hskip, List.cons.injEq] at hopen
      rw [hopen.2] at hsuffix
      exact .inl (suffix_of_mark hsuffix hclose (by decide))
  | @object ms cs inside rest hopen hmembers ih =>
    obtain hskip | ⟨d, inside', hskip, hsuffix⟩ := skipSpace_suffix hcs
    · refine .inr ⟨⟨_, rfl⟩, .inr ⟨?_, hskip⟩⟩
      rw [hskip] at hopen
      exact hobject _ _ (.object ((skipSpace_cons (by decide) _).trans hopen) hmembers)
    · rw [hskip, List.cons.injEq] at hopen
      rw [hopen.2] at hsuffix
      obtain hrest | ⟨⟨n, hn⟩, -⟩ := ih hsuffix
      · exact .inl hrest
      · cases hn
  | lastItem _ hclose ih =>
    exact .inl (suffix_of_next hc (by decide) (by decide) hclose
      ((ih hcs).imp_right fun hvalue => hvalue.2.imp_right And.left))
  | item _ hcomma _ ih ihrest =>
    have hnext := suffix_of_next hc (by decide) (by decide) hcomma
      ((ih hcs).imp_right fun hvalue => hvalue.2.imp_right And.left)
    obtain hrest | ⟨⟨n, hn⟩, -⟩ := ihrest hnext
    · exact .inl hrest
    · cases hn
  | lastMember hq hkey hcolon _ hclose ih =>
    have hcolon := suffix_of_next hc (by decide) (by decide) hcolon
      ((suffix_of_readText (suffix_of_mark hcs hq (by decide)) hkey).imp_right .inl)
    exact .inl (suffix_of_next hc (by decide) (by decide) hclose
      ((ih hcolon).imp_right fun hvalue => hvalue.2.imp_right And.left))
  | member hq hkey hcolon _ hcomma _ ih ihrest =>
    have hcolon := suffix_of_next hc (by decide) (by decide) hcolon
      ((suffix_of_readText (suffix_of_mark hcs hq (by decide)) hkey).imp_right .inl)
    have hnext := suffix_of_next hc (by decide) (by decide) hcomma
      ((ih hcolon).imp_right fun hvalue => hvalue.2.imp_right And.left)
    obtain hrest | ⟨⟨n, hn⟩, -⟩ := ihrest hnext
    · exact .inl hrest
    · cases hn

/-- **Only whitespace can precede an object** that ends a document and whose first key begins with a
lowercase letter. -/
theorem readDocument_in_front {n : Node} (hc : c.isLower)
    (hobject : Spells (.value n) ('{' :: '"' :: c :: tail) [])
    (hcs : '{' :: '"' :: c :: tail <:+ cs) (hfront : skipSpace cs ≠ '{' :: '"' :: c :: tail) :
    (readDocument (String.ofList cs)).2 = false := by
  rw [Bool.eq_false_iff]
  intro hended
  obtain ⟨rest, hspells, hrest⟩ := readDocument_eq_iff.mp (Prod.ext rfl hended)
  rw [String.toList_ofList] at hspells
  have hblock : ∀ n rest, Spells (.value n) ('{' :: '"' :: c :: tail) rest → rest = [] :=
    fun _ _ h => (h.value_unique hobject).2
  obtain hsuffix | ⟨-, rfl | ⟨-, hskip⟩⟩ := hspells.before_object hc hblock hcs
  · obtain hskip | ⟨d, inside, hskip, -⟩ := skipSpace_suffix hsuffix
    · cases hskip.symm.trans hrest
    · cases hskip.symm.trans hrest
  · cases (skipSpace_lower hc).symm.trans hrest
  · exact hfront hskip

end InFront

end ChainAgent.Json
