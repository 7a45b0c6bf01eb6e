import ChainAgent.Text.Lowercase
import Mathlib.Data.List.Infix

/-! Lowercase of a substring in its context.

The lowercase of a capital sigma depends on its context, that of every other character does not. A
substring is settled if it has all the context of its capital sigmas; its lowercase is then the same
wherever it stands (`IsSettled.lowerAmid_eq`). A substring that is not settled has another lowercase
before a capital alpha or after one, and is no longer found there (`forall_lower_infix_iff`). -/
namespace ChainAgent.Text

/-- The lowercase of a character after `before`, last character first, and before `rest`. -/
def lowerAt (before : List Char) (c : Char) (rest : List Char) : List Char :=
  if c == 'Σ' then (if meetsCased before && !meetsCased rest then ['ς'] else ['σ'])
  else lowerChar c

/-- The lowercase of a substring between others. -/
def lowerAmid (before after : List Char) : List Char → List Char
  | [] => []
  | c :: rest => lowerAt before c (rest ++ after) ++ lowerAmid (c :: before) after rest

theorem lowerFrom_eq (before cs : List Char) : lowerFrom before cs = lowerAmid before [] cs := by
  induction cs generalizing before with
  | nil => rfl
  | cons c cs ih =>
    rw [lowerFrom, ih, lowerAmid, lowerAt, List.append_nil]

theorem lowerAmid_append (before after cs ds : List Char) :
    lowerAmid before after (cs ++ ds) =
      lowerAmid before (ds ++ after) cs ++ lowerAmid (cs.reverse ++ before) after ds := by
  induction cs generalizing before with
  | nil => rfl
  | cons c cs ih =>
    rw [List.cons_append, lowerAmid, ih, lowerAmid, List.reverse_cons, List.append_assoc,
      List.append_assoc, List.append_assoc]
    rfl

/-- A substring of a text with its context. -/
theorem lowerChars_amid (front cs back : List Char) :
    lowerChars (front ++ cs ++ back) = lowerAmid [] (cs ++ back) front ++
      lowerAmid front.reverse back cs ++ lowerAmid (cs.reverse ++ front.reverse) [] back := by
  rw [lowerChars, lowerFrom_eq, lowerAmid_append, lowerAmid_append, List.append_nil,
    List.append_nil, List.append_nil, List.reverse_append]

theorem lowerChars_ne_nil {cs : List Char} (h : cs ≠ []) : lowerChars cs ≠ [] := by
  obtain ⟨c, cs, rfl⟩ := List.exists_cons_of_ne_nil h
  have hchar : lowerChar c ≠ [] := by
    unfold lowerChar
    split
    · exact List.cons_ne_nil _ _
    · split
      · exact List.cons_ne_nil _ _
      · split <;> exact List.cons_ne_nil _ _
  have hfirst : lowerAt [] c cs ≠ [] := by
    unfold lowerAt
    split
    · split <;> exact List.cons_ne_nil _ _
    · exact hchar
  exact List.append_ne_nil_of_left_ne_nil hfirst _

/-! ### What a capital sigma goes by -/

/-- Whether the first character that is not case-ignorable is cased, if there is one. -/
def firstCased (cs : List Char) : Option Bool :=
  (cs.dropWhile isCaseIgnorable).head?.map isCased

theorem meetsCased_eq (cs : List Char) : meetsCased cs = (firstCased cs).getD false := by
  unfold meetsCased firstCased
  cases cs.dropWhile isCaseIgnorable <;> rfl

theorem firstCased_append (cs ds : List Char) :
    firstCased (cs ++ ds) = (firstCased cs <|> firstCased ds) := by
  unfold firstCased
  rw [List.dropWhile_append]
  cases cs.dropWhile isCaseIgnorable <;> rfl

/-- The lowercase of a capital sigma after `front` and before `back` depends on these alone. -/
def SettledBy (front back : List Char) : Prop :=
  firstCased front.reverse = some false ∨ firstCased back = some true ∨
    firstCased front.reverse = some true ∧ firstCased back = some false

instance (front back : List Char) : Decidable (SettledBy front back) :=
  inferInstanceAs (Decidable (_ ∨ _ ∨ _ ∧ _))

/-- A text whose capital sigmas do not depend on the text around it. -/
def IsSettled (cs : List Char) : Prop :=
  ∀ front back, cs = front ++ 'Σ' :: back → SettledBy front back

theorem isSettled_of_not_mem {cs : List Char} (h : 'Σ' ∉ cs) : IsSettled cs :=
  fun front back hsplit => absurd (by simp [hsplit]) h

/-- Whether a capital sigma becomes a final sigma. -/
def isFinal (before rest : List Char) : Bool := meetsCased before && !meetsCased rest

theorem SettledBy.isFinal_eq {front back : List Char} (h : SettledBy front back)
    (before after : List Char) :
    isFinal (front.reverse ++ before) (back ++ after) = isFinal front.reverse back := by
  simp only [isFinal, meetsCased_eq, firstCased_append]
  obtain hfront | hback | ⟨hfront, hback⟩ := h
  · simp [hfront]
  · simp [hback]
  · simp [hfront, hback]

/-- Substrings in two contexts have the same lowercase if their capital sigmas have. -/
theorem lowerAmid_congr {cs before after before' after' : List Char}
    (h : ∀ front back, cs = front ++ 'Σ' :: back →
      isFinal (front.reverse ++ before) (back ++ after) =
        isFinal (front.reverse ++ before') (back ++ after')) :
    lowerAmid before after cs = lowerAmid before' after' cs := by
  induction cs generalizing before before' with
  | nil => rfl
  | cons c cs ih =>
    have hrest : lowerAmid (c :: before) after cs = lowerAmid (c :: before') after' cs :=
      ih fun front back hsplit => by simpa using h (c :: front) back (by rw [hsplit]; rfl)
    rw [lowerAmid, lowerAmid, hrest]
    congr 1
    unfold lowerAt
    split
    · rename_i hc
      rw [beq_iff_eq] at hc
      have hfinal := h [] cs (by rw [hc]; rfl)
      rw [List.reverse_nil, List.nil_append, List.nil_append, isFinal, isFinal] at hfinal
      rw [hfinal]
    · rfl

/-- **A settled text has the same lowercase wherever it stands.** -/
theorem IsSettled.lowerAmid_eq {cs : List Char} (h : IsSettled cs) (before after : List Char) :
    lowerAmid before after cs = lowerChars cs := by
  rw [lowerChars, lowerFrom_eq]
  refine lowerAmid_congr fun front back hsplit => ?_
  rw [List.append_nil, List.append_nil]
  exact (h front back hsplit).isFinal_eq before after

/-! ### Where a stretch of text is no longer found -/

theorem lowerAt_sigma (before rest : List Char) :
    lowerAt before 'Σ' rest = if isFinal before rest then ['ς'] else ['σ'] :=
  if_pos rfl

theorem count_sigma (before rest : List Char) :
    (lowerAt before 'Σ' rest).count 'σ' = (!isFinal before rest).toNat := by
  rw [lowerAt_sigma]
  cases isFinal before rest <;> rfl

theorem count_finalSigma (before rest : List Char) :
    (lowerAt before 'Σ' rest).count 'ς' = (isFinal before rest).toNat := by
  rw [lowerAt_sigma]
  cases isFinal before rest <;> rfl

/-- A letter is no less frequent if it is for each capital sigma. -/
theorem count_lowerAmid_le {x : Char} {cs before after before' after' : List Char}
    (h : ∀ front back, cs = front ++ 'Σ' :: back →
      (lowerAt (front.reverse ++ before) 'Σ' (back ++ after)).count x ≤
        (lowerAt (front.reverse ++ before') 'Σ' (back ++ after')).count x) :
    (lowerAmid before after cs).count x ≤ (lowerAmid before' after' cs).count x := by
  induction cs generalizing before before' with
  | nil => exact Nat.le_refl _
  | cons c cs ih =>
    rw [lowerAmid, lowerAmid, List.count_append, List.count_append]
    refine Nat.add_le_add ?_ (ih fun front back hsplit => ?_)
    · by_cases hc : c = 'Σ'
      · subst hc
        exact h [] cs rfl
      · have hsame (before rest : List Char) : lowerAt before c rest = lowerChar c :=
          if_neg (by simpa using hc)
        rw [hsame, hsame]
    · simpa using h (c :: front) back (by rw [hsplit]; rfl)

/-- It is more frequent if it is for one of them. -/
theorem count_lowerAmid_lt {x : Char} {front back before after before' after' : List Char}
    (h : ∀ front' back', front ++ 'Σ' :: back = front' ++ 'Σ' :: back' →
      (lowerAt (front'.reverse ++ before) 'Σ' (back' ++ after)).count x ≤
        (lowerAt (front'.reverse ++ before') 'Σ' (back' ++ after')).count x)
    (hlt : (lowerAt (front.reverse ++ before) 'Σ' (back ++ after)).count x <
      (lowerAt (front.reverse ++ before') 'Σ' (back ++ after')).count x) :
    (lowerAmid before after (front ++ 'Σ' :: back)).count x <
      (lowerAmid before' after' (front ++ 'Σ' :: back)).count x := by
  have hfront : (lowerAmid before ('Σ' :: back ++ after) front).count x ≤
      (lowerAmid before' ('Σ' :: back ++ after') front).count x :=
    count_lowerAmid_le fun f b hsplit => by
      simpa using h f (b ++ 'Σ' :: back) (by rw [hsplit]; simp)
  have hback : (lowerAmid ('Σ' :: (front.reverse ++ before)) after back).count x ≤
      (lowerAmid ('Σ' :: (front.reverse ++ before')) after' back).count x :=
    count_lowerAmid_le fun f b hsplit => by
      simpa using h (front ++ 'Σ' :: f) b (by rw [hsplit]; simp)
  rw [lowerAmid_append, lowerAmid_append, lowerAmid, lowerAmid]
  simp only [List.count_append]
  omega

theorem firstCased_alpha : firstCased ['Α'] = some true := by decide +kernel

theorem lowerAt_alpha (before rest : List Char) : lowerAt before 'Α' rest = ['α'] := by
  have hsmall : lowerChar 'Α' = ['α'] := by decide
  rw [← hsmall]
  exact if_neg (by decide)

/-- After a capital alpha a capital sigma becomes final if it depended on the context before it, and
no final one ceases to be. -/
theorem not_infix_behind {front back : List Char} (hfront : firstCased front.reverse = none)
    (hback : firstCased back ≠ some true) :
    ¬ lowerChars (front ++ 'Σ' :: back) <:+: lowerChars (['Α'] ++ (front ++ 'Σ' :: back)) := by
  have hfewer : (lowerAmid ['Α'] [] (front ++ 'Σ' :: back)).count 'σ' <
      (lowerAmid [] [] (front ++ 'Σ' :: back)).count 'σ' := by
    refine count_lowerAmid_lt (fun f b _ => ?_) ?_
    · simp only [count_sigma, isFinal, meetsCased_eq, firstCased_append, firstCased_alpha,
        List.append_nil]
      cases firstCased f.reverse with
      | none => exact Bool.toNat_le _
      | some cased => exact Nat.le_refl _
    · have hnot : (firstCased back).getD false = false := by
        cases hcased : firstCased back with
        | none => rfl
        | some cased => simpa [hcased] using hback
      simp only [count_sigma, isFinal, meetsCased_eq, firstCased_append, firstCased_alpha,
        List.append_nil, hfront, hnot]
      decide
  intro hinfix
  have hcount := hinfix.sublist.count_le 'σ'
  have htext : lowerChars (['Α'] ++ (front ++ 'Σ' :: back)) =
      'α' :: lowerAmid ['Α'] [] (front ++ 'Σ' :: back) := by
    rw [lowerChars, lowerFrom_eq, List.singleton_append, lowerAmid, lowerAt_alpha]
    rfl
  rw [htext, lowerChars, lowerFrom_eq, List.count_cons_of_ne (by decide)] at hcount
  exact absurd hcount (Nat.not_le.mpr hfewer)

/-- Before a capital alpha a capital sigma is not final. -/
theorem not_infix_before {front back : List Char} (hfront : firstCased front.reverse = some true)
    (hback : firstCased back = none) :
    ¬ lowerChars (front ++ 'Σ' :: back) <:+: lowerChars (front ++ 'Σ' :: back ++ ['Α']) := by
  have hfewer : (lowerAmid [] ['Α'] (front ++ 'Σ' :: back)).count 'ς' <
      (lowerAmid [] [] (front ++ 'Σ' :: back)).count 'ς' := by
    refine count_lowerAmid_lt (fun f b _ => ?_) ?_
    · simp only [count_finalSigma, isFinal, meetsCased_eq, firstCased_append, firstCased_alpha,
        List.append_nil]
      cases firstCased b with
      | none => simp
      | some cased => exact Nat.le_refl _
    · simp only [count_finalSigma, isFinal, meetsCased_eq, firstCased_append, firstCased_alpha,
        List.append_nil, hfront, hback]
      decide
  intro hinfix
  have hcount := hinfix.sublist.count_le 'ς'
  have htext : lowerChars (front ++ 'Σ' :: back ++ ['Α']) =
      lowerAmid [] ['Α'] (front ++ 'Σ' :: back) ++ ['α'] := by
    rw [lowerChars, lowerFrom_eq, lowerAmid_append, lowerAmid, lowerAt_alpha]
    rfl
  rw [htext, lowerChars, lowerFrom_eq, List.count_append] at hcount
  exact absurd hcount (Nat.not_le.mpr hfewer)

/-- **The lowercase of a text occurs in the lowercase of every text that contains it if and only if
it is settled.** -/
theorem forall_lower_infix_iff {cs : List Char} :
    (∀ text, cs <:+: text → lowerChars cs <:+: lowerChars text) ↔ IsSettled cs := by
  constructor
  · intro h front back hsplit
    by_contra hopen
    simp only [SettledBy, not_or, not_and] at hopen
    obtain ⟨hfalse, htrue, hboth⟩ := hopen
    cases hfront : firstCased front.reverse with
    | none =>
      refine not_infix_behind hfront htrue ?_
      rw [← hsplit]
      exact h _ (List.suffix_append ['Α'] cs).isInfix
    | some cased =>
      cases cased with
      | false => exact hfalse hfront
      | true =>
        cases hback : firstCased back with
        | none =>
          refine not_infix_before hfront hback ?_
          rw [← hsplit]
          exact h _ (List.prefix_append cs ['Α']).isInfix
        | some cased =>
          cases cased with
          | false => exact hboth hfront hback
          | true => exact htrue hback
  · rintro h _ ⟨front, back, rfl⟩
    rw [lowerChars_amid, h.lowerAmid_eq]
    exact List.infix_append _ _ _

end ChainAgent.Text
