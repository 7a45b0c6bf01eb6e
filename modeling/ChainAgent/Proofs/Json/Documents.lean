import ChainAgent.Proofs.Json.Escapes
import ChainAgent.Proofs.Json.Grammar
import ChainAgent.Proofs.Text.Blank
import Mathlib.Data.List.TakeWhile

/-! The grammar of JSON.

`Writes` is the grammar of JSON, independent of the parser: numbers by their parts, strings by their
escapes, whitespace where it is insignificant. The same phrases are in `Spells`, the grammar of what
the parser accepts (`Writes.spells`, `takes_of_spells`), so a text is parsed as a node if and only
if it is this node with surrounding whitespace (`readDocument_trim_eq_iff`). -/
namespace ChainAgent.Json

/-! ### Numbers -/

def IsDigits (ds : List Char) : Prop := ds ≠ [] ∧ ∀ c ∈ ds, c.isDigit = true

inductive WritesFraction : Option (List Char) → List Char → Prop
  | absent : WritesFraction none []
  | behind {ds : List Char} : IsDigits ds → WritesFraction (some ds) ('.' :: ds)

inductive WritesSigned : Int → List Char → Prop
  | bare {ds : List Char} : IsDigits ds → WritesSigned (digitsValue ds) ds
  | plus {ds : List Char} : IsDigits ds → WritesSigned (digitsValue ds) ('+' :: ds)
  | minus {ds : List Char} : IsDigits ds → WritesSigned (-digitsValue ds) ('-' :: ds)

inductive WritesExponent : Option Int → List Char → Prop
  | absent : WritesExponent none []
  | behind {e : Int} {mark : Char} {ds : List Char} : mark = 'e' ∨ mark = 'E' → WritesSigned e ds →
      WritesExponent (some e) (mark :: ds)

/-- A number by its parts: an integer part without a superfluous leading zero, and optional fraction
and exponent. -/
inductive WritesNumber : Option Numeral → List Char → Prop
  | parts {whole fs es : List Char} {fraction : Option (List Char)} {exponent : Option Int}
      (isNegative : Bool) : IsDigits whole → (whole.length = 1 ∨ whole.head? ≠ some '0') →
      WritesFraction fraction fs → WritesExponent exponent es →
      WritesNumber (numeral isNegative whole fraction exponent)
        ((if isNegative then ['-'] else []) ++ (whole ++ (fs ++ es)))

/-- A text that does not begin with a digit. -/
def EndsDigits (rest : List Char) : Prop := ∀ c ∈ rest.head?, c.isDigit = false

theorem EndsNumber.endsDigits {rest : List Char} (h : EndsNumber rest) : EndsDigits rest := by
  intro c hc
  have hnot := h c hc
  simp only [isNumberChar, Bool.or_eq_false_iff] at hnot
  exact hnot.1.1.1.1.1

theorem IsDigits.read {ds rest : List Char} (h : IsDigits ds) (hrest : EndsDigits rest) :
    readDigits (ds ++ rest) = some (ds, rest) :=
  readDigits_digits h.1 h.2 hrest

theorem IsDigits.exists_cons {ds : List Char} (h : IsDigits ds) :
    ∃ d tail, ds = d :: tail ∧ d.isDigit = true := by
  obtain ⟨d, tail, rfl⟩ := List.exists_cons_of_ne_nil h.1
  exact ⟨d, tail, rfl, h.2 d List.mem_cons_self⟩

theorem WritesFraction.read {fraction : Option (List Char)} {fs rest : List Char}
    (h : WritesFraction fraction fs) (hrest : EndsDigits rest) (hpoint : rest.head? ≠ some '.') :
    readFraction (fs ++ rest) = some (fraction, rest) := by
  cases h with
  | absent =>
    unfold readFraction
    split
    · rename_i tail hcons
      exact absurd (congrArg List.head? hcons) hpoint
    · rfl
  | behind hds =>
    rw [List.cons_append, readFraction, hds.read hrest]
    rfl

theorem writesFraction_of_read {fraction : Option (List Char)} {cs rest : List Char}
    (h : readFraction cs = some (fraction, rest)) :
    ∃ fs, WritesFraction fraction fs ∧ cs = fs ++ rest := by
  unfold readFraction at h
  split at h
  · rename_i tail
    obtain ⟨⟨ds, behind⟩, hds, heq⟩ := Option.map_eq_some_iff.mp h
    cases heq
    obtain ⟨rfl, hdigits⟩ := readDigits_taken hds
    exact ⟨'.' :: ds, .behind hdigits, rfl⟩
  · cases h
    exact ⟨[], .absent, rfl⟩

theorem WritesSigned.read {e : Int} {ds rest : List Char} (h : WritesSigned e ds)
    (hrest : EndsDigits rest) : readSigned (ds ++ rest) = some (e, rest) := by
  cases h with
  | plus hds | minus hds =>
    rw [List.cons_append, readSigned, hds.read hrest]
    rfl
  | bare hds =>
    obtain ⟨d, tail, rfl, hd⟩ := hds.exists_cons
    unfold readSigned
    split
    · rename_i heq
      cases heq
      exact absurd hd (by decide)
    · rename_i heq
      cases heq
      exact absurd hd (by decide)
    · rw [hds.read hrest]
      rfl

theorem writesSigned_of_read {e : Int} {cs rest : List Char} (h : readSigned cs = some (e, rest)) :
    ∃ ds, WritesSigned e ds ∧ cs = ds ++ rest := by
  unfold readSigned at h
  split at h <;>
    (obtain ⟨⟨ds, behind⟩, hds, heq⟩ := Option.map_eq_some_iff.mp h
     cases heq
     obtain ⟨rfl, hdigits⟩ := readDigits_taken hds)
  · exact ⟨'+' :: ds, .plus hdigits, rfl⟩
  · exact ⟨'-' :: ds, .minus hdigits, rfl⟩
  · exact ⟨ds, .bare hdigits, rfl⟩

theorem WritesExponent.read {e : Option Int} {ds rest : List Char} (h : WritesExponent e ds)
    (hrest : EndsNumber rest) : readExponent (ds ++ rest) = some (e, rest) := by
  cases h with
  | absent => exact hrest.readExponent
  | behind hmark hsigned =>
    obtain rfl | rfl := hmark <;>
      (rw [List.cons_append, readExponent, hsigned.read hrest.endsDigits]
       rfl)

theorem writesExponent_of_read {e : Option Int} {cs rest : List Char}
    (h : readExponent cs = some (e, rest)) : ∃ ds, WritesExponent e ds ∧ cs = ds ++ rest := by
  unfold readExponent at h
  split at h
  · obtain ⟨⟨e, behind⟩, he, heq⟩ := Option.map_eq_some_iff.mp h
    cases heq
    obtain ⟨ds, hds, rfl⟩ := writesSigned_of_read he
    exact ⟨'e' :: ds, .behind (.inl rfl) hds, rfl⟩
  · obtain ⟨⟨e, behind⟩, he, heq⟩ := Option.map_eq_some_iff.mp h
    cases heq
    obtain ⟨ds, hds, rfl⟩ := writesSigned_of_read he
    exact ⟨'E' :: ds, .behind (.inr rfl) hds, rfl⟩
  · cases h
    exact ⟨[], .absent, rfl⟩

/-- The text after a fraction cannot be a part of it. -/
theorem WritesExponent.ends {e : Option Int} {es rest : List Char} (h : WritesExponent e es)
    (hrest : EndsNumber rest) : EndsDigits (es ++ rest) ∧ (es ++ rest).head? ≠ some '.' := by
  cases h with
  | absent =>
    refine ⟨hrest.endsDigits, fun hpoint => ?_⟩
    exact absurd (hrest '.' hpoint) (by decide)
  | behind hmark _ =>
    obtain rfl | rfl := hmark
    · exact ⟨fun c hc => Option.some.inj hc ▸ rfl, by simp⟩
    · exact ⟨fun c hc => Option.some.inj hc ▸ rfl, by simp⟩

theorem WritesFraction.ends {fraction : Option (List Char)} {fs rest : List Char}
    (h : WritesFraction fraction fs) (hrest : EndsDigits rest) : EndsDigits (fs ++ rest) := by
  cases h with
  | absent => exact hrest
  | behind _ => exact fun c hc => Option.some.inj hc ▸ rfl

/-- Only zero itself begins with a zero. -/
theorem zero_first_iff {whole : List Char} (h : whole ≠ []) :
    (1 < whole.length && whole.head? == some '0') = false ↔
      whole.length = 1 ∨ whole.head? ≠ some '0' := by
  have hpos := List.length_pos_of_ne_nil h
  rw [Bool.and_eq_false_iff, decide_eq_false_iff_not, beq_eq_false_iff_ne]
  refine or_congr_left ?_
  omega

/-- A number is parsed as its value, if the text after it could not be part of it. -/
theorem WritesNumber.read {v : Option Numeral} {ds rest : List Char} (h : WritesNumber v ds)
    (hrest : EndsNumber rest) : readNumber (ds ++ rest) = some (v, rest) := by
  obtain ⟨isNegative, hwhole, hzero, hfraction, hexponent⟩ := h
  rename_i whole fs es fraction exponent
  obtain ⟨hends, hpoint⟩ := hexponent.ends hrest
  have hmagnitude : readMagnitude isNegative (whole ++ (fs ++ (es ++ rest))) =
      some (numeral isNegative whole fraction exponent, rest) :=
    readMagnitude_eq_some_iff.mpr ⟨whole, fraction, exponent, _, _, hwhole.read (hfraction.ends hends),
      (zero_first_iff hwhole.1).mpr hzero, hfraction.read hends hpoint, hexponent.read hrest, rfl⟩
  have htext : (if isNegative then ['-'] else []) ++ (whole ++ (fs ++ es)) ++ rest =
      (if isNegative then ['-'] else []) ++ (whole ++ (fs ++ (es ++ rest))) := by
    simp only [List.append_assoc]
  rw [htext]
  cases isNegative with
  | true => exact hmagnitude
  | false =>
    obtain ⟨d, tail, rfl, hd⟩ := hwhole.exists_cons
    show readNumber (d :: (tail ++ _)) = _
    unfold readNumber
    split
    · rename_i heq
      cases heq
      exact absurd hd (by decide)
    · exact hmagnitude

theorem writesNumber_of_read {v : Option Numeral} {cs rest : List Char}
    (h : readNumber cs = some (v, rest)) : ∃ ds, WritesNumber v ds ∧ cs = ds ++ rest := by
  have hmagnitude {isNegative : Bool} {cs : List Char}
      (h : readMagnitude isNegative cs = some (v, rest)) :
      ∃ ds, WritesNumber v ((if isNegative then ['-'] else []) ++ ds) ∧ cs = ds ++ rest := by
    obtain ⟨whole, fraction, exponent, _, _, hwhole, hzero, hfraction, hexponent, rfl⟩ :=
      readMagnitude_eq_some_iff.mp h
    obtain ⟨rfl, hdigits⟩ := readDigits_taken hwhole
    obtain ⟨fs, hfs, rfl⟩ := writesFraction_of_read hfraction
    obtain ⟨es, hes, rfl⟩ := writesExponent_of_read hexponent
    exact ⟨whole ++ (fs ++ es), .parts isNegative hdigits ((zero_first_iff hdigits.1).mp hzero) hfs hes,
      by simp only [List.append_assoc]⟩
  unfold readNumber at h
  split at h
  · obtain ⟨ds, hds, rfl⟩ := hmagnitude h
    exact ⟨'-' :: ds, hds, rfl⟩
  · exact hmagnitude h

/-! ### The grammar -/

/-- The text of a phrase, with its closing bracket; `null`, `true` and `false` are words. -/
inductive Writes : Phrase → List Char → Prop
  | null : Writes (.value .null) ['n', 'u', 'l', 'l']
  | yes : Writes (.value (.bool true)) ['t', 'r', 'u', 'e']
  | no : Writes (.value (.bool false)) ['f', 'a', 'l', 's', 'e']
  | number {v : Option Numeral} {ds : List Char} : WritesNumber v ds → Writes (.value (.number v)) ds
  | text {s : Option String} {ds : List Char} :
      WritesText s ds → Writes (.value (.text s)) ('"' :: (ds ++ ['"']))
  | emptyArray {blanks : List Char} :
      blanks.all isSpace → Writes (.value (.array [])) ('[' :: (blanks ++ [']']))
  | array {ns : List Node} {ds : List Char} :
      Writes (.items ns) ds → Writes (.value (.array ns)) ('[' :: ds)
  | emptyObject {blanks : List Char} :
      blanks.all isSpace → Writes (.value (.object [])) ('{' :: (blanks ++ ['}']))
  | object {ms : List (Option String × Node)} {ds : List Char} :
      Writes (.members ms) ds → Writes (.value (.object ms)) ('{' :: ds)
  | lastItem {n : Node} {front ds back : List Char} :
      front.all isSpace → Writes (.value n) ds → back.all isSpace →
      Writes (.items [n]) (front ++ (ds ++ (back ++ [']'])))
  | item {n : Node} {ns : List Node} {front ds back es : List Char} :
      front.all isSpace → Writes (.value n) ds → back.all isSpace → Writes (.items ns) es →
      Writes (.items (n :: ns)) (front ++ (ds ++ (back ++ ',' :: es)))
  | lastMember {key : Option String} {n : Node} {front ks before after ds back : List Char} :
      front.all isSpace → WritesText key ks → before.all isSpace → after.all isSpace →
      Writes (.value n) ds → back.all isSpace →
      Writes (.members [(key, n)])
        (front ++ '"' :: (ks ++ '"' :: (before ++ ':' :: (after ++ (ds ++ (back ++ ['}']))))))
  | member {key : Option String} {n : Node} {ms : List (Option String × Node)}
      {front ks before after ds back es : List Char} :
      front.all isSpace → WritesText key ks → before.all isSpace → after.all isSpace →
      Writes (.value n) ds → back.all isSpace → Writes (.members ms) es →
      Writes (.members ((key, n) :: ms))
        (front ++ '"' :: (ks ++ '"' :: (before ++ ':' :: (after ++ (ds ++ (back ++ ',' :: es))))))

/-! ### What is written is in the text -/

theorem skipSpace_blanks {blanks cs : List Char} {c : Char} (h : blanks.all isSpace = true)
    (hc : isSpace c = false) : skipSpace (blanks ++ c :: cs) = c :: cs := by
  rw [skipSpace, List.dropWhile_append_of_pos fun b hb => List.all_eq_true.mp h b hb]
  exact skipSpace_cons hc cs

theorem all_append {front back : List Char} (h : front.all isSpace = true)
    (h' : back.all isSpace = true) : (front ++ back).all isSpace = true := by
  rw [List.all_append, h, h']
  rfl

/-- A number ends before whitespace and before each separator. -/
theorem endsNumber_blanks {blanks : List Char} {c : Char} (h : blanks.all isSpace = true)
    (hc : isNumberChar c = false) (rest : List Char) : EndsNumber (blanks ++ c :: rest) := by
  cases blanks with
  | nil => exact fun d hd => Option.some.inj hd ▸ hc
  | cons b blanks =>
    have hb : isSpace b = true := List.all_eq_true.mp h b List.mem_cons_self
    simp only [isSpace, Bool.or_eq_true, beq_iff_eq] at hb
    intro d hd
    obtain rfl : b = d := Option.some.inj hd
    obtain ((rfl | rfl) | rfl) | rfl := hb <;> rfl

theorem isSpace_of_isNumberChar {c : Char} (h : isNumberChar c = true) : isSpace c = false := by
  rw [Bool.eq_false_iff]
  intro hspace
  simp only [isSpace, Bool.or_eq_true, beq_iff_eq] at hspace
  obtain ((rfl | rfl) | rfl) | rfl := hspace <;> cases h

/-- A phrase of the grammar is accepted by the parser, with any whitespace before it, if no number
can continue after it. -/
theorem Writes.spells {φ : Phrase} {ds : List Char} (h : Writes φ ds) (blanks rest : List Char)
    (hblanks : blanks.all isSpace = true) (hrest : EndsNumber rest) :
    Spells φ (blanks ++ (ds ++ rest)) rest := by
  induction h generalizing blanks rest with
  | null | yes | no =>
    refine .scalar ?_
    rw [List.cons_append, skipSpace_blanks hblanks rfl]
    rfl
  | number hnumber =>
    have hread := hnumber.read hrest
    obtain ⟨taken, hcs, hne, htaken⟩ := readNumber_taken hread
    obtain ⟨c, tail, rfl⟩ := List.exists_cons_of_ne_nil hne
    have hc : isNumberChar c = true := List.all_eq_true.mp htaken c List.mem_cons_self
    refine .scalar ?_
    rw [hcs] at hread ⊢
    rw [List.cons_append, skipSpace_blanks hblanks (isSpace_of_isNumberChar hc)]
    exact readScalar_of_number hread
  | @text s ds htext =>
    refine .text (skipSpace_blanks hblanks rfl) (readText_eq_some_iff.mpr ⟨ds, htext, ?_⟩)
    simp
  | emptyArray hinside =>
    refine .emptyArray (skipSpace_blanks hblanks rfl) ?_
    rw [List.append_eq, List.append_assoc]
    exact skipSpace_blanks hinside rfl
  | array _ ih => exact .array (skipSpace_blanks hblanks rfl) (ih [] rest rfl hrest)
  | emptyObject hinside =>
    refine .emptyObject (skipSpace_blanks hblanks rfl) ?_
    rw [List.append_eq, List.append_assoc]
    exact skipSpace_blanks hinside rfl
  | object _ ih => exact .object (skipSpace_blanks hblanks rfl) (ih [] rest rfl hrest)
  | @lastItem n front ds back hfront _ hback ih =>
    have hvalue := ih _ _ (all_append hblanks hfront) (endsNumber_blanks hback (c := ']') rfl rest)
    refine .lastItem ?_ (skipSpace_blanks hback rfl)
    simpa only [List.append_assoc, List.cons_append, List.nil_append] using hvalue
  | @item n ns front ds back es hfront _ hback _ ih ihrest =>
    have hvalue := ih _ _ (all_append hblanks hfront)
      (endsNumber_blanks hback (c := ',') rfl (es ++ rest))
    refine .item ?_ (skipSpace_blanks hback rfl) (ihrest [] rest rfl hrest)
    simpa only [List.append_assoc, List.cons_append, List.nil_append] using hvalue
  | @lastMember key n front ks before after ds back hfront hkey hbefore hafter _ hback ih =>
    have hvalue := ih _ _ hafter (endsNumber_blanks hback (c := '}') rfl rest)
    refine .lastMember ?_ (readText_eq_some_iff.mpr ⟨ks, hkey, rfl⟩) (skipSpace_blanks hbefore rfl) hvalue
      (skipSpace_blanks hback rfl)
    simpa only [List.append_assoc, List.cons_append, List.nil_append] using
      skipSpace_blanks (c := '"') (all_append hblanks hfront) rfl
  | @member key n ms front ks before after ds back es hfront hkey hbefore hafter _ hback _ ih ihrest =>
    have hvalue := ih _ _ hafter (endsNumber_blanks hback (c := ',') rfl (es ++ rest))
    refine .member ?_ (readText_eq_some_iff.mpr ⟨ks, hkey, rfl⟩) (skipSpace_blanks hbefore rfl) hvalue
      (skipSpace_blanks hback rfl) (ihrest [] rest rfl hrest)
    simpa only [List.append_assoc, List.cons_append, List.nil_append] using
      skipSpace_blanks (c := '"') (all_append hblanks hfront) rfl

/-! ### What is in the text is written there -/

theorem skipSpace_split (cs : List Char) :
    ∃ blanks, blanks.all isSpace = true ∧ cs = blanks ++ skipSpace cs :=
  ⟨cs.takeWhile isSpace, List.all_takeWhile, List.takeWhile_append_dropWhile.symm⟩

theorem exists_blanks {cs rest : List Char} {c : Char} (h : skipSpace cs = c :: rest) :
    ∃ blanks, blanks.all isSpace = true ∧ cs = blanks ++ c :: rest := by
  obtain ⟨blanks, hblanks, hcs⟩ := skipSpace_split cs
  exact ⟨blanks, hblanks, by rwa [h] at hcs⟩

/-- A word or a number that is parsed is one of the grammar. -/
theorem exists_writes_of_scalar {n : Node} {cs rest : List Char} (h : readScalar cs = (n, some rest)) :
    ∃ ds, Writes (.value n) ds ∧ cs = ds ++ rest := by
  unfold readScalar at h
  split at h
  · cases h
    exact ⟨_, .null, rfl⟩
  · cases h
    exact ⟨_, .yes, rfl⟩
  · cases h
    exact ⟨_, .no, rfl⟩
  · split at h
    · rename_i hnumber
      cases h
      obtain ⟨ds, hds, rfl⟩ := writesNumber_of_read hnumber
      exact ⟨ds, .number hds, rfl⟩
    · cases h

/-- What a phrase consumes: a value with the whitespace before it, or the contents of brackets. -/
def Phrase.Takes (cs rest : List Char) : Phrase → Prop
  | .value n => ∃ blanks ds, blanks.all isSpace = true ∧ Writes (.value n) ds ∧ cs = blanks ++ (ds ++ rest)
  | φ => ∃ ds, Writes φ ds ∧ cs = ds ++ rest

theorem takes_of_spells {φ : Phrase} {cs rest : List Char} (h : Spells φ cs rest) : φ.Takes cs rest := by
  -- Whitespace before a value is no part of it but of its item or member.
  induction h with
  | @scalar n cs rest hread =>
    obtain ⟨blanks, hblanks, hcs⟩ := skipSpace_split cs
    obtain ⟨ds, hds, htaken⟩ := exists_writes_of_scalar hread
    exact ⟨blanks, ds, hblanks, hds, by rwa [htaken] at hcs⟩
  | text hq hread =>
    obtain ⟨blanks, hblanks, rfl⟩ := exists_blanks hq
    obtain ⟨ds, hds, rfl⟩ := readText_eq_some_iff.mp hread
    exact ⟨blanks, _, hblanks, .text hds, by simp⟩
  | emptyArray hopen hclose =>
    obtain ⟨blanks, hblanks, rfl⟩ := exists_blanks hopen
    obtain ⟨inside, hinside, rfl⟩ := exists_blanks hclose
    exact ⟨blanks, _, hblanks, .emptyArray hinside, by simp⟩
  | array hopen _ ih =>
    obtain ⟨blanks, hblanks, rfl⟩ := exists_blanks hopen
    obtain ⟨ds, hds, rfl⟩ := ih
    exact ⟨blanks, _, hblanks, .array hds, rfl⟩
  | emptyObject hopen hclose =>
    obtain ⟨blanks, hblanks, rfl⟩ := exists_blanks hopen
    obtain ⟨inside, hinside, rfl⟩ := exists_blanks hclose
    exact ⟨blanks, _, hblanks, .emptyObject hinside, by simp⟩
  | object hopen _ ih =>
    obtain ⟨blanks, hblanks, rfl⟩ := exists_blanks hopen
    obtain ⟨ds, hds, rfl⟩ := ih
    exact ⟨blanks, _, hblanks, .object hds, rfl⟩
  | lastItem _ hclose ih =>
    obtain ⟨front, ds, hfront, hds, rfl⟩ := ih
    obtain ⟨back, hback, rfl⟩ := exists_blanks hclose
    exact ⟨_, .lastItem hfront hds hback, by simp⟩
  | item _ hcomma _ ih ihrest =>
    obtain ⟨front, ds, hfront, hds, rfl⟩ := ih
    obtain ⟨back, hback, rfl⟩ := exists_blanks hcomma
    obtain ⟨es, hes, rfl⟩ := ihrest
    exact ⟨_, .item hfront hds hback hes, by simp⟩
  | lastMember hq hkey hcolon _ hclose ih =>
    obtain ⟨front, hfront, rfl⟩ := exists_blanks hq
    obtain ⟨ks, hks, rfl⟩ := readText_eq_some_iff.mp hkey
    obtain ⟨before, hbefore, rfl⟩ := exists_blanks hcolon
    obtain ⟨after, ds, hafter, hds, rfl⟩ := ih
    obtain ⟨back, hback, rfl⟩ := exists_blanks hclose
    exact ⟨_, .lastMember hfront hks hbefore hafter hds hback, by simp⟩
  | member hq hkey hcolon _ hcomma _ ih ihrest =>
    obtain ⟨front, hfront, rfl⟩ := exists_blanks hq
    obtain ⟨ks, hks, rfl⟩ := readText_eq_some_iff.mp hkey
    obtain ⟨before, hbefore, rfl⟩ := exists_blanks hcolon
    obtain ⟨after, ds, hafter, hds, rfl⟩ := ih
    obtain ⟨back, hback, rfl⟩ := exists_blanks hcomma
    obtain ⟨es, hes, rfl⟩ := ihrest
    exact ⟨_, .member hfront hks hbefore hafter hds hback hes, by simp⟩

/-! ### Whole texts -/

/-- A text of one node, with surrounding whitespace. -/
def IsDocument (raw : String) (n : Node) : Prop :=
  ∃ front ds back, front.all Text.isBlank = true ∧ back.all Text.isBlank = true ∧
    Writes (.value n) ds ∧ raw.toList = front ++ (ds ++ back)

theorem isBlank_of_isNumberChar {c : Char} (h : isNumberChar c = true) : Text.isBlank c = false := by
  simp only [isNumberChar, Bool.or_eq_true, beq_iff_eq] at h
  obtain (((((hdigit | rfl) | rfl) | rfl) | rfl) | rfl) := h
  · exact isBlank_of_isHexDigit (by rw [Text.isHexDigit, hdigit]; rfl)
  all_goals rfl

theorem WritesNumber.isNumberChar {v : Option Numeral} {ds : List Char} (h : WritesNumber v ds) :
    ds ≠ [] ∧ ∀ c ∈ ds, isNumberChar c = true := by
  have hread : readNumber (ds ++ []) = some (v, []) := h.read nofun
  obtain ⟨taken, hcs, hne, htaken⟩ := readNumber_taken hread
  rw [List.append_nil, List.append_nil] at hcs
  rw [hcs]
  exact ⟨hne, List.all_eq_true.mp htaken⟩

/-- A value does not begin with whitespace. -/
theorem Writes.begins {n : Node} {ds : List Char} (h : Writes (.value n) ds) :
    ∃ c tail, ds = c :: tail ∧ Text.isBlank c = false := by
  cases h with
  | number hnumber =>
    obtain ⟨hne, hchars⟩ := hnumber.isNumberChar
    obtain ⟨c, tail, rfl⟩ := List.exists_cons_of_ne_nil hne
    exact ⟨c, tail, rfl, isBlank_of_isNumberChar (hchars c List.mem_cons_self)⟩
  | _ => exact ⟨_, _, rfl, rfl⟩

/-- No phrase ends with whitespace. -/
theorem Writes.ends {φ : Phrase} {ds : List Char} (h : Writes φ ds) :
    ∃ between d, ds = between ++ [d] ∧ Text.isBlank d = false := by
  induction h with
  | null => exact ⟨['n', 'u', 'l'], 'l', rfl, rfl⟩
  | yes => exact ⟨['t', 'r', 'u'], 'e', rfl, rfl⟩
  | no => exact ⟨['f', 'a', 'l', 's'], 'e', rfl, rfl⟩
  | number hnumber =>
    obtain ⟨hne, hchars⟩ := hnumber.isNumberChar
    obtain ⟨between, d, rfl⟩ := (List.eq_nil_or_concat' _).resolve_left hne
    exact ⟨between, d, rfl,
      isBlank_of_isNumberChar (hchars d (List.mem_append_right _ List.mem_cons_self))⟩
  | text _ => exact ⟨'"' :: _, '"', rfl, rfl⟩
  | emptyArray _ => exact ⟨'[' :: _, ']', rfl, rfl⟩
  | emptyObject _ => exact ⟨'{' :: _, '}', rfl, rfl⟩
  | array _ ih | object _ ih =>
    obtain ⟨between, d, rfl, hd⟩ := ih
    exact ⟨_ :: between, d, rfl, hd⟩
  | @lastItem n front ds back _ _ _ _ => exact ⟨front ++ (ds ++ back), ']', by simp, rfl⟩
  | @lastMember key n front ks before after ds back _ _ _ _ _ _ _ =>
    exact ⟨front ++ '"' :: (ks ++ '"' :: (before ++ ':' :: (after ++ (ds ++ back)))), '}', by simp, rfl⟩
  | @item n ns front ds back es _ _ _ _ _ ihrest =>
    obtain ⟨between, d, rfl, hd⟩ := ihrest
    exact ⟨front ++ (ds ++ (back ++ ',' :: between)), d, by simp, hd⟩
  | @member key n ms front ks before after ds back es _ _ _ _ _ _ _ _ ihrest =>
    obtain ⟨between, d, rfl, hd⟩ := ihrest
    exact ⟨front ++ '"' :: (ks ++ '"' :: (before ++ ':' :: (after ++ (ds ++ (back ++ ',' :: between))))),
      d, by simp, hd⟩

/-- A document is not blank. -/
theorem IsDocument.not_saysNothing {raw : String} {n : Node} (h : IsDocument raw n) :
    Text.saysNothing raw = false := by
  obtain ⟨front, ds, back, -, -, hds, hraw⟩ := h
  obtain ⟨c, tail, rfl, hc⟩ := hds.begins
  rw [Text.saysNothing, hraw, List.all_append, List.cons_append, List.all_cons, hc, Bool.false_and,
    Bool.and_false]

theorem isDocument_of_read {raw : String} {n : Node} (h : readDocument raw = (n, true)) :
    IsDocument raw n := by
  obtain ⟨rest, hspells, hrest⟩ := readDocument_eq_iff.mp h
  obtain ⟨blanks, ds, hblanks, hds, hraw⟩ := takes_of_spells hspells
  have hspaces {cs : List Char} (h : ∀ c ∈ cs, isSpace c = true) : cs.all Text.isBlank = true :=
    List.all_eq_true.mpr fun c hc => isBlank_of_isSpace (h c hc)
  exact ⟨blanks, ds, rest, hspaces (List.all_eq_true.mp hblanks),
    hspaces (List.dropWhile_eq_nil_iff.mp hrest), hds, hraw⟩

/-- Surrounding whitespace of a document is ignored. -/
theorem IsDocument.padded {front raw back : String} {n : Node} (h : IsDocument raw n)
    (hfront : Text.saysNothing front = true) (hback : Text.saysNothing back = true) :
    IsDocument (front ++ raw ++ back) n := by
  obtain ⟨before, ds, after, hbefore, hafter, hds, hraw⟩ := h
  refine ⟨front.toList ++ before, ds, after ++ back.toList, ?_, ?_, hds, ?_⟩
  · rw [List.all_append, hbefore, Bool.and_true]
    exact hfront
  · rw [List.all_append, hafter, Bool.true_and]
    exact hback
  · simp only [String.toList_append, hraw, List.append_assoc]

/-- **A trimmed text is parsed as a node if and only if it is a document of this node.** -/
theorem readDocument_trim_eq_iff {raw : String} {n : Node} :
    readDocument (Text.trim raw) = (n, true) ↔ IsDocument raw n := by
  constructor
  · intro h
    obtain ⟨front, back, hfront, hback, hraw⟩ := Text.trim_split raw
    rw [hraw]
    exact (isDocument_of_read h).padded hfront hback
  · rintro ⟨front, ds, back, hfront, hback, hds, hraw⟩
    obtain ⟨c, tail, rfl, hc⟩ := hds.begins
    obtain ⟨between, d, hends, hd⟩ := hds.ends
    have hspells := hds.spells [] [] rfl fun _ hc => by cases hc
    rw [List.append_nil] at hspells
    refine readDocument_eq_iff.mpr ⟨[], ?_, rfl⟩
    rw [Text.trim, String.toList_ofList, hraw, Text.trimChars_blanks hfront hback hc hd hends]
    exact hspells

/-- A text is the document of one node at most. -/
theorem IsDocument.unique {raw : String} {n m : Node} (h : IsDocument raw n) (h' : IsDocument raw m) :
    n = m := by
  rw [← readDocument_trim_eq_iff] at h h'
  exact (Prod.mk.inj (h.symm.trans h')).1

end ChainAgent.Json
