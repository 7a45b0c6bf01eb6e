import ChainAgent.Proofs.Json.Numbers
import ChainAgent.Text.Blank

/-! The grammar of the parser.

`Spells` describes which prefix of a text is which phrase, without fuel: a value, the items of an
array up to its bracket, or the members of an object up to its brace. The parser accepts exactly
this grammar (`spells_of_reads`, `Spells.reads`), so parsing is unambiguous. Everything but a number
ends with a character of its own, so appending text to it does not change how it is parsed
(`Spells.append`). -/
namespace ChainAgent.Json

/-! ### Blanks -/

theorem skipSpace_skipSpace (cs : List Char) : skipSpace (skipSpace cs) = skipSpace cs := by
  unfold skipSpace
  induction cs with
  | nil => rfl
  | cons c cs ih =>
    rw [List.dropWhile_cons]
    split
    · exact ih
    · rename_i hc
      rw [List.dropWhile_cons, if_neg hc]

theorem skipSpace_length_le (cs : List Char) : (skipSpace cs).length ≤ cs.length :=
  (List.dropWhile_sublist isSpace).length_le

theorem skipSpace_append {cs r : List Char} {c : Char} (more : List Char)
    (h : skipSpace cs = c :: r) : skipSpace (cs ++ more) = c :: (r ++ more) := by
  unfold skipSpace at h ⊢
  rw [List.dropWhile_append, h]
  rfl

theorem skipSpace_cons {c : Char} (hc : isSpace c = false) (cs : List Char) :
    skipSpace (c :: cs) = c :: cs := by
  simp [skipSpace, hc]

theorem isBlank_of_isSpace {c : Char} (h : isSpace c = true) : Text.isBlank c = true := by
  simp only [isSpace, Bool.or_eq_true, beq_iff_eq] at h
  obtain ((rfl | rfl) | rfl) | rfl := h <;> rfl

/-! ### The grammar -/

/-- The nonterminals: a value, the rest of an array's items, or the rest of an object's members. -/
inductive Phrase where
  | value (n : Node)
  | items (ns : List Node)
  | members (ms : List (Option String × Node))

/-- A text begins with a phrase, and this is the rest of it. -/
inductive Spells : Phrase → List Char → List Char → Prop where
  | scalar {n : Node} {cs rest : List Char} :
      readScalar (skipSpace cs) = (n, some rest) → Spells (.value n) cs rest
  | text {s : Option String} {cs behind rest : List Char} :
      skipSpace cs = '"' :: behind → readText behind = some (s, rest) →
      Spells (.value (.text s)) cs rest
  | emptyArray {cs inside rest : List Char} :
      skipSpace cs = '[' :: inside → skipSpace inside = ']' :: rest →
      Spells (.value (.array [])) cs rest
  | array {ns : List Node} {cs inside rest : List Char} :
      skipSpace cs = '[' :: inside → Spells (.items ns) inside rest →
      Spells (.value (.array ns)) cs rest
  | emptyObject {cs inside rest : List Char} :
      skipSpace cs = '{' :: inside → skipSpace inside = '}' :: rest →
      Spells (.value (.object [])) cs rest
  | object {ms : List (Option String × Node)} {cs inside rest : List Char} :
      skipSpace cs = '{' :: inside → Spells (.members ms) inside rest →
      Spells (.value (.object ms)) cs rest
  | lastItem {n : Node} {cs behind rest : List Char} :
      Spells (.value n) cs behind → skipSpace behind = ']' :: rest →
      Spells (.items [n]) cs rest
  | item {n : Node} {ns : List Node} {cs behind next rest : List Char} :
      Spells (.value n) cs behind → skipSpace behind = ',' :: next →
      Spells (.items ns) next rest → Spells (.items (n :: ns)) cs rest
  | lastMember {key : Option String} {n : Node} {cs quoted colon content behind rest : List Char} :
      skipSpace cs = '"' :: quoted → readText quoted = some (key, colon) →
      skipSpace colon = ':' :: content → Spells (.value n) content behind →
      skipSpace behind = '}' :: rest → Spells (.members [(key, n)]) cs rest
  | member {key : Option String} {n : Node} {ms : List (Option String × Node)}
      {cs quoted colon content behind next rest : List Char} :
      skipSpace cs = '"' :: quoted → readText quoted = some (key, colon) →
      skipSpace colon = ':' :: content → Spells (.value n) content behind →
      skipSpace behind = ',' :: next → Spells (.members ms) next rest →
      Spells (.members ((key, n) :: ms)) cs rest

/-- The parser finds a phrase at the beginning of a text. -/
def Phrase.Reads (fuel : Nat) (cs rest : List Char) : Phrase → Prop
  | .value n => readNode fuel cs = (n, some rest)
  | .items ns => readItems fuel cs = (ns, some rest)
  | .members ms => readMembers fuel cs = (ms, some rest)

/-! ### What the reader finds is in the grammar -/

/-- Whitespace before a phrase is ignored. -/
theorem Spells.of_skipSpace {φ : Phrase} {cs rest : List Char} (h : Spells φ (skipSpace cs) rest) :
    Spells φ cs rest := by
  generalize hcs : skipSpace cs = ds at h
  induction h generalizing cs with
  | scalar hread => exact .scalar (by rwa [← hcs, skipSpace_skipSpace] at hread)
  | text hq hread => exact .text (by rwa [← hcs, skipSpace_skipSpace] at hq) hread
  | emptyArray hopen hclose =>
    exact .emptyArray (by rwa [← hcs, skipSpace_skipSpace] at hopen) hclose
  | array hopen hitems => exact .array (by rwa [← hcs, skipSpace_skipSpace] at hopen) hitems
  | emptyObject hopen hclose =>
    exact .emptyObject (by rwa [← hcs, skipSpace_skipSpace] at hopen) hclose
  | object hopen hmembers =>
    exact .object (by rwa [← hcs, skipSpace_skipSpace] at hopen) hmembers
  | lastItem _ hclose ih => exact .lastItem (ih hcs) hclose
  | item _ hcomma hrest ih => exact .item (ih hcs) hcomma hrest
  | lastMember hq hkey hcolon hvalue hclose =>
    exact .lastMember (by rwa [← hcs, skipSpace_skipSpace] at hq) hkey hcolon hvalue hclose
  | member hq hkey hcolon hvalue hcomma hrest =>
    exact .member (by rwa [← hcs, skipSpace_skipSpace] at hq) hkey hcolon hvalue hcomma hrest

theorem spells_of_reads {fuel : Nat} {φ : Phrase} {cs rest : List Char}
    (h : φ.Reads fuel cs rest) : Spells φ cs rest := by
  induction fuel generalizing φ cs rest with
  | zero => cases φ <;> simp [Phrase.Reads, readNode, readItems, readMembers] at h
  | succ fuel ih =>
    cases φ with
    | value n =>
      simp only [Phrase.Reads, readNode] at h
      split at h
      · rename_i inside hopen
        split at h
        · rename_i hclose
          cases h
          exact .emptyObject hopen hclose
        · obtain ⟨rfl, hrest⟩ := Prod.mk.inj h
          exact .object hopen (.of_skipSpace (ih (φ := .members _) (Prod.ext rfl hrest)))
      · rename_i inside hopen
        split at h
        · rename_i hclose
          cases h
          exact .emptyArray hopen hclose
        · obtain ⟨rfl, hrest⟩ := Prod.mk.inj h
          exact .array hopen (.of_skipSpace (ih (φ := .items _) (Prod.ext rfl hrest)))
      · rename_i behind hq
        split at h
        · rename_i hread
          cases h
          exact .text hq hread
        · cases h
      · exact .scalar h
    | items ns =>
      simp only [Phrase.Reads, readItems] at h
      split at h
      · cases h
      · rename_i behind hnode
        have hvalue : Spells (.value _) cs behind := ih (φ := .value _) (Prod.ext rfl hnode)
        split at h
        · rename_i next hcomma
          obtain ⟨rfl, hrest⟩ := Prod.mk.inj h
          exact .item hvalue hcomma (ih (φ := .items _) (Prod.ext rfl hrest))
        · rename_i hclose
          cases h
          exact .lastItem hvalue hclose
        · cases h
    | members ms =>
      simp only [Phrase.Reads, readMembers] at h
      split at h
      · rename_i quoted hq
        split at h
        · cases h
        · rename_i key colon hkey
          split at h
          · rename_i content hcolon
            split at h
            · cases h
            · rename_i behind hnode
              have hvalue : Spells (.value _) content behind :=
                ih (φ := .value _) (Prod.ext rfl hnode)
              split at h
              · rename_i next hcomma
                obtain ⟨rfl, hrest⟩ := Prod.mk.inj h
                exact .member hq hkey hcolon hvalue hcomma
                  (ih (φ := .members _) (Prod.ext rfl hrest))
              · rename_i hclose
                cases h
                exact .lastMember hq hkey hcolon hvalue hclose
              · cases h
          · cases h
      · cases h

/-! ### What is in the grammar is found by the reader -/

theorem length_of_skipSpace {cs r : List Char} {c : Char} (h : skipSpace cs = c :: r) :
    r.length < cs.length := by
  have := skipSpace_length_le cs
  rw [h, List.length_cons] at this
  omega

theorem length_of_readText {cs rest : List Char} {s : Option String}
    (h : readText cs = some (s, rest)) : rest.length < cs.length := by
  obtain ⟨front, rfl⟩ := readText_suffix h
  simp
  omega

/-- A phrase is not empty. -/
theorem Spells.length_lt {φ : Phrase} {cs rest : List Char} (h : Spells φ cs rest) :
    rest.length < cs.length := by
  induction h with
  | @scalar n cs rest hread =>
    obtain ⟨taken, htaken, hne, _⟩ := readScalar_taken hread
    have hlen := congrArg List.length htaken
    have hle := skipSpace_length_le cs
    have hpos := List.length_pos_iff.mpr hne
    rw [List.length_append] at hlen
    omega
  | text hq hread => exact Nat.lt_trans (length_of_readText hread) (length_of_skipSpace hq)
  | emptyArray hopen hclose =>
    exact Nat.lt_trans (length_of_skipSpace hclose) (length_of_skipSpace hopen)
  | array hopen _ ih => exact Nat.lt_trans ih (length_of_skipSpace hopen)
  | emptyObject hopen hclose =>
    exact Nat.lt_trans (length_of_skipSpace hclose) (length_of_skipSpace hopen)
  | object hopen _ ih => exact Nat.lt_trans ih (length_of_skipSpace hopen)
  | lastItem _ hclose ih => exact Nat.lt_trans (length_of_skipSpace hclose) ih
  | item _ hcomma _ ih ihrest =>
    exact Nat.lt_trans ihrest (Nat.lt_trans (length_of_skipSpace hcomma) ih)
  | lastMember hq hkey hcolon _ hclose ih =>
    have := length_of_skipSpace hq
    have := length_of_readText hkey
    have := length_of_skipSpace hcolon
    have := length_of_skipSpace hclose
    omega
  | member hq hkey hcolon _ hcomma _ ih ihrest =>
    have := length_of_skipSpace hq
    have := length_of_readText hkey
    have := length_of_skipSpace hcolon
    have := length_of_skipSpace hcomma
    omega

/-- The first character of a value, which is no closing bracket. -/
theorem Spells.value_starts {n : Node} {cs rest : List Char} (h : Spells (.value n) cs rest) :
    ∃ c tail, skipSpace cs = c :: tail ∧
      (c = '"' ∨ c = '[' ∨ c = '{' ∨ isScalarChar c = true) := by
  cases h with
  | scalar hread =>
    obtain ⟨taken, htaken, hne, hall⟩ := readScalar_taken hread
    obtain ⟨c, tail, rfl⟩ := List.exists_cons_of_ne_nil hne
    exact ⟨c, _, htaken, .inr (.inr (.inr (List.all_eq_true.mp hall c (by simp))))⟩
  | text hq _ => exact ⟨_, _, hq, .inl rfl⟩
  | emptyArray hopen _ => exact ⟨_, _, hopen, .inr (.inl rfl)⟩
  | array hopen _ => exact ⟨_, _, hopen, .inr (.inl rfl)⟩
  | emptyObject hopen _ => exact ⟨_, _, hopen, .inr (.inr (.inl rfl))⟩
  | object hopen _ => exact ⟨_, _, hopen, .inr (.inr (.inl rfl))⟩

theorem Spells.items_not_closed {ns : List Node} {cs rest tail : List Char}
    (h : Spells (.items ns) cs rest) : skipSpace cs ≠ ']' :: tail := by
  intro hclose
  have hvalue : ∃ n behind, Spells (.value n) cs behind := by
    cases h with
    | lastItem hvalue _ => exact ⟨_, _, hvalue⟩
    | item hvalue _ _ => exact ⟨_, _, hvalue⟩
  obtain ⟨n, behind, hvalue⟩ := hvalue
  obtain ⟨c, tail', hc, hor⟩ := hvalue.value_starts
  rw [hclose, List.cons.injEq] at hc
  rw [← hc.1] at hor
  exact absurd hor (by decide)

theorem Spells.members_not_closed {ms : List (Option String × Node)} {cs rest tail : List Char}
    (h : Spells (.members ms) cs rest) : skipSpace cs ≠ '}' :: tail := by
  intro hclose
  cases h with
  | lastMember hq => exact absurd (hclose.symm.trans hq) (by simp)
  | member hq => exact absurd (hclose.symm.trans hq) (by simp)

theorem readNode_skipSpace (fuel : Nat) (cs : List Char) :
    readNode fuel (skipSpace cs) = readNode fuel cs := by
  cases fuel <;> simp only [readNode, skipSpace_skipSpace]

theorem readItems_skipSpace (fuel : Nat) (cs : List Char) :
    readItems fuel (skipSpace cs) = readItems fuel cs := by
  cases fuel <;> simp only [readItems, readNode_skipSpace]

theorem readMembers_skipSpace (fuel : Nat) (cs : List Char) :
    readMembers fuel (skipSpace cs) = readMembers fuel cs := by
  cases fuel <;> simp only [readMembers, skipSpace_skipSpace]

theorem isScalarChar_of_readScalar {c : Char} {tail rest : List Char} {n : Node}
    (h : readScalar (c :: tail) = (n, some rest)) : isScalarChar c = true := by
  obtain ⟨taken, htaken, hne, hall⟩ := readScalar_taken h
  obtain ⟨d, ds, rfl⟩ := List.exists_cons_of_ne_nil hne
  rw [List.cons_append, List.cons.injEq] at htaken
  rw [htaken.1]
  exact List.all_eq_true.mp hall d (by simp)

theorem readNode_scalar {n : Node} {cs rest : List Char} (fuel : Nat)
    (h : readScalar (skipSpace cs) = (n, some rest)) :
    readNode (fuel + 1) cs = (n, some rest) := by
  rw [readNode]
  split
  · rename_i hopen
    rw [hopen] at h
    exact absurd (isScalarChar_of_readScalar h) (by decide)
  · rename_i hopen
    rw [hopen] at h
    exact absurd (isScalarChar_of_readScalar h) (by decide)
  · rename_i hq
    rw [hq] at h
    exact absurd (isScalarChar_of_readScalar h) (by decide)
  · exact h

theorem readNode_array {cs inside : List Char} (fuel : Nat) (hopen : skipSpace cs = '[' :: inside)
    (hclose : ∀ tail, skipSpace inside ≠ ']' :: tail) :
    readNode (fuel + 1) cs = (.array (readItems fuel inside).1, (readItems fuel inside).2) := by
  rw [readNode, hopen]
  simp only [readItems_skipSpace]

theorem readNode_object {cs inside : List Char} (fuel : Nat) (hopen : skipSpace cs = '{' :: inside)
    (hclose : ∀ tail, skipSpace inside ≠ '}' :: tail) :
    readNode (fuel + 1) cs =
      (.object (readMembers fuel inside).1, (readMembers fuel inside).2) := by
  rw [readNode, hopen]
  simp only [readMembers_skipSpace]

theorem Spells.exists_fuel {φ : Phrase} {cs rest : List Char} {fuel : Nat} (h : Spells φ cs rest)
    (hf : 2 * cs.length ≤ 2 * rest.length + fuel) : ∃ f, fuel = f + 1 :=
  ⟨fuel - 1, by have := h.length_lt; omega⟩

/-- With two units of fuel for every character of a phrase, the parser finds it. -/
theorem Spells.reads {φ : Phrase} {cs rest : List Char} {fuel : Nat} (h : Spells φ cs rest)
    (hf : 2 * cs.length ≤ 2 * rest.length + fuel) : φ.Reads fuel cs rest := by
  induction h generalizing fuel with
  | scalar hread =>
    obtain ⟨fuel, rfl⟩ := (Spells.scalar hread).exists_fuel hf
    exact readNode_scalar fuel hread
  | text hq hread =>
    obtain ⟨fuel, rfl⟩ := (Spells.text hq hread).exists_fuel hf
    simp only [Phrase.Reads, readNode, hq, hread]
  | emptyArray hopen hclose =>
    obtain ⟨fuel, rfl⟩ := (Spells.emptyArray hopen hclose).exists_fuel hf
    simp only [Phrase.Reads, readNode, hopen, hclose]
  | emptyObject hopen hclose =>
    obtain ⟨fuel, rfl⟩ := (Spells.emptyObject hopen hclose).exists_fuel hf
    simp only [Phrase.Reads, readNode, hopen, hclose]
  | @array ns cs inside rest hopen hitems ih =>
    obtain ⟨fuel, rfl⟩ := (Spells.array hopen hitems).exists_fuel hf
    have hread : readItems fuel inside = (ns, some rest) :=
      ih (by have := length_of_skipSpace hopen; omega)
    simp only [Phrase.Reads, readNode_array fuel hopen fun _ => hitems.items_not_closed, hread]
  | @object ms cs inside rest hopen hmembers ih =>
    obtain ⟨fuel, rfl⟩ := (Spells.object hopen hmembers).exists_fuel hf
    have hread : readMembers fuel inside = (ms, some rest) :=
      ih (by have := length_of_skipSpace hopen; omega)
    simp only [Phrase.Reads, readNode_object fuel hopen fun _ => hmembers.members_not_closed, hread]
  | @lastItem n cs behind rest hvalue hclose ih =>
    obtain ⟨fuel, rfl⟩ := (Spells.lastItem hvalue hclose).exists_fuel hf
    have hread : readNode fuel cs = (n, some behind) :=
      ih (by have := length_of_skipSpace hclose; omega)
    simp only [Phrase.Reads, readItems, hread, hclose]
  | @item n ns cs behind next rest hvalue hcomma hrest ih ihrest =>
    obtain ⟨fuel, rfl⟩ := (Spells.item hvalue hcomma hrest).exists_fuel hf
    have hnext := length_of_skipSpace hcomma
    have hread : readNode fuel cs = (n, some behind) := ih (by have := hrest.length_lt; omega)
    have hreads : readItems fuel next = (ns, some rest) :=
      ihrest (by have := hvalue.length_lt; omega)
    simp only [Phrase.Reads, readItems, hread, hcomma, hreads]
  | @lastMember key n cs quoted colon content behind rest hq hkey hcolon hvalue hclose ih =>
    obtain ⟨fuel, rfl⟩ := (Spells.lastMember hq hkey hcolon hvalue hclose).exists_fuel hf
    have hquoted := length_of_skipSpace hq
    have hcontent := length_of_skipSpace hcolon
    have hread : readNode fuel content = (n, some behind) := ih (by
      have := length_of_readText hkey
      have := length_of_skipSpace hclose
      omega)
    simp only [Phrase.Reads, readMembers, hq, hkey, hcolon, hread, hclose]
  | @member key n ms cs quoted colon content behind next rest hq hkey hcolon hvalue hcomma hrest ih
      ihrest =>
    obtain ⟨fuel, rfl⟩ := (Spells.member hq hkey hcolon hvalue hcomma hrest).exists_fuel hf
    have hquoted := length_of_skipSpace hq
    have hbehind := length_of_readText hkey
    have hcontent := length_of_skipSpace hcolon
    have hnext := length_of_skipSpace hcomma
    have hread : readNode fuel content = (n, some behind) :=
      ih (by have := hrest.length_lt; omega)
    have hreads : readMembers fuel next = (ms, some rest) :=
      ihrest (by have := hvalue.length_lt; omega)
    simp only [Phrase.Reads, readMembers, hq, hkey, hcolon, hread, hcomma, hreads]

/-- A text begins with one value at most. -/
theorem Spells.value_unique {n m : Node} {cs r s : List Char} (h : Spells (.value n) cs r)
    (h' : Spells (.value m) cs s) : n = m ∧ r = s := by
  have hn : readNode (2 * cs.length) cs = (n, some r) := h.reads (by omega)
  have hm : readNode (2 * cs.length) cs = (m, some s) := h'.reads (by omega)
  rw [hn, Prod.mk.injEq, Option.some.injEq] at hm
  exact hm

/-! ### What stands behind a phrase -/

/-- A phrase that shows where it ends: everything but a number or a word. -/
def Phrase.IsClosed : Phrase → Prop
  | .value (.text _) | .value (.array _) | .value (.object _) | .items _ | .members _ => True
  | _ => False

theorem not_isClosed_of_readScalar {cs : List Char} {n : Node} {rest : Option (List Char)}
    (h : readScalar cs = (n, rest)) : ¬ (Phrase.value n).IsClosed := by
  unfold readScalar at h
  split at h
  · cases h
    exact id
  · cases h
    exact id
  · cases h
    exact id
  · split at h <;>
      (cases h
       exact id)

theorem ne_nil_of_skipSpace {cs r : List Char} {c : Char} (h : skipSpace cs = c :: r) : cs ≠ [] := by
  rintro rfl
  cases h

/-- Appending text does not change a phrase, unless it is a number that it could continue. -/
theorem Spells.append {φ : Phrase} {cs rest : List Char} (h : Spells φ cs rest)
    (more : List Char) (hend : rest ≠ [] ∨ φ.IsClosed) : Spells φ (cs ++ more) (rest ++ more) := by
  induction h with
  | scalar hread =>
    have hr := hend.resolve_right (not_isClosed_of_readScalar hread)
    obtain ⟨taken, htaken, hne, _⟩ := readScalar_taken hread
    obtain ⟨c, tail, rfl⟩ := List.exists_cons_of_ne_nil hne
    rw [List.cons_append] at htaken
    rw [htaken] at hread
    refine .scalar ?_
    rw [skipSpace_append more htaken]
    exact readScalar_append more hread hr
  | text hq hread => exact .text (skipSpace_append more hq) (readText_append more hread)
  | emptyArray hopen hclose =>
    exact .emptyArray (skipSpace_append more hopen) (skipSpace_append more hclose)
  | array hopen _ ih => exact .array (skipSpace_append more hopen) (ih (.inr trivial))
  | emptyObject hopen hclose =>
    exact .emptyObject (skipSpace_append more hopen) (skipSpace_append more hclose)
  | object hopen _ ih => exact .object (skipSpace_append more hopen) (ih (.inr trivial))
  | lastItem _ hclose ih =>
    exact .lastItem (ih (.inl (ne_nil_of_skipSpace hclose))) (skipSpace_append more hclose)
  | item _ hcomma _ ih ihrest =>
    exact .item (ih (.inl (ne_nil_of_skipSpace hcomma))) (skipSpace_append more hcomma)
      (ihrest (.inr trivial))
  | lastMember hq hkey hcolon _ hclose ih =>
    exact .lastMember (skipSpace_append more hq) (readText_append more hkey)
      (skipSpace_append more hcolon) (ih (.inl (ne_nil_of_skipSpace hclose)))
      (skipSpace_append more hclose)
  | member hq hkey hcolon _ hcomma _ ih ihrest =>
    exact .member (skipSpace_append more hq) (readText_append more hkey)
      (skipSpace_append more hcolon) (ih (.inl (ne_nil_of_skipSpace hcomma)))
      (skipSpace_append more hcomma) (ihrest (.inr trivial))

/-! ### Whole texts -/

/-- A text is a document when it is one value with surrounding whitespace. -/
theorem readDocument_eq_iff {s : String} {n : Node} :
    readDocument s = (n, true) ↔
      ∃ rest, Spells (.value n) s.toList rest ∧ skipSpace rest = [] := by
  constructor
  · intro h
    simp only [readDocument] at h
    split at h
    · rename_i node rest hread
      rw [Prod.mk.injEq, List.isEmpty_iff] at h
      obtain ⟨rfl, hrest⟩ := h
      exact ⟨rest, spells_of_reads (φ := .value node) hread, hrest⟩
    · cases h
  · rintro ⟨rest, hspells, hrest⟩
    have hread : readNode (2 * s.toList.length + 2) s.toList = (n, some rest) :=
      hspells.reads (by omega)
    simp only [readDocument, hread, hrest, List.isEmpty_nil]

end ChainAgent.Json
