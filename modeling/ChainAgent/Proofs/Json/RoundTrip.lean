import ChainAgent.Proofs.Json.Grammar

/-! Parsing inverts printing.

A value without floating-point numbers, printed without spaces, is parsed as itself
(`readDocument_compact`): every member and item in its place, every text and every integer the same.
There is no line feed in it (`newline_not_mem_compactChars`). -/
namespace ChainAgent.Json

mutual

/-- The parse tree of a printed value; members stay in their order. -/
def Value.asRead : Value → Node
  | .null => .null
  | .bool b => .bool b
  | .number n => .number (some n)
  | .text s => .text (some s)
  | .array items => .array (itemsAsRead items)
  | .object members => .object (membersAsRead members)

def itemsAsRead : List Value → List Node
  | [] => []
  | v :: rest => v.asRead :: itemsAsRead rest

def membersAsRead : List (String × Value) → List (Option String × Node)
  | [] => []
  | (k, v) :: rest => (some k, v.asRead) :: membersAsRead rest

end

mutual

/-- All numbers in a value are 64-bit integers. -/
def Value.IsIntegral : Value → Prop
  | .number n => ∃ i, IsWord i ∧ n = .ofInt i
  | .array items => ItemsIntegral items
  | .object members => MembersIntegral members
  | _ => True

def ItemsIntegral : List Value → Prop
  | [] => True
  | v :: rest => v.IsIntegral ∧ ItemsIntegral rest

def MembersIntegral : List (String × Value) → Prop
  | [] => True
  | (_, v) :: rest => v.IsIntegral ∧ MembersIntegral rest

end

theorem itemsAsRead_map {α : Type} (f : α → Value) (l : List α) :
    itemsAsRead (l.map f) = l.map fun a => (f a).asRead := by
  induction l with
  | nil => rfl
  | cons a l ih => rw [List.map_cons, itemsAsRead, ih, List.map_cons]

theorem itemsIntegral_map {α : Type} {f : α → Value} (h : ∀ a, (f a).IsIntegral) (l : List α) :
    ItemsIntegral (l.map f) := by
  induction l with
  | nil => trivial
  | cons a l ih => exact ⟨h a, ih⟩

/-! ### Written values in the grammar -/

theorem EndsNumber.nil : EndsNumber [] := fun _ h => by cases h

theorem EndsNumber.cons {c : Char} (rest : List Char) (hc : isNumberChar c = false) :
    EndsNumber (c :: rest) := by
  intro d hd
  cases hd
  exact hc

/-- What parses as a number or a word has no leading whitespace. -/
theorem skipSpace_of_readScalar {cs rest : List Char} {n : Node}
    (h : readScalar cs = (n, some rest)) : skipSpace cs = cs := by
  obtain ⟨taken, rfl, hne, _⟩ := readScalar_taken h
  obtain ⟨c, tail, rfl⟩ := List.exists_cons_of_ne_nil hne
  have hc := isScalarChar_of_readScalar h
  refine skipSpace_cons (Bool.eq_false_iff.mpr fun hspace => ?_) _
  simp only [isSpace, Bool.or_eq_true, beq_iff_eq] at hspace
  obtain ((rfl | rfl) | rfl) | rfl := hspace <;> exact absurd hc (by decide)

theorem spells_scalar {n : Node} {cs rest : List Char} (h : readScalar cs = (n, some rest)) :
    Spells (.value n) cs rest :=
  .scalar (by rwa [skipSpace_of_readScalar h])

theorem spells_quote (s : String) (rest : List Char) :
    skipSpace (quote s ++ rest) = '"' :: (s.toList.flatMap escapeChar ++ '"' :: rest) := by
  rw [quote, List.cons_append, List.append_assoc]
  exact skipSpace_cons (by decide) _

mutual

theorem Value.spells : ∀ (v : Value) {rest : List Char}, v.IsIntegral → EndsNumber rest →
    Spells (.value v.asRead) (compactChars v ++ rest) rest
  | .null, _, _, _ => spells_scalar rfl
  | .bool true, _, _, _ => spells_scalar rfl
  | .bool false, _, _, _ => spells_scalar rfl
  | .number n, rest, hv, hr => by
    simp only [Value.IsIntegral] at hv
    obtain ⟨i, hi, rfl⟩ := hv
    exact spells_scalar (readScalar_integer hi hr)
  | .text s, rest, _, _ => .text (spells_quote s rest) (readText_quote s rest)
  | .array [], rest, _, _ => .emptyArray (skipSpace_cons (by decide) _) (skipSpace_cons (by decide) _)
  | .array (v :: items), rest, hv, _ => by
    simp only [compactChars, List.cons_append, List.append_assoc]
    exact .array (skipSpace_cons (by decide) _) (spells_items (v :: items) (by simp) hv)
  | .object [], rest, _, _ =>
    .emptyObject (skipSpace_cons (by decide) _) (skipSpace_cons (by decide) _)
  | .object (m :: members), rest, hv, _ => by
    simp only [compactChars, List.cons_append, List.append_assoc]
    exact .object (skipSpace_cons (by decide) _) (spells_members (m :: members) (by simp) hv)

theorem spells_items : ∀ (items : List Value) {rest : List Char}, items ≠ [] →
    ItemsIntegral items →
    Spells (.items (itemsAsRead items)) (compactItems items ++ ']' :: rest) rest
  | [v], rest, _, hv =>
    .lastItem (v.spells hv.1 (.cons rest (by decide))) (skipSpace_cons (by decide) _)
  | v :: w :: items, rest, _, hv => by
    simp only [compactItems, List.cons_append, List.append_assoc]
    exact .item (v.spells hv.1 (.cons _ (by decide))) (skipSpace_cons (by decide) _)
      (spells_items (w :: items) (by simp) hv.2)

theorem spells_members : ∀ (members : List (String × Value)) {rest : List Char}, members ≠ [] →
    MembersIntegral members →
    Spells (.members (membersAsRead members)) (compactMembers members ++ '}' :: rest) rest
  | [(k, v)], rest, _, hv => by
    simp only [compactMembers, List.cons_append, List.append_assoc]
    exact .lastMember (spells_quote k _) (readText_quote k _) (skipSpace_cons (by decide) _)
      (v.spells hv.1 (.cons rest (by decide))) (skipSpace_cons (by decide) _)
  | (k, v) :: m :: members, rest, _, hv => by
    simp only [compactMembers, List.cons_append, List.append_assoc]
    exact .member (spells_quote k _) (readText_quote k _) (skipSpace_cons (by decide) _)
      (v.spells hv.1 (.cons _ (by decide))) (skipSpace_cons (by decide) _)
      (spells_members (m :: members) (by simp) hv.2)

end

/-- A printed value is parsed as itself. -/
theorem readDocument_compact {v : Value} (hv : v.IsIntegral) :
    readDocument (compact v) = (v.asRead, true) := by
  refine readDocument_eq_iff.mpr ⟨[], ?_, rfl⟩
  rw [compact, String.toList_ofList]
  have hspells := v.spells hv .nil
  rwa [List.append_nil] at hspells

/-! ### One line -/

theorem newline_not_mem_hexDigit : ∀ n < 16, hexDigit n ≠ '\n' := by decide

theorem newline_not_mem_escapeChar (c : Char) : '\n' ∉ escapeChar c := by
  unfold escapeChar
  split
  · decide
  · decide
  · decide
  · decide
  · decide
  · rename_i hline _ _
    split
    · decide
    split
    · decide
    split
    · rename_i hc
      have hhigh := newline_not_mem_hexDigit (c.toNat / 16) (by omega)
      have hlow := newline_not_mem_hexDigit (c.toNat % 16) (by omega)
      simp [hhigh.symm, hlow.symm]
    · simpa using Ne.symm hline

theorem newline_not_mem_quote (s : String) : '\n' ∉ quote s := by
  simp [quote, newline_not_mem_escapeChar]

theorem newline_not_mem_integer (i : Int) : '\n' ∉ (Numeral.ofInt i).chars := by
  have hdigits (n : Nat) : '\n' ∉ Decimal.natDigits n :=
    fun hmem => absurd (natDigits_isDigit n _ hmem) (by decide)
  cases i with
  | ofNat n => exact hdigits n
  | negSucc n => simp [Numeral.ofInt, Numeral.chars, hdigits]

mutual

/-- A printed value is one line. -/
theorem newline_not_mem_compactChars : ∀ v : Value, v.IsIntegral → '\n' ∉ compactChars v
  | .null, _ => by decide
  | .bool true, _ => by decide
  | .bool false, _ => by decide
  | .number n, hv => by
    simp only [Value.IsIntegral] at hv
    obtain ⟨i, -, rfl⟩ := hv
    exact newline_not_mem_integer i
  | .text s, _ => newline_not_mem_quote s
  | .array items, hv => by
    simp [compactChars, newline_not_mem_compactItems items hv]
  | .object members, hv => by
    simp [compactChars, newline_not_mem_compactMembers members hv]

theorem newline_not_mem_compactItems : ∀ items, ItemsIntegral items → '\n' ∉ compactItems items
  | [], _ => by simp [compactItems]
  | [v], hv => newline_not_mem_compactChars v hv.1
  | v :: w :: items, hv => by
    simp [compactItems, newline_not_mem_compactChars v hv.1,
      newline_not_mem_compactItems (w :: items) hv.2]

theorem newline_not_mem_compactMembers :
    ∀ members, MembersIntegral members → '\n' ∉ compactMembers members
  | [], _ => by simp [compactMembers]
  | [(k, v)], hv => by
    simp [compactMembers, newline_not_mem_quote, newline_not_mem_compactChars v hv.1]
  | (k, v) :: m :: members, hv => by
    simp [compactMembers, newline_not_mem_quote, newline_not_mem_compactChars v hv.1,
      newline_not_mem_compactMembers (m :: members) hv.2]

end

end ChainAgent.Json
