import ChainAgent.Proofs.Json.Documents
import ChainAgent.Proofs.Json.Records

/-! Objects by the names of their members.

Looking up a name in a value gives its last member (`lookup_eq`); a node has a value if it has no
lone surrogates, no numbers out of range and not too much nesting (`isSome_value?_iff`). A record
takes each of its fields at most once and ignores other members, as long as they are well-formed
(`memberFields_eq_ok_iff`); those of a document are (`IsDocument.isBroken_eq_false`). -/
namespace ChainAgent.Json

/-- The members of a name, in the order of the text. -/
def named (name : String) (ms : List (Option String × Node)) : List Node :=
  (ms.filter (·.1 == some name)).map (·.2)

theorem mem_named {name : String} {ms : List (Option String × Node)} {n : Node} :
    n ∈ named name ms ↔ (some name, n) ∈ ms := by
  simp only [named, List.mem_map, List.mem_filter, beq_iff_eq]
  constructor
  · rintro ⟨⟨_, _⟩, ⟨hm, rfl⟩, rfl⟩
    exact hm
  · exact fun hm => ⟨_, ⟨hm, rfl⟩, rfl⟩

/-! ### Values -/

/-- At most so many levels of nesting, no lone surrogate and every number in range. -/
inductive Node.Within : Nat → Node → Prop
  | null {depth : Nat} : Within depth .null
  | bool {depth : Nat} {b : Bool} : Within depth (.bool b)
  | number {depth : Nat} {v : Numeral} : Within depth (.number (some v))
  | text {depth : Nat} {s : String} : Within depth (.text (some s))
  | array {depth : Nat} {items : List Node} :
      (∀ n ∈ items, Within depth n) → Within (depth + 1) (.array items)
  | object {depth : Nat} {ms : List (Option String × Node)} :
      (∀ m ∈ ms, m.1.isSome) → (∀ m ∈ ms, Within depth m.2) → Within (depth + 1) (.object ms)

theorem isSome_itemValues?_iff {depth : Nat} {items : List Node} :
    (itemValues? depth items).isSome ↔ ∀ n ∈ items, (n.value? depth).isSome := by
  induction items with
  | nil => simp [itemValues?]
  | cons n items ih =>
    rw [itemValues?, List.forall_mem_cons, ← ih]
    cases n.value? depth <;> cases itemValues? depth items <;> simp

theorem memberValues?_cons_eq_some_iff {depth : Nat} {key : Option String} {n : Node}
    {ms : List (Option String × Node)} {members : List (String × Value)} :
    memberValues? depth ((key, n) :: ms) = some members ↔
      ∃ k v rest, key = some k ∧ n.value? depth = some v ∧ memberValues? depth ms = some rest ∧
        members = (k, v) :: rest := by
  rw [memberValues?.eq_def]
  dsimp only
  cases key with
  | none => simp
  | some k =>
    cases n.value? depth with
    | none => simp
    | some v => cases memberValues? depth ms <;> simp [eq_comm]

theorem isSome_memberValues?_iff {depth : Nat} {ms : List (Option String × Node)} :
    (memberValues? depth ms).isSome ↔
      (∀ m ∈ ms, m.1.isSome) ∧ ∀ m ∈ ms, (m.2.value? depth).isSome := by
  induction ms with
  | nil => simp [memberValues?]
  | cons m ms ih =>
    obtain ⟨key, n⟩ := m
    rw [List.forall_mem_cons, List.forall_mem_cons, and_and_and_comm, ← ih]
    simp only [Option.isSome_iff_exists, memberValues?_cons_eq_some_iff]
    constructor
    · rintro ⟨_, k, v, rest, hkey, hvalue, hrest, -⟩
      exact ⟨⟨⟨k, hkey⟩, ⟨v, hvalue⟩⟩, rest, hrest⟩
    · rintro ⟨⟨⟨k, hkey⟩, ⟨v, hvalue⟩⟩, rest, hrest⟩
      exact ⟨_, k, v, rest, hkey, hvalue, hrest, rfl⟩

/-- A node has a value if it has no error. -/
theorem isSome_value?_iff : ∀ {depth : Nat} {n : Node}, (n.value? depth).isSome ↔ n.Within depth
  | _, .null => iff_of_true rfl .null
  | _, .bool _ => iff_of_true rfl .bool
  | _, .number (some _) => iff_of_true rfl .number
  | _, .text (some _) => iff_of_true rfl .text
  | _, .number none | _, .text none | _, .broken => iff_of_false nofun nofun
  | 0, .array _ | 0, .object _ => iff_of_false nofun nofun
  | depth + 1, .array items => by
    have hvalue : ((Node.array items).value? (depth + 1)).isSome = (itemValues? depth items).isSome :=
      Option.isSome_map
    have hitem (n : Node) : (n.value? depth).isSome ↔ n.Within depth := isSome_value?_iff
    rw [hvalue, isSome_itemValues?_iff]
    simp only [hitem]
    exact ⟨.array, fun h => by cases h; assumption⟩
  | depth + 1, .object ms => by
    have hvalue : ((Node.object ms).value? (depth + 1)).isSome = (memberValues? depth ms).isSome :=
      Option.isSome_map
    have hmember (n : Node) : (n.value? depth).isSome ↔ n.Within depth := isSome_value?_iff
    rw [hvalue, isSome_memberValues?_iff]
    simp only [hmember]
    exact ⟨fun h => .object h.1 h.2, fun h => by cases h; exact ⟨‹_›, ‹_›⟩⟩

/-! ### The last of a name -/

theorem named_cons (name : String) (key : Option String) (n : Node) (ms : List (Option String × Node)) :
    named name ((key, n) :: ms) = if key = some name then n :: named name ms else named name ms := by
  rw [named, List.filter_cons]
  simp only [beq_iff_eq]
  split <;> rfl

theorem foldl_lookup_eq {depth : Nat} {ms : List (Option String × Node)} {members : List (String × Value)}
    (h : memberValues? depth ms = some members) (name : String) (found : Option Value) :
    members.foldl (fun found m => if m.1 == name then some m.2 else found) found =
      match (named name ms).getLast? with
      | some n => n.value? depth
      | none => found := by
  induction ms generalizing members found with
  | nil =>
    cases h
    rfl
  | cons m ms ih =>
    obtain ⟨key, n⟩ := m
    obtain ⟨k, v, rest, rfl, hvalue, hrest, rfl⟩ := memberValues?_cons_eq_some_iff.mp h
    rw [List.foldl_cons, ih hrest, named_cons]
    by_cases hname : k = name
    · subst hname
      rw [if_pos rfl, List.getLast?_cons, beq_self_eq_true, if_pos rfl]
      cases (named k ms).getLast? with
      | none => exact hvalue.symm
      | some last => rfl
    · rw [if_neg (fun h => hname (Option.some.inj h)), if_neg (by simpa using hname)]

/-- A value gives the last member of a name. -/
theorem lookup_eq {depth : Nat} {ms : List (Option String × Node)} {members : List (String × Value)}
    (h : memberValues? depth ms = some members) (name : String) :
    lookup name members = (named name ms).getLast?.bind (·.value? depth) := by
  rw [lookup, foldl_lookup_eq h]
  cases (named name ms).getLast? <;> rfl

/-- Only a string has a text for its value. -/
theorem value?_eq_text_iff {depth : Nat} {n : Node} {s : String} :
    n.value? depth = some (.text s) ↔ n = .text (some s) := by
  constructor
  · intro h
    cases n with
    | text s' =>
      obtain ⟨_, rfl, hs⟩ := Option.map_eq_some_iff.mp h
      cases hs
      rfl
    | number v =>
      obtain ⟨_, _, hv⟩ := Option.map_eq_some_iff.mp h
      cases hv
    | array items =>
      cases depth with
      | zero => cases h
      | succ depth =>
        obtain ⟨_, _, hv⟩ := Option.map_eq_some_iff.mp h
        cases hv
    | object ms =>
      cases depth with
      | zero => cases h
      | succ depth =>
        obtain ⟨_, _, hv⟩ := Option.map_eq_some_iff.mp h
        cases hv
    | null | bool | broken => cases h
  · rintro rfl
    rfl

/-- Only an object has members for its value. -/
theorem value?_eq_object_iff {depth : Nat} {n : Node} {members : List (String × Value)} :
    n.value? (depth + 1) = some (.object members) ↔
      ∃ ms, n = .object ms ∧ memberValues? depth ms = some members := by
  constructor
  · intro h
    cases n with
    | object ms =>
      obtain ⟨_, hmembers, hv⟩ := Option.map_eq_some_iff.mp h
      cases hv
      exact ⟨ms, rfl, hmembers⟩
    | text | number | array =>
      obtain ⟨_, _, hv⟩ := Option.map_eq_some_iff.mp h
      cases hv
    | null | bool | broken => cases h
  · rintro ⟨ms, rfl, hmembers⟩
    exact Option.map_eq_some_iff.mpr ⟨members, hmembers, rfl⟩

/-! ### Fields -/

/-- A member that a record of the shape may have: a field with content that its decoder accepts, or
any other name with any JSON. -/
def Shape.Allows (s : Shape) (m : Option String × Node) : Prop :=
  ∃ key, m.1 = some key ∧
    match s.fields.find? (·.name == key) with
    | some f => f.check m.2 = .ok ()
    | none => m.2.isBroken = false

/-- The members that are fields of the shape. -/
def Shape.known (s : Shape) (ms : List (Option String × Node)) : List (String × Node) :=
  ms.filterMap fun m => m.1.bind fun key => (s.fields.find? (·.name == key)).map fun _ => (key, m.2)

theorem Shape.known_cons {s : Shape} {key : String} {n : Node} {ms : List (Option String × Node)} :
    s.known ((some key, n) :: ms) =
      match s.fields.find? (·.name == key) with
      | some _ => (key, n) :: s.known ms
      | none => s.known ms := by
  rw [known, List.filterMap_cons]
  dsimp only [Option.bind_some]
  cases s.fields.find? (·.name == key) <;> rfl

/-- **A record takes the members that are its fields, each once.** -/
theorem memberFields_eq_ok_iff {s : Shape} {found taken : List (String × Node)}
    {ms : List (Option String × Node)} (hfound : (found.map (·.1)).Nodup) :
    memberFields s found ms = .ok taken ↔
      (∀ m ∈ ms, s.Allows m) ∧ (taken.map (·.1)).Nodup ∧ taken = found ++ s.known ms := by
  have hfails {f : Fault} {p : Prop} (h : ¬ p) :
      (.error f : Except Fault (List (String × Node))) = .ok taken ↔ p :=
    iff_of_false (fun herror => by cases herror) h
  induction ms generalizing found with
  | nil =>
    simp only [memberFields, Shape.known, List.filterMap_nil, List.append_nil, Except.ok.injEq]
    exact ⟨fun h => ⟨List.forall_mem_nil _, h ▸ hfound, h.symm⟩, fun h => h.2.2.symm⟩
  | cons m ms ih =>
    obtain ⟨_ | key, n⟩ := m
    · refine hfails fun h => ?_
      obtain ⟨key, hkey, -⟩ := h.1 _ List.mem_cons_self
      cases hkey
    · rw [memberFields, List.forall_mem_cons, Shape.known_cons]
      cases hfield : s.fields.find? (·.name == key) with
      | none =>
        have hallows : s.Allows (some key, n) ↔ n.isBroken = false := by simp [Shape.Allows, hfield]
        rw [hallows]
        cases n.isBroken with
        | true => exact hfails fun h => Bool.noConfusion h.1.1
        | false =>
          rw [eq_self_iff_true, true_and]
          exact ih hfound
      | some f =>
        have hallows : s.Allows (some key, n) ↔ f.check n = .ok () := by simp [Shape.Allows, hfield]
        rw [hallows]
        dsimp only
        by_cases hkey : ∃ p ∈ found, (p.1 == key) = true
        · rw [if_pos (List.any_eq_true.mpr hkey)]
          refine hfails ?_
          rintro ⟨-, hnodup, rfl⟩
          obtain ⟨p, hp, hname⟩ := hkey
          rw [List.map_append, List.nodup_append] at hnodup
          exact hnodup.2.2 p.1 (List.mem_map_of_mem hp) key (by simp) (beq_iff_eq.mp hname)
        · have hnew : ((found ++ [(key, n)]).map (·.1)).Nodup := by
            rw [List.map_append, List.nodup_append]
            refine ⟨hfound, by simp, fun a ha b hb => ?_⟩
            obtain ⟨p, hp, rfl⟩ := List.mem_map.mp ha
            obtain rfl : b = key := by simpa using hb
            exact fun hname => hkey ⟨p, hp, beq_iff_eq.mpr hname⟩
          rw [if_neg (fun hany => hkey (List.any_eq_true.mp hany))]
          cases f.check n with
          | error e => exact hfails fun h => by cases h.1.1
          | ok _ =>
            refine (ih hnew).trans ?_
            rw [List.append_assoc, List.singleton_append, eq_self_iff_true, true_and]

/-! ### What is written is JSON -/

/-- A phrase without syntax errors. -/
def Phrase.IsSound : Phrase → Prop
  | .value n => n.isBroken = false
  | .items ns => Node.isBroken.itemsBroken ns = false
  | .members ms => Node.isBroken.membersBroken ms = false

theorem Writes.isSound {φ : Phrase} {ds : List Char} (h : Writes φ ds) : φ.IsSound := by
  induction h with
  | null | yes | no | number | text | emptyArray | emptyObject => rfl
  | array _ ih | object _ ih => exact ih
  | lastItem _ _ _ ih | lastMember _ _ _ _ _ _ ih => exact Bool.or_eq_false_iff.mpr ⟨ih, rfl⟩
  | item _ _ _ _ ih ihrest | member _ _ _ _ _ _ _ ih ihrest =>
    exact Bool.or_eq_false_iff.mpr ⟨ih, ihrest⟩

theorem membersBroken_eq_false_iff {ms : List (Option String × Node)} :
    Node.isBroken.membersBroken ms = false ↔ ∀ m ∈ ms, m.2.isBroken = false := by
  induction ms with
  | nil => exact iff_of_true rfl nofun
  | cons m ms ih => rw [Node.isBroken.membersBroken, Bool.or_eq_false_iff, ih, List.forall_mem_cons]

/-- The members of a document are well-formed. -/
theorem IsDocument.isBroken_eq_false {raw : String} {ms : List (Option String × Node)}
    (h : IsDocument raw (.object ms)) : ∀ m ∈ ms, m.2.isBroken = false := by
  obtain ⟨_, _, _, _, _, hds, _⟩ := h
  exact membersBroken_eq_false_iff.mp hds.isSound

end ChainAgent.Json
