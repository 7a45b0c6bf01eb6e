import ChainAgent.Json.Decode
import ChainAgent.Proofs.Json.Grammar

/-! Parts of a parse tree.

The leaves of a tree are its parts, at any depth. Every number of a text has a class that it fits,
so the numbers of a parsed value are in range, at any depth (`isSized_of_parse`). The fields of a
record are parts of it, too (`part_of_scan`). -/
namespace ChainAgent.Json

/-! ### Parts of a tree -/

/-- A tree is part of another one. -/
inductive Node.Part (m : Node) : Node → Prop
  | self : Part m m
  | item {n : Node} {items : List Node} : n ∈ items → Part m n → Part m (.array items)
  | member {key : Option String} {n : Node} {members : List (Option String × Node)} :
      (key, n) ∈ members → Part m n → Part m (.object members)

theorem Node.Part.trans {a b c : Node} (hab : a.Part b) (hbc : b.Part c) : a.Part c := by
  induction hbc with
  | self => exact hab
  | item hmem _ ih => exact .item hmem ih
  | member hmem _ ih => exact .member hmem ih

/-- A number is in the range of its class. -/
def Numeral.IsSized : Numeral → Prop
  | .natural n => n < UInt64.size
  | .negative n => 0 < n ∧ n ≤ Decimal.integerBound
  | .real _ => True

/-- All numbers in a tree are in range. -/
def Node.IsSized (n : Node) : Prop := ∀ x : Numeral, Node.Part (.number (some x)) n → x.IsSized

theorem isSized_array {items : List Node} (h : ∀ n ∈ items, n.IsSized) : (Node.array items).IsSized := by
  intro x hx
  cases hx with
  | item hmem hpart => exact h _ hmem x hpart

theorem isSized_object {members : List (Option String × Node)} (h : ∀ m ∈ members, m.2.IsSized) :
    (Node.object members).IsSized := by
  intro x hx
  cases hx with
  | member hmem hpart => exact h _ hmem x hpart

theorem Node.IsSized.item {items : List Node} (h : (Node.array items).IsSized) {n : Node}
    (hn : n ∈ items) : n.IsSized := fun x hx => h x (.item hn hx)

theorem Node.IsSized.member {members : List (Option String × Node)}
    (h : (Node.object members).IsSized) {m : Option String × Node} (hm : m ∈ members) :
    m.2.IsSized := fun x hx => h x (.member hm hx)

/-! ### Numbers that are read -/

theorem isSized_of_scaledNumeral {isNegative : Bool} {digits : Nat} {exponent : Int} {x : Numeral}
    (h : scaledNumeral isNegative digits exponent = some x) : x.IsSized := by
  simp only [scaledNumeral] at h
  split at h
  · cases h
    trivial
  · split at h
    · cases h
    · split at h
      · cases h
      · cases h
        trivial

theorem isSized_of_integralNumeral {isNegative : Bool} {n : Nat} {x : Numeral}
    (h : integralNumeral isNegative n = some x) : x.IsSized := by
  unfold integralNumeral at h
  split at h
  · rename_i hrange
    cases h
    simp only [Bool.and_eq_true, decide_eq_true_eq] at hrange
    exact hrange.2
  · split at h
    · rename_i hrange
      cases h
      simp only [Bool.and_eq_true, decide_eq_true_eq] at hrange
      exact ⟨hrange.1.2, hrange.2⟩
    · exact isSized_of_scaledNumeral h

theorem isSized_of_numeral {isNegative : Bool} {whole : List Char} {fraction : Option (List Char)}
    {exponent : Option Int} {x : Numeral} (h : numeral isNegative whole fraction exponent = some x) :
    x.IsSized := by
  unfold numeral at h
  split at h
  · exact isSized_of_integralNumeral h
  · exact isSized_of_scaledNumeral h

theorem isSized_of_readNumber {cs rest : List Char} {x : Numeral}
    (h : readNumber cs = some (some x, rest)) : x.IsSized := by
  unfold readNumber at h
  split at h
  all_goals
    obtain ⟨_, _, _, _, _, _, _, _, _, hx⟩ := readMagnitude_eq_some_iff.mp h
    exact isSized_of_numeral hx.symm

theorem isSized_of_readScalar {cs rest : List Char} {n : Node}
    (h : readScalar cs = (n, some rest)) : n.IsSized := by
  intro x hx
  unfold readScalar at h
  split at h
  · cases h
    cases hx
  · cases h
    cases hx
  · cases h
    cases hx
  · split at h
    · rename_i hread
      cases h
      cases hx
      exact isSized_of_readNumber hread
    · cases h

theorem isSized_of_spells {φ : Phrase} {cs rest : List Char} (h : Spells φ cs rest) :
    match φ with
    | .value n => n.IsSized
    | .items ns => ∀ n ∈ ns, n.IsSized
    | .members ms => ∀ m ∈ ms, m.2.IsSized := by
  induction h with
  | scalar hread => exact isSized_of_readScalar hread
  | text => exact nofun
  | emptyArray => exact isSized_array nofun
  | array _ _ ih => exact isSized_array ih
  | emptyObject => exact isSized_object nofun
  | object _ _ ih => exact isSized_object ih
  | lastItem _ _ ih => exact List.forall_mem_singleton.mpr ih
  | item _ _ _ ih ihs => exact List.forall_mem_cons.mpr ⟨ih, ihs⟩
  | lastMember _ _ _ _ _ ih => exact List.forall_mem_singleton.mpr ih
  | member _ _ _ _ _ _ ih ihs => exact List.forall_mem_cons.mpr ⟨ih, ihs⟩

/-! ### Values -/

theorem mem_sortNodes {members : List (String × Node)} {m : Option String × Node}
    (h : m ∈ sortNodes members) : ∃ name, (name, m.2) ∈ members := by
  have hfold : ∀ (members sorted : List (String × Node)) (p : String × Node),
      p ∈ members.foldl (fun sorted m => sorted.filter (·.1 < m.1) ++ m :: sorted.filter (m.1 < ·.1))
        sorted → p ∈ sorted ∨ p ∈ members := by
    intro members
    induction members with
    | nil => exact fun _ _ hp => .inl hp
    | cons first rest ih =>
      intro sorted p hp
      obtain hput | hrest := ih _ p hp
      · obtain hbefore | hput := List.mem_append.mp hput
        · exact .inl (List.mem_filter.mp hbefore).1
        · obtain rfl | hafter := List.mem_cons.mp hput
          · exact .inr List.mem_cons_self
          · exact .inl (List.mem_filter.mp hafter).1
      · exact .inr (List.mem_cons_of_mem _ hrest)
  obtain ⟨p, hp, rfl⟩ := List.mem_map.mp h
  obtain hnone | hp := hfold members [] p hp
  · cases hnone
  · exact ⟨p.1, hp⟩

mutual

/-- The parts of a value are those of its tree. -/
theorem isSized_of_value? : ∀ (n : Node) {depth : Nat} {v : Value}, n.value? depth = some v →
    n.IsSized → v.node.IsSized
  | .null, _, v, h, _ => by
    cases h
    exact nofun
  | .bool b, _, v, h, _ => by
    cases h
    exact nofun
  | .number x, _, v, h, hn => by
    obtain ⟨x, rfl, rfl⟩ := Option.map_eq_some_iff.mp h
    exact hn
  | .text s, _, v, h, _ => by
    obtain ⟨s, rfl, rfl⟩ := Option.map_eq_some_iff.mp h
    exact nofun
  | .array items, depth, v, h, hn => by
    cases depth with
    | zero => cases h
    | succ depth =>
      obtain ⟨vs, hvs, rfl⟩ := Option.map_eq_some_iff.mp h
      exact isSized_array (isSized_of_itemValues? items hvs fun m hm => hn.item hm)
  | .object members, depth, v, h, hn => by
    cases depth with
    | zero => cases h
    | succ depth =>
      obtain ⟨vs, hvs, rfl⟩ := Option.map_eq_some_iff.mp h
      refine isSized_object fun m hm => ?_
      obtain ⟨name, hname⟩ := mem_sortNodes hm
      exact isSized_of_memberValues? members hvs (fun m hm => hn.member hm) _ hname
  | .broken, _, v, h, _ => by cases h

theorem isSized_of_itemValues? : ∀ (items : List Node) {depth : Nat} {vs : List Value},
    itemValues? depth items = some vs → (∀ n ∈ items, n.IsSized) → ∀ n ∈ itemNodes vs, n.IsSized
  | [], _, vs, h, _ => by
    cases h
    exact nofun
  | n :: rest, depth, vs, h, hn => by
    obtain ⟨hfirst, hrest⟩ := List.forall_mem_cons.mp hn
    unfold itemValues? at h
    split at h
    · rename_i v vs hv hvs
      cases h
      exact List.forall_mem_cons.mpr
        ⟨isSized_of_value? n hv hfirst, isSized_of_itemValues? rest hvs hrest⟩
    · cases h

theorem isSized_of_memberValues? : ∀ (members : List (Option String × Node)) {depth : Nat}
    {vs : List (String × Value)}, memberValues? depth members = some vs →
    (∀ m ∈ members, m.2.IsSized) → ∀ m ∈ memberNodes vs, m.2.IsSized
  | [], _, vs, h, _ => by
    cases h
    exact nofun
  | (key, n) :: rest, depth, vs, h, hn => by
    obtain ⟨hfirst, hrest⟩ := List.forall_mem_cons.mp hn
    unfold memberValues? at h
    split at h
    · rename_i v vs hv hvs
      cases h
      exact List.forall_mem_cons.mpr
        ⟨isSized_of_value? n hv hfirst, isSized_of_memberValues? rest hvs hrest⟩
    · cases h

end

/-- **The numbers of a parsed value are in range.** -/
theorem isSized_of_parse {s : String} {v : Value} (h : parse s = some v) : v.node.IsSized := by
  unfold parse at h
  split at h
  · rename_i n hread
    obtain ⟨rest, hspells, -⟩ := readDocument_eq_iff.mp hread
    exact isSized_of_value? n h (isSized_of_spells hspells)
  · cases h

/-! ### Fields of a record -/

theorem part_of_memberFields {s : Shape} {whole : Node} {members : List (Option String × Node)}
    (hmembers : ∀ m ∈ members, m.2.Part whole) {found all : List (String × Node)}
    (hfound : ∀ m ∈ found, m.2.Part whole) (h : memberFields s found members = .ok all) :
    ∀ m ∈ all, m.2.Part whole := by
  induction members generalizing found with
  | nil =>
    cases h
    exact hfound
  | cons m rest ih =>
    obtain ⟨key, n⟩ := m
    obtain ⟨hfirst, hrest⟩ := List.forall_mem_cons.mp hmembers
    cases key with
    | none => cases h
    | some key =>
      unfold memberFields at h
      split at h
      · split at h
        · cases h
        · exact ih hrest hfound h
      · split at h
        · cases h
        · split at h
          · cases h
          · refine ih hrest ?_ h
            exact List.forall_mem_append.mpr ⟨hfound, List.forall_mem_singleton.mpr hfirst⟩

theorem part_of_itemFields {s : Shape} {origin : Origin} {whole : Node} {total index : Nat}
    {fields : List Field} {items : List Node} (hitems : ∀ n ∈ items, n.Part whole)
    {all : List (String × Node)} (h : itemFields s origin total index fields items = .ok all) :
    ∀ m ∈ all, m.2.Part whole := by
  induction fields generalizing items index all with
  | nil =>
    cases items with
    | nil =>
      cases h
      exact nofun
    | cons n rest => cases origin <;> cases h
  | cons field fields ih =>
    cases items with
    | nil =>
      unfold itemFields at h
      split at h
      · exact ih hitems h
      · cases h
    | cons n rest =>
      obtain ⟨hfirst, hrest⟩ := List.forall_mem_cons.mp hitems
      unfold itemFields at h
      split at h
      · cases h
      · cases hmore : itemFields s origin total (index + 1) fields rest with
        | error f =>
          rw [hmore] at h
          cases h
        | ok later =>
          rw [hmore] at h
          cases h
          exact List.forall_mem_cons.mpr ⟨hfirst, ih hrest hmore⟩

/-- **The fields of a record are parts of it.** -/
theorem part_of_scan {s : Shape} {origin : Origin} {n : Node} {found : List (String × Node)}
    (h : s.scan origin n = .ok found) : ∀ m ∈ found, m.2.Part n := by
  unfold Shape.scan at h
  split at h
  · split at h
    · cases h
    · rename_i members all hall
      split at h
      · cases h
      · cases h
        exact part_of_memberFields (fun m hm => .member hm .self)
          (fun m hm => absurd hm List.not_mem_nil) hall
  · exact part_of_itemFields (fun n hn => .item hn .self) h
  · cases h

/-- A field has its default, or what one of the fields that were found is decoded to. -/
theorem fieldOr_eq_or {α : Type} (found : List (String × Node)) (name : String) (d : Decoder α)
    (default : α) : fieldOr found name d default = default ∨
      ∃ m ∈ found, d m.2 = .ok (fieldOr found name d default) := by
  unfold fieldOr
  split
  · rename_i key n hfind
    cases hd : d n with
    | error f => exact .inl rfl
    | ok a => exact .inr ⟨_, List.mem_of_find?_eq_some hfind, hd⟩
  · exact .inl rfl

/-- A record is made of the fields that are found. -/
theorem exists_scan_of_record {α : Type} {s : Shape} {make : List (String × Node) → α} {n : Node}
    {a : α} (h : (do let found ← s.scan .value n; return make found) = Except.ok a) :
    ∃ found, s.scan .value n = .ok found ∧ a = make found := by
  cases hscan : s.scan .value n with
  | error f =>
    rw [hscan] at h
    cases h
  | ok found =>
    rw [hscan] at h
    cases h
    exact ⟨found, rfl, rfl⟩

theorem eq_ok_of_nullable {α : Type} {d : Decoder α} {n : Node} {a : α}
    (h : nullable d n = .ok (some a)) : d n = .ok a := by
  unfold nullable at h
  split at h
  · cases h
  · cases hd : d n with
    | error f =>
      rw [hd] at h
      cases h
    | ok a' =>
      rw [hd] at h
      cases h
      rfl

theorem natAbs_le_of_integer {n : Node} {i : Int} (h : integer n = .ok i) (hn : n.IsSized) :
    i.natAbs ≤ Decimal.integerBound := by
  unfold integer at h
  split at h
  · split at h
    · rename_i k hk
      cases h
      exact Nat.le_of_lt hk
    · cases h
  · rename_i k
    cases h
    rw [Int.natAbs_neg]
    exact (hn (.negative k) .self).2
  · cases h

end ChainAgent.Json
