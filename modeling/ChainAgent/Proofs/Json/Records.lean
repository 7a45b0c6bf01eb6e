import ChainAgent.Json.Decode
import ChainAgent.Proofs.Json.Numbers

/-! Decoding of records and lists.

An object with the fields of a shape, each once and each with content that its decoder accepts,
gives all of them in its order (`scan_object`). A list is decoded item by item (`list_map`). -/
namespace ChainAgent.Json

/-- A text is decoded if it is parsed as one node, and this node is decoded. -/
theorem decodeText_eq_ok_iff {α : Type} {d : Decoder α} {s : String} {a : α} :
    decodeText d s = .ok a ↔ ∃ n, readDocument s = (n, true) ∧ d n = .ok a := by
  simp only [decodeText]
  obtain ⟨n, ended⟩ := readDocument s
  cases ended <;> cases hn : d n <;> simp [hn]

/-- The field of this name, with this content. -/
def Shape.Takes (s : Shape) (m : String × Node) : Prop :=
  ∃ f, s.fields.find? (·.name == m.1) = some f ∧ f.check m.2 = .ok ()

theorem memberFields_taken {s : Shape} {members : List (String × Node)} :
    ∀ found : List (String × Node), (∀ m ∈ members, s.Takes m) →
      ((found ++ members).map (·.1)).Nodup →
      memberFields s found (members.map fun m => (some m.1, m.2)) = .ok (found ++ members) := by
  induction members with
  | nil => simp [memberFields]
  | cons m members ih =>
    intro found htakes hnodup
    obtain ⟨f, hfield, hcheck⟩ := htakes m (by simp)
    have hnew : found.any (·.1 == m.1) = false := by
      rw [Bool.eq_false_iff]
      intro hany
      obtain ⟨p, hp, hname⟩ := List.any_eq_true.mp hany
      rw [List.map_append, List.nodup_append] at hnodup
      exact hnodup.2.2 p.1 (List.mem_map_of_mem hp) m.1 (by simp) (beq_iff_eq.mp hname)
    have hnext := ih (found ++ [m]) (fun p hp => htakes p (by simp [hp]))
      (by simpa using hnodup)
    simp only [List.map_cons, memberFields, hfield, hnew, hcheck]
    simpa using hnext

/-- **An object with the fields of a record gives all of them.** -/
theorem scan_object {s : Shape} {origin : Origin} {members : List (String × Node)}
    (htakes : ∀ m ∈ members, s.Takes m) (hnodup : (members.map (·.1)).Nodup)
    (hall : s.firstMissing members = none) :
    s.scan origin (.object (members.map fun m => (some m.1, m.2))) = .ok members := by
  have hfound := memberFields_taken [] htakes (by simpa using hnodup)
  rw [List.nil_append] at hfound
  simp only [Shape.scan, hfound, hall]

/-- A 64-bit integer is decoded as itself. -/
theorem integer_ofInt {i : Int} (hi : IsWord i) : integer (.number (some (.ofInt i))) = .ok i := by
  cases i with
  | ofNat n =>
    have hn : n < Decimal.integerBound := by
      have hlt : (n : Int) < 2 ^ 63 := hi.2
      simp only [Decimal.integerBound]
      omega
    simp [Numeral.ofInt, integer, hn]
  | negSucc n =>
    simp [Numeral.ofInt, integer]
    omega

theorem indexed_map {α : Type} {d : Decoder α} {f : α → Node} {l : List α}
    (h : ∀ a ∈ l, d (f a) = .ok a) (index : Nat) : indexed d index (l.map f) = .ok l := by
  induction l generalizing index with
  | nil => rfl
  | cons a l ih =>
    have hrest := ih (fun b hb => h b (List.mem_cons_of_mem a hb)) (index + 1)
    simp only [List.map_cons, indexed, h a List.mem_cons_self, hrest]

theorem list_map {α : Type} {d : Decoder α} {f : α → Node} {l : List α}
    (h : ∀ a ∈ l, d (f a) = .ok a) : list d (.array (l.map f)) = .ok l :=
  indexed_map h 0

end ChainAgent.Json
