import ChainAgent.Json.Decode
import ChainAgent.Proofs.Json.Parts

/-! Error messages of a decoder.

The message of a decoder quotes one part of the tree among fixed words (`Fault.Fits.tells`). This is
so of each decoder of one value, and of a record without required fields if it is so of their
decoders (`scan_fits`). -/
namespace ChainAgent.Json

/-- The problem is one of a part of the tree, in some fixed words. -/
def Problem.Fits (words : List String) (n : Node) : Problem → Prop
  | .wrongType found expected => expected ∈ words ∧
      ∃ m : Node, m.Part n ∧ unexpected expected m = .content [] (.wrongType found expected)
  | .outOfRange i expected => expected ∈ words ∧ ∃ k : Nat,
      (Node.Part (.number (some (.natural k))) n ∧ i = k) ∨
        (Node.Part (.number (some (.negative k))) n ∧ i = -k)
  | .missingField name => name ∈ words
  | .duplicateField name => name ∈ words
  | .wrongLength length expected => expected ∈ words ∧
      ∃ items : List Node, Node.Part (.array items) n ∧ length = items.length

def Fault.Fits (words : List String) (n : Node) : Fault → Prop
  | .malformed => True
  | .content _ p => p.Fits words n

/-- A problem of a part is one of the whole. -/
theorem Problem.Fits.mono {words : List String} {m n : Node} {p : Problem} (h : p.Fits words m)
    (hpart : m.Part n) : p.Fits words n := by
  cases p with
  | wrongType found expected =>
    obtain ⟨hwords, leaf, hleaf, hfound⟩ := h
    exact ⟨hwords, leaf, hleaf.trans hpart, hfound⟩
  | outOfRange i expected =>
    obtain ⟨hwords, k, hk⟩ := h
    exact ⟨hwords, k, hk.imp (.imp_left (·.trans hpart)) (.imp_left (·.trans hpart))⟩
  | missingField name => exact h
  | duplicateField name => exact h
  | wrongLength length expected =>
    obtain ⟨hwords, items, hitems, hlength⟩ := h
    exact ⟨hwords, items, hitems.trans hpart, hlength⟩

theorem Fault.Fits.mono {words : List String} {m n : Node} {f : Fault} (h : f.Fits words m)
    (hpart : m.Part n) : f.Fits words n := by
  cases f with
  | malformed => trivial
  | content path p => exact Problem.Fits.mono h hpart

theorem Fault.Fits.under {words : List String} {n : Node} {f : Fault} (h : f.Fits words n)
    (name : String) : (f.under name).Fits words n := by
  cases f <;> exact h

/-! ### Decoders -/

/-- The errors of a decoder are in some fixed words. -/
def Fits {α : Type} (words : List String) (d : Decoder α) : Prop :=
  ∀ n f, d n = .error f → f.Fits words n

section Decoders

variable {words : List String} {expected : String}

theorem unexpected_fits (h : expected ∈ words) (n : Node) : (unexpected expected n).Fits words n := by
  cases n with
  | number x =>
    cases x with
    | none => trivial
    | some x => exact ⟨h, _, .self, rfl⟩
  | text s =>
    cases s with
    | none => trivial
    | some s => exact ⟨h, _, .self, rfl⟩
  | broken => trivial
  | null => exact ⟨h, _, .self, rfl⟩
  | bool b => exact ⟨h, _, .self, rfl⟩
  | array items => exact ⟨h, _, .self, rfl⟩
  | object members => exact ⟨h, _, .self, rfl⟩

theorem string_fits (h : "a string" ∈ words) : Fits words string := by
  intro n f hf
  unfold string at hf
  split at hf
  · cases hf
  · cases hf
    exact unexpected_fits h _

theorem unsigned_fits (h : "u64" ∈ words) : Fits words unsigned := by
  intro n f hf
  unfold unsigned at hf
  split at hf
  · cases hf
  · cases hf
    exact ⟨h, _, .inr ⟨.self, rfl⟩⟩
  · cases hf
    exact unexpected_fits h _

theorem integer_fits (h : "i64" ∈ words) : Fits words integer := by
  intro n f hf
  unfold integer at hf
  split at hf
  · split at hf
    · cases hf
    · cases hf
      exact ⟨h, _, .inl ⟨.self, rfl⟩⟩
  · cases hf
  · cases hf
    exact unexpected_fits h _

theorem nullable_fits {α : Type} {d : Decoder α} (h : Fits words d) : Fits words (nullable d) := by
  intro n f hf
  unfold nullable at hf
  split at hf
  · cases hf
  · cases hd : d n with
    | error f' =>
      rw [hd] at hf
      cases hf
      exact h n _ hd
    | ok a =>
      rw [hd] at hf
      cases hf

/-- A field that is not required, and whose errors are in some fixed words. -/
structure Field.Fits (words : List String) (field : Field) : Prop where
  name : field.name ∈ words
  defaulted : field.defaulted = true
  optional : field.optional = true
  check : ∀ n f, field.check n = .error f → f.Fits words n

theorem defaulted_fits {α : Type} {name : String} {d : Decoder α} (hname : name ∈ words)
    (h : Json.Fits words d) : (defaulted name d).Fits words where
  name := hname
  defaulted := rfl
  optional := rfl
  check := by
    intro n f hf
    cases hd : d n with
    | error f' =>
      simp only [Json.defaulted, hd] at hf
      cases hf
      exact h n _ hd
    | ok a =>
      simp only [Json.defaulted, hd] at hf
      cases hf

theorem memberFields_fits {s : Shape} (hfields : ∀ field ∈ s.fields, field.Fits words) {whole : Node}
    {members : List (Option String × Node)} (hmembers : ∀ m ∈ members, m.2.Part whole)
    {found : List (String × Node)} {f : Fault} (hf : memberFields s found members = .error f) :
    f.Fits words whole := by
  induction members generalizing found with
  | nil => cases hf
  | cons m rest ih =>
    obtain ⟨key, n⟩ := m
    obtain ⟨hfirst, hrest⟩ := List.forall_mem_cons.mp hmembers
    cases key with
    | none =>
      cases hf
      trivial
    | some key =>
      unfold memberFields at hf
      split at hf
      · split at hf
        · cases hf
          trivial
        · exact ih hrest hf
      · rename_i field hfield
        have hfits := hfields field (List.mem_of_find?_eq_some hfield)
        split at hf
        · cases hf
          have hkey : field.name = key := by simpa using List.find?_some hfield
          rw [← hkey]
          exact hfits.name
        · split at hf
          · rename_i e hcheck
            cases hf
            exact ((hfits.check n e hcheck).mono hfirst).under key
          · exact ih hrest hf

theorem itemFields_fits {s : Shape} (hlength : "fewer elements in array" ∈ words)
    {fields : List Field} (hfields : ∀ field ∈ fields, field.Fits words) {whole items : List Node}
    (hitems : ∀ n ∈ items, n ∈ whole) {index : Nat} {f : Fault}
    (hf : itemFields s .value whole.length index fields items = .error f) :
    f.Fits words (.array whole) := by
  induction fields generalizing items index f with
  | nil =>
    cases items with
    | nil => cases hf
    | cons n rest =>
      cases hf
      exact ⟨hlength, whole, .self, rfl⟩
  | cons field fields ih =>
    obtain ⟨hfirst, hlater⟩ := List.forall_mem_cons.mp hfields
    cases items with
    | nil =>
      unfold itemFields at hf
      rw [if_pos hfirst.defaulted] at hf
      exact ih hlater hitems hf
    | cons n rest =>
      obtain ⟨hn, hrest⟩ := List.forall_mem_cons.mp hitems
      unfold itemFields at hf
      split at hf
      · rename_i e hcheck
        cases hf
        exact ((hfirst.check n e hcheck).mono (.item hn .self)).under _
      · cases hmore : itemFields s .value whole.length (index + 1) fields rest with
        | error e =>
          rw [hmore] at hf
          cases hf
          exact ih hlater hrest hmore
        | ok found =>
          rw [hmore] at hf
          cases hf

/-- **A record without required fields is decoded with errors in the words of its fields.** -/
theorem scan_fits {s : Shape} (hname : "struct " ++ s.name ∈ words)
    (hlength : "fewer elements in array" ∈ words) (hfields : ∀ field ∈ s.fields, field.Fits words) :
    Fits words (s.scan .value) := by
  intro n f hf
  unfold Shape.scan at hf
  split at hf
  · rename_i members
    split at hf
    · rename_i e hmembers
      cases hf
      exact memberFields_fits hfields (fun m hm => .member hm .self) hmembers
    · rename_i found _
      have hnone : s.firstMissing found = none := by
        unfold Shape.firstMissing
        rw [Option.map_eq_none_iff, List.find?_eq_none]
        intro field hfield
        simp [(hfields field hfield).optional]
      rw [hnone] at hf
      cases hf
  · exact itemFields_fits hlength hfields (fun _ hn => hn) hf
  · cases hf
    exact unexpected_fits hname _

theorem record_fits {α : Type} {s : Shape} (h : Fits words (s.scan .value))
    (make : List (String × Node) → α) :
    Fits words fun n => do
      let found ← s.scan .value n
      return make found := by
  intro n f hf
  dsimp only at hf
  cases hscan : s.scan .value n with
  | error e =>
    rw [hscan] at hf
    cases hf
    exact h n _ hscan
  | ok found =>
    rw [hscan] at hf
    cases hf

end Decoders

/-! ### Messages -/

/-- What a message may quote of a tree: that it is malformed, a field of the decoder, the type of a
part, an integer in it, or the number of items. -/
inductive Told (words : List String) (n : Node) : String → Prop
  | malformed : Told words n "malformed JSON"
  | field {name : String} : name ∈ words → Told words n name
  | found {m : Node} {expected found : String} : m.Part n →
      unexpected expected m = .content [] (.wrongType found expected) → Told words n found
  | natural {k : Nat} : Node.Part (.number (some (.natural k))) n → Told words n (toString (k : Int))
  | negative {k : Nat} :
      Node.Part (.number (some (.negative k))) n → Told words n (toString (-k : Int))
  | count {items : List Node} : Node.Part (.array items) n → Told words n (toString items.length)

/-- The text before and after a quoted part of a tree. -/
inductive Surrounds (words : List String) : String → String → Prop
  | nothing : Surrounds words "" ""
  | missing : Surrounds words "missing field `" "`"
  | duplicate : Surrounds words "duplicate field `" "`"
  | wrongType {word : String} :
      word ∈ words → Surrounds words "invalid type: " (", expected " ++ word)
  | outOfRange {word : String} :
      word ∈ words → Surrounds words "invalid value: integer `" ("`, expected " ++ word)
  | wrongLength {word : String} :
      word ∈ words → Surrounds words "invalid length " (", expected " ++ word)

section Messages

variable {words : List String} {n : Node}

/-- A message quotes one part of a tree, in words of the decoder. -/
def Tells (words : List String) (n : Node) (message : String) : Prop :=
  ∃ front said back, Surrounds words front back ∧ Told words n said ∧
    message = front ++ said ++ back

theorem Problem.Fits.tells {p : Problem} (h : p.Fits words n) : Tells words n p.message := by
  cases p with
  | wrongType found expected =>
    obtain ⟨hword, m, hm, hfound⟩ := h
    exact ⟨_, found, _, .wrongType hword, .found hm hfound, String.append_assoc⟩
  | outOfRange i expected =>
    obtain ⟨hword, k, ⟨hpart, rfl⟩ | ⟨hpart, rfl⟩⟩ := h
    · exact ⟨_, _, _, .outOfRange hword, .natural hpart, String.append_assoc⟩
    · exact ⟨_, _, _, .outOfRange hword, .negative hpart, String.append_assoc⟩
  | missingField name => exact ⟨_, name, _, .missing, .field h, rfl⟩
  | duplicateField name => exact ⟨_, name, _, .duplicate, .field h, rfl⟩
  | wrongLength length expected =>
    obtain ⟨hword, items, hitems, rfl⟩ := h
    exact ⟨_, _, _, .wrongLength hword, .count hitems, String.append_assoc⟩

/-- **The message of a decoder quotes one part of the tree among its own words.** -/
theorem Fault.Fits.tells {f : Fault} (h : f.Fits words n) : Tells words n f.plainMessage := by
  cases f with
  | malformed => exact ⟨_, _, _, .nothing, .malformed, by simp [plainMessage]⟩
  | content path p => exact Problem.Fits.tells h

end Messages

end ChainAgent.Json
