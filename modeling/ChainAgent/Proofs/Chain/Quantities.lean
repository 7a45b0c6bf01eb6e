import ChainAgent.Proofs.Chain.Hex
import ChainAgent.Proofs.Json.HexDigits

/-! Quantities in hex.

The narrow parser accepts the hex digits of every 64-bit number after `0x`, also with a plus sign
before the digits; the wide one accepts one to 64 hex digits, also with underscores among them,
which it ignores. Nothing else is accepted (`readings`). -/
namespace ChainAgent.Chain.Hex

open Text (isHexDigit)
open Json (forall_isHexDigit hexValue_eq_some_iff spelled spelled_concat)

/-! ### Digits -/

theorem value?_concat (digits : List Char) (d : Char) :
    value? (digits ++ [d]) =
      (value? digits).bind fun n => (Json.hexValue d).bind fun k => some (n * 16 + k) := by
  rw [value?, List.foldl_append]
  rfl

/-- Digits have the value that they spell. -/
theorem value?_eq_some_iff {digits : List Char} {v : Nat} :
    value? digits = some v ↔ (∀ d ∈ digits, isHexDigit d = true) ∧ spelled digits = v := by
  induction digits using List.reverseRecOn generalizing v with
  | nil => simp [value?, spelled]
  | append_singleton digits d ih =>
    rw [value?_concat, spelled_concat]
    simp only [Option.bind_eq_some_iff, ih, hexValue_eq_some_iff, List.forall_mem_append,
      List.forall_mem_singleton, Option.some.injEq]
    constructor
    · rintro ⟨_, ⟨hdigits, rfl⟩, _, ⟨hd, rfl⟩, hv⟩
      exact ⟨⟨hdigits, hd⟩, hv⟩
    · rintro ⟨⟨hdigits, hd⟩, hv⟩
      exact ⟨_, ⟨hdigits, rfl⟩, _, ⟨hd, rfl⟩, hv⟩

theorem filter_line {places : List Char} (h : '_' ∉ places) : places.filter (· != '_') = places :=
  List.filter_eq_self.mpr fun _ hd => bne_iff_ne.mpr (ne_of_mem_of_not_mem hd h)

/-! ### Texts -/

/-- The text after `0x`, with surrounding whitespace trimmed. -/
def IsMarked (raw : String) (rest : List Char) : Prop :=
  Text.trimChars raw.toList = '0' :: 'x' :: rest ∨ Text.trimChars raw.toList = '0' :: 'X' :: rest

/-- Hex digits after `0x`, at least one, of a 64-bit number. -/
def IsNarrow (raw : String) (v : Nat) : Prop :=
  ∃ digits ≠ [], HasDigits raw digits ∧ spelled digits = v ∧ v < 2 ^ 64

/-- One to 64 hex digits after `0x`. -/
def IsWide (raw : String) (v : Nat) : Prop :=
  ∃ digits ≠ [], HasDigits raw digits ∧ digits.length ≤ 64 ∧ spelled digits = v

/-- A narrow quantity with a plus sign after `0x`. -/
def IsSigned (raw : String) (v : Nat) : Prop :=
  ∃ digits ≠ [], IsMarked raw ('+' :: digits) ∧ (∀ d ∈ digits, isHexDigit d = true) ∧
    spelled digits = v ∧ v < 2 ^ 64

/-- At most 64 characters after `0x`, digits and at least one underscore; the value is that of the
digits. -/
def IsLined (raw : String) (v : Nat) : Prop :=
  ∃ places, IsMarked raw places ∧ '_' ∈ places ∧ places.length ≤ 64 ∧
    (∀ d ∈ places, isHexDigit d = true ∨ d = '_') ∧ spelled (places.filter (· != '_')) = v

section Texts

variable {raw : String}

theorem IsMarked.unique {ds es : List Char} (h : IsMarked raw ds) (h' : IsMarked raw es) : ds = es := by
  obtain h | h := h <;> obtain h' | h' := h' <;> simpa using h.symm.trans h'

theorem digits?_eq_some_iff {ds : List Char} : digits? raw = some ds ↔ IsMarked raw ds := by
  unfold digits? IsMarked
  split
  · rename_i h
    simp [h]
  · rename_i h
    simp [h]
  · rename_i hlow hcapital
    exact iff_of_false nofun (not_or.mpr ⟨hlow ds, hcapital ds⟩)

/-! ### What is read -/

theorem quantity?_eq_some_iff {v : Nat} : quantity? raw = some v ↔ IsNarrow raw v ∨ IsSigned raw v := by
  have hread (digits : List Char) : (do
      if digits.isEmpty then none
      let n ← value? digits
      if n < UInt64.size then some n else none) = some v ↔
        digits ≠ [] ∧ (∀ d ∈ digits, isHexDigit d = true) ∧ spelled digits = v ∧ v < 2 ^ 64 := by
    cases digits with
    | nil => exact iff_of_false nofun fun h => h.1 rfl
    | cons d digits =>
      simp only [List.isEmpty_cons, Bool.false_eq_true, if_false, Option.bind_eq_bind,
        Option.bind_eq_some_iff, value?_eq_some_iff, Option.ite_none_right_eq_some, Option.some.injEq]
      constructor
      · rintro ⟨_, ⟨hdigits, rfl⟩, hlt, rfl⟩
        exact ⟨nofun, hdigits, rfl, hlt⟩
      · rintro ⟨-, hdigits, rfl, hlt⟩
        exact ⟨_, ⟨hdigits, rfl⟩, hlt, rfl⟩
  constructor
  · intro h
    obtain ⟨ds, hds, h⟩ := Option.bind_eq_some_iff.mp h
    rw [digits?_eq_some_iff] at hds
    replace h := (hread _).mp h
    split at h
    · rename_i digits
      obtain ⟨hne, hhex, hv⟩ := h
      exact .inr ⟨digits, hne, hds, hhex, hv⟩
    · obtain ⟨hne, hhex, hv⟩ := h
      exact .inl ⟨ds, hne, ⟨hds, hhex⟩, hv⟩
  · rintro (⟨digits, hne, ⟨hds, hhex⟩, hv⟩ | ⟨digits, hne, hds, hhex, hv⟩)
    · refine Option.bind_eq_some_iff.mpr ⟨digits, digits?_eq_some_iff.mpr hds, (hread _).mpr ?_⟩
      split
      · exact absurd (hhex '+' List.mem_cons_self) (by decide)
      · exact ⟨hne, hhex, hv⟩
    · exact Option.bind_eq_some_iff.mpr
        ⟨'+' :: digits, digits?_eq_some_iff.mpr hds, (hread _).mpr ⟨hne, hhex, hv⟩⟩

/-- Digits and underscores take one byte each. -/
theorem utf8ByteSize_places {places : List Char} (h : ∀ d ∈ places, isHexDigit d = true ∨ d = '_') :
    (String.ofList places).utf8ByteSize = places.length := by
  induction places with
  | nil => rfl
  | cons d places ih =>
    obtain ⟨hd, hplaces⟩ := List.forall_mem_cons.mp h
    have hone : d.utf8Size = 1 := by
      obtain hd | rfl := hd
      · exact forall_isHexDigit (P := fun d => d.utf8Size = 1) (by decide) d hd
      · rfl
    rw [String.ofList_cons, String.utf8ByteSize_append, String.utf8ByteSize_singleton, ih hplaces, hone,
      List.length_cons, Nat.add_comm]

theorem forall_mem_filter_line {places : List Char} :
    (∀ d ∈ places.filter (· != '_'), isHexDigit d = true) ↔
      ∀ d ∈ places, isHexDigit d = true ∨ d = '_' := by
  simp only [List.mem_filter, bne_iff_ne, and_imp]
  refine forall₂_congr fun d _ => ?_
  rw [or_comm, or_iff_not_imp_left]

theorem wide?_eq_some_iff {v : Nat} : wide? raw = some v ↔ IsWide raw v ∨ IsLined raw v := by
  have hread (places : List Char) : (do
      if places.isEmpty || 64 < (String.ofList places).utf8ByteSize then none
      value? (places.filter (· != '_'))) = some v ↔
        places ≠ [] ∧ places.length ≤ 64 ∧ (∀ d ∈ places, isHexDigit d = true ∨ d = '_') ∧
          spelled (places.filter (· != '_')) = v := by
    by_cases hplaces : ∀ d ∈ places, isHexDigit d = true ∨ d = '_'
    · rw [utf8ByteSize_places hplaces]
      by_cases hlength : places = [] ∨ 64 < places.length
      · rw [if_pos (by simpa using hlength)]
        refine iff_of_false nofun fun h => ?_
        exact hlength.elim h.1 (Nat.not_lt.mpr h.2.1)
      · rw [if_neg (by simpa using hlength)]
        rw [not_or, Nat.not_lt] at hlength
        exact value?_eq_some_iff.trans ⟨fun h => ⟨hlength.1, hlength.2, hplaces, h.2⟩,
          fun h => ⟨forall_mem_filter_line.mpr hplaces, h.2.2.2⟩⟩
    · refine iff_of_false (fun h => ?_) fun h => hplaces h.2.2.1
      split at h
      · cases h
      · exact hplaces (forall_mem_filter_line.mp (value?_eq_some_iff.mp h).1)
  constructor
  · intro h
    obtain ⟨places, hmark, h⟩ := Option.bind_eq_some_iff.mp h
    rw [digits?_eq_some_iff] at hmark
    obtain ⟨hne, hlength, hall, hv⟩ := (hread places).mp h
    by_cases hline : '_' ∈ places
    · exact .inr ⟨places, hmark, hline, hlength, hall, hv⟩
    · rw [filter_line hline] at hv
      exact .inl ⟨places, hne, ⟨hmark, fun d hd =>
        (hall d hd).resolve_right fun h => hline (h ▸ hd)⟩, hlength, hv⟩
  · rintro (⟨digits, hne, ⟨hmark, hhex⟩, hlength, hv⟩ | ⟨places, hmark, hline, hlength, hall, hv⟩)
    · refine Option.bind_eq_some_iff.mpr ⟨digits, digits?_eq_some_iff.mpr hmark, (hread digits).mpr
        ⟨hne, hlength, fun d hd => .inl (hhex d hd), ?_⟩⟩
      rw [filter_line fun hline => absurd (hhex '_' hline) (by decide), hv]
    · exact Option.bind_eq_some_iff.mpr ⟨places, digits?_eq_some_iff.mpr hmark, (hread places).mpr
        ⟨List.ne_nil_of_mem hline, hlength, hall, hv⟩⟩

/-- **The narrow parser accepts the hex digits of a number below `2 ^ 64`, also with a plus sign;
the wide one up to 64 hex digits, also with underscores.** So of texts without signs and underscores
the parsers accept exactly the plain ones. -/
theorem readings (raw : String) :
    (∀ v, quantity? raw = some v ↔ IsNarrow raw v ∨ IsSigned raw v) ∧
    ((∀ v, quantity? raw = some v ↔ IsNarrow raw v) ↔ ∀ v, ¬ IsSigned raw v) ∧
    (∀ v, wide? raw = some v ↔ IsWide raw v ∨ IsLined raw v) ∧
    ((∀ v, wide? raw = some v ↔ IsWide raw v) ↔ ∀ v, ¬ IsLined raw v) := by
  have hsigned (v : Nat) (h : IsSigned raw v) : ∀ w, ¬ IsNarrow raw w := by
    rintro w ⟨digits, -, ⟨hmark, hhex⟩, -⟩
    obtain ⟨signed, -, hsigned, -⟩ := h
    obtain rfl := IsMarked.unique hmark hsigned
    exact absurd (hhex '+' List.mem_cons_self) (by decide)
  have hlined (v : Nat) (h : IsLined raw v) : ∀ w, ¬ IsWide raw w := by
    rintro w ⟨digits, -, ⟨hmark, hhex⟩, -⟩
    obtain ⟨places, hplaces, hline, -⟩ := h
    obtain rfl := IsMarked.unique hmark hplaces
    exact absurd (hhex '_' hline) (by decide)
  refine ⟨fun _ => quantity?_eq_some_iff, ?_, fun _ => wide?_eq_some_iff, ?_⟩
  · simp only [quantity?_eq_some_iff, or_iff_left_iff_imp]
    exact ⟨fun h v hv => hsigned v hv v (h v hv), fun h v hv => absurd hv (h v)⟩
  · simp only [wide?_eq_some_iff, or_iff_left_iff_imp]
    exact ⟨fun h v hv => hlined v hv v (h v hv), fun h v hv => absurd hv (h v)⟩

/-- A plus sign and an underscore are ignored. -/
theorem readings_loose :
    quantity? "0x+5" = some 5 ∧ (¬ ∀ v, quantity? "0x+5" = some v ↔ IsNarrow "0x+5" v) ∧
      wide? "0x1_0" = some 16 ∧ ¬ ∀ v, wide? "0x1_0" = some v ↔ IsWide "0x1_0" v := by
  have hsigned : IsSigned "0x+5" 5 :=
    ⟨['5'], by decide, .inl (by decide), List.all_eq_true.mp rfl, by decide, by decide⟩
  have hlined : IsLined "0x1_0" 16 :=
    ⟨['1', '_', '0'], .inl (by decide), by decide, by decide, by simp [isHexDigit], by decide⟩
  obtain ⟨hquantity, hnarrow, -, -⟩ := readings "0x+5"
  obtain ⟨-, -, hplaces, hwide⟩ := readings "0x1_0"
  exact ⟨(hquantity 5).mpr (.inr hsigned), fun h => hnarrow.mp h 5 hsigned,
    (hplaces 16).mpr (.inr hlined), fun h => hwide.mp h 16 hlined⟩

end Texts

end ChainAgent.Chain.Hex
