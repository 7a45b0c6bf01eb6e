import ChainAgent.Chain.Hex

/-! Hex texts.

An address and a byte string may have either case and surrounding whitespace, and are normalized to
lowercase. `HasDigits` describes such a text; exactly these texts are accepted
(`address?_eq_some_iff`, `blob?_eq_some_iff`). -/
namespace ChainAgent.Chain.Hex

/-- Hex digits after `0x` or `0X`, with surrounding whitespace. -/
def HasDigits (raw : String) (digits : List Char) : Prop :=
  (Text.trimChars raw.toList = '0' :: 'x' :: digits ∨ Text.trimChars raw.toList = '0' :: 'X' :: digits) ∧
    ∀ d ∈ digits, Text.isHexDigit d = true

/-- Forty hex digits. -/
def IsAddress (raw : String) : Prop := ∃ digits, HasDigits raw digits ∧ digits.length = 40

/-- Pairs of hex digits, at least one. -/
def IsBlob (raw : String) : Prop := ∃ digits, HasDigits raw digits ∧ digits ≠ [] ∧ 2 ∣ digits.length

/-! ### Small letters -/

def capitals : List Char := "ABCDEFGHIJKLMNOPQRSTUVWXYZ".toList

/-- Lowercasing only changes capital letters. -/
theorem toLower_eq_or (c : Char) : c.toLower = c ∨ c ∈ capitals := by
  unfold Char.toLower
  split
  · rename_i h
    right
    have hrange : ∀ n < 91, 65 ≤ n → Char.ofNat n ∈ capitals := by decide
    have hlow : 65 ≤ c.toNat := h.1
    have hhigh : c.toNat ≤ 90 := h.2
    rw [← Char.ofNat_toNat c]
    exact hrange c.toNat (Nat.lt_succ_of_le hhigh) hlow
  · exact .inl rfl

/-- A hex digit has the same value in lowercase. -/
theorem toLower_of_mem_capitals {c : Char} (h : c ∈ capitals) : (c.toLower = '0' ↔ c = '0') ∧
    (c.toLower = 'x' ↔ c = 'x' ∨ c = 'X') ∧ Text.isHexDigit c.toLower = Text.isHexDigit c := by
  have hall : (capitals.all fun c => (c.toLower = '0' ↔ c = '0') ∧
      (c.toLower = 'x' ↔ c = 'x' ∨ c = 'X') ∧
        Text.isHexDigit c.toLower = Text.isHexDigit c) = true := by decide
  exact of_decide_eq_true (List.all_eq_true.mp hall c h)

theorem toLower_eq_zero {c : Char} : c.toLower = '0' ↔ c = '0' := by
  obtain h | h := toLower_eq_or c
  · rw [h]
  · exact (toLower_of_mem_capitals h).1

theorem toLower_eq_x {c : Char} : c.toLower = 'x' ↔ c = 'x' ∨ c = 'X' := by
  obtain h | h := toLower_eq_or c
  · rw [h, or_iff_left]
    rintro rfl
    exact absurd h (by decide)
  · exact (toLower_of_mem_capitals h).2.1

theorem isHexDigit_toLower (c : Char) : Text.isHexDigit c.toLower = Text.isHexDigit c := by
  obtain h | h := toLower_eq_or c
  · rw [h]
  · exact (toLower_of_mem_capitals h).2.2

theorem all_isHexDigit_map_toLower (digits : List Char) :
    (digits.map Char.toLower).all Text.isHexDigit = digits.all Text.isHexDigit := by
  rw [List.all_map]
  exact congrArg digits.all (funext isHexDigit_toLower)

/-! ### What is read -/

section Reading

variable {raw : String}

/-- The text after the `0x` of a lowercase text. -/
theorem lowered_eq_cons_iff {ds : List Char} : lowered raw = '0' :: 'x' :: ds ↔
    ∃ digits, (Text.trimChars raw.toList = '0' :: 'x' :: digits ∨
      Text.trimChars raw.toList = '0' :: 'X' :: digits) ∧ digits.map Char.toLower = ds := by
  unfold lowered
  constructor
  · intro h
    obtain ⟨c, rest, hraw, hc, hrest⟩ := List.map_eq_cons_iff.mp h
    obtain ⟨d, digits, rfl, hd, hdigits⟩ := List.map_eq_cons_iff.mp hrest
    obtain rfl := toLower_eq_zero.mp hc
    refine ⟨digits, ?_, hdigits⟩
    obtain rfl | rfl := toLower_eq_x.mp hd
    · exact .inl hraw
    · exact .inr hraw
  · rintro ⟨digits, hraw | hraw, rfl⟩
    · rw [hraw]
      rfl
    · rw [hraw]
      rfl

theorem lowered_hasDigits {digits : List Char} (h : HasDigits raw digits) :
    lowered raw = '0' :: 'x' :: digits.map Char.toLower :=
  lowered_eq_cons_iff.mpr ⟨digits, h.1, rfl⟩

/-- **An address is accepted if it has forty hex digits, and is normalized to lowercase.** -/
theorem address?_eq_some_iff {account : String} : address? raw = some account ↔
    IsAddress raw ∧ account = String.ofList (lowered raw) := by
  unfold address?
  constructor
  · intro h
    split at h
    · rename_i ds hlowered
      split at h
      · rename_i hds
        cases h
        obtain ⟨digits, hraw, rfl⟩ := lowered_eq_cons_iff.mp hlowered
        rw [Bool.and_eq_true, all_isHexDigit_map_toLower, List.all_eq_true, beq_iff_eq,
          List.length_map] at hds
        exact ⟨⟨digits, ⟨hraw, hds.2⟩, hds.1⟩, by rw [hlowered]⟩
      · cases h
    · cases h
  · rintro ⟨⟨digits, hdigits, hlength⟩, rfl⟩
    have hds : ((digits.map Char.toLower).length == 40 &&
        (digits.map Char.toLower).all Text.isHexDigit) = true := by
      rw [all_isHexDigit_map_toLower, List.length_map, hlength, List.all_eq_true.mpr hdigits.2]
      rfl
    rw [lowered_hasDigits hdigits]
    exact if_pos hds

/-- **A byte string is accepted if it has pairs of hex digits, and is normalized to lowercase.** -/
theorem blob?_eq_some_iff {blob : String} : blob? raw = some blob ↔
    IsBlob raw ∧ blob = String.ofList (lowered raw) := by
  unfold blob?
  constructor
  · intro h
    split at h
    · rename_i ds hlowered
      split at h
      · rename_i hds
        cases h
        obtain ⟨digits, hraw, rfl⟩ := lowered_eq_cons_iff.mp hlowered
        rw [Bool.and_eq_true, Bool.and_eq_true, all_isHexDigit_map_toLower, List.all_eq_true,
          beq_iff_eq, List.length_map, ← Nat.dvd_iff_mod_eq_zero] at hds
        refine ⟨⟨digits, ⟨hraw, hds.2⟩, ?_, hds.1.2⟩, by rw [hlowered]⟩
        rintro rfl
        exact absurd hds.1.1 (by decide)
      · cases h
    · cases h
  · rintro ⟨⟨digits, hdigits, hne, heven⟩, rfl⟩
    have hds : (!(digits.map Char.toLower).isEmpty && (digits.map Char.toLower).length % 2 == 0 &&
        (digits.map Char.toLower).all Text.isHexDigit) = true := by
      rw [all_isHexDigit_map_toLower, List.length_map, Nat.mod_eq_zero_of_dvd heven,
        List.all_eq_true.mpr hdigits.2]
      simpa using hne
    rw [lowered_hasDigits hdigits]
    exact if_pos hds

theorem address?_eq_none (h : ¬ IsAddress raw) : address? raw = none :=
  Option.eq_none_iff_forall_ne_some.mpr fun _ hsome => h (address?_eq_some_iff.mp hsome).1

theorem blob?_eq_none (h : ¬ IsBlob raw) : blob? raw = none :=
  Option.eq_none_iff_forall_ne_some.mpr fun _ hsome => h (blob?_eq_some_iff.mp hsome).1

end Reading

end ChainAgent.Chain.Hex
