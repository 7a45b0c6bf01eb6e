import ChainAgent.Text.Redaction
import ChainAgent.Text.Blank
import ChainAgent.Json.Reader
import Mathlib.Data.Nat.Digits.Lemmas

/-! Hex digits and numbers.

The value of a digit is its position among the sixteen, in either case, and the value of digits is
big-endian (`spelled`). The four digits of an escape are those of its code unit
(`hexUnit_eq_some_iff`). -/
namespace ChainAgent.Json

open Text (isHexDigit)

/-- The sixteen digits in ascending order. -/
def digitOrder : List Char := "0123456789abcdef".toList

/-- The value of a digit, in either case. -/
def digitValue (c : Char) : Nat := digitOrder.idxOf c.toLower

/-- The value of digits. -/
def spelled (digits : List Char) : Nat := Nat.ofDigits 16 (digits.reverse.map digitValue)

/-! ### One digit -/

theorem lt_of_isHexDigit {c : Char} (h : isHexDigit c = true) : c.toNat < 128 := by
  simp only [isHexDigit, Char.isDigit, Bool.or_eq_true, Bool.and_eq_true, decide_eq_true_eq, Char.le_def,
    UInt32.le_iff_toNat_le] at h
  have hlow : 'f'.val.toNat = 102 := rfl
  have hcapital : 'F'.val.toNat = 70 := rfl
  have hnine : '9'.val.toNat = 57 := rfl
  have hc : c.toNat = c.val.toNat := rfl
  omega

/-- A property checked for all characters below 128 holds of all hex digits. -/
theorem forall_isHexDigit {P : Char → Prop}
    (h : ∀ n < 128, isHexDigit (Char.ofNat n) = true → P (Char.ofNat n)) :
    ∀ c, isHexDigit c = true → P c := by
  intro c hc
  have hn := h c.toNat (lt_of_isHexDigit hc)
  rw [Char.ofNat_toNat] at hn
  exact hn hc

theorem hexValue_eq (c : Char) :
    hexValue c = if isHexDigit c = true then some (digitValue c) else none := by
  split
  · rename_i hc
    exact forall_isHexDigit (P := fun c => hexValue c = some (digitValue c)) (by decide) c hc
  · rename_i hc
    simp only [isHexDigit, Bool.or_eq_true, not_or, Bool.not_eq_true] at hc
    simp only [hexValue, hc]
    rfl

theorem hexValue_eq_some_iff {c : Char} {n : Nat} :
    hexValue c = some n ↔ isHexDigit c = true ∧ digitValue c = n := by
  rw [hexValue_eq]
  split
  · rename_i hc
    simp [hc]
  · rename_i hc
    simp [hc]

theorem digitValue_lt {c : Char} (h : isHexDigit c = true) : digitValue c < 16 :=
  forall_isHexDigit (P := fun c => digitValue c < 16) (by decide) c h

theorem digitValue_pos {d : Char} (h : isHexDigit d = true) (hzero : d ≠ '0') : 0 < digitValue d :=
  forall_isHexDigit (P := fun d => d ≠ '0' → 0 < digitValue d) (by decide) d h hzero

theorem isBlank_of_isHexDigit {c : Char} (h : isHexDigit c = true) : Text.isBlank c = false :=
  forall_isHexDigit (P := fun c => Text.isBlank c = false) (by decide) c h

/-! ### Digits in order -/

theorem spelled_concat (digits : List Char) (d : Char) :
    spelled (digits ++ [d]) = spelled digits * 16 + digitValue d := by
  rw [spelled, List.reverse_append, List.reverse_singleton, List.singleton_append, List.map_cons,
    Nat.ofDigits_cons, ← spelled]
  omega

/-- The first digit is multiplied by the power of its position. -/
theorem spelled_cons (d : Char) (digits : List Char) :
    spelled (d :: digits) = digitValue d * 16 ^ digits.length + spelled digits := by
  rw [spelled, List.reverse_cons, List.map_append, Nat.ofDigits_append, List.length_map,
    List.length_reverse, ← spelled, List.map_singleton, Nat.ofDigits_singleton, Nat.mul_comm,
    Nat.add_comm]

theorem spelled_lt {digits : List Char} (h : ∀ d ∈ digits, isHexDigit d = true) :
    spelled digits < 16 ^ digits.length := by
  have hvalues : ∀ n ∈ digits.reverse.map digitValue, n < 16 := by
    intro n hn
    obtain ⟨d, hd, rfl⟩ := List.mem_map.mp hn
    exact digitValue_lt (h d (List.mem_reverse.mp hd))
  have hlt := Nat.ofDigits_lt_base_pow_length (by decide : 1 < 16) hvalues
  rwa [List.length_map, List.length_reverse] at hlt

/-- Four digits name the code unit of their value. -/
theorem hexUnit_eq_some_iff {a b c d : Char} {n : Nat} : hexUnit a b c d = some n ↔
    (∀ x ∈ [a, b, c, d], isHexDigit x = true) ∧ spelled [a, b, c, d] = n := by
  have hspelled : spelled [a, b, c, d] =
      ((digitValue a * 16 + digitValue b) * 16 + digitValue c) * 16 + digitValue d := by
    simp only [spelled_cons, List.length_cons, List.length_nil]
    have hnil : spelled [] = 0 := rfl
    omega
  simp only [hexUnit, Option.pure_def, Option.bind_eq_bind, Option.bind_eq_some_iff,
    hexValue_eq_some_iff, Option.some.injEq, List.forall_mem_cons, List.not_mem_nil, hspelled]
  constructor
  · rintro ⟨_, ⟨ha, rfl⟩, _, ⟨hb, rfl⟩, _, ⟨hc, rfl⟩, _, ⟨hd, rfl⟩, rfl⟩
    exact ⟨⟨ha, hb, hc, hd, by simp⟩, rfl⟩
  · rintro ⟨⟨ha, hb, hc, hd, -⟩, rfl⟩
    exact ⟨_, ⟨ha, rfl⟩, _, ⟨hb, rfl⟩, _, ⟨hc, rfl⟩, _, ⟨hd, rfl⟩, rfl⟩

end ChainAgent.Json
