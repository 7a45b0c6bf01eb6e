import ChainAgent.Decimal.Notation
import ChainAgent.Proofs.Json.Numbers

/-! The characters of printed numbers.

In every format a finite number is printed with digits, a point, an `e` and signs
(`Layout.isNotation_magnitude`); so is an integer, in at most as many characters as its digits and a
sign (`length_toString_le`). -/
namespace ChainAgent.Decimal

/-- The characters of finite numbers. -/
def IsNotation (c : Char) : Prop := c.isDigit = true ∨ c ∈ ['.', 'e', '+', '-']

theorem isNotation_zero : IsNotation '0' := .inl (by decide)

theorem isNotation_point : IsNotation '.' := .inr (by decide)

theorem isNotation_natDigits (n : Nat) : ∀ c ∈ natDigits n, IsNotation c :=
  fun c hc => .inl (Json.natDigits_isDigit n c hc)

theorem isNotation_zeros (n : Nat) : ∀ c ∈ List.replicate n '0', IsNotation c := by
  intro c hc
  rw [(List.mem_replicate.mp hc).2]
  exact isNotation_zero

section Digits

variable {digits : List Char} (hdigits : ∀ c ∈ digits, IsNotation c)
include hdigits

theorem Layout.isNotation_plain (l : Layout) (exponent : Int) :
    ∀ c ∈ l.plain digits exponent, IsNotation c := by
  simp only [plain]
  split
  · refine List.forall_mem_append.mpr
      ⟨List.forall_mem_append.mpr ⟨hdigits, isNotation_zeros _⟩, ?_⟩
    split
    · simpa using ⟨isNotation_point, isNotation_zero⟩
    · simp
  · split
    · exact List.forall_mem_append.mpr ⟨fun c hc => hdigits c (List.mem_of_mem_take hc),
        List.forall_mem_cons.mpr ⟨isNotation_point, fun c hc => hdigits c (List.mem_of_mem_drop hc)⟩⟩
    · exact List.forall_mem_append.mpr ⟨List.forall_mem_cons.mpr ⟨isNotation_zero,
        List.forall_mem_cons.mpr ⟨isNotation_point, isNotation_zeros _⟩⟩, hdigits⟩

theorem isNotation_scientific (leading : Int) :
    ∀ c ∈ scientific digits leading, IsNotation c := by
  simp only [scientific]
  refine List.forall_mem_append.mpr
    ⟨List.forall_mem_append.mpr ⟨List.forall_mem_append.mpr ⟨?_, ?_⟩, ?_⟩, ?_⟩
  · exact fun c hc => hdigits c (List.mem_of_mem_take hc)
  · split
    · simp
    · exact List.forall_mem_cons.mpr
        ⟨isNotation_point, fun c hc => hdigits c (List.mem_of_mem_drop hc)⟩
  · refine List.forall_mem_cons.mpr ⟨.inr (by decide), List.forall_mem_singleton.mpr ?_⟩
    split <;> exact .inr (by decide)
  · split
    · exact List.forall_mem_cons.mpr ⟨isNotation_zero, isNotation_natDigits _⟩
    · exact isNotation_natDigits _

end Digits

theorem Layout.isNotation_magnitude (l : Layout) (bits : UInt64) :
    ∀ c ∈ l.magnitude bits, IsNotation c := by
  simp only [magnitude]
  split
  · exact l.isNotation_plain (List.forall_mem_singleton.mpr isNotation_zero) _
  · split
    · exact l.isNotation_plain (isNotation_natDigits _) _
    · split
      · exact l.isNotation_plain (isNotation_natDigits _) _
      · exact isNotation_scientific (isNotation_natDigits _) _

/-- A number is printed with these characters, or it is one of the special values. -/
theorem Layout.mem_render {l : Layout} {x : Float} {c : Char} (h : c ∈ (l.render x).toList) :
    IsNotation c ∨ c ∈ l.notANumber.toList ∨ c ∈ l.infinity.toList := by
  simp only [render] at h
  split at h
  · exact .inr (.inl h)
  · rw [String.toList_append] at h
    obtain hsign | hrest := List.mem_append.mp h
    · split at hsign
      · rw [List.mem_singleton.mp hsign]
        exact .inl (.inr (by decide))
      · exact absurd hsign List.not_mem_nil
    · split at hrest
      · exact .inr (.inr hrest)
      · rw [String.toList_ofList] at hrest
        exact .inl (l.isNotation_magnitude _ c hrest)

/-! ### Integers -/

theorem toList_toString_nat (n : Nat) : (toString n).toList = natDigits n := by
  simp [natDigits, toString, Nat.repr]

theorem toList_toString_int (i : Int) :
    (toString i).toList = (if i < 0 then ['-'] else []) ++ natDigits i.natAbs := by
  cases i with
  | ofNat n => exact toList_toString_nat n
  | negSucc n =>
    have hsign : toString (Int.negSucc n) = "-" ++ toString (n + 1) := rfl
    rw [hsign, String.toList_append, toList_toString_nat, if_pos (Int.negSucc_lt_zero n)]
    rfl

theorem isNotation_toString (i : Int) : ∀ c ∈ (toString i).toList, IsNotation c := by
  rw [toList_toString_int]
  refine List.forall_mem_append.mpr ⟨?_, isNotation_natDigits _⟩
  split
  · exact List.forall_mem_singleton.mpr (.inr (by decide))
  · exact nofun

/-- An integer takes at most as many characters as its digits and a sign. -/
theorem length_toString_le {i : Int} {places : Nat} (hplaces : 0 < places)
    (h : i.natAbs < 10 ^ places) : (toString i).toList.length ≤ places + 1 := by
  have hdigits : (natDigits i.natAbs).length ≤ places :=
    (Nat.length_toDigits_le_iff (by decide) hplaces).mpr h
  rw [toList_toString_int, List.length_append]
  split
  · rw [List.length_singleton]
    omega
  · rw [List.length_nil]
    omega

end ChainAgent.Decimal
