import ChainAgent.Proofs.Json.HexDigits
import ChainAgent.Proofs.Json.Numbers
import ChainAgent.Proofs.Text.Blank
import ChainAgent.Proofs.Text.Words

/-! Previews.

Truncating keeps the longest prefix within the limit that does not end with whitespace
(`isExcerpt_trimEnd`) and marks it. A preview is the words of a text joined with single spaces,
truncated if they are too long, and in either case tidy (`preview_shows`). Numbers have no
whitespace at all, so both stay in a row (`flat_preview`, `flat_natural`). -/
namespace ChainAgent.Text

/-! ### Cut texts -/

/-- The longest prefix of at most `limit` characters that does not end with whitespace. -/
structure IsExcerpt (cs : List Char) (limit : Nat) (kept : List Char) : Prop where
  front : kept <+: cs
  length_le : kept.length ≤ limit
  ends : ∀ c ∈ kept.getLast?, isBlank c = false
  longest : ∀ front, front <+: cs → front.length ≤ limit →
    (∀ c ∈ front.getLast?, isBlank c = false) → front <+: kept

theorem isExcerpt_trimEnd (cs : List Char) (limit : Nat) :
    IsExcerpt cs limit (trimEnd (cs.take limit)) where
  front := (trimEnd_isPrefix _).trans (List.take_prefix limit cs)
  length_le := (trimEnd_isPrefix _).length_le.trans (List.length_take_le limit cs)
  ends := getLast?_trimEnd _
  longest _ hfront hlength hends :=
    prefix_trimEnd (List.prefix_take_iff.mpr ⟨hfront, hlength⟩) hends

theorem truncateChars_of_le {cs : List Char} {limit : Nat} (h : cs.length ≤ limit) :
    truncateChars cs limit = cs := if_pos h

theorem truncateChars_of_lt {cs : List Char} {limit : Nat} (h : limit < cs.length) :
    truncateChars cs limit = trimEnd (cs.take limit) ++ ['.', '.', '.'] := if_neg (Nat.not_le.mpr h)

theorem truncateChars_length_le (cs : List Char) (limit : Nat) :
    (truncateChars cs limit).length ≤ limit + 3 := by
  by_cases h : cs.length ≤ limit
  · rw [truncateChars_of_le h]
    omega
  · have hkept := (isExcerpt_trimEnd cs limit).length_le
    rw [truncateChars_of_lt (Nat.not_le.mp h), List.length_append]
    exact Nat.add_le_add_right hkept 3

theorem Tidy.truncateChars {cs : List Char} (h : Tidy cs) (limit : Nat) :
    Tidy (truncateChars cs limit) := by
  by_cases hshort : cs.length ≤ limit
  · rwa [truncateChars_of_le hshort]
  · have hkept := isExcerpt_trimEnd cs limit
    have hpoints : ∀ c ∈ List.replicate 3 '.', isBlank c = false := by
      intro c hc
      rw [List.eq_of_mem_replicate hc]
      rfl
    rw [truncateChars_of_lt (Nat.not_le.mp hshort)]
    exact (h.front hkept.front hkept.ends).append (tidy_of_no_blank hpoints)

/-! ### Previews -/

theorem toList_preview (s : String) (limit : Nat) :
    (preview s limit).toList = truncateChars (joined (words s.toList)) limit :=
  String.toList_ofList

theorem tidy_preview (s : String) (limit : Nat) : Tidy (preview s limit).toList := by
  have hwords : HasWords (words s.toList) s.toList := hasWords_iff.mpr rfl
  rw [toList_preview]
  exact (tidy_joined hwords.solid).truncateChars limit

/-- The only whitespace in a preview is spaces. -/
theorem flat_preview (s : String) (limit : Nat) : Flat (preview s limit).toList :=
  (tidy_preview s limit).flat

/-- **A preview shows the words of a text with single spaces**, up to `limit` characters. -/
theorem preview_shows (s : String) (limit : Nat) :
    (preview s limit).length ≤ limit + 3 ∧ Tidy (preview s limit).toList ∧
      ∃ ws, (∀ found, HasWords found s.toList ↔ ws = found) ∧
        (∀ t : String, HasWords ws t.toList → preview t limit = preview s limit) ∧
        ((joined ws).length ≤ limit → (preview s limit).toList = joined ws) ∧
        (limit < (joined ws).length → ∃ kept, IsExcerpt (joined ws) limit kept ∧
          (preview s limit).toList = kept ++ ['.', '.', '.']) := by
  refine ⟨?_, tidy_preview s limit, words s.toList, fun found => hasWords_iff, ?_, ?_, ?_⟩
  · rw [← String.length_toList, toList_preview]
    exact truncateChars_length_le _ limit
  · intro t ht
    rw [← String.toList_inj, toList_preview, toList_preview, ht.words_eq]
  · intro hshort
    rw [toList_preview, truncateChars_of_le hshort]
  · intro hlong
    exact ⟨_, isExcerpt_trimEnd _ limit, by rw [toList_preview, truncateChars_of_lt hlong]⟩

/-- The cut falls after a space, which is trimmed. -/
example : preview " send\n the tokens" 9 = "send the..." := by decide +kernel

/-! ### Numbers -/

theorem flat_natural (n : Nat) : Flat (toString n).toList := by
  have hdigits : (toString n).toList = Decimal.natDigits n := by simp [Decimal.natDigits]
  rw [hdigits]
  exact flat_of_no_blank fun c hc => Json.isBlank_of_isHexDigit
    (by rw [isHexDigit, Json.natDigits_isDigit _ c hc]; rfl)

theorem flat_integer (i : Int) : Flat (toString i).toList := by
  cases i with
  | ofNat n => exact flat_natural n
  | negSucc n =>
    have htext : toString (Int.negSucc n) = "-" ++ toString (n + 1) := rfl
    rw [htext, String.toList_append]
    exact (flat_literal (by decide)).append (flat_natural _)

end ChainAgent.Text
