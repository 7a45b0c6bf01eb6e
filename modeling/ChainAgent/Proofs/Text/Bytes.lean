import ChainAgent.Text.Bytes

/-! UTF-8 of texts.

Decoding inverts encoding. A prefix of the bytes that ends between two characters is the encoding of
a prefix of the text (`exists_cut`), and any other is ill-formed (`decode_torn`). -/
namespace ChainAgent.Text

theorem decode_toUTF8 (s : String) : decode s.toUTF8 = some s := by
  have hvalid : s.toByteArray.IsValidUTF8 := s.isValidUTF8
  rw [decode, String.fromUTF8?, String.toUTF8_eq_toByteArray, dif_pos hvalid]
  rfl

theorem toUTF8_append (s t : String) : (s ++ t).toUTF8 = s.toUTF8 ++ t.toUTF8 := rfl

theorem toUTF8_inj {s t : String} (h : s.toUTF8 = t.toUTF8) : s = t :=
  String.toByteArray_inj.mp h

/-- A cut between two characters leaves the text before it. -/
theorem exists_cut {s : String} {k : Nat} (h : String.Pos.Raw.IsValid s ⟨k⟩) :
    ∃ front behind, s = front ++ behind ∧ front.utf8ByteSize = k ∧
      s.toUTF8.extract 0 k = front.toUTF8 := by
  obtain ⟨front, behind, rfl, hk⟩ := String.Pos.Raw.isValid_iff_exists_append.mp h
  have hsize : k = front.utf8ByteSize := congrArg String.Pos.Raw.byteIdx hk
  refine ⟨front, behind, rfl, hsize.symm, ?_⟩
  rw [toUTF8_append]
  exact ByteArray.extract_append_eq_left hsize

/-- A cut inside a character is ill-formed. -/
theorem decode_torn {s : String} {k : Nat} (hk : k ≤ s.utf8ByteSize)
    (h : ¬ String.Pos.Raw.IsValid s ⟨k⟩) : decode (s.toUTF8.extract 0 k) = none := by
  rw [decode, String.fromUTF8?, dif_neg]
  intro hvalid
  exact h (String.Pos.Raw.isValid_iff_isValidUTF8_extract_zero.mpr ⟨hk, hvalid⟩)

/-- No text ends inside a character. -/
theorem not_isValid_inside {front behind : String} {c : Char} {k : Nat}
    (hfront : front.utf8ByteSize < k) (hc : k < front.utf8ByteSize + c.utf8Size) :
    ¬ String.Pos.Raw.IsValid (front ++ String.singleton c ++ behind) ⟨k⟩ := by
  intro h
  obtain ⟨s, t, hsplit, hend⟩ := String.Pos.Raw.isValid_iff_exists_append.mp h
  have hk : k = s.utf8ByteSize := congrArg String.Pos.Raw.byteIdx hend
  rw [← String.toList_inj] at hsplit
  simp only [String.toList_append, String.toList_singleton, List.append_assoc,
    List.singleton_append] at hsplit
  obtain ⟨more, hs, hmore⟩ | ⟨more, hshort, -⟩ := List.append_eq_append_iff.mp hsplit
  · have hsize : s.utf8ByteSize = front.utf8ByteSize + (String.ofList more).utf8ByteSize := by
      rw [← String.utf8ByteSize_append]
      congr 1
      rw [← String.toList_inj, hs]
      simp
    cases more with
    | nil =>
      rw [String.ofList_nil, String.utf8ByteSize_empty] at hsize
      omega
    | cons d more =>
      have hd : (String.ofList (d :: more)).utf8ByteSize =
          d.utf8Size + (String.ofList more).utf8ByteSize := by
        rw [String.ofList_cons, String.utf8ByteSize_append, String.utf8ByteSize_singleton]
      rw [List.cons_append, List.cons.injEq] at hmore
      rw [hmore.1] at hc
      omega
  · have hsize : front.utf8ByteSize = s.utf8ByteSize + (String.ofList more).utf8ByteSize := by
      rw [← String.utf8ByteSize_append]
      congr 1
      rw [← String.toList_inj, hshort]
      simp
    omega

end ChainAgent.Text
