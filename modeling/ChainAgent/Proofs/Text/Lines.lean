import ChainAgent.Text.Lines

/-! Lines of concatenated texts.

The text after the last line feed is the open line, which appended text continues. Every line before
it is closed and stays as it is (`lines_append`). -/
namespace ChainAgent.Text

/-- The pieces of two texts with a separator between them. -/
theorem pieces_append (separator : Char) (s t : String) :
    pieces separator (s ++ String.singleton separator ++ t) =
      pieces separator s ++ pieces separator t := by
  simp [pieces, List.splitOn_append_cons_self]

theorem pieces_of_not_mem {separator : Char} {s : String} (h : separator ∉ s.toList) :
    pieces separator s = [s] := by
  simp [pieces, List.splitOn_eq_singleton h]

theorem pieces_ne_nil (separator : Char) (s : String) : pieces separator s ≠ [] := by
  simp [pieces]

/-- Lines that each end with a line feed are split again, with an empty last one. -/
theorem lines_join {ls : List String} (h : ∀ l ∈ ls, '\n' ∉ l.toList) :
    lines (String.join (ls.map (· ++ "\n"))) = ls ++ [""] := by
  induction ls with
  | nil => rfl
  | cons l ls ih =>
    obtain ⟨hfirst, hrest⟩ := List.forall_mem_cons.mp h
    have hjoin : lines (l ++ "\n" ++ String.join (ls.map (· ++ "\n"))) =
        lines l ++ lines (String.join (ls.map (· ++ "\n"))) := pieces_append '\n' l _
    have hline : lines l = [l] := pieces_of_not_mem hfirst
    rw [List.map_cons, String.join_cons, hjoin, hline, ih hrest]
    rfl

/-- The text after the last line feed. -/
def openLine (s : String) : String := (lines s).getLastD ""

/-- The lines that end with a line feed. -/
def closedLines (s : String) : List String := (lines s).dropLast

theorem lines_of_not_mem {s : String} (h : '\n' ∉ s.toList) :
    openLine s = s ∧ closedLines s = [] := by
  have hlines : lines s = [s] := pieces_of_not_mem h
  simp [openLine, closedLines, hlines]

theorem lines_of_last (front : String) {back : String} (h : '\n' ∉ back.toList) :
    openLine (front ++ "\n" ++ back) = back ∧
      closedLines (front ++ "\n" ++ back) = lines front := by
  have hlines : lines (front ++ "\n" ++ back) = lines front ++ [back] := by
    rw [← pieces_of_not_mem h]
    exact pieces_append '\n' front back
  simp [openLine, closedLines, hlines]

theorem exists_last_newline {s : String} (h : '\n' ∈ s.toList) :
    ∃ front back, s = front ++ "\n" ++ back ∧ '\n' ∉ back.toList := by
  obtain ⟨as, bs, hsplit, hlast⟩ := List.eq_append_cons_of_mem (List.mem_reverse.mpr h)
  refine ⟨.ofList bs.reverse, .ofList as.reverse, ?_, by simpa using hlast⟩
  rw [List.reverse_eq_iff] at hsplit
  rw [← String.toList_inj, hsplit]
  simp

/-- The open line is the last one. -/
theorem lines_eq (s : String) : lines s = closedLines s ++ [openLine s] := by
  have hne : lines s ≠ [] := pieces_ne_nil '\n' s
  rw [closedLines, openLine, List.getLastD_eq_getLast?, List.getLast?_eq_some_getLast hne]
  exact (List.dropLast_concat_getLast hne).symm

/-- **Appended text continues the open line.** -/
theorem lines_append (s : String) {t : String} (ht : '\n' ∉ t.toList) (more : String) :
    lines (s ++ t ++ "\n" ++ more) = closedLines s ++ (openLine s ++ t) :: lines more := by
  have hmore (u : String) : lines (u ++ "\n" ++ more) = lines u ++ lines more :=
    pieces_append '\n' u more
  by_cases hs : '\n' ∈ s.toList
  · obtain ⟨front, back, rfl, hback⟩ := exists_last_newline hs
    obtain ⟨hopen, hclosed⟩ := lines_of_last front hback
    have hline : '\n' ∉ (back ++ t).toList := by simp [hback, ht]
    have hfront : lines (front ++ "\n" ++ (back ++ t)) = lines front ++ lines (back ++ t) :=
      pieces_append '\n' front (back ++ t)
    have hlast : lines (back ++ t) = [back ++ t] := pieces_of_not_mem hline
    rw [hopen, hclosed, hmore, String.append_assoc, hfront, hlast]
    simp
  · have hline : '\n' ∉ (s ++ t).toList := by simp [hs, ht]
    have hlast : lines (s ++ t) = [s ++ t] := pieces_of_not_mem hline
    obtain ⟨hopen, hclosed⟩ := lines_of_not_mem hs
    rw [hopen, hclosed, hmore, hlast]
    rfl

end ChainAgent.Text
