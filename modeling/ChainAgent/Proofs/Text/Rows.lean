import ChainAgent.Proofs.Text.Lines
import ChainAgent.Text.Blank
import Mathlib.Algebra.GroupWithZero.Nat

/-! Rows of a text.

Every reader breaks rows at a line feed. Some also do at a carriage return, a form feed or the
separators of Unicode. All of these are whitespace other than the space (`EndsRows`), so for every
reader a text whose only whitespace is spaces is one row (`Flat.rows_eq`). -/
namespace ChainAgent.Text

/-- The row breaks of a reader. -/
structure EndsRows (ends : Char → Bool) : Prop where
  feed : ends '\n' = true
  blank {c : Char} : ends c = true → isBlank c = true
  space : ends ' ' = false

theorem endsRows_feed : EndsRows (· == '\n') where
  feed := rfl
  blank h := by
    rw [beq_iff_eq.mp h]
    rfl
  space := rfl

/-- The mandatory line breaks of Unicode. -/
def isHardBreak (c : Char) : Bool :=
  let n := c.toNat
  (10 ≤ n && n ≤ 13) || n == 0x85 || n == 0x2028 || n == 0x2029

theorem endsRows_hardBreak : EndsRows isHardBreak where
  feed := rfl
  blank {c} h := by
    simp only [isHardBreak, Bool.or_eq_true, Bool.and_eq_true, decide_eq_true_eq, beq_iff_eq] at h
    simp only [isBlank, Bool.or_eq_true, Bool.and_eq_true, decide_eq_true_eq, beq_iff_eq]
    omega
  space := rfl

/-- A text whose only whitespace is spaces. -/
def Flat (cs : List Char) : Prop := ∀ c ∈ cs, isBlank c = true → c = ' '

theorem Flat.append {cs ds : List Char} (hcs : Flat cs) (hds : Flat ds) : Flat (cs ++ ds) :=
  fun c hc => (List.mem_append.mp hc).elim (hcs c) (hds c)

theorem Flat.sublist {cs ds : List Char} (h : Flat ds) (hsub : cs.Sublist ds) : Flat cs :=
  fun c hc => h c (hsub.subset hc)

theorem flat_literal {cs : List Char} (h : cs.all (fun c => !isBlank c || c == ' ') = true) :
    Flat cs := by
  intro c hc hblank
  have hc' := List.all_eq_true.mp h c hc
  simpa [hblank] using hc'

theorem flat_of_no_blank {cs : List Char} (h : ∀ c ∈ cs, isBlank c = false) : Flat cs :=
  fun c hc hblank => by
    rw [h c hc] at hblank
    cases hblank

variable (ends : Char → Bool)

/-- The rows of a text, the one after the last break included. -/
def rows (s : String) : List String := (s.toList.splitOnP ends).map String.ofList

/-- A text has one row more than it has breaks. -/
theorem length_rows (s : String) : (rows ends s).length = s.toList.countP ends + 1 := by
  rw [rows, List.length_map]
  induction s.toList with
  | nil => rfl
  | cons c cs ih =>
    rw [List.splitOnP_cons_eq_if_modifyHead, List.countP_cons]
    split
    · rw [List.length_cons, ih]
    · rw [List.length_modifyHead, ih]

theorem rows_ne_nil (s : String) : rows ends s ≠ [] := by
  simp [rows]

variable {ends}

theorem rows_of_no_end {s : String} (h : ∀ c ∈ s.toList, ends c = false) : rows ends s = [s] := by
  rw [rows, List.splitOnP_eq_singleton h, List.map_singleton, String.ofList_toList]

theorem rows_append_feed (h : EndsRows ends) (s t : String) :
    rows ends (s ++ "\n" ++ t) = rows ends s ++ rows ends t := by
  have hchars : (s ++ "\n" ++ t).toList = s.toList ++ '\n' :: t.toList := by simp
  rw [rows, hchars, List.splitOnP_append_cons _ _ h.feed, List.map_append]
  rfl

/-- The rows of texts that each end with a line feed, and of the text after them. -/
theorem rows_joined (h : EndsRows ends) (ls : List String) (t : String) :
    rows ends (String.join (ls.map (· ++ "\n")) ++ t) = ls.flatMap (rows ends) ++ rows ends t := by
  induction ls with
  | nil => simp
  | cons l ls ih =>
    rw [List.map_cons, String.join_cons, String.append_assoc, rows_append_feed h, ih,
      List.flatMap_cons, List.append_assoc]

/-- Lines that are one row each. -/
theorem flatMap_rows {ls : List String} (h : ∀ l ∈ ls, rows ends l = [l]) :
    ls.flatMap (rows ends) = ls := by
  induction ls with
  | nil => rfl
  | cons l ls ih =>
    obtain ⟨hfirst, hrest⟩ := List.forall_mem_cons.mp h
    rw [List.flatMap_cons, hfirst, ih hrest]
    rfl

/-- Lines have a row each, and one more for each break in them. -/
theorem length_flatMap_rows (ls : List String) :
    (ls.flatMap (rows ends)).length = ls.length + (ls.map fun l => l.toList.countP ends).sum := by
  induction ls with
  | nil => rfl
  | cons l ls ih =>
    rw [List.flatMap_cons, List.length_append, length_rows, ih, List.length_cons, List.map_cons,
      List.sum_cons]
    omega

/-- Lines have a row each if and only if there is no break in them. -/
theorem length_flatMap_rows_eq_iff {ls : List String} :
    (ls.flatMap (rows ends)).length = ls.length ↔ ∀ l ∈ ls, ∀ c ∈ l.toList, ends c = false := by
  rw [length_flatMap_rows, Nat.add_eq_left, List.sum_eq_zero_iff_forall_eq_nat, List.forall_mem_map]
  simp only [List.countP_eq_zero, Bool.not_eq_true]

/-- The rows of lines that each end with a line feed, with the empty one after the last. -/
theorem rows_lines (h : EndsRows ends) (ls : List String) :
    rows ends (String.join (ls.map (· ++ "\n"))) = ls.flatMap (rows ends) ++ [""] := by
  have hjoined := rows_joined h ls ""
  rwa [String.append_empty] at hjoined

/-- A reader finds as many rows as there are lines if and only if they are the lines, and there is
no break in them. -/
theorem rows_lines_eq_iff (h : EndsRows ends) {ls found : List String}
    (hlength : found.length = ls.length) :
    rows ends (String.join (ls.map (· ++ "\n"))) = found ++ [""] ↔
      ls = found ∧ ∀ l ∈ ls, ∀ c ∈ l.toList, ends c = false := by
  have hwhole (hnone : ∀ l ∈ ls, ∀ c ∈ l.toList, ends c = false) : ls.flatMap (rows ends) = ls :=
    flatMap_rows fun l hl => rows_of_no_end (hnone l hl)
  rw [rows_lines h, List.append_cancel_right_eq]
  constructor
  · intro hrows
    have hnone := length_flatMap_rows_eq_iff.mp ((congrArg List.length hrows).trans hlength)
    exact ⟨(hwhole hnone).symm.trans hrows, hnone⟩
  · rintro ⟨rfl, hnone⟩
    exact hwhole hnone

theorem Flat.no_end (h : EndsRows ends) {cs : List Char} (hcs : Flat cs) :
    ∀ c ∈ cs, ends c = false := by
  intro c hc
  cases hend : ends c with
  | false => rfl
  | true => rw [← hend, hcs c hc (h.blank hend), h.space]

theorem countP_flat (h : EndsRows ends) {s : String} (hs : Flat s.toList) :
    s.toList.countP ends = 0 :=
  List.countP_eq_zero.mpr fun c hc => by simp [hs.no_end h c hc]

/-- **A text whose only whitespace is spaces is one row for every reader.** -/
theorem Flat.rows_eq (h : EndsRows ends) {s : String} (hs : Flat s.toList) : rows ends s = [s] :=
  rows_of_no_end (hs.no_end h)

end ChainAgent.Text
