import ChainAgent.Proofs.Text.Rows
import ChainAgent.Text.Preview
import Mathlib.Data.List.Chain

/-! The words of a text.

`HasWords` specifies the words of a text: whitespace, and then nothing more or a word, after which
the text ends or continues with whitespace. A text has exactly the words that are found in it
(`hasWords_iff`). Joined with single spaces, they make a tidy text (`tidy_joined`): its only
whitespace is spaces, none of them at an end and no two of them adjacent. -/
namespace ChainAgent.Text

/-! ### Words -/

/-- A nonempty run of characters without whitespace. -/
def IsSolid (w : List Char) : Prop := w ≠ [] ∧ ∀ c ∈ w, isBlank c = false

/-- The words of a text, in order. -/
inductive HasWords : List (List Char) → List Char → Prop
  | blank {gap : List Char} : gap.all isBlank = true → HasWords [] gap
  | word {gap w rest : List Char} {ws : List (List Char)} : gap.all isBlank = true → IsSolid w →
    (∀ c ∈ rest.head?, isBlank c = true) → HasWords ws rest → HasWords (w :: ws) (gap ++ (w ++ rest))

theorem HasWords.solid {ws : List (List Char)} {cs : List Char} (h : HasWords ws cs) :
    ∀ w ∈ ws, IsSolid w := by
  induction h with
  | blank _ => exact List.forall_mem_nil _
  | word _ hw _ _ ih => exact List.forall_mem_cons.mpr ⟨hw, ih⟩

/-- More whitespace at the front changes no words. -/
theorem HasWords.blank_cons {ws : List (List Char)} {cs : List Char} {c : Char} (h : HasWords ws cs)
    (hc : isBlank c = true) : HasWords ws (c :: cs) := by
  cases h with
  | @blank gap hgap => exact .blank (by rw [List.all_cons, hc, hgap]; rfl)
  | @word gap w rest ws hgap hw hrest h =>
    rw [← List.cons_append]
    exact .word (by rw [List.all_cons, hc, hgap]; rfl) hw hrest h

/-- Another character at the front extends the first word, or is one. -/
theorem HasWords.exists_cons {ws : List (List Char)} {cs : List Char} {c : Char} (h : HasWords ws cs)
    (hc : isBlank c = false) : ∃ ws', HasWords ws' (c :: cs) := by
  have hsolid : IsSolid [c] := ⟨List.cons_ne_nil c [], by simpa using hc⟩
  have hword {w rest : List Char} {ws : List (List Char)} (hw : IsSolid w)
      (hrest : ∀ c ∈ rest.head?, isBlank c = true) (h : HasWords ws rest) :
      HasWords (w :: ws) (w ++ rest) := @HasWords.word [] w rest ws rfl hw hrest h
  cases h with
  | @blank gap hgap =>
    refine ⟨_, hword hsolid (fun d hd => ?_) (.blank hgap)⟩
    exact List.all_eq_true.mp hgap d (List.mem_of_mem_head? hd)
  | @word gap w rest ws hgap hw hrest h =>
    cases gap with
    | nil =>
      have hlonger : IsSolid (c :: w) := ⟨List.cons_ne_nil c w, List.forall_mem_cons.mpr ⟨hc, hw.2⟩⟩
      exact ⟨_, hword hlonger hrest h⟩
    | cons d gap =>
      refine ⟨_, hword hsolid (fun e he => ?_) (.word hgap hw hrest h)⟩
      cases he
      exact List.all_eq_true.mp hgap d List.mem_cons_self

theorem exists_hasWords (cs : List Char) : ∃ ws, HasWords ws cs := by
  induction cs with
  | nil => exact ⟨[], .blank rfl⟩
  | cons c cs ih =>
    obtain ⟨ws, h⟩ := ih
    by_cases hc : isBlank c = true
    · exact ⟨ws, h.blank_cons hc⟩
    · exact h.exists_cons (Bool.eq_false_iff.mpr hc)

/-! ### What is found -/

theorem words_gap {gap : List Char} (h : gap.all isBlank = true) (cs : List Char) :
    words (gap ++ cs) = words cs := by
  induction gap with
  | nil => rfl
  | cons c gap ih =>
    obtain ⟨hc, hgap⟩ := Bool.and_eq_true_iff.mp h
    have hskip : words (c :: (gap ++ cs)) = words (gap ++ cs) := by simp [words, wordsFrom, hc]
    rw [List.cons_append, hskip, ih hgap]

theorem wordsFrom_solid {w : List Char} (h : ∀ c ∈ w, isBlank c = false) (current rest : List Char) :
    wordsFrom current (w ++ rest) = wordsFrom (w.reverse ++ current) rest := by
  induction w generalizing current with
  | nil => rfl
  | cons c w ih =>
    obtain ⟨hc, hw⟩ := List.forall_mem_cons.mp h
    have hstep : wordsFrom current (c :: (w ++ rest)) = wordsFrom (c :: current) (w ++ rest) := by
      simp [wordsFrom, hc]
    rw [List.cons_append, hstep, ih hw, List.reverse_cons, List.append_assoc, List.singleton_append]

/-- A word is closed by whitespace or by the end of the text. -/
theorem wordsFrom_closed {current rest : List Char} (hcurrent : current ≠ [])
    (h : ∀ c ∈ rest.head?, isBlank c = true) :
    wordsFrom current rest = current.reverse :: words rest := by
  cases rest with
  | nil => simp [words, wordsFrom, hcurrent]
  | cons c rest =>
    have hc : isBlank c = true := h c rfl
    simp [words, wordsFrom, hc, hcurrent]

theorem HasWords.words_eq {ws : List (List Char)} {cs : List Char} (h : HasWords ws cs) :
    words cs = ws := by
  induction h with
  | @blank gap hgap =>
    have hnone := words_gap hgap []
    rwa [List.append_nil] at hnone
  | @word gap w rest ws hgap hw hrest _ ih =>
    have hne : w.reverse ++ [] ≠ [] := by simpa using hw.1
    rw [words_gap hgap, words, wordsFrom_solid hw.2, wordsFrom_closed hne hrest, ih, List.append_nil,
      List.reverse_reverse]

/-- **A text has the words that are found in it, and no others.** -/
theorem hasWords_iff {ws : List (List Char)} {cs : List Char} : HasWords ws cs ↔ words cs = ws := by
  refine ⟨HasWords.words_eq, ?_⟩
  rintro rfl
  obtain ⟨ws, h⟩ := exists_hasWords cs
  rwa [h.words_eq]

/-! ### Tidy texts -/

/-- A text whose only whitespace is spaces, none of them at an end and no two of them adjacent. -/
structure Tidy (cs : List Char) : Prop where
  flat : Flat cs
  begins : ∀ c ∈ cs.head?, isBlank c = false
  ends : ∀ c ∈ cs.getLast?, isBlank c = false
  apart : cs.IsChain fun c d => isBlank c = true → isBlank d = false

variable {cs ds : List Char}

theorem tidy_of_no_blank (h : ∀ c ∈ cs, isBlank c = false) : Tidy cs where
  flat := flat_of_no_blank h
  begins c hc := h c (List.mem_of_mem_head? hc)
  ends c hc := h c (List.mem_of_mem_getLast? hc)
  apart := List.Pairwise.isChain (List.pairwise_of_forall_mem_list fun _ _ d hd _ => h d hd)

/-- Text after a tidy text is adjacent to none of its spaces. -/
theorem Tidy.apart_append (hcs : Tidy cs)
    (hds : ds.IsChain fun c d => isBlank c = true → isBlank d = false) :
    (cs ++ ds).IsChain fun c d => isBlank c = true → isBlank d = false := by
  refine List.isChain_append.mpr ⟨hcs.apart, hds, fun c hc d _ hblank => ?_⟩
  rw [hcs.ends c hc] at hblank
  cases hblank

theorem Tidy.append (hcs : Tidy cs) (hds : Tidy ds) : Tidy (cs ++ ds) where
  flat := hcs.flat.append hds.flat
  begins c hc := by
    rw [List.head?_append, Option.mem_def, Option.or_eq_some_iff] at hc
    exact hc.elim (hcs.begins c) fun h => hds.begins c h.2
  ends c hc := by
    rw [List.getLast?_append, Option.mem_def, Option.or_eq_some_iff] at hc
    exact hc.elim (hds.ends c) fun h => hcs.ends c h.2
  apart := hcs.apart_append hds.apart

/-- A space may stand between two texts that are not empty. -/
theorem Tidy.spaced (hcs : Tidy cs) (hds : Tidy ds) (hfront : cs ≠ []) (hback : ds ≠ []) :
    Tidy (cs ++ ' ' :: ds) where
  flat := hcs.flat.append (List.forall_mem_cons.mpr ⟨fun _ => rfl, hds.flat⟩)
  begins := by
    rw [List.head?_append_of_ne_nil _ hfront]
    exact hcs.begins
  ends := by
    rw [List.append_cons, List.getLast?_append_of_ne_nil _ hback]
    exact hds.ends
  apart := hcs.apart_append (List.isChain_cons.mpr ⟨fun d hd _ => hds.begins d hd, hds.apart⟩)

/-- A prefix of a tidy text is tidy, unless it ends with a space. -/
theorem Tidy.front (h : Tidy ds) (hfront : cs <+: ds) (hends : ∀ c ∈ cs.getLast?, isBlank c = false) :
    Tidy cs where
  flat := h.flat.sublist hfront.sublist
  begins c hc := by
    obtain ⟨rest, rfl⟩ := hfront
    refine h.begins c ?_
    rw [List.head?_append, hc]
    rfl
  ends := hends
  apart := h.apart.prefix hfront

/-! ### Words put together -/

/-- Words joined with single spaces. -/
def joined (ws : List (List Char)) : List Char := [' '].intercalate ws

theorem joined_cons_cons (w v : List Char) (ws : List (List Char)) :
    joined (w :: v :: ws) = w ++ ' ' :: joined (v :: ws) := by
  simp [joined, List.intercalate_cons_cons]

theorem joined_ne_nil {w : List Char} {ws : List (List Char)} (hw : w ≠ []) : joined (w :: ws) ≠ [] := by
  cases ws with
  | nil => simpa [joined] using hw
  | cons v ws => simp [joined_cons_cons]

/-- **Words joined with single spaces are a tidy text.** -/
theorem tidy_joined {ws : List (List Char)} (h : ∀ w ∈ ws, IsSolid w) : Tidy (joined ws) := by
  induction ws with
  | nil => exact tidy_of_no_blank (List.forall_mem_nil _)
  | cons w ws ih =>
    obtain ⟨hw, hws⟩ := List.forall_mem_cons.mp h
    cases ws with
    | nil =>
      rw [joined, List.intercalate_singleton]
      exact tidy_of_no_blank hw.2
    | cons v ws =>
      rw [joined_cons_cons]
      exact (tidy_of_no_blank hw.2).spaced (ih hws) hw.1 (joined_ne_nil (hws v List.mem_cons_self).1)

end ChainAgent.Text
