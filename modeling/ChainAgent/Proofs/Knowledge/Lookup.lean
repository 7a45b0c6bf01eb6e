import ChainAgent.Knowledge.Binding
import ChainAgent.Proofs.Text.Blank
import ChainAgent.Proofs.Text.Lowercase
import ChainAgent.Proofs.Text.Redaction

/-! Lookups in the static knowledge source.

A lookup gives the first snippets that match a goal and an action, up to the limit, and blank
snippets do not count (`lookup_present`). A snippet matches every text that contains one of its
keywords or tags literally, if that keyword determines the lowercase of its capital sigmas: in Greek
a capital sigma at the end of a word becomes a final sigma. A keyword that does not, such as ΟΔΟΣ,
fails to match some text that contains it (`lookup_literal`). -/
namespace ChainAgent.Knowledge

open Text (trim saysNothing IsSettled)

/-- Whether a snippet is not blank and matches a goal and an action. -/
def Snippet.isAbout (s : Snippet) (goal action : String) : Bool :=
  !saysNothing s.content && s.answers (folded goal) (folded action)

def Snippet.card (s : Snippet) : Card := ⟨s.title, s.content⟩

/-- A keyword that is not blank and occurs in a text literally, in the same case. -/
def Literal (word text : String) : Prop :=
  trim word ≠ "" ∧ (trim word).toList <:+: text.toList

/-! ### Words -/

theorem stands_iff {word text : String} :
    stands word (folded text) = true ↔ trim word ≠ "" ∧
      Text.lowerChars (trim word).toList <:+: Text.lowerChars text.toList := by
  have hempty : (folded (trim word)).isEmpty = false ↔ trim word ≠ "" := by
    rw [folded, Text.lower, String.toList_ofList, List.isEmpty_eq_false_iff]
    exact ⟨fun h hword => h (by rw [hword]; rfl), fun h => Text.lowerChars_ne_nil (by simpa using h)⟩
  have hoccurs : Text.occurs (folded (trim word)) (folded text) = true ↔
      Text.lowerChars (trim word).toList <:+: Text.lowerChars text.toList := by
    rw [Text.occurs_iff, folded, folded, Text.lower, Text.lower, String.toList_ofList,
      String.toList_ofList]
  rw [stands, Bool.and_eq_true, Bool.not_eq_true', hempty, hoccurs]

/-- A keyword matches every text that contains it if and only if it determines the lowercase of its
capital sigmas. -/
theorem forall_stands_iff {word : String} (hword : trim word ≠ "") :
    (∀ text, Literal word text → stands word (folded text) = true) ↔
      IsSettled (trim word).toList := by
  rw [← Text.forall_lower_infix_iff]
  constructor
  · intro h text htext
    have hfound := h (String.ofList text) ⟨hword, by rwa [String.toList_ofList]⟩
    rw [stands_iff, String.toList_ofList] at hfound
    exact hfound.2
  · intro h text htext
    exact stands_iff.mpr ⟨hword, h text.toList htext.2⟩

/-! ### Snippets -/

theorem isAbout_iff {s : Snippet} {goal action : String} :
    s.isAbout goal action = true ↔ saysNothing s.content = false ∧ (s.keywords = [] ∨
      ∃ word ∈ s.keywords ++ s.tags,
        stands word (folded goal) = true ∨ stands word (folded action) = true) := by
  rw [Snippet.isAbout, Snippet.answers, Bool.and_eq_true, Bool.not_eq_true', Bool.or_eq_true,
    List.isEmpty_iff, List.any_eq_true]
  simp only [Bool.or_eq_true]

/-- No keyword occurs in an empty text. -/
theorem stands_empty (word : String) : stands word (folded "") = false := by
  rw [← Bool.not_eq_true, stands_iff]
  rintro ⟨hword, hinfix⟩
  have hnone : Text.lowerChars (trim word).toList = [] := List.infix_nil.mp hinfix
  exact Text.lowerChars_ne_nil (by simpa using hword) hnone

/-- The cards of a lookup pass the binding: none is blank, and there are no more than the limit. -/
theorem usable_lookup (c : Catalogue) (goal action : String) :
    Binding.usable c.maxResults (c.lookup goal action) =
      ((c.snippets.filter (·.isAbout goal action)).take c.maxResults).map Snippet.card := by
  have hfilled : ∀ card ∈ c.lookup goal action, (!saysNothing card.content) = true := by
    intro card hcard
    obtain ⟨s, hs, rfl⟩ := List.mem_map.mp hcard
    have habout := (List.mem_filter.mp (List.mem_of_mem_take hs)).2
    exact (Bool.and_eq_true_iff.mp habout).1
  rw [Binding.usable, List.filter_eq_self.mpr hfilled, Catalogue.lookup, ← List.map_take,
    List.take_take, Nat.min_self]
  rfl

theorem lookup_present {m : Type → Type} [Monad m] [LawfulMonad m] (c : Catalogue)
    (goal action : String) :
    Binding.lookup goal action (.present (c.source (m := m))) =
      pure (.done (.ok (((c.snippets.filter (·.isAbout goal action)).take c.maxResults).map
        Snippet.card))) := by
  rw [← usable_lookup]
  unfold Binding.lookup
  dsimp only [Catalogue.source]
  split
  · rename_i hzero
    rw [beq_iff_eq] at hzero
    rw [hzero]
    rfl
  · rw [pure_bind]
    rfl

/-- **A lookup misses no keyword that is settled**, that is, whose capital sigmas have the same
lowercase letter in every context. It gives the first snippets, in their order, that are not blank
and match the goal or the action. A snippet without keywords matches everything; any other one
matches each text that contains one of its settled keywords or tags literally. A keyword that is not
settled, such as ΟΔΟΣ, fails to match some text that contains it. -/
theorem lookup_literal {m : Type → Type} [Monad m] [LawfulMonad m] (c : Catalogue) :
    (∀ goal action, Binding.lookup goal action (.present (c.source (m := m))) =
      pure (.done (.ok (((c.snippets.filter (·.isAbout goal action)).take c.maxResults).map
        Snippet.card)))) ∧
    (∀ (s : Snippet) goal action, s.isAbout goal action = true → saysNothing s.content = false) ∧
    (∀ (s : Snippet) goal action, saysNothing s.content = false → s.keywords = [] →
      s.isAbout goal action = true) ∧
    (∀ (s : Snippet) goal action, saysNothing s.content = false →
      (∃ word ∈ s.keywords ++ s.tags, (Literal word goal ∨ Literal word action) ∧
        IsSettled (trim word).toList) → s.isAbout goal action = true) ∧
    (∀ (s : Snippet) word, saysNothing s.content = false → s.keywords = [word] → s.tags = [] →
      trim word ≠ "" → ((∀ goal, Literal word goal → s.isAbout goal "" = true) ↔
        IsSettled (trim word).toList)) := by
  refine ⟨lookup_present c, fun s goal action h => (isAbout_iff.mp h).1,
    fun s goal action hfilled hnone => isAbout_iff.mpr ⟨hfilled, .inl hnone⟩, ?_, ?_⟩
  · rintro s goal action hfilled ⟨word, hword, hliteral, hsettled⟩
    refine isAbout_iff.mpr ⟨hfilled, .inr ⟨word, hword, ?_⟩⟩
    obtain hgoal | haction := hliteral
    · exact .inl ((forall_stands_iff hgoal.1).mpr hsettled goal hgoal)
    · exact .inr ((forall_stands_iff haction.1).mpr hsettled action haction)
  · intro s word hfilled hkeywords htags hword
    rw [← forall_stands_iff hword]
    have habout (goal : String) :
        s.isAbout goal "" = true ↔ stands word (folded goal) = true := by
      rw [isAbout_iff, hkeywords, htags]
      simp [hfilled, stands_empty]
    simp only [habout]

/-- The keyword ΟΔΟΣ does not match the goal ΟΔΟΣΗΜΟ, GAS that begins with it: alone it ends in a
final sigma when it is lowercased, and inside the longer word it does not. -/
theorem lookup_literal_sigma :
    let roads : Snippet := ⟨"roads", "on roads", ["ΟΔΟΣ"], []⟩
    let gas : Snippet := ⟨"gas", "on gas", ["Gas"], []⟩
    let c : Catalogue := ⟨[roads, gas], 3⟩
    LawfulMonad Id ∧ Literal "ΟΔΟΣ" "ΟΔΟΣΗΜΟ, GAS" ∧ ¬ IsSettled (trim "ΟΔΟΣ").toList ∧
      Binding.lookup "ΟΔΟΣΗΜΟ, GAS" "" (.present (c.source (m := Id))) =
        pure (.done (.ok [gas.card])) ∧
      gas.isAbout "no Gas" "" = true := by
  intro roads gas c
  have hword : trim "ΟΔΟΣ" = "ΟΔΟΣ" := by decide +kernel
  have hopen : ¬ IsSettled (trim "ΟΔΟΣ").toList := fun h =>
    absurd (h ['Ο', 'Δ', 'Ο'] [] (by rw [hword]; rfl)) (by decide +kernel)
  have hliteral : Literal "ΟΔΟΣ" "ΟΔΟΣΗΜΟ, GAS" := by
    refine ⟨by decide +kernel, ?_⟩
    rw [hword]
    decide +kernel
  obtain ⟨hlookup, -, -, hfound, -⟩ := lookup_literal (m := Id) c
  have habout : (c.snippets.filter (·.isAbout "ΟΔΟΣΗΜΟ, GAS" "")).take c.maxResults = [gas] := by
    decide +kernel
  refine ⟨inferInstance, hliteral, hopen, ?_, ?_⟩
  · rw [hlookup, habout]
    rfl
  · refine hfound gas "no Gas" "" (by decide) ⟨"Gas", List.mem_singleton_self _, .inl ?_, ?_⟩
    · exact ⟨by decide, ['n', 'o', ' '], [], by decide⟩
    · exact Text.isSettled_of_not_mem (by decide)

end ChainAgent.Knowledge
