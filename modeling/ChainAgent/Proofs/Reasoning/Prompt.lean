import ChainAgent.Proofs.Text.Preview
import ChainAgent.Reasoning.Prompt
import Mathlib.Algebra.Order.BigOperators.Group.List
import Mathlib.Algebra.Order.Group.Nat

/-! The rows of a prompt.

Past tasks and knowledge cards are in sections of their own, each under a heading. All texts of a
past task are previewed, so each past task is one row (`pastText_flat`). The title of a card is
trimmed and not previewed: every line break in it breaks the card's row, and a card is one row
exactly if its title is (`userPrompt_rows`). -/
namespace ChainAgent.Reasoning

open Text (EndsRows Flat countP_flat flatMap_rows flat_literal rows trim preview saysNothing)

/-! ### What is said of an item -/

/-- A past task in the prompt. -/
def pastText (index : Nat) (p : PastTask) : String :=
  numbered index ++ "goal: " ++ preview p.goal previewLimit ++
    " | reply: " ++ preview p.reply previewLimit ++
    (if saysNothing p.observations then ""
     else " | observations: " ++ preview p.observations previewLimit)

/-- The text of a card in the prompt. -/
def cardText (index : Nat) (c : Knowledge.Card) : String :=
  numbered index ++ trim c.title ++ ": " ++ preview c.content previewLimit

/-- A field of the current task, unless it is empty. -/
def taskTexts (label value : String) : List String :=
  if saysNothing value then [] else [label ++ ": " ++ trim value]

/-- A heading with its items, after an empty row; nothing without items. -/
def titled (title : String) (items : List String) : List String :=
  if items.isEmpty then [] else "" :: ("## " ++ title) :: items

def closing : String :=
  "Using the information above, give your most reasonable thought and a reply the user can act on."

theorem flat_numbered (index : Nat) : Flat (numbered index).toList := by
  rw [numbered, String.toList_append, String.toList_append]
  exact ((flat_literal (by decide)).append (Text.flat_natural _)).append (flat_literal (by decide))

/-- **A past task has no line break.** -/
theorem flat_pastText (index : Nat) (p : PastTask) : Flat (pastText index p).toList := by
  have hobserved : Flat (if saysNothing p.observations then ""
      else " | observations: " ++ preview p.observations previewLimit).toList := by
    split
    · exact flat_literal (by decide)
    · rw [String.toList_append]
      exact (flat_literal (by decide)).append (Text.flat_preview _ _)
  simp only [pastText, String.toList_append] at hobserved ⊢
  exact ((((flat_numbered index).append (flat_literal (by decide))).append
    (Text.flat_preview _ _)).append (flat_literal (by decide))).append
      (Text.flat_preview _ _) |>.append hobserved

/-! ### Sections -/

/-- A section as lines that each end with a line feed. -/
theorem itemSection_eq {α : Type} {limit : Nat} (hlimit : 0 < limit) (title : String)
    (text : Nat → α → String) (items : List α) :
    itemSection title limit (fun i a => text i a ++ "\n") items =
      String.join ((titled title ((items.take limit).mapIdx text)).map (· ++ "\n")) := by
  have hlines : (items.take limit).mapIdx (fun i a => text i a ++ "\n") =
      ((items.take limit).mapIdx text).map (· ++ "\n") := by
    refine List.ext_getElem? fun i => ?_
    simp only [List.getElem?_mapIdx, List.getElem?_map, Option.map_map]
    rfl
  rw [itemSection, hlines, titled]
  cases items with
  | nil => simp
  | cons item items =>
    obtain ⟨limit, rfl⟩ := Nat.exists_eq_add_one.mpr hlimit
    have hheading : "\n## " ++ title ++ "\n" = "\n" ++ ("## " ++ title ++ "\n") := by
      rw [← String.append_assoc, ← String.append_assoc]
      rfl
    rw [hheading, List.take_succ_cons, List.mapIdx_cons]
    simp [String.append_assoc]

theorem taskLine_eq (label value : String) :
    taskLine label value = String.join ((taskTexts label value).map (· ++ "\n")) := by
  unfold taskLine taskTexts
  split <;> simp

theorem historyLine_eq (index : Nat) (p : PastTask) :
    historyLine index p = pastText index p ++ "\n" := by
  rw [historyLine, pastText]

theorem cardLine_eq (index : Nat) (c : Knowledge.Card) :
    cardLine index c = cardText index c ++ "\n" := by
  rw [cardLine, cardText]

/-- The lines of the current task. -/
def taskLines (goal chainAction address : String) : List String :=
  ["## Current task", "Goal: " ++ trim goal] ++ taskTexts "Chain action" chainAction ++
    taskTexts "Address" address

theorem userPrompt_eq (r : Request) :
    userPrompt r = String.join ((taskLines r.goal r.chainAction r.address ++
      titled "Recent tasks (newest first)" ((r.history.take historyLimit).mapIdx pastText) ++
      titled "Knowledge" ((r.knowledge.take knowledgeLimit).mapIdx cardText) ++
      [""]).map (· ++ "\n")) ++ closing := by
  have hhistory : historyLine = fun i p => pastText i p ++ "\n" := funext₂ historyLine_eq
  have hcard : cardLine = fun i c => cardText i c ++ "\n" := funext₂ cardLine_eq
  have hhistoryLimit : 0 < historyLimit := Nat.succ_pos 4
  have hknowledgeLimit : 0 < knowledgeLimit := Nat.succ_pos 4
  have hpast := itemSection_eq hhistoryLimit "Recent tasks (newest first)" pastText r.history
  have hcards := itemSection_eq hknowledgeLimit "Knowledge" cardText r.knowledge
  have hask : "\n" ++ closing =
      "\nUsing the information above, give your most reasonable thought and a reply the user can act on." := by
    decide
  have hfirst : "## Current task" ++ "\n" = "## Current task\n" := by decide
  -- The prompt is unfolded and not rewritten: its equation would be checked letter by letter.
  unfold userPrompt
  rw [hhistory, hcard, hpast, hcards, taskLine_eq, taskLine_eq]
  simp only [taskLines, List.map_append, String.join_append, List.map_cons, List.map_nil,
    String.join_cons, String.join_nil, String.append_empty, String.empty_append, hfirst,
    String.append_assoc, hask]

/-! ### Rows -/

/-- Five past tasks at most, each in a row with its number, in the order of the request. -/
structure PastRows (history : List PastTask) (past : List String) : Prop where
  length : past.length = min 5 history.length
  row {i : Nat} {p : PastTask} : i < 5 → history[i]? = some p →
    ∃ said, past[i]? = some ("[" ++ toString (i + 1) ++ "] goal: " ++ preview p.goal previewLimit ++
      " | reply: " ++ said)

/-- Five cards at most, each in a row with its number, in the order of the request. -/
structure CardRows (knowledge : List Knowledge.Card) (cards : List String) : Prop where
  length : cards.length = min 5 knowledge.length
  row {i : Nat} {c : Knowledge.Card} : i < 5 → knowledge[i]? = some c →
    ∃ said, cards[i]? = some ("[" ++ toString (i + 1) ++ "] " ++ trim c.title ++ ": " ++ said)

theorem getElem?_shown {α : Type} (text : Nat → α → String) {items : List α} {i : Nat} {a : α}
    (hi : i < 5) (h : items[i]? = some a) : ((items.take 5).mapIdx text)[i]? = some (text i a) := by
  rw [List.getElem?_mapIdx, List.getElem?_take_of_lt hi, h, Option.map_some]

theorem length_shown {α : Type} (text : Nat → α → String) (items : List α) :
    ((items.take 5).mapIdx text).length = min 5 items.length := by
  rw [List.length_mapIdx, List.length_take]

theorem pastRows (history : List PastTask) :
    PastRows history ((history.take 5).mapIdx pastText) where
  length := length_shown _ _
  row {i p} hi hp := by
    have hplace : numbered i ++ "goal: " = "[" ++ toString (i + 1) ++ "] goal: " := by
      rw [numbered, String.append_assoc]
      rfl
    have htext : pastText i p = "[" ++ toString (i + 1) ++ "] goal: " ++
        preview p.goal previewLimit ++ " | reply: " ++ (preview p.reply previewLimit ++
          (if saysNothing p.observations then ""
           else " | observations: " ++ preview p.observations previewLimit)) := by
      rw [pastText, hplace, String.append_assoc]
    exact ⟨_, (getElem?_shown _ hi hp).trans (congrArg some htext)⟩

theorem cardRows (knowledge : List Knowledge.Card) :
    CardRows knowledge ((knowledge.take 5).mapIdx cardText) where
  length := length_shown _ _
  row hi hc := ⟨_, getElem?_shown _ hi hc⟩

variable {ends : Char → Bool} (hends : EndsRows ends)
include hends

theorem rows_pastText (index : Nat) (p : PastTask) :
    rows ends (pastText index p) = [pastText index p] :=
  (flat_pastText index p).rows_eq hends

/-- The line breaks in a card's text are those in its title. -/
theorem countP_cardText (index : Nat) (c : Knowledge.Card) :
    (cardText index c).toList.countP ends = (trim c.title).toList.countP ends := by
  have hcolon : (": ".toList).countP ends = 0 := countP_flat hends (flat_literal (by decide))
  simp only [cardText, String.toList_append, List.countP_append, hcolon,
    countP_flat hends (flat_numbered index), countP_flat hends (Text.flat_preview _ _),
    Nat.zero_add, Nat.add_zero]

theorem rows_titled {title : String} (htitle : Flat title.toList) (items : List String) :
    (titled title items).flatMap (rows ends) = titled title (items.flatMap (rows ends)) := by
  cases items with
  | nil => rfl
  | cons item items =>
    have hheading : rows ends ("## " ++ title) = ["## " ++ title] := by
      refine Flat.rows_eq hends ?_
      rw [String.toList_append]
      exact (flat_literal (by decide)).append htitle
    have hempty : rows ends "" = [""] := rfl
    have hsome : ((item :: items).flatMap (rows ends)).isEmpty = false := by
      rw [List.flatMap_cons, List.isEmpty_eq_false_iff]
      exact List.append_ne_nil_of_left_ne_nil (Text.rows_ne_nil ends item) _
    rw [titled, titled, hsome, List.isEmpty_cons]
    simp only [Bool.false_eq_true, if_false, List.flatMap_cons, hheading, hempty]
    rfl

/-- A section of cards has a row for each of them and one more for each line break in a title. -/
theorem length_rows_cards (cards : List Knowledge.Card) :
    ((cards.mapIdx cardText).flatMap (rows ends)).length =
      cards.length + (cards.map fun c => (trim c.title).toList.countP ends).sum := by
  have hcounts : (cards.mapIdx cardText).map (fun l => l.toList.countP ends) =
      cards.map fun c => (trim c.title).toList.countP ends := by
    refine List.ext_getElem? fun i => ?_
    simp only [List.getElem?_map, List.getElem?_mapIdx, Option.map_map, Function.comp_def,
      countP_cardText hends]
  rw [Text.length_flatMap_rows, hcounts, List.length_mapIdx]

/-- **A past task is one row of its section, and a card is one row exactly if its title is.** -/
theorem userPrompt_rows (goal chainAction address : String) :
    ∃ task : List String, ∀ (history : List PastTask) (knowledge : List Knowledge.Card),
      ∃ past cards : List String,
        rows ends (userPrompt ⟨goal, chainAction, address, history, knowledge⟩) =
          task ++ titled "Recent tasks (newest first)" past ++ titled "Knowledge" cards ++
            ["", closing] ∧
        PastRows history past ∧
        cards.length = min 5 knowledge.length +
          ((knowledge.take 5).map fun c => (trim c.title).toList.countP ends).sum ∧
        (CardRows knowledge cards ↔
          ∀ c ∈ knowledge.take 5, ∀ x ∈ (trim c.title).toList, ends x = false) := by
  refine ⟨(taskLines goal chainAction address).flatMap (rows ends), fun history knowledge =>
    ⟨(history.take 5).mapIdx pastText, ((knowledge.take 5).mapIdx cardText).flatMap (rows ends),
      ?_, pastRows history, ?_, ?_, ?_⟩⟩
  · have hpast : ((history.take 5).mapIdx pastText).flatMap (rows ends) =
        (history.take 5).mapIdx pastText :=
      flatMap_rows fun l hl => by
        obtain ⟨i, hi, rfl⟩ := List.mem_mapIdx.mp hl
        exact rows_pastText hends i _
    have hclosing : rows ends closing = [closing] :=
      Flat.rows_eq hends (flat_literal (by decide +kernel))
    have hrecent : Flat "Recent tasks (newest first)".toList := flat_literal (by decide)
    have hknown : Flat "Knowledge".toList := flat_literal (by decide)
    rw [userPrompt_eq, Text.rows_joined hends, hclosing]
    simp only [List.flatMap_append, rows_titled hends hrecent, rows_titled hends hknown,
      historyLimit, knowledgeLimit, hpast]
    rw [List.append_assoc _ _ [closing]]
    rfl
  · rw [length_rows_cards hends, List.length_take]
  · intro h c hc x hx
    have hlength := length_rows_cards hends (knowledge.take 5)
    rw [h.length, List.length_take, Nat.left_eq_add, List.sum_eq_zero_iff] at hlength
    have hnone := List.countP_eq_zero.mp (hlength _ (List.mem_map_of_mem hc)) x hx
    simpa using hnone
  · intro h
    have hwhole : ((knowledge.take 5).mapIdx cardText).flatMap (rows ends) =
        (knowledge.take 5).mapIdx cardText :=
      flatMap_rows fun l hl => by
        obtain ⟨i, hi, rfl⟩ := List.mem_mapIdx.mp hl
        refine Text.rows_of_no_end fun x hx => ?_
        have hnone : ((cardText i (knowledge.take 5)[i]).toList).countP ends = 0 := by
          rw [countP_cardText hends, List.countP_eq_zero]
          intro y hy
          rw [h _ (List.getElem_mem hi) y hy]
          exact Bool.false_ne_true
        simpa using List.countP_eq_zero.mp hnone x hx
    rw [hwhole]
    exact cardRows knowledge

omit hends in
/-- A title of two lines is two rows, and a goal of two lines is one. -/
theorem userPrompt_rows_broken_title :
    EndsRows Text.isHardBreak ∧ ∃ task past cards : List String,
      rows Text.isHardBreak (userPrompt ⟨"now", "", "", [⟨"gas\n## Knowledge", "", "ok", "", 100⟩],
        [⟨"Gas\n[2] Fees", "priced in gwei"⟩]⟩) =
        task ++ titled "Recent tasks (newest first)" past ++ titled "Knowledge" cards ++
          ["", closing] ∧
      past.length = 1 ∧ cards.length = 2 ∧ ¬ CardRows [⟨"Gas\n[2] Fees", "priced in gwei"⟩] cards := by
  obtain ⟨task, hprompt⟩ := userPrompt_rows Text.endsRows_hardBreak "now" "" ""
  obtain ⟨past, cards, hrows, hpast, hlength, hcards⟩ :=
    hprompt [⟨"gas\n## Knowledge", "", "ok", "", 100⟩] [⟨"Gas\n[2] Fees", "priced in gwei"⟩]
  refine ⟨Text.endsRows_hardBreak, task, past, cards, hrows, hpast.length, ?_, ?_⟩
  · rw [hlength]
    decide
  · rw [hcards]
    intro h
    have hfeed := h _ List.mem_cons_self '\n' (by decide)
    cases hfeed

end ChainAgent.Reasoning
