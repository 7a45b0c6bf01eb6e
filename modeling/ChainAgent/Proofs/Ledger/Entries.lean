import ChainAgent.Proofs.Ledger.Replay

/-! Records among other lines.

A log may have other lines between its records, and is replayed line by line. The record of a task
is one line and is replayed as that task, whatever its texts are. The other lines are skipped if and
only if none of them is a record with surrounding whitespace (`replay_entries`). Whitespace is
trimmed as in any text: a record after a no-break space, which is no JSON whitespace, is malformed
JSON and is replayed nevertheless (`replay_padded`). -/
namespace ChainAgent.Ledger.Journal

open Text (saysNothing)

/-! ### Logs of entries -/

/-- A line of a log: the record of a task, or any other text on one line. -/
inductive Entry where
  | record (t : Task)
  | other (text : String) (single : '\n' ∉ text.toList)

namespace Entry

def line : Entry → String
  | record t => t.line
  | other text _ => text

/-- The task of an entry. -/
def task? : Entry → Option Task
  | record t => some t
  | other _ _ => none

theorem newline_not_mem_line (e : Entry) : '\n' ∉ e.line.toList := by
  cases e with
  | record t => exact t.newline_not_mem_line
  | other text single => exact single

end Entry

/-- The log of these entries, each on a line of its own. -/
def textOf (es : List Entry) : String := String.join ((es.map Entry.line).map (· ++ "\n"))

theorem replay_textOf (es : List Entry) :
    replay (textOf es) = es.filterMap fun e => ofLine? e.line := by
  have hsingle : ∀ l ∈ es.map Entry.line, '\n' ∉ l.toList :=
    List.forall_mem_map.mpr fun e _ => e.newline_not_mem_line
  have hlast : [""].filterMap ofLine? = [] := List.filterMap_cons_none (ofLine?_blank rfl)
  rw [replay, textOf, Text.lines_join hsingle, List.filterMap_append, List.filterMap_map, hlast,
    List.append_nil]
  rfl

/-! ### What is found on every line -/

section Found

variable {α β : Type} {f g : α → Option β} {l : List α}

theorem filterMap_sublist (h : ∀ a ∈ l, ∀ b, g a = some b → f a = some b) :
    (l.filterMap g).Sublist (l.filterMap f) := by
  induction l with
  | nil => exact List.Sublist.refl []
  | cons a l ih =>
    obtain ⟨ha, hl⟩ := List.forall_mem_cons.mp h
    cases hg : g a with
    | some b =>
      rw [List.filterMap_cons_some hg, List.filterMap_cons_some (ha b hg)]
      exact (ih hl).cons_cons b
    | none =>
      rw [List.filterMap_cons_none hg]
      cases hf : f a with
      | some c =>
        rw [List.filterMap_cons_some hf]
        exact (ih hl).cons c
      | none =>
        rw [List.filterMap_cons_none hf]
        exact ih hl

/-- If one partial function refines another and both have the same results on a list, they agree on
it. -/
theorem filterMap_eq_iff (h : ∀ a ∈ l, ∀ b, g a = some b → f a = some b) :
    l.filterMap f = l.filterMap g ↔ ∀ a ∈ l, f a = g a := by
  refine ⟨fun heq => ?_, List.filterMap_congr⟩
  induction l with
  | nil => exact List.forall_mem_nil _
  | cons a l ih =>
    obtain ⟨ha, hl⟩ := List.forall_mem_cons.mp h
    refine List.forall_mem_cons.mpr ?_
    cases hg : g a with
    | some b =>
      rw [List.filterMap_cons_some hg, List.filterMap_cons_some (ha b hg), List.cons.injEq] at heq
      exact ⟨ha b hg, ih hl heq.2⟩
    | none =>
      rw [List.filterMap_cons_none hg] at heq
      cases hf : f a with
      | some c =>
        -- one more is found here, and nowhere less
        have hle := (filterMap_sublist hl).length_le
        rw [List.filterMap_cons_some hf] at heq
        rw [← heq, List.length_cons] at hle
        omega
      | none =>
        rw [List.filterMap_cons_none hf] at heq
        exact ⟨rfl, ih hl heq⟩

end Found

/-! ### Replaying -/

theorem ofLine?_record (t : Task) : ofLine? t.line = some t :=
  ofLine?_eq_some_iff.mpr ⟨"", t.line, "", rfl, rfl, by simp, t.ofText?_line⟩

/-- **Exactly the records of a log are replayed if and only if no other line is a record with
surrounding whitespace.** -/
theorem replay_entries (es : List Entry) :
    (∀ t ∈ es.filterMap Entry.task?, '\n' ∉ t.line.toList) ∧
      replay (logOf (es.filterMap Entry.task?)) = es.filterMap Entry.task? ∧
      (replay (textOf es) = es.filterMap Entry.task? ↔
        ∀ text single, .other text single ∈ es → saysNothing text = true ∨ ∀ t, ¬ Holds text t) := by
  refine ⟨fun t _ => t.newline_not_mem_line, replay_logOf _, ?_⟩
  have hrecords : ∀ e ∈ es, ∀ t, e.task? = some t → ofLine? e.line = some t := by
    intro e _ t ht
    cases e with
    | record =>
      cases ht
      exact ofLine?_record t
    | other => cases ht
  rw [replay_textOf, filterMap_eq_iff hrecords]
  constructor
  · intro h text single hother
    have hnone : ofLine? text = none := h (.other text single) hother
    refine .inr fun t ht => ?_
    rw [ofLine?_eq_some_iff.mpr ht] at hnone
    cases hnone
  · intro h e he
    cases e with
    | record t => exact ofLine?_record t
    | other text single =>
      show ofLine? text = none
      obtain hblank | hnone := h text single he
      · exact ofLine?_blank hblank
      · exact Option.eq_none_iff_forall_ne_some.mpr fun t ht => hnone t (ofLine?_eq_some_iff.mp ht)

/-! ### Blanks that JSON does not know -/

/-- A task's record after a no-break space. -/
def Entry.padded (t : Task) : Entry :=
  .other ("\u00a0" ++ t.line) (by
    rw [String.toList_append, List.mem_append]
    exact not_or.mpr ⟨by decide, t.newline_not_mem_line⟩)

theorem ofText?_padded (t : Task) : Task.ofText? (Entry.padded t).line = none := by
  have hspace : "\u00a0".toList = ['\u00a0'] := by decide
  have hchars : (Entry.padded t).line.toList = '\u00a0' :: t.line.toList := by
    rw [Entry.padded, Entry.line, String.toList_append, hspace, List.singleton_append]
  rw [← @String.ofList_toList (Entry.padded t).line, hchars]
  refine t.ofText?_in_front (List.suffix_cons '\u00a0' t.line.toList) fun hsame => ?_
  rw [Json.skipSpace_cons (by decide)] at hsame
  exact List.cons_ne_self '\u00a0' _ hsame

theorem ofLine?_padded (t : Task) : ofLine? (Entry.padded t).line = some t :=
  ofLine?_line t (by decide)

theorem replay_record_padded (first second : Task) :
    replay (textOf [.record first, .padded second]) = [first, second] := by
  have hfirst : ofLine? (Entry.record first).line = some first := ofLine?_record first
  simp only [replay_textOf, List.filterMap_cons, hfirst, ofLine?_padded, List.filterMap_nil]

/-- The second line is not blank and is malformed JSON, and it is replayed. -/
theorem replay_padded :
    let first := Task.Draft.stored {goal := "one", chainAction := "", address := ""} 1 100
    let second := Task.Draft.stored {goal := "two", chainAction := "", address := ""} 2 100
    let es := [Entry.record first, Entry.padded second]
    saysNothing (Entry.padded second).line = false ∧ Task.ofText? (Entry.padded second).line = none ∧
      es.filterMap Entry.task? = [first] ∧ replay (textOf es) = [first, second] :=
  ⟨saysNothing_line _ _, ofText?_padded _, rfl, replay_record_padded _ _⟩

end ChainAgent.Ledger.Journal
