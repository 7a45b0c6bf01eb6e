import ChainAgent.Ledger.Journal
import ChainAgent.Proofs.Json.Documents
import ChainAgent.Proofs.Task.Record
import ChainAgent.Proofs.Text.Blank
import ChainAgent.Proofs.Text.Lines

/-! Replaying of a log.

A log with new lines appended has its old records and the new ones, if its last line was blank
(`replay_grown`). If that line was not, the first new line is glued to it and neither of them is a
record any more (`replay_glued`). A truncated log has the records whose lines are complete
(`replay_cut`). -/
namespace ChainAgent.Ledger.Journal

open Text (openLine closedLines saysNothing)

/-! ### Lines -/

theorem ofLine?_blank {s : String} (h : saysNothing s) : ofLine? s = none := by
  simp [ofLine?, h]

theorem saysNothing_line (t : Task) (front : String) : saysNothing (front ++ t.line) = false := by
  obtain ⟨tail, htail⟩ := t.line_begins
  have hbrace : Text.isBlank '{' = false := by decide
  simp [saysNothing, htail, hbrace]

/-- A line that is a record with surrounding whitespace. -/
def Holds (line : String) (t : Task) : Prop :=
  ∃ front text back, saysNothing front = true ∧ saysNothing back = true ∧
    line = front ++ text ++ back ∧ Task.ofText? text = some t

/-- **A line is replayed as a task if it is its record with surrounding whitespace.** -/
theorem ofLine?_eq_some_iff {line : String} {t : Task} : ofLine? line = some t ↔ Holds line t := by
  constructor
  · intro h
    unfold ofLine? at h
    split at h
    · cases h
    · obtain ⟨front, back, hfront, hback, hline⟩ := Text.trim_split line
      exact ⟨front, Text.trim line, back, hfront, hback, hline, h⟩
  · rintro ⟨front, text, back, hfront, hback, rfl, htext⟩
    obtain ⟨n, hread, htask⟩ := Task.ofText?_eq_some_iff.mp htext
    have hdocument := (Json.isDocument_of_read hread).padded hfront hback
    rw [ofLine?, hdocument.not_saysNothing]
    exact Task.ofText?_eq_some_iff.mpr ⟨n, Json.readDocument_trim_eq_iff.mpr hdocument, htask⟩

/-- Whitespace before a record is ignored. -/
theorem ofLine?_line (t : Task) {front : String} (hfront : saysNothing front) :
    ofLine? (front ++ t.line) = some t :=
  ofLine?_eq_some_iff.mpr ⟨front, t.line, "", hfront, rfl, String.append_empty.symm, t.ofText?_line⟩

/-- A record after anything else is lost. -/
theorem ofLine?_glued (t : Task) {front : String} (hfront : saysNothing front = false) :
    ofLine? (front ++ t.line) = none := by
  obtain ⟨tail, htail⟩ := t.line_begins
  obtain ⟨between, hends⟩ := t.line_ends
  obtain ⟨c, kept, hc, hstart⟩ := Text.trimStart_append hfront t.line.toList
  have htrim : Text.trimChars (front.toList ++ t.line.toList) = c :: (kept ++ t.line.toList) := by
    rw [Text.trimChars, hstart, hends, ← List.append_assoc, ← List.cons_append]
    exact Text.trimEnd_append (by decide) _
  simp only [ofLine?, saysNothing_line, Text.trim, String.toList_append, htrim]
  have hspace : Json.isSpace c = false := by
    rw [Bool.eq_false_iff]
    intro hspace
    rw [Json.isBlank_of_isSpace hspace] at hc
    cases hc
  refine t.ofText?_in_front ⟨c :: kept, by simp⟩ fun hskip => ?_
  rw [Json.skipSpace_cons hspace] at hskip
  have hlength := congrArg List.length hskip
  simp at hlength
  omega

/-- A proper prefix of a record is no record. -/
theorem ofLine?_cut (t : Task) {front behind : String} (h : front ++ behind = t.line)
    (hne : behind ≠ "") : ofLine? front = none := by
  by_cases hblank : saysNothing front
  · exact ofLine?_blank hblank
  obtain ⟨tail, htail⟩ := t.line_begins
  rw [← String.toList_inj, String.toList_append] at h
  obtain ⟨c, cs, hfront⟩ := List.exists_cons_of_ne_nil (l := front.toList) fun hnil =>
    hblank (by simp [saysNothing, hnil])
  obtain ⟨rest, hkept⟩ := Text.trimEnd_isPrefix cs
  have hc : c = '{' := by
    rw [hfront, htail, List.cons_append, List.cons.injEq] at h
    exact h.1
  have htrim : Text.trimChars front.toList = c :: Text.trimEnd cs := by
    rw [hfront, hc, Text.trimChars, Text.trimStart_cons (by decide), Text.trimEnd_cons (by decide)]
  simp only [ofLine?, if_neg hblank, Text.trim, htrim]
  have hline : c :: Text.trimEnd cs ++ (rest ++ behind.toList) = t.line.toList := by
    rw [← h, hfront, List.cons_append, List.cons_append, ← List.append_assoc, hkept]
  exact t.ofText?_cut hline (by simp [hne])

/-! ### Logs -/

theorem replay_line {s : String} (h : '\n' ∉ s.toList) : replay s = (ofLine? s).toList := by
  rw [replay, Text.lines, Text.pieces_of_not_mem h]
  cases hline : ofLine? s <;> simp [hline]

theorem replay_append (front back : String) :
    replay (front ++ "\n" ++ back) = replay front ++ replay back := by
  have hlines : Text.lines (front ++ "\n" ++ back) = Text.lines front ++ Text.lines back :=
    Text.pieces_append '\n' front back
  rw [replay, hlines, List.filterMap_append]
  rfl

/-- The log of some tasks: the line of each, with a line feed. -/
def logOf : List Task → String
  | [] => ""
  | t :: tasks => t.line ++ "\n" ++ logOf tasks

/-- The records in the terminated lines of a text. -/
def closedRecords (text : String) : List Task := (closedLines text).filterMap ofLine?

theorem replay_eq (text : String) :
    replay text = closedRecords text ++ (ofLine? (openLine text)).toList := by
  rw [replay, Text.lines_eq, List.filterMap_append, closedRecords]
  cases hline : ofLine? (openLine text) <;> simp [hline]

theorem replay_append_line (text : String) (t : Task) (more : String) :
    replay (text ++ t.line ++ "\n" ++ more) =
      closedRecords text ++ (ofLine? (openLine text ++ t.line)).toList ++ replay more := by
  rw [replay, Text.lines_append text t.newline_not_mem_line, List.filterMap_append, closedRecords]
  cases hline : ofLine? (openLine text ++ t.line) <;> simp [hline, replay]

theorem replay_record (t : Task) : replay t.line = [t] := by
  have hline : ofLine? ("" ++ t.line) = some t := ofLine?_line t rfl
  rw [String.empty_append] at hline
  rw [replay_line t.newline_not_mem_line, hline]
  rfl

/-- The log of some tasks is replayed as these tasks. -/
theorem replay_logOf (tasks : List Task) : replay (logOf tasks) = tasks := by
  induction tasks with
  | nil => rfl
  | cons t tasks ih =>
    rw [logOf, replay_append, ih, replay_record]
    rfl

/-- **After a blank last line every new line is a record.** -/
theorem replay_grown {text : String} (htext : saysNothing (openLine text)) (tasks : List Task) :
    replay (text ++ logOf tasks) = replay text ++ tasks := by
  cases tasks with
  | nil => simp [logOf]
  | cons t tasks =>
    rw [logOf, ← String.append_assoc, ← String.append_assoc, replay_append_line, replay_logOf,
      replay_eq, ofLine?_line t htext, ofLine?_blank htext]
    simp

/-- **After a last line that is not blank, that line and the first new one are lost.** -/
theorem replay_glued {text : String} (htext : saysNothing (openLine text) = false) (t : Task)
    (tasks : List Task) :
    replay (text ++ logOf (t :: tasks)) = closedRecords text ++ tasks := by
  rw [logOf, ← String.append_assoc, ← String.append_assoc, replay_append_line, replay_logOf,
    ofLine?_glued t htext]
  simp

/-! ### Logs cut off -/

/-- The tasks of a log that starts at a byte, each with the end of its object. -/
def recordEnds (start : Nat) : List Task → List (Task × Nat)
  | [] => []
  | t :: tasks =>
    (t, start + t.line.utf8ByteSize) :: recordEnds (start + t.line.utf8ByteSize + 1) tasks

/-- The tasks whose objects end at or before a byte of their log. -/
def endedBy (stop : Nat) (tasks : List Task) : List Task :=
  ((recordEnds 0 tasks).filter (·.2 ≤ stop)).map (·.1)

theorem le_of_mem_recordEnds {tasks : List Task} {start : Nat} {e : Task × Nat}
    (h : e ∈ recordEnds start tasks) : start ≤ e.2 := by
  induction tasks generalizing start with
  | nil => cases h
  | cons t tasks ih =>
    obtain rfl | h := List.mem_cons.mp h
    · exact Nat.le_add_right _ _
    · have := ih h
      omega

theorem recordEnds_none {tasks : List Task} {start stop : Nat} (h : stop < start) :
    (recordEnds start tasks).filter (·.2 ≤ stop) = [] := by
  rw [List.filter_eq_nil_iff]
  intro e he
  have := le_of_mem_recordEnds he
  simp
  omega

/-- A prefix of a log ends inside its first record, or after it. -/
theorem front_of_logOf {front behind : String} {t : Task} {tasks : List Task}
    (h : front ++ behind = logOf (t :: tasks)) :
    (∃ missing, missing ≠ "" ∧ front ++ missing = t.line) ∨ front = t.line ∨
      ∃ next, front = t.line ++ "\n" ++ next ∧ next ++ behind = logOf tasks := by
  rw [logOf, String.append_assoc, ← String.toList_inj, String.toList_append,
    String.toList_append] at h
  obtain ⟨missing, hline, hbehind⟩ | ⟨next, hfront, hnext⟩ := List.append_eq_append_iff.mp h
  · cases missing with
    | nil =>
      refine .inr (.inl (String.toList_inj.mp ?_))
      simpa using hline.symm
    | cons c missing =>
      refine .inl ⟨.ofList (c :: missing), by simp, String.toList_inj.mp ?_⟩
      simpa using hline.symm
  · cases next with
    | nil =>
      refine .inr (.inl (String.toList_inj.mp ?_))
      simpa using hfront
    | cons c next =>
      have hc : '\n' = c ∧ (logOf tasks).toList = next ++ behind.toList := by simpa using hnext
      refine .inr (.inr ⟨.ofList next, String.toList_inj.mp ?_, String.toList_inj.mp ?_⟩)
      · simp [hfront, ← hc.1]
      · simp [hc.2]

theorem replay_cut_from {front behind : String} {tasks : List Task} (start : Nat)
    (h : front ++ behind = logOf tasks) :
    replay front =
      ((recordEnds start tasks).filter (·.2 ≤ start + front.utf8ByteSize)).map (·.1) := by
  induction tasks generalizing front start with
  | nil =>
    obtain ⟨rfl, -⟩ : front = "" ∧ behind = "" := by simpa [logOf] using h
    rfl
  | cons t tasks ih =>
    obtain ⟨missing, hne, hline⟩ | rfl | ⟨next, rfl, hnext⟩ := front_of_logOf h
    · have hfront : '\n' ∉ front.toList := fun hmem => t.newline_not_mem_line (by
        rw [← hline, String.toList_append]
        exact List.mem_append_left _ hmem)
      have hsize : t.line.utf8ByteSize = front.utf8ByteSize + missing.utf8ByteSize := by
        rw [← hline, String.utf8ByteSize_append]
      have hpos : 0 < missing.utf8ByteSize :=
        Nat.pos_of_ne_zero fun hzero => hne (String.utf8ByteSize_eq_zero_iff.mp hzero)
      rw [replay_line hfront, ofLine?_cut t hline hne, recordEnds, List.filter_cons_of_neg,
        recordEnds_none (by omega)]
      · rfl
      · simp
        omega
    · rw [replay_record, recordEnds, List.filter_cons_of_pos (by simp),
        recordEnds_none (by omega)]
      rfl
    · have hsize : (t.line ++ "\n" ++ next).utf8ByteSize =
          t.line.utf8ByteSize + 1 + next.utf8ByteSize := by
        rw [String.utf8ByteSize_append, String.utf8ByteSize_append]
        rfl
      rw [replay_append, replay_record, ih (start + t.line.utf8ByteSize + 1) hnext, recordEnds,
        List.filter_cons_of_pos, hsize]
      · simp only [List.map_cons, List.singleton_append, Nat.add_assoc]
      · simp
        omega

/-- **A truncated log has the records whose objects are complete.** -/
theorem replay_cut {front behind : String} {tasks : List Task}
    (h : front ++ behind = logOf tasks) : replay front = endedBy front.utf8ByteSize tasks := by
  rw [replay_cut_from 0 h, Nat.zero_add]
  rfl

end ChainAgent.Ledger.Journal
