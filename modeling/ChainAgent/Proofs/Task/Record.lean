import ChainAgent.Task.Record
import ChainAgent.Text.Blank
import ChainAgent.Proofs.Json.Adjacent
import ChainAgent.Proofs.Json.Records
import ChainAgent.Proofs.Json.RoundTrip

/-! Records of tasks as lines.

A task's line is read as that task (`ofText?_line`). It has no line feed in it, begins with a
brace and ends with one, so a log can keep one on every line. A part of a line is no record
(`ofText?_cut`), and neither is a line with anything in front of it (`ofText?_in_front`). -/
namespace ChainAgent.Task

open Json (Value Node)

/-! ### Round trip -/

theorem isWord_toInt (n : Int64) : Json.IsWord n.toInt :=
  ⟨n.le_toInt, n.toInt_lt⟩

theorem toJson_isIntegral (t : Task) : t.toJson.IsIntegral := by
  simp only [toJson, Value.IsIntegral, Json.MembersIntegral, Value.ofInt, and_true, true_and]
  exact ⟨⟨_, isWord_toInt t.id, rfl⟩, ⟨_, isWord_toInt t.createdAt, rfl⟩,
    ⟨_, isWord_toInt t.updatedAt, rfl⟩⟩

/-- The fields of a record as they are read. -/
def members (t : Task) : List (String × Node) := [
  ("id", .number (some (.ofInt t.id.toInt))),
  ("goal", .text (some t.goal)),
  ("chain_action", .text (some t.chainAction)),
  ("address", .text (some t.address)),
  ("thought", .text (some t.thought)),
  ("reply", .text (some t.reply)),
  ("chain_id", .text (some t.chainId)),
  ("block_number", .text (some t.blockNumber)),
  ("observations", .text (some t.observations)),
  ("created_at", .number (some (.ofInt t.createdAt.toInt))),
  ("updated_at", .number (some (.ofInt t.updatedAt.toInt)))]

theorem asRead_toJson (t : Task) :
    t.toJson.asRead = .object (t.members.map fun m => (some m.1, m.2)) := rfl

theorem scan_members (t : Task) :
    shape.scan .text (.object (t.members.map fun m => (some m.1, m.2))) = .ok t.members := by
  have hint (n : Int64) := Json.integer_ofInt (isWord_toInt n)
  refine Json.scan_object ?_ (by simp [members]) rfl
  intro m hm
  simp only [members, List.mem_cons, List.not_mem_nil, or_false] at hm
  obtain rfl | rfl | rfl | rfl | rfl | rfl | rfl | rfl | rfl | rfl | rfl := hm
  all_goals
    refine ⟨_, rfl, ?_⟩
    simp only [Json.required, Json.defaulted, hint, Json.string]
    rfl

theorem ofNode_asRead (t : Task) : ofNode t.toJson.asRead = .ok t := by
  have hint (n : Int64) := Json.integer_ofInt (isWord_toInt n)
  rw [asRead_toJson, ofNode, scan_members]
  simp only [bind, Except.bind, members]
  simp [Json.fieldOr, Json.string, Except.toOption, hint]
  rfl

theorem line_toList (t : Task) : t.line.toList = Json.compactChars t.toJson := String.toList_ofList

theorem spells_line (t : Task) : Json.Spells (.value t.toJson.asRead) t.line.toList [] := by
  have hspells := t.toJson.spells t.toJson_isIntegral .nil
  rwa [List.append_nil, ← line_toList] at hspells

theorem ofText?_eq_some_iff {s : String} {t : Task} :
    ofText? s = some t ↔ ∃ n, Json.readDocument s = (n, true) ∧ ofNode n = .ok t := by
  rw [← Json.decodeText_eq_ok_iff, ofText?]
  cases Json.decodeText ofNode s <;> simp [Except.toOption]

/-- **A task's line is read as that task.** -/
theorem ofText?_line (t : Task) : ofText? t.line = some t := by
  have hread : Json.readDocument t.line = (t.toJson.asRead, true) :=
    Json.readDocument_compact t.toJson_isIntegral
  exact ofText?_eq_some_iff.mpr ⟨_, hread, ofNode_asRead t⟩

/-! ### The text of a line -/

theorem line_begins (t : Task) : ∃ tail, t.line.toList = '{' :: '"' :: 'i' :: tail :=
  ⟨_, t.line_toList⟩

theorem line_ends (t : Task) : ∃ front, t.line.toList = front ++ ['}'] :=
  ⟨_, t.line_toList.trans List.cons_append.symm⟩

theorem newline_not_mem_line (t : Task) : '\n' ∉ t.line.toList := by
  rw [line_toList]
  exact Json.newline_not_mem_compactChars _ t.toJson_isIntegral

/-! ### What is no record -/

theorem ofText?_unended {s : String} (h : (Json.readDocument s).2 = false) : ofText? s = none := by
  simp only [ofText?, Json.decodeText, h]
  split <;> rfl

/-- **A part of a line that stops before its end is no record.** -/
theorem ofText?_cut (t : Task) {front behind : List Char}
    (h : front ++ behind = t.line.toList) (hne : behind ≠ []) :
    ofText? (String.ofList front) = none := by
  refine ofText?_unended ?_
  cases front with
  | nil => rfl
  | cons c front =>
    obtain ⟨tail, htail⟩ := t.line_begins
    have hspells := t.spells_line
    rw [htail, List.cons_append, List.cons.injEq] at h
    rw [htail, ← h.2] at hspells
    rw [h.1]
    exact Json.readDocument_cut hspells hne

/-- **A line with anything in front of it is no record.** -/
theorem ofText?_in_front (t : Task) {cs : List Char} (hcs : t.line.toList <:+ cs)
    (hfront : Json.skipSpace cs ≠ t.line.toList) : ofText? (String.ofList cs) = none := by
  obtain ⟨tail, htail⟩ := t.line_begins
  have hspells := t.spells_line
  rw [htail] at hspells hcs hfront
  exact ofText?_unended (Json.readDocument_in_front (by decide) hspells hcs hfront)

end ChainAgent.Task
