import ChainAgent.Toml.Reader

/-! Where the lines of a document add their members.

A document that has each table under a header of its own, after the tables before it, adds to the
last table of every table on the path. A `Frame` is one step of that path; `plug` puts a table at
its end. Then a header opens a table after the members that are there (`openTable_plug`,
`openNext_plug`), and a line adds its member to the table of the header (`putUnder_plug`). -/
namespace ChainAgent.Toml

/-! ### Members by their names -/

/-- No member has this name. -/
def Absent (key : String) (ms : Members) : Prop := ∀ m ∈ ms, m.1 ≠ key

section Last

variable {key : String} {ms : Members} (h : Absent key ms) (v : Value)
include h

theorem find?_absent : find? key ms = none := by
  rw [find?, Option.map_eq_none_iff, List.find?_eq_none]
  intro m hm
  rw [beq_iff_eq]
  exact h m hm

theorem find?_last : find? key (ms ++ [(key, v)]) = some v := by
  have hnone := Option.map_eq_none_iff.mp (find?_absent h)
  simp [find?, hnone]

theorem replace_last (u : Value) : replace key v (ms ++ [(key, u)]) = ms ++ [(key, v)] := by
  have hsame : ms.map (fun m => if m.1 == key then (key, v) else m) = ms := by
    rw [List.map_congr_left (g := id), List.map_id]
    intro m hm
    rw [if_neg (by simpa using h m hm)]
    rfl
  rw [replace, List.map_append, hsame]
  simp

theorem add?_absent : add? key v ms = some (ms ++ [(key, v)]) := by
  rw [add?, if_neg]
  rw [Bool.not_eq_true, List.any_eq_false]
  intro m hm
  rw [beq_iff_eq]
  exact h m hm

end Last

/-! ### The way to a table -/

/-- One step of the path to a table: the members before it, its name and, for an array of tables,
the tables so far. -/
structure Frame where
  before : Members
  key : String
  earlier : Option (List Members)

namespace Frame

/-- The table of a frame, from the one that it leads to. -/
def fill (f : Frame) (ms : Members) : Members :=
  f.before ++ [(f.key, match f.earlier with
    | none => .table .headed ms
    | some items => .tables (items ++ [ms]))]

/-- A step to the last member, whose name no other member has. -/
def IsLast (f : Frame) : Prop := Absent f.key f.before

end Frame

/-- A document, from the table at the end of a path. -/
def plug (frames : List Frame) (ms : Members) : Members := frames.foldr Frame.fill ms

theorem plug_append (frames : List Frame) (f : Frame) (ms : Members) :
    plug (frames ++ [f]) ms = plug frames (f.fill ms) := by
  simp [plug]

/-- **Changing the table at the end of a path changes that table and nothing else.** -/
theorem change_plug {frames : List Frame} (h : ∀ f ∈ frames, f.IsLast)
    (g : Form → Members → Option Members) (ms : Members) :
    change false g .headed (frames.map Frame.key) (plug frames ms) =
      (g .headed ms).map (plug frames) := by
  induction frames with
  | nil =>
    show g .headed ms = (g .headed ms).map id
    rw [Option.map_id]
    rfl
  | cons f frames ih =>
    obtain ⟨hlast, hrest⟩ := List.forall_mem_cons.mp h
    have hinner := ih hrest
    rw [List.map_cons, change, plug, List.foldr_cons, ← plug, Frame.fill, find?_last hlast]
    cases hearlier : f.earlier with
    | none =>
      simp only [Bool.false_and, Bool.or_false, hinner]
      rw [if_neg (by decide)]
      cases g .headed ms with
      | none => rfl
      | some ms' => simp [replace_last hlast, plug, Frame.fill, hearlier]
    | some items =>
      simp only [Bool.false_eq_true, if_false, List.getLast?_concat, hinner]
      cases g .headed ms with
      | none => rfl
      | some ms' => simp [replace_last hlast, plug, Frame.fill, hearlier]

section Lines

variable {frames : List Frame} (h : ∀ f ∈ frames, f.IsLast) {name : String} {ms : Members}
include h

/-- A header opens a table after the members that are there. -/
theorem openTable_plug (hnew : Absent name ms) :
    openTable (frames.map Frame.key) name (plug frames ms) =
      some (plug (frames ++ [⟨ms, name, none⟩]) []) := by
  rw [openTable, change_plug h, find?_absent hnew, plug_append]
  rfl

/-- The members of a table with an array of tables after them, once it has any. -/
def repeated (ms : Members) (name : String) : List Members → Members
  | [] => ms
  | items => ms ++ [(name, .tables items)]

/-- A repeated header adds a table to the array. -/
theorem openNext_plug (hnew : Absent name ms) (items : List Members) :
    openNext (frames.map Frame.key) name (plug frames (repeated ms name items)) =
      some (plug (frames ++ [⟨ms, name, some items⟩]) []) := by
  rw [openNext, change_plug h, plug_append]
  cases items with
  | nil =>
    rw [repeated, find?_absent hnew]
    rfl
  | cons item items =>
    have hbegun : repeated ms name (item :: items) = ms ++ [(name, .tables (item :: items))] := rfl
    rw [hbegun, find?_last hnew]
    simp [replace_last hnew, Frame.fill]

/-- A line adds its member to the table of the header. -/
theorem putUnder_plug (hnew : Absent name ms) (v : Value) :
    putUnder (frames.map Frame.key) [] name v (plug frames ms) =
      some (plug frames (ms ++ [(name, v)])) := by
  rw [putUnder, change_plug h]
  show (add? name v ms).map (plug frames) = _
  rw [add?_absent hnew]
  rfl

end Lines

end ChainAgent.Toml
