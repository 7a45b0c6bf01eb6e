import ChainAgent.Proofs.Toml.Lines
import ChainAgent.Proofs.Toml.Places

/-! Parsing inverts printing for documents.

A table is printed with its plain members first and its subtables after them, each under a header;
so it is parsed in that order (`settled`). The plain members of a table are added to the table of
the last header (`reads_plainLines`); its subtables are defined after them, each with its own
members first (`sectionsRead`, by induction on the members). A document is the table without a
header (`parse_pretty`). -/
namespace ChainAgent.Toml

/-! ### What is read of a table -/

/-- The parse of the plain members of a table. -/
def plainMembers : Members → Members
  | [] => []
  | (key, v) :: rest =>
    if isSection v then plainMembers rest else (key, inlined v) :: plainMembers rest

mutual

/-- The parse of a table or an array of tables. -/
def sectionValue : Value → Value
  | .table _ ms => .table .headed (plainMembers ms ++ sectionMembers ms)
  | .tables items => .tables (itemMembers items)
  | v => v
termination_by structural v => v

def sectionMember : String × Value → String × Value
  | (key, v) => (key, sectionValue v)
termination_by structural m => m

/-- The parse of the subtables of a table. -/
def sectionMembers : List (String × Value) → Members
  | [] => []
  | m :: rest =>
    if isSection m.2 then sectionMember m :: sectionMembers rest else sectionMembers rest
termination_by structural ms => ms

def itemMembers : List (List (String × Value)) → List Members
  | [] => []
  | ms :: rest => (plainMembers ms ++ sectionMembers ms) :: itemMembers rest
termination_by structural items => items

end

/-- The parse of a table: its subtables are after its plain members. -/
def settled (ms : Members) : Members := plainMembers ms ++ sectionMembers ms

theorem itemMembers_eq (items : List Members) : itemMembers items = items.map settled := by
  induction items with
  | nil => rfl
  | cons ms rest ih => rw [itemMembers, ih, List.map_cons, settled]

/-- Members with distinct bare names and values that can be printed. -/
inductive Writable : Members → Prop where
  | nil : Writable []
  | plain {key : String} {v : Value} {ms : Members} (hkey : IsBare key) (hnew : Absent key ms)
      (hv : IsPlain v) (h : Writable ms) : Writable ((key, v) :: ms)
  | table {key : String} {form : Form} {inner ms : Members} (hkey : IsBare key)
      (hnew : Absent key ms) (hinner : Writable inner) (h : Writable ms) :
      Writable ((key, .table form inner) :: ms)
  | tables {key : String} {item : Members} {items : List Members} {ms : Members}
      (hkey : IsBare key) (hnew : Absent key ms)
      (hitems : ∀ inner ∈ item :: items, Writable inner) (h : Writable ms) :
      Writable ((key, .tables (item :: items)) :: ms)

theorem IsPlain.isSection {v : Value} (h : IsPlain v) : isSection v = false := by
  cases h <;> rfl

/-- A table of plain members can be printed. -/
theorem writable_of_plain {ms : Members} (hnames : (ms.map Prod.fst).Nodup)
    (hbare : ∀ key ∈ ms.map Prod.fst, IsBare key) (hplain : ∀ v ∈ ms.map Prod.snd, IsPlain v) :
    Writable ms := by
  induction ms with
  | nil => exact .nil
  | cons m ms ih =>
    obtain ⟨key, v⟩ := m
    obtain ⟨hkey, hnames⟩ := List.nodup_cons.mp hnames
    obtain ⟨hbare, hlater⟩ := List.forall_mem_cons.mp hbare
    obtain ⟨hplain, hothers⟩ := List.forall_mem_cons.mp hplain
    have hnew : Absent key ms := fun m hm hsame =>
      hkey (List.mem_map.mpr ⟨m, hm, hsame⟩)
    exact .plain hbare hnew hplain (ih hnames hlater hothers)

/-- Plain members are parsed as they are printed, unless one is an empty array of tables. -/
theorem settled_of_plain {ms : Members}
    (hplain : ∀ v ∈ ms.map Prod.snd, IsPlain v ∧ v ≠ .tables []) : settled ms = ms := by
  induction ms with
  | nil => rfl
  | cons m ms ih =>
    obtain ⟨key, v⟩ := m
    obtain ⟨⟨hv, hlist⟩, hrest⟩ := List.forall_mem_cons.mp hplain
    have hinlined : inlined v = v := by
      cases hv with
      | noTables => exact absurd rfl hlist
      | _ => rfl
    have ih : plainMembers ms ++ sectionMembers ms = ms := ih hrest
    simp [settled, plainMembers, sectionMembers, hv.isSection, hinlined, ih]

/-! ### Names -/

theorem absent_nil (key : String) : Absent key [] := nofun

theorem absent_append {key : String} {ms ms' : Members} :
    Absent key (ms ++ ms') ↔ Absent key ms ∧ Absent key ms' :=
  List.forall_mem_append

theorem absent_cons {key name : String} {v : Value} {ms : Members} :
    Absent key ((name, v) :: ms) ↔ name ≠ key ∧ Absent key ms :=
  List.forall_mem_cons

/-- Parsing adds no names. -/
theorem absent_plainMembers {key : String} {ms : Members} (h : Absent key ms) :
    Absent key (plainMembers ms) := by
  induction ms with
  | nil => exact absent_nil key
  | cons m ms ih =>
    obtain ⟨name, v⟩ := m
    obtain ⟨hname, hrest⟩ := absent_cons.mp h
    rw [plainMembers]
    split
    · exact ih hrest
    · exact absent_cons.mpr ⟨hname, ih hrest⟩

/-- No plain member has the name of a subtable. -/
theorem Writable.absent_plainMembers {ms : Members} (h : Writable ms) :
    ∀ m ∈ ms, Toml.isSection m.2 = true → Absent m.1 (plainMembers ms) := by
  induction h with
  | nil => exact nofun
  | @plain key v ms hkey hnew hv h ih =>
    refine List.forall_mem_cons.mpr ⟨fun hsection => ?_, fun m hm hsection => ?_⟩
    · rw [hv.isSection] at hsection
      cases hsection
    · rw [plainMembers, hv.isSection]
      exact absent_cons.mpr ⟨(hnew m hm).symm, ih m hm hsection⟩
  | table hkey hnew hinner h _ ih =>
    have hown := Toml.absent_plainMembers hnew
    exact List.forall_mem_cons.mpr ⟨fun _ => hown, ih⟩
  | tables hkey hnew hitems h _ ih =>
    have hown := Toml.absent_plainMembers hnew
    exact List.forall_mem_cons.mpr ⟨fun _ => hown, ih⟩

/-! ### Plain members -/

/-- The plain members of a table are parsed after those that it has. -/
theorem reads_plainLines {ms : Members} (h : Writable ms) :
    ∃ lines, plainLines ms = some lines ∧ ∀ (frames : List Frame) (before : Members),
      (∀ f ∈ frames, f.IsLast) → (∀ m ∈ ms, Absent m.1 before) → ∀ rest found,
        Reads (frames.map Frame.key) (plug frames (before ++ plainMembers ms)) rest found →
          Reads (frames.map Frame.key) (plug frames before) ((String.join lines).toList ++ rest)
            found := by
  induction h with
  | nil =>
    refine ⟨[], rfl, fun frames before _ _ rest found h => ?_⟩
    rw [plainMembers, List.append_nil] at h
    exact h
  | @plain key v ms hkey hnew hv h ih =>
    obtain ⟨text, htext, hhead, hread⟩ := value_plain hv
    obtain ⟨lines, hlines, hlater⟩ := ih
    refine ⟨(key ++ " = " ++ text ++ "\n") :: lines, ?_,
      fun frames before hlast habsent rest found h => ?_⟩
    · rw [plainLines, hv.isSection, htext, hlines]
      rfl
    · obtain ⟨hfirst, hothers⟩ := List.forall_mem_cons.mp habsent
      rw [plainMembers, hv.isSection, if_neg (by decide), List.append_cons] at h
      have hbehind : ∀ m ∈ ms, Absent m.1 (before ++ [(key, inlined v)]) := fun m hm =>
        absent_append.mpr ⟨hothers m hm, absent_cons.mpr ⟨(hnew m hm).symm, absent_nil _⟩⟩
      have hnext := hlater frames _ hlast hbehind rest found h
      rw [String.join_cons, String.toList_append, List.append_assoc]
      exact Reads.line hkey hhead hread (putUnder_plug hlast hfirst (inlined v)) hnext
  | @table key form inner ms hkey hnew hinner h _ ih =>
    obtain ⟨lines, hlines, hlater⟩ := ih
    refine ⟨lines, by rw [plainLines, hlines]; rfl, fun frames before hlast habsent => ?_⟩
    exact hlater frames before hlast (List.forall_mem_cons.mp habsent).2
  | @tables key item items ms hkey hnew hitems h _ ih =>
    obtain ⟨lines, hlines, hlater⟩ := ih
    refine ⟨lines, by rw [plainLines, hlines]; rfl, fun frames before hlast habsent => ?_⟩
    exact hlater frames before hlast (List.forall_mem_cons.mp habsent).2

/-! ### Tables -/

/-- Blocks with a line break before each. -/
def spaced (blocks : List String) : List Char := blocks.flatMap fun b => '\n' :: b.toList

theorem spaced_cons (b : String) (bs : List String) :
    spaced (b :: bs) = '\n' :: (b.toList ++ spaced bs) := rfl

theorem spaced_append (bs bs' : List String) : spaced (bs ++ bs') = spaced bs ++ spaced bs' :=
  List.flatMap_append

/-- The subtables of a table are parsed after the members that it has. -/
def SectionsRead (ms : Members) : Prop :=
  ∀ (frames : List Frame) (before : Members), (∀ f ∈ frames, f.IsLast) →
    (∀ f ∈ frames, IsBare f.key) →
    (∀ m ∈ ms, isSection m.2 = true → Absent m.1 before) →
    ∃ blocks, sections (frames.map Frame.key) ms = some blocks ∧ ∀ rest found,
      (∀ current, Reads current (plug frames (before ++ sectionMembers ms)) rest found) →
        ∀ current, Reads current (plug frames before) (spaced blocks ++ rest) found

/-- A block is parsed under its header: the plain members of its table, and then its subtables. -/
theorem reads_block {opening closing : String} {frames : List Frame} {ms start : Members}
    (hlast : ∀ f ∈ frames, f.IsLast) (hbare : ∀ f ∈ frames, IsBare f.key) (hms : Writable ms)
    (hsections : SectionsRead ms)
    (hheader : ∀ rest found, Reads (frames.map Frame.key) (plug frames []) rest found →
      ∀ current, Reads current start
        ((opening ++ ".".intercalate (frames.map Frame.key) ++ closing ++ "\n").toList ++ rest)
          found) :
    ∃ blocks, block opening closing (frames.map Frame.key) ms = some blocks ∧ ∀ rest found,
      (∀ current, Reads current (plug frames (settled ms)) rest found) →
        ∀ current, Reads current start (spaced blocks ++ rest) found := by
  obtain ⟨lines, hlines, hplain⟩ := reads_plainLines hms
  obtain ⟨blocks, hblocks, htables⟩ := hsections frames (plainMembers ms) hlast hbare
    hms.absent_plainMembers
  refine ⟨_, by rw [block, hlines, hblocks]; rfl, fun rest found h current => ?_⟩
  have hbehind := htables rest found h (frames.map Frame.key)
  have hmembers := hplain frames [] hlast (fun m _ => absent_nil m.1) _ found hbehind
  have hread := hheader _ found hmembers current
  rw [spaced_cons, List.cons_append, reads_break, String.toList_append]
  simpa only [List.append_assoc] using hread

section Repeated

variable {frames : List Frame} {before : Members} {key : String}

/-- The path to a subtable, from the path to its table. -/
theorem forall_frames_concat (hlast : ∀ f ∈ frames, f.IsLast) (hbare : ∀ f ∈ frames, IsBare f.key)
    (hnew : Absent key before) (hkey : IsBare key) (earlier : Option (List Members)) :
    (∀ f ∈ frames ++ [Frame.mk before key earlier], f.IsLast) ∧
      ∀ f ∈ frames ++ [Frame.mk before key earlier], IsBare f.key :=
  ⟨List.forall_mem_append.mpr ⟨hlast, List.forall_mem_singleton.mpr hnew⟩,
    List.forall_mem_append.mpr ⟨hbare, List.forall_mem_singleton.mpr hkey⟩⟩

theorem map_key_concat (frames : List Frame) (before : Members) (key : String)
    (earlier : Option (List Members)) :
    (frames ++ [Frame.mk before key earlier]).map Frame.key = frames.map Frame.key ++ [key] := by
  rw [List.map_append]
  rfl

theorem fill_repeated (before : Members) (key : String) (earlier : List Members) (ms : Members) :
    (Frame.mk before key (some earlier)).fill ms = repeated before key (earlier ++ [ms]) := by
  cases earlier <;> rfl

/-- The blocks of an array of tables are parsed one after the other. -/
theorem reads_blocks (hlast : ∀ f ∈ frames, f.IsLast) (hbare : ∀ f ∈ frames, IsBare f.key)
    (hnew : Absent key before) (hkey : IsBare key) {items : List Members}
    (hitems : ∀ ms ∈ items, Writable ms ∧ SectionsRead ms) (earlier : List Members) :
    ∃ bs, blocks (frames.map Frame.key ++ [key]) items = some bs ∧ ∀ rest found,
      (∀ current, Reads current
        (plug frames (repeated before key (earlier ++ items.map settled))) rest found) →
        ∀ current, Reads current (plug frames (repeated before key earlier)) (spaced bs ++ rest)
          found := by
  induction items generalizing earlier with
  | nil =>
    refine ⟨[], by rw [blocks], fun rest found h => ?_⟩
    rw [List.map_nil, List.append_nil] at h
    exact h
  | cons ms items ih =>
    obtain ⟨⟨hms, hsections⟩, hlater⟩ := List.forall_mem_cons.mp hitems
    obtain ⟨hlast', hbare'⟩ := forall_frames_concat hlast hbare hnew hkey (some earlier)
    have hpath := map_key_concat frames before key (some earlier)
    have hheader (rest : List Char) (found : Members)
        (h : Reads ((frames ++ [Frame.mk before key (some earlier)]).map Frame.key)
          (plug (frames ++ [Frame.mk before key (some earlier)]) []) rest found)
        (current : List String) :
        Reads current (plug frames (repeated before key earlier))
          (("[[" ++ ".".intercalate ((frames ++ [Frame.mk before key (some earlier)]).map Frame.key)
            ++ "]]" ++ "\n").toList ++ rest) found := by
      rw [hpath] at h ⊢
      exact Reads.nextHeader (List.forall_mem_map.mpr hbare) hkey
        (openNext_plug hlast hnew earlier) h
    obtain ⟨bs, hbs, hread⟩ := reads_block hlast' hbare' hms hsections hheader
    obtain ⟨more, hmore, hreads⟩ := ih hlater (earlier ++ [settled ms])
    rw [hpath] at hbs
    refine ⟨bs ++ more, by rw [blocks, hbs, hmore]; rfl, fun rest found h current => ?_⟩
    rw [spaced_append, List.append_assoc]
    refine hread _ found (fun current => ?_) current
    rw [plug_append, fill_repeated]
    refine hreads rest found (fun current => ?_) current
    rw [List.append_assoc]
    exact h current

end Repeated

theorem sections_plain {v : Value} (hv : IsPlain v) (path : List String) (key : String)
    (ms : Members) : sections path ((key, v) :: ms) = sections path ms := by
  cases hv <;> simp [sections, blocks]

/-- **The subtables of a table are parsed as they are printed**, recursively. -/
theorem sectionsRead {ms : Members} (h : Writable ms) : SectionsRead ms := by
  induction h with
  | nil =>
    intro frames before hlast hbare habsent
    refine ⟨[], by rw [sections], fun rest found h => ?_⟩
    rw [sectionMembers, List.append_nil] at h
    exact h
  | @plain key v ms hkey hnew hv h ih =>
    intro frames before hlast hbare habsent
    obtain ⟨bs, hbs, hread⟩ := ih frames before hlast hbare (List.forall_mem_cons.mp habsent).2
    refine ⟨bs, by rw [sections_plain hv, hbs], fun rest found h => ?_⟩
    rw [sectionMembers, hv.isSection] at h
    exact hread rest found h
  | @table key form inner ms hkey hnew hinner h ihinner ih =>
    intro frames before hlast hbare habsent
    obtain ⟨hfirst, hothers⟩ := List.forall_mem_cons.mp habsent
    have hfirst : Absent key before := hfirst rfl
    obtain ⟨hlast', hbare'⟩ := forall_frames_concat hlast hbare hfirst hkey none
    have hpath := map_key_concat frames before key none
    have hheader (rest : List Char) (found : Members)
        (h : Reads ((frames ++ [Frame.mk before key none]).map Frame.key)
          (plug (frames ++ [Frame.mk before key none]) []) rest found) (current : List String) :
        Reads current (plug frames before) (("[" ++ ".".intercalate
          ((frames ++ [Frame.mk before key none]).map Frame.key) ++ "]" ++ "\n").toList ++ rest)
            found := by
      rw [hpath] at h ⊢
      exact Reads.header (List.forall_mem_map.mpr hbare) hkey (openTable_plug hlast hfirst) h
    obtain ⟨bs, hbs, hread⟩ := reads_block hlast' hbare' hinner ihinner hheader
    have hbehind : ∀ m ∈ ms, isSection m.2 = true →
        Absent m.1 (before ++ [(key, .table .headed (settled inner))]) := fun m hm hsection =>
      absent_append.mpr ⟨hothers m hm hsection, absent_cons.mpr ⟨(hnew m hm).symm, absent_nil _⟩⟩
    obtain ⟨more, hmore, hreads⟩ := ih frames _ hlast hbare hbehind
    rw [hpath] at hbs
    refine ⟨bs ++ more, by rw [sections]; simp [hbs, hmore], fun rest found h current => ?_⟩
    rw [spaced_append, List.append_assoc]
    refine hread _ found (fun current => ?_) current
    rw [plug_append]
    refine hreads rest found (fun current => ?_) current
    rw [List.append_assoc]
    exact h current
  | @tables key item items ms hkey hnew hitems h ihitems ih =>
    intro frames before hlast hbare habsent
    obtain ⟨hfirst, hothers⟩ := List.forall_mem_cons.mp habsent
    have hfirst : Absent key before := hfirst rfl
    obtain ⟨bs, hbs, hread⟩ := reads_blocks hlast hbare hfirst hkey
      (fun ms hms => ⟨hitems ms hms, ihitems ms hms⟩) []
    have hbehind : ∀ m ∈ ms, isSection m.2 = true →
        Absent m.1 (before ++ [(key, .tables ((item :: items).map settled))]) := by
      intro m hm hsection
      have hlast : Absent m.1 [(key, .tables ((item :: items).map settled))] :=
        absent_cons.mpr ⟨(hnew m hm).symm, absent_nil _⟩
      exact absent_append.mpr ⟨hothers m hm hsection, hlast⟩
    obtain ⟨more, hmore, hreads⟩ := ih frames _ hlast hbare hbehind
    refine ⟨bs ++ more, by rw [sections]; simp [hbs, hmore], fun rest found h current => ?_⟩
    rw [spaced_append, List.append_assoc]
    refine hread _ found (fun current => ?_) current
    refine hreads rest found (fun current => ?_) current
    rw [sectionMembers, sectionMember, sectionValue, itemMembers_eq] at h
    rw [List.append_assoc]
    exact h current

/-! ### Documents -/

theorem intercalate_spaced (b : String) (bs : List String) :
    ("\n".intercalate (b :: bs)).toList = b.toList ++ spaced bs := by
  induction bs generalizing b with
  | nil => simp [spaced]
  | cons next bs ih =>
    rw [String.intercalate_cons_cons, String.toList_append, ih, spaced_cons]
    simp

/-- A printed line does not begin with a byte order mark. -/
theorem Reads.no_mark {current : List String} {ms found : Members} {c : Char} {cs : List Char}
    (h : Reads current ms (c :: cs) found) : (c.toNat == 0xFEFF) = false := by
  rw [beq_eq_false_iff_ne]
  intro hmark
  obtain rfl : c = Char.ofNat 0xFEFF := by rw [← hmark, Char.ofNat_toNat]
  have hread := h _ (Nat.lt_succ_self _)
  rw [readLines, skipBlank_solid ⟨by decide, by decide, by decide, by decide⟩] at hread
  simp only [Option.bind_eq_bind, Option.bind_some] at hread
  split at hread
  · rename_i h
    cases h
  · rename_i h
    exact absurd (List.cons.inj h).1 (by decide)
  · rename_i h
    exact absurd (List.cons.inj h).1 (by decide)
  · have hkey : key (Char.ofNat 0xFEFF :: cs) = none := by
      rw [key, keyParts, skipSpace_solid (by decide), keyPart]
      · rw [List.takeWhile_cons_of_neg (by decide)]
        rfl
      · exact fun rest h => absurd (List.cons.inj h).1 (by decide)
      · exact fun rest h => absurd (List.cons.inj h).1 (by decide)
    rw [hkey] at hread
    cases hread

/-- The blocks of a document, each after the one before it. -/
theorem reads_intercalate {lines blocks : List String} {found : Members}
    (h : Reads [] [] ((String.join lines).toList ++ spaced blocks) found) :
    Reads [] []
      ("\n".intercalate ((if lines.isEmpty then [] else [String.join lines]) ++ blocks)).toList
      found := by
  cases lines with
  | cons line lines =>
    rw [List.isEmpty_cons, if_neg (by decide), List.singleton_append, intercalate_spaced]
    exact h
  | nil =>
    cases blocks with
    | nil => exact h
    | cons b bs =>
      rw [List.isEmpty_nil, if_pos rfl, List.nil_append, intercalate_spaced]
      exact reads_break.mp h

/-- **A document is parsed as it is printed.** -/
theorem parse_pretty {ms : Members} (h : Writable ms) :
    ∃ text, pretty ms = some text ∧ parse text = some (settled ms) := by
  obtain ⟨lines, hlines, hplain⟩ := reads_plainLines h
  obtain ⟨blocks, hblocks, htables⟩ := sectionsRead h [] (plainMembers ms) nofun nofun
    h.absent_plainMembers
  have hread : Reads [] [] ((String.join lines).toList ++ spaced blocks) (settled ms) := by
    refine hplain [] [] nofun (fun m _ => absent_nil m.1) _ _ ?_
    have hend := htables [] (settled ms) (fun current => Reads.nil)
    rw [List.append_nil] at hend
    exact hend []
  rw [List.map_nil] at hblocks
  refine ⟨_, by rw [pretty, hlines, hblocks]; rfl, ?_⟩
  have hdocument := reads_intercalate hread
  generalize "\n".intercalate ((if lines.isEmpty then [] else [String.join lines]) ++ blocks) = text
    at hdocument
  rw [parse]
  cases hcs : text.toList with
  | nil =>
    rw [hcs] at hdocument
    exact hdocument.run (Nat.lt_succ_self _)
  | cons c cs =>
    rw [hcs] at hdocument
    simp only [hdocument.no_mark, Bool.false_eq_true, if_false]
    exact hdocument.run (Nat.lt_succ_self _)

end ChainAgent.Toml
