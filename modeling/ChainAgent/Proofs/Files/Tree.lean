import ChainAgent.Files.Tree

/-! Operations on a file tree.

Appending to a file changes that file alone (`Holds.append`), and creating an existing directory
changes nothing (`createDirs_present`). Creating a new one leaves all other entries as they were
(`createDirs_made`). -/
namespace ChainAgent.Files.Tree

theorem get?_put_self (t : Tree) {place : List String} (hplace : place ≠ []) (e : Entry) :
    (t.put place e).get? place = some e := by
  simp [get?, put, hplace]

theorem get?_put_ne (t : Tree) {place other : List String} (hother : other ≠ place) (e : Entry) :
    (t.put place e).get? other = t.get? other := by
  have hfind : (t.entries.filter (·.1 != place)).find? (·.1 == other) =
      t.entries.find? (·.1 == other) := by
    rw [List.find?_filter]
    congr 1
    funext entry
    by_cases hentry : entry.1 = other
    · simp [hentry, hother]
    · simp [hentry]
  simp only [get?, put, List.find?_cons, beq_eq_false_iff_ne.mpr hother.symm, hfind]

theorem read_eq_ok_iff {t : Tree} {place : List String} {bytes : ByteArray} :
    t.read place = .ok bytes ↔ t.get? place = some (.file bytes) := by
  unfold read
  split <;> simp_all

theorem get?_of_missing {t : Tree} {place : List String} (h : t.read place = .error .missing) :
    t.get? place = none := by
  unfold read at h
  split at h
  · cases h
  · cases h
  · assumption

/-- The content of the file at a path; where there is none, there may be no file. -/
def Holds (t : Tree) (place : List String) (bytes : ByteArray) : Prop :=
  t.read place = .ok bytes ∨ bytes = .empty ∧ t.read place = .error .missing

theorem Holds.ne_nil {t : Tree} {place : List String} {bytes : ByteArray}
    (h : t.Holds place bytes) : place ≠ [] := by
  rintro rfl
  obtain hfile | ⟨-, hnone⟩ := h
  · cases hfile
  · cases hnone

/-- **Appended bytes are at the end of the file.** -/
theorem Holds.append {t : Tree} {place : List String} {bytes : ByteArray} (h : t.Holds place bytes)
    (hdirectory : t.get? place.dropLast = some .directory) (more : ByteArray) :
    t.append place more = .ok (t.put place (.file (bytes ++ more))) := by
  obtain hfile | ⟨rfl, hmissing⟩ := h
  · simp only [Tree.append, read_eq_ok_iff.mp hfile]
  · simp only [Tree.append, Tree.write, get?_of_missing hmissing, hdirectory,
      ByteArray.empty_append]

theorem holds_put (t : Tree) {place : List String} (hplace : place ≠ []) (bytes : ByteArray) :
    (t.put place (.file bytes)).Holds place bytes :=
  .inl (read_eq_ok_iff.mpr (t.get?_put_self hplace _))

theorem createDirs_present {t : Tree} {place : List String} (h : t.get? place = some .directory) :
    t.createDirs place = .ok t := by
  simp only [createDirs, h]

/-! ### Making directories -/

/-- A tree that has only gained directories. -/
def Extends (t t' : Tree) : Prop :=
  ∀ place, t'.get? place = t.get? place ∨ t.get? place = none ∧ t'.get? place = some .directory

theorem Extends.trans {t t' t'' : Tree} (h : t.Extends t') (h' : t'.Extends t'') :
    t.Extends t'' := by
  intro place
  obtain hsame | ⟨hnone, hnew⟩ := h place <;> obtain hsame' | ⟨hnone', hnew'⟩ := h' place
  · exact .inl (hsame'.trans hsame)
  · exact .inr ⟨hsame ▸ hnone', hnew'⟩
  · exact .inr ⟨hnone, hsame'.trans hnew⟩
  · exact .inr ⟨hnone, hnew'⟩

/-- Creates a directory where there is no entry. -/
def addDirectory (t : Tree) (place : List String) : Tree :=
  if (t.get? place).isSome then t else t.put place .directory

theorem addDirectory_extends (t : Tree) (place : List String) :
    t.Extends (t.addDirectory place) ∧ ((t.addDirectory place).get? place).isSome := by
  unfold addDirectory
  split
  · rename_i hsome
    exact ⟨fun _ => .inl rfl, hsome⟩
  · rename_i hnone
    have hroot : place ≠ [] := by
      rintro rfl
      exact hnone rfl
    refine ⟨fun other => ?_, by rw [t.get?_put_self hroot, Option.isSome_some]⟩
    by_cases hother : other = place
    · rw [hother]
      exact .inr ⟨by simpa using hnone, t.get?_put_self hroot _⟩
    · exact .inl (t.get?_put_ne hother _)

theorem addDirectories_extends (places : List (List String)) (t : Tree) :
    t.Extends (places.foldl addDirectory t) ∧
      ∀ place ∈ places, ((places.foldl addDirectory t).get? place).isSome := by
  induction places generalizing t with
  | nil => exact ⟨fun _ => .inl rfl, fun place h => absurd h List.not_mem_nil⟩
  | cons first places ih =>
    obtain ⟨hfirst, hmade⟩ := t.addDirectory_extends first
    obtain ⟨hrest, hall⟩ := ih (t.addDirectory first)
    refine ⟨hfirst.trans hrest, fun place hplace => ?_⟩
    obtain rfl | hplace := List.mem_cons.mp hplace
    · obtain hsame | ⟨-, hnew⟩ := hrest place
      · rw [List.foldl_cons, hsame, hmade]
      · rw [List.foldl_cons, hnew, Option.isSome_some]
    · exact hall place hplace

/-- **A created directory exists, and nothing else has changed except that its parents exist.** -/
theorem createDirs_made {t t' : Tree} {place : List String} (h : t.createDirs place = .ok t') :
    t'.get? place = some .directory ∧ t.Extends t' := by
  unfold createDirs at h
  split at h
  · rename_i hpresent
    cases h
    exact ⟨hpresent, fun _ => .inl rfl⟩
  · cases h
  · rename_i habsent
    split at h
    · obtain ⟨hextends, hall⟩ := addDirectories_extends
        ((List.range place.length).map fun n => place.take (n + 1)) t
      rw [List.foldl_map] at hextends hall
      cases h
      refine ⟨?_, hextends⟩
      have hne : place ≠ [] := by
        rintro rfl
        cases habsent
      have hlast : place ∈ (List.range place.length).map fun n => place.take (n + 1) := by
        refine List.mem_map.mpr ⟨place.length - 1, ?_, ?_⟩
        · have := List.length_pos_iff.mpr hne
          rw [List.mem_range]
          omega
        · exact List.take_of_length_le (by omega)
      have hsome := hall place hlast
      obtain hsame | ⟨-, hnew⟩ := hextends place
      · rw [hsame, habsent] at hsome
        cases hsome
      · exact hnew
    · cases h

/-! ### Writing -/

/-- An existing file is replaced. -/
theorem write_file {t : Tree} {place : List String} {old : ByteArray}
    (h : t.get? place = some (.file old)) (bytes : ByteArray) :
    t.write place bytes = .ok (t.put place (.file bytes)) := by
  simp only [write, h]

/-- A path that can be written is no directory. -/
theorem write_eq_ok {t t' : Tree} {place : List String} {bytes : ByteArray}
    (h : t.write place bytes = .ok t') :
    t.get? place ≠ some .directory ∧ t' = t.put place (.file bytes) := by
  unfold write at h
  split at h
  · rename_i hfile
    cases h
    exact ⟨by simp [hfile], rfl⟩
  · cases h
  · rename_i hnone
    split at h
    · cases h
      exact ⟨by simp [hnone], rfl⟩
    · cases h

end ChainAgent.Files.Tree
