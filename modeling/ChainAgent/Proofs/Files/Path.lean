import ChainAgent.Files.Path
import ChainAgent.Proofs.Text.Lines

/-! Files in a directory.

The place of a plain name joined to a path is the place of that path with the name appended, however
the path is written (`components_join`). A path in the home directory has another place than its
text, unless the home directory is called `~` (`join_home_eq_iff`). -/
namespace ChainAgent.Files.Path

/-- A single component that is neither `.` nor `..`. -/
structure IsPlain (n : String) : Prop where
  nonempty : n ≠ ""
  no_slash : '/' ∉ n.toList
  not_here : n ≠ "."
  not_up : n ≠ ".."

theorem names_of_not_mem {n : String} (hne : n ≠ "") (h : '/' ∉ n.toList) : names n = [n] := by
  have hempty : n.isEmpty = false := by simpa using hne
  simp [names, Text.pieces_of_not_mem h, hempty]

theorem IsPlain.not_absolute {n : String} (h : IsPlain n) : isAbsolute n = false := by
  rw [isAbsolute, beq_eq_false_iff_ne]
  exact fun hhead => h.no_slash (List.mem_of_head? hhead)

theorem names_append (p q : String) : names (p ++ "/" ++ q) = names p ++ names q := by
  have hpieces : Text.pieces '/' (p ++ "/" ++ q) = Text.pieces '/' p ++ Text.pieces '/' q :=
    Text.pieces_append '/' p q
  simp only [names, hpieces, List.filter_append]

theorem isAbsolute_append {p : String} (hp : p ≠ "") (q : String) :
    isAbsolute (p ++ q) = isAbsolute p := by
  have hne : p.toList ≠ [] := by simpa using hp
  obtain ⟨c, cs, hcs⟩ := List.exists_cons_of_ne_nil hne
  simp [isAbsolute, hcs]

theorem isAbsolute_empty : isAbsolute "" = false := rfl

theorem names_empty : names "" = [] := rfl

theorem join_absolute (base : String) {p : String} (h : isAbsolute p = true) : join base p = p :=
  if_pos h

/-- Joining is compatible with appending text. -/
theorem join_append (base : String) {p : String} (hp : p ≠ "") (q : String) :
    join base (p ++ q) = join base p ++ q := by
  unfold join
  rw [isAbsolute_append hp]
  split
  · rfl
  · split
    · rfl
    · split <;> simp only [String.append_assoc]

theorem join_eq_append (base : String) {p : String} (h : isAbsolute p = false) :
    join base p = join base "" ++ p := by
  unfold join
  rw [h, isAbsolute_empty]
  split
  · contradiction
  · split
    · simp
    · split <;> simp

/-- A relative path is appended to its base. -/
theorem join_relative (base : String) {p : String} (h : isAbsolute p = false) :
    isAbsolute (join base p) = isAbsolute base ∧ names (join base p) = names base ++ names p := by
  unfold join
  rw [if_neg (by simp [h])]
  split
  · rename_i hbase
    have hbase : base = "" := by simpa using hbase
    rw [hbase, h, names_empty]
    exact ⟨rfl, rfl⟩
  · rename_i hbase
    have hbase : base ≠ "" := by simpa using hbase
    split
    · rename_i hslash
      rw [beq_iff_eq, List.getLast?_eq_some_iff] at hslash
      obtain ⟨front, hfront⟩ := hslash
      have hends : base = String.ofList front ++ "/" ++ "" := by
        rw [← String.toList_inj, hfront]
        simp
      have hjoined : base ++ p = String.ofList front ++ "/" ++ p := by
        rw [hends]
        simp
      have hnames : names base = names (String.ofList front) := by
        rw [hends, names_append]
        exact List.append_nil _
      refine ⟨isAbsolute_append hbase p, ?_⟩
      rw [hjoined, names_append, hnames]
    · rw [String.append_assoc]
      refine ⟨isAbsolute_append hbase _, ?_⟩
      rw [← String.append_assoc, names_append]

theorem isAbsolute_join (base p : String) :
    isAbsolute (join base p) = (isAbsolute base || isAbsolute p) := by
  cases hp : isAbsolute p with
  | true => rw [join_absolute base hp, hp, Bool.or_true]
  | false => rw [(join_relative base hp).1, Bool.or_false]

/-- **A file is one component below its directory.** -/
theorem components_join (directory p : String) {n : String} (h : IsPlain n) :
    components directory (join p n) = components directory p ++ [n] := by
  obtain ⟨habsolute, hnames⟩ := join_relative p h.not_absolute
  simp only [components, habsolute, hnames, names_of_not_mem h.nonempty h.no_slash]
  rw [← List.append_assoc, List.foldl_append]
  simp [h.not_here, h.not_up]

/-! ### The home directory -/

/-- A path in the home directory: `~`, and what is below it. -/
def FromHome (p rest : String) : Prop := p = "~" ++ rest ∧ (rest = "" ∨ isAbsolute rest = true)

theorem exists_of_isAbsolute {p : String} (h : isAbsolute p = true) :
    ∃ cs, p = String.ofList ('/' :: cs) := by
  rw [isAbsolute, beq_iff_eq, List.head?_eq_some_iff] at h
  obtain ⟨cs, hcs⟩ := h
  exact ⟨cs, by rw [← hcs, String.ofList_toList]⟩

theorem expandHome_of_fromHome {p rest : String} (h : FromHome p rest) (home : String) :
    expandHome (some home) p = home ++ rest := by
  obtain ⟨rfl, rfl | hrest⟩ := h
  · simp [expandHome]
  · obtain ⟨cs, rfl⟩ := exists_of_isAbsolute hrest
    simp [expandHome]

theorem expandHome_eq_self {p : String} (h : ∀ rest, ¬FromHome p rest) (home : Option String) :
    expandHome home p = p := by
  unfold expandHome
  split
  · rename_i hp
    exact absurd ⟨by simpa [← String.toList_inj] using hp, .inl rfl⟩ (h "")
  · rename_i rest hp
    refine absurd ⟨?_, .inr ?_⟩ (h (String.ofList ('/' :: rest)))
    · simpa [← String.toList_inj] using hp
    · simp [isAbsolute]
  · rfl

/-- A path in the home directory differs from one in a directory `~`, unless the two directories
have one path. -/
theorem join_home_eq_iff (base home : String) {rest : String}
    (hrest : rest = "" ∨ isAbsolute rest = true) :
    join base (home ++ rest) = join base ("~" ++ rest) ↔ join base home = join base "~" := by
  by_cases hhome : home = ""
  · -- neither can be: the name `~` is one more than there is
    have htilde : join base "~" = join base "" ++ "~" := join_eq_append base (by decide)
    have hbelow : join base ("~" ++ rest) = join base "" ++ "~" ++ rest := by
      rw [join_append base (by decide : "~" ≠ ""), htilde]
    have hone : "~".length = 1 := rfl
    have hshort : (join base rest).length < (join base "" ++ "~" ++ rest).length := by
      simp only [String.length_append, hone]
      rcases hrest with rfl | hrest
      · omega
      · rw [join_absolute base hrest]
        omega
    rw [hhome, hbelow, htilde]
    refine iff_of_false (fun h => ?_) (fun h => ?_)
    · rw [String.empty_append] at h
      rw [h] at hshort
      exact Nat.lt_irrefl _ hshort
    · have hlength := congrArg String.length h
      rw [String.length_append] at hlength
      omega
  · rw [join_append base hhome, join_append base (by decide : "~" ≠ ""), String.append_left_inj]

end ChainAgent.Files.Path
