import ChainAgent.Proofs.Files.Path
import Mathlib.Data.List.DropRight

/-! Path resolution from a directory.

The components of a path are resolved one by one from the current place: `..` goes up, `.` stays, a
name goes down. A path only removes some last components of its start (`climbs`) and appends
components of its own (`walk_eq`), so from two directories it leads to one place if and only if they
agree above the components that it removes (`components_eq_iff`). A path without a parent directory
leads to its start (`walk_of_parent?_eq_none`), and the parent of any other is absolute exactly if
the path is (`isAbsolute_parent`). -/
namespace ChainAgent.Files.Path

/-- One component, from a place that is given in reverse. -/
def step (done : List String) (n : String) : List String :=
  if n == "." then done else if n == ".." then done.drop 1 else n :: done

/-- Several components, both places given in reverse. -/
def walk (done ns : List String) : List String := ns.foldl step done

/-- How many components of its start a path removes. -/
def climbs : List String → Nat
  | [] => 0
  | n :: rest =>
    if n == "." then climbs rest else if n == ".." then climbs rest + 1 else climbs rest - 1

theorem walk_append (done ns ms : List String) : walk done (ns ++ ms) = walk (walk done ns) ms :=
  List.foldl_append

/-- One more component leaves the start as it is, removes one component of it, or undoes an own
one. -/
theorem step_drop (done : List String) (n : String) (ns : List String) :
    (step done n).drop (climbs ns) =
      (step [] n).drop (climbs ns) ++ done.drop (climbs (n :: ns)) := by
  by_cases hhere : n = "."
  · simp [step, climbs, hhere]
  · by_cases hup : n = ".."
    · simp [step, climbs, hup, Nat.add_comm]
    · cases hclimbs : climbs ns <;> simp [step, climbs, hhere, hup, hclimbs]

/-- **A path keeps its start but for the components that it removes.** -/
theorem walk_eq (done ns : List String) : walk done ns = walk [] ns ++ done.drop (climbs ns) := by
  induction ns generalizing done with
  | nil => rfl
  | cons n ns ih =>
    have hstep (done : List String) : walk done (n :: ns) =
        walk [] ns ++ (step done n).drop (climbs ns) := ih _
    rw [hstep, hstep, List.append_assoc, step_drop]

theorem walk_eq_iff {done done' ns : List String} :
    walk done ns = walk done' ns ↔ done.drop (climbs ns) = done'.drop (climbs ns) := by
  rw [walk_eq done, walk_eq done', List.append_right_inj]

/-! ### Places -/

theorem components_eq (directory p : String) : components directory p =
    (walk (if isAbsolute p then [] else walk [] (names directory)) (names p)).reverse := by
  show (walk [] ((if isAbsolute p then [] else names directory) ++ names p)).reverse = _
  rw [walk_append]
  split <;> rfl

theorem components_absolute {p : String} (h : isAbsolute p = true) (directory directory' : String) :
    components directory p = components directory' p := by
  rw [components_eq, components_eq, if_pos h, if_pos h]

/-- A relative path is resolved from its directory. -/
theorem components_relative {p : String} (h : isAbsolute p = false) (directory : String) :
    components directory p = (walk (components directory "").reverse (names p)).reverse := by
  rw [components_eq, components_eq, h, isAbsolute_empty, names_empty, List.reverse_reverse]
  rfl

/-- A directory relative to another is the place that it has there. -/
theorem components_join_empty (directory base : String) :
    components (join directory base) "" = components directory base := by
  rw [components_eq, components_eq, isAbsolute_empty, names_empty]
  cases hbase : isAbsolute base with
  | true => rw [join_absolute directory hbase]; rfl
  | false =>
    rw [(join_relative directory hbase).2, walk_append]
    rfl

/-- A path joined to a base has one place, resolved from the base or joined to it. -/
theorem components_join_join (directory base p : String) :
    components (join directory base) p = components directory (join base p) := by
  cases hp : isAbsolute p with
  | true => rw [join_absolute base hp, components_absolute hp]
  | false =>
    obtain ⟨habsolute, hnames⟩ := join_relative base hp
    rw [components_relative hp, components_join_empty, components_eq, components_eq, habsolute,
      hnames, walk_append, List.reverse_reverse]

/-- **A path leads to one place from two directories if it is absolute, or if they agree above the
components that it removes.** -/
theorem components_eq_iff {directory directory' p : String} :
    components directory p = components directory' p ↔ isAbsolute p = true ∨
      (components directory "").rdrop (climbs (names p)) =
        (components directory' "").rdrop (climbs (names p)) := by
  cases hp : isAbsolute p with
  | true => simp [components_absolute hp directory directory']
  | false =>
    rw [components_relative hp, components_relative hp, List.reverse_inj, walk_eq_iff,
      List.rdrop_eq_reverse_drop_reverse, List.rdrop_eq_reverse_drop_reverse, List.reverse_inj]
    simp

/-! ### The directory of a path -/

theorem getLast?_trimmedEnd (cs : List Char) : (trimmedEnd cs).getLast? = cs.getLast? := by
  fun_induction trimmedEnd cs with
  | case1 rest ih => rw [ih, List.getLast?_cons_cons]
  | case2 c rest ih => rw [ih, List.getLast?_cons_cons]
  | case3 cs => rfl

/-- The components of a path with a slash, in reverse. -/
theorem names_slash (front : List Char) (back : String) :
    names (String.ofList (back.toList.reverse ++ '/' :: front).reverse) =
      names (String.ofList front.reverse) ++ names back := by
  have hpath : String.ofList (back.toList.reverse ++ '/' :: front).reverse =
      String.ofList front.reverse ++ "/" ++ back := by simp [← String.toList_inj]
  rw [hpath, names_append]

theorem names_slash_end (front : List Char) :
    names (String.ofList ('/' :: front).reverse) = names (String.ofList front.reverse) :=
  (names_slash front "").trans (List.append_nil _)

/-- What trimming removes at the end of a path does not change its place. -/
theorem walk_trimmedEnd (done : List String) (cs : List Char) :
    walk done (names (String.ofList (trimmedEnd cs).reverse)) =
      walk done (names (String.ofList cs.reverse)) := by
  fun_induction trimmedEnd cs with
  | case1 rest ih =>
    have hhere : names (String.ofList ('.' :: '/' :: rest).reverse) = _ := names_slash rest "."
    rw [ih, hhere, names_slash_end, walk_append]
    rfl
  | case2 c rest ih =>
    rw [ih, names_slash_end]
  | case3 cs => rfl

/-- A path without a parent directory leads to its start. -/
theorem walk_of_parent?_eq_none {p : String} (h : parent? p = none) (done : List String) :
    walk done (names p) = done := by
  have hcut : trimmedEnd p.toList.reverse = [] ∨ trimmedEnd p.toList.reverse = ['/'] := by
    simpa [parent?, or_iff_not_imp_left] using h
  have hwalk := walk_trimmedEnd done p.toList.reverse
  rw [List.reverse_reverse, String.ofList_toList] at hwalk
  rw [← hwalk]
  rcases hcut with hcut | hcut <;> rw [hcut] <;> rfl

theorem isAbsolute_iff_getLast? {p : String} :
    isAbsolute p = true ↔ p.toList.reverse.getLast? = some '/' := by
  rw [List.getLast?_reverse, isAbsolute, beq_iff_eq]

theorem getLast?_dropWhile_slash (cs : List Char) :
    (cs.dropWhile (· != '/')).getLast? = some '/' ↔ cs.getLast? = some '/' := by
  induction cs with
  | nil => rfl
  | cons c cs ih =>
    by_cases hc : c = '/'
    · simp [hc]
    · rw [List.dropWhile_cons_of_pos (by simpa using hc), ih]
      cases cs <;> simp [hc]

theorem parent?_eq_some {p directory : String} (h : parent? p = some directory) :
    (trimmedEnd p.toList.reverse ≠ [] ∧ trimmedEnd p.toList.reverse ≠ ['/']) ∧
      String.ofList (trimmedEnd ((trimmedEnd p.toList.reverse).dropWhile (· != '/'))).reverse =
        directory := by
  simpa [parent?] using h

/-- The parent of a path is absolute exactly if the path is. -/
theorem isAbsolute_parent {p directory : String} (h : parent? p = some directory) :
    isAbsolute directory = isAbsolute p := by
  obtain ⟨-, rfl⟩ := parent?_eq_some h
  rw [Bool.eq_iff_iff, isAbsolute_iff_getLast?, isAbsolute_iff_getLast?, String.toList_ofList,
    List.reverse_reverse, getLast?_trimmedEnd, getLast?_dropWhile_slash, getLast?_trimmedEnd]

end ChainAgent.Files.Path
