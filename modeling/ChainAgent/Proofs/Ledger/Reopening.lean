import ChainAgent.Proofs.Ledger.LogFile
import Mathlib.Data.List.Perm.Subperm

/-! Reopening of a ledger.

The tasks of a ledger are those of its log at first and those stored since. All of them are there
after reopening exactly when the lines of the new ones began on a new line, which they do not if the
log ended in an unterminated line that is not blank (`reopen_iff`). -/
namespace ChainAgent.Ledger.Journal

open Text (openLine saysNothing)

/-! ### A log that has grown -/

section Grown

variable {log : Option String} {found grown tasks : List Task}

/-- Every recorded id is one of the ledger's. -/
theorem exists_of_recorded (log : Option String) {t : Task} (h : t ∈ found) :
    ∃ u ∈ (ofTasks log found).tasks, u.id = t.id := by
  have hsome : (found.find? (·.id == t.id)).isSome := List.find?_isSome.mpr ⟨t, h, by simp⟩
  obtain ⟨u, hu⟩ := Option.isSome_iff_exists.mp hsome
  have hid : u.id = t.id := by simpa using List.find?_some hu
  rw [← hid] at hu
  exact ⟨u, mem_ofTasks.mpr hu, hid⟩

theorem not_recorded_of_nodup {t : Task} (ht : t ∈ tasks)
    (hnodup : (((ofTasks log found).tasks ++ tasks).map (·.id)).Nodup) :
    ∀ u ∈ found, u.id ≠ t.id := by
  intro u hu hid
  obtain ⟨v, hv, hvu⟩ := exists_of_recorded log hu
  rw [List.map_append, List.nodup_append] at hnodup
  exact hnodup.2.2 v.id (List.mem_map_of_mem hv) t.id (List.mem_map_of_mem ht) (hvu.trans hid)

/-- New tasks with other ids are all in the reopened ledger, and so are the old ones. -/
theorem get_grown (hnodup : (((ofTasks log found).tasks ++ tasks).map (·.id)).Nodup) :
    ∀ t ∈ (ofTasks log found).tasks ++ tasks, (ofTasks log (found ++ tasks)).get t.id = .ok t := by
  intro t ht
  rw [get_ofTasks, List.find?_append]
  obtain hold | hnew := List.mem_append.mp ht
  · rw [mem_ofTasks.mp hold]
    rfl
  · have hnone : found.find? (·.id == t.id) = none := by
      simpa using not_recorded_of_nodup hnew hnodup
    rw [List.map_append, List.nodup_append] at hnodup
    rw [hnone, find?_of_nodup hnodup.2.1 hnew]
    rfl

/-- The ledger of a part of the records has only their ids, and each once. -/
theorem count_lt_of_repeated (hpart : ∀ t ∈ grown, t ∈ found ++ tasks)
    (hrepeated : ¬ (((ofTasks log found).tasks ++ tasks).map (·.id)).Nodup) :
    (ofTasks log grown).count < ((ofTasks log found).tasks ++ tasks).length := by
  have hids := (ofTasks_ascending log grown).nodup
  have hsubset : (ofTasks log grown).tasks.map (·.id) ⊆
      ((ofTasks log found).tasks ++ tasks).map (·.id) := by
    intro id hid
    obtain ⟨t, ht, rfl⟩ := List.mem_map.mp hid
    obtain hold | hnew := List.mem_append.mp (hpart t (List.mem_of_find?_eq_some (mem_ofTasks.mp ht)))
    · obtain ⟨u, hu, hut⟩ := exists_of_recorded log hold
      exact List.mem_map.mpr ⟨u, List.mem_append_left _ hu, hut⟩
    · exact List.mem_map_of_mem (List.mem_append_right _ hnew)
  have hsubperm := List.subperm_of_subset hids hsubset
  rw [← Nat.not_le]
  intro hle
  refine hrepeated ((hsubperm.perm_of_length_le ?_).nodup_iff.mp hids)
  rwa [List.length_map, List.length_map]

end Grown

/-! ### Opening again -/

/-- The records of the grown log are those of the old one and the new ones. -/
theorem mem_replay_grown {text : String} {tasks : List Task} {t : Task}
    (h : t ∈ replay (text ++ logOf tasks)) : t ∈ replay text ++ tasks := by
  by_cases htext : saysNothing (openLine text)
  · rwa [replay_grown htext] at h
  · cases tasks with
    | nil => simpa [logOf] using h
    | cons first tasks =>
      rw [replay_glued (by simpa using htext)] at h
      rw [replay_eq]
      obtain hclosed | hrest := List.mem_append.mp h
      · simp [hclosed]
      · simp [hrest]

/-- **All tasks are there after reopening exactly when the new lines began on a new line.** A ledger
in which ids wrapped around onto others is reopened with fewer tasks. -/
theorem reopen_iff {w w₁ w₂ : World} {directory text : String} {j j' : Journal}
    {attempts : List Attempt} {tasks : List Task} (hlog : w.Logs directory text.toUTF8)
    (hopen : openAt World.host directory w = (.ok j, w₁))
    (hstore : storeAll j attempts w₁ = ((tasks.map .ok, j'), w₂)) :
    ∃ j'', openAt World.host directory w₂ = (.ok j'', w₂) ∧
      (((j.tasks ++ tasks).map (·.id)).Nodup →
        ((∀ t ∈ j.tasks ++ tasks, j''.get t.id = .ok t) ↔
          tasks = [] ∨ saysNothing (openLine text))) ∧
      (¬ ((j.tasks ++ tasks).map (·.id)).Nodup → j''.count < (j.tasks ++ tasks).length) := by
  rw [openAt_logs hlog] at hopen
  cases hopen
  obtain ⟨w', hrun, hgrown⟩ := storeAll_logs attempts hlog (j := ofTasks _ (replay text)) rfl
  obtain ⟨hresults, rfl⟩ := Prod.mk.inj (hrun.symm.trans hstore)
  obtain ⟨hresults, -⟩ := Prod.mk.inj hresults
  rw [(attempted_of_ok hresults).1] at hgrown
  refine ⟨_, openAt_logs hgrown, fun hnodup => ?_, count_lt_of_repeated fun t => mem_replay_grown⟩
  constructor
  · intro hall
    cases tasks with
    | nil => exact .inl rfl
    | cons first rest =>
      refine .inr (Bool.not_eq_false _ ▸ fun htext => ?_)
      -- the first new line is glued to the open one, and no other line has its id
      have hfirst := get_ofTasks.mp (hall first (by simp))
      rw [replay_glued htext] at hfirst
      obtain hclosed | hrest := List.mem_append.mp (List.mem_of_find?_eq_some hfirst)
      · have hfound : first ∈ replay text := by
          rw [replay_eq]
          exact List.mem_append_left _ hclosed
        exact not_recorded_of_nodup (by simp) hnodup first hfound rfl
      · rw [List.map_append, List.map_cons, List.nodup_append, List.nodup_cons] at hnodup
        exact hnodup.2.1.1 (List.mem_map_of_mem hrest)
  · intro hended
    have hlines : replay (text ++ logOf tasks) = replay text ++ tasks := by
      obtain rfl | htext := hended
      · simp [logOf]
      · exact replay_grown htext tasks
    rw [hlines]
    exact get_grown hnodup

/-- A log of one unterminated line, and one task stored after it. -/
theorem reopen_unended :
    ∃ (first second : Task) (j j' j'' : Journal) (w w' : World) (attempt : Attempt),
      w.Logs "data" first.line.toUTF8 ∧ openAt World.host "data" w = (.ok j, w) ∧
      j.tasks = [first] ∧ storeAll j [attempt] w = (([second].map .ok, j'), w') ∧
      openAt World.host "data" w' = (.ok j'', w') ∧
      ¬ ∀ t ∈ [first, second], j''.get t.id = .ok t := by
  let first : Task := Task.Draft.stored {goal := "late", chainAction := "", address := ""} 1 300
  let attempt : Attempt := {now := 400, draft := {goal := "next", chainAction := "", address := ""}}
  have hlog := World.keeping_logs (some first.line.toUTF8)
  have hopen := openAt_logs hlog
  rw [replay_record] at hopen
  have htasks := ofTasks_of_ascending (some (World.logPath "data")) (List.pairwise_singleton _ first)
  obtain ⟨w', hstore, -⟩ := storeAll_logs [attempt] hlog
    (j := ofTasks (some (World.logPath "data")) [first]) rfl
  let second := attempt.task (ofTasks (some (World.logPath "data")) [first])
  have hstored : storeAll _ [attempt] _ = (([second].map .ok, _), w') := hstore
  obtain ⟨j'', hreopen, hexact, -⟩ := reopen_iff hlog hopen hstored
  have hid : (ofTasks (some (World.logPath "data")) [first]).nextId = 2 := by
    rw [ofTasks_nextId, htasks]
    rfl
  rw [htasks] at hexact
  refine ⟨first, second, _, _, j'', _, w', attempt, hlog, hopen, htasks, hstored, hreopen, ?_⟩
  refine (hexact ?_).not.mpr ?_
  · have hsecond : second.id = 2 := hid
    have hfirst : first.id = 1 := rfl
    simp [hfirst, hsecond]
  · have hline := saysNothing_line first ""
    rw [String.empty_append] at hline
    rw [(Text.lines_of_not_mem first.newline_not_mem_line).1, hline]
    simp

end ChainAgent.Ledger.Journal
