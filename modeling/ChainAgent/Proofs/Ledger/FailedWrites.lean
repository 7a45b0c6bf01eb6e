import ChainAgent.Proofs.Ledger.LogFile

/-! Errors that are reported after a line has been written.

The ledger in memory ignores such a line, so every acknowledged task is found in it. The log has it:
the next attempt has the same id, and of two lines with one id the first is kept when the log is
replayed. An acknowledged task is found after reopening exactly when no other attempt had its id
before it (`get_after_faults`). -/
namespace ChainAgent.Ledger.Journal

/-- **An acknowledged task stays in the ledger, and is found after reopening if its line is the
first with its id**: after attempts on a new log, some of which report an error although their line
is written. -/
theorem get_after_faults {w w₁ w₂ : World} {directory : String} {j j' : Journal}
    {attempts : List Attempt} {answers : List (Except Failure Task)}
    (hlog : w.Logs directory .empty) (hopen : openAt World.host directory w = (.ok j, w₁))
    (hstore : storeAll j attempts w₁ = ((answers, j'), w₂)) :
    ∃ j'', openAt World.host directory w₂ = (.ok j'', w₂) ∧ ∀ t, .ok t ∈ answers →
      (j'.count < 2 ^ 63 → j'.get t.id = .ok t) ∧
      (j''.get t.id = .ok t ↔ (attempted j attempts).find? (·.id == t.id) = some t) := by
  obtain ⟨hj, rfl, rfl, hgrown⟩ := storeAll_new hlog hopen hstore
  have hreopen := openAt_logs hgrown
  rw [replay_logOf] at hreopen
  refine ⟨_, hreopen, fun t ht => ⟨fun hfew => ?_, get_ofTasks⟩⟩
  obtain ⟨htasks, hid⟩ := ofTasks_nil (some (World.logPath directory))
  rw [← hj] at htasks hid
  have hkept := afterAll_tasks j attempts
  rw [htasks, List.nil_append] at hkept
  have hids := acknowledged_ids j attempts
  rw [hid] at hids
  have hascending : Ascending (afterAll j attempts).tasks := by
    rw [count, hkept] at hfew
    rw [hkept]
    exact (ascending_iff_of_counted hids).mpr hfew
  rw [get_eq_ok_iff hascending, hkept, mem_acknowledged]
  exact ⟨ht, rfl⟩

/-- A line with a reported error, and a task acknowledged after it. -/
theorem get_after_one_fault :
    ∃ (second : Task) (j j' j'' : Journal) (w w' : World) (attempts : List Attempt)
        (f : Files.Fault),
      w.Logs "data" .empty ∧ openAt World.host "data" w = (.ok j, w) ∧
      storeAll j attempts w = (([.error (.io f), .ok second], j'), w') ∧
      openAt World.host "data" w' = (.ok j'', w') ∧
      j'.get second.id = .ok second ∧ j''.get second.id ≠ .ok second := by
  let j := ofTasks (some (World.logPath "data")) []
  let draft (goal : String) : Task.Draft := {goal := goal, chainAction := "", address := ""}
  let failed : Attempt := ⟨100, draft "first", some (.other "flush failed")⟩
  let stored : Attempt := ⟨100, draft "second", none⟩
  have hlog : (World.keeping none).Logs "data" "".toUTF8 := World.keeping_logs none
  have hopen : openAt World.host "data" (World.keeping none) = (.ok j, _) := openAt_logs hlog
  obtain ⟨w', hrun, -⟩ := storeAll_logs [failed, stored] hlog (j := j) rfl
  have hstore : storeAll j [failed, stored] (World.keeping none) =
    (([.error (.io (.other "flush failed")), .ok (stored.task j)], _), w') := hrun
  obtain ⟨j'', hreopen, hkept⟩ := get_after_faults hlog hopen hstore
  obtain ⟨hbefore, hafter⟩ := hkept (stored.task j) (by simp)
  have hcount : (afterAll j [failed, stored]).count = 1 := by
    rw [count, afterAll_tasks, (ofTasks_nil _).1]
    rfl
  refine ⟨stored.task j, j, _, j'', _, w', _, _, hlog, hopen, hstore, hreopen,
    hbefore (by rw [hcount]; decide), fun hget => ?_⟩
  have hfirst := hafter.mp hget
  have hid : (failed.task j).id = (stored.task j).id := rfl
  have hfound : attempted j [failed, stored] = [failed.task j, stored.task j] := rfl
  rw [hfound, List.find?_cons, hid, beq_self_eq_true, Option.some.injEq] at hfirst
  exact absurd (congrArg Task.goal hfirst) (by decide)

end ChainAgent.Ledger.Journal
