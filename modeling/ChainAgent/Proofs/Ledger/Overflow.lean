import ChainAgent.Ledger.Overflow
import ChainAgent.Proofs.Ledger.LogFile

/-! Creates in a build with overflow checks.

Such a build does what a release build does until a sum overflows, and then panics. From a next id
that has not wrapped around, a sequence of attempts panics exactly when the ids of the acknowledged
ones reach the greatest 64-bit id (`wraps_iff`); otherwise it gives the same results and leaves the
same ledger (`storeAllChecked_logs`). -/
namespace ChainAgent.Ledger

section Panics

variable {σ α β : Type}

/-- After a step that panics nothing else is done. -/
theorem optional_bind (x : OptionT (StateM σ) α) (f : α → OptionT (StateM σ) β) (s : σ) :
    ((x >>= f).run).run s =
      match (x.run).run s with
      | (none, s) => (none, s)
      | (some a, s) => ((f a).run).run s := by
  simp only [OptionT.run_bind, Option.elimM, StateT.run_bind]
  generalize (x.run).run s = r
  obtain ⟨_ | a, s⟩ := r <;> rfl

theorem checked_run (hasWrapped : α → Bool) (operation : StateM σ α) (s : σ) :
    ((checked hasWrapped operation).run).run s =
      (if hasWrapped (operation s).1 then none else some (operation s).1, (operation s).2) := by
  show ((if hasWrapped (operation s).1 then failure else pure (operation s).1 :
    OptionT (StateM σ) α).run).run (operation s).2 = _
  split <;> rfl

end Panics

namespace Journal

/-- Stores the draft of an attempt in a build with overflow checks. -/
def Attempt.storeChecked (a : Attempt) (j : Journal) :
    OptionT (StateM World) (Except Failure Task × Journal) := fun w =>
  j.createChecked (World.reporting a.report) a.draft {w with clock := a.now}

/-- Several attempts, one after the other, in a build with overflow checks. -/
def storeAllChecked (j : Journal) :
    List Attempt → OptionT (StateM World) (List (Except Failure Task) × Journal)
  | [] => return ([], j)
  | a :: attempts => do
    let (result, j) ← a.storeChecked j
    let (results, j) ← storeAllChecked j attempts
    return (result :: results, j)

/-- Whether the next id wraps around after one of some attempts. -/
def wraps (j : Journal) : List Attempt → Bool
  | [] => false
  | a :: attempts => (a.after j).hasWrapped || wraps (a.after j) attempts

theorem storeChecked_run (a : Attempt) (j : Journal) (w : World) :
    ((a.storeChecked j).run).run w =
      (if (a.store j w).1.2.hasWrapped then none else some (a.store j w).1, (a.store j w).2) := by
  show j.createChecked (World.reporting a.report) a.draft {w with clock := a.now} = _
  exact checked_run _ (j.create (World.reporting a.report) a.draft) {w with clock := a.now}

/-- A log is opened unless the next id wraps around. -/
theorem openChecked_logs {w : World} {directory text : String} (h : w.Logs directory text.toUTF8) :
    (((openChecked World.host directory).run).run w).1 =
      if (ofTasks (some (World.logPath directory)) (replay text)).hasWrapped then none
      else some (.ok (ofTasks (some (World.logPath directory)) (replay text))) := by
  rw [openChecked, checked_run, openAt_logs h]
  rfl

/-- **A build with overflow checks does what a release build does, or panics.** -/
theorem storeAllChecked_logs {j : Journal} {w : World} {directory text : String}
    (attempts : List Attempt) (h : w.Logs directory text.toUTF8)
    (hj : j.log = some (World.logPath directory)) :
    (((storeAllChecked j attempts).run).run w).1 =
      if wraps j attempts then none else some (results j attempts, afterAll j attempts) := by
  induction attempts generalizing j w text with
  | nil => rfl
  | cons a attempts ih =>
    obtain ⟨w', hstore, hlogs⟩ := a.store_logs h hj
    have hrest := ih hlogs ((a.after_log j).trans hj)
    rw [storeAllChecked, optional_bind, storeChecked_run, hstore, wraps, results, afterAll]
    by_cases hwrapped : (a.after j).hasWrapped = true
    · simp only [hwrapped, if_true, Bool.true_or]
    · simp only [hwrapped, Bool.false_eq_true, if_false, Bool.false_or, optional_bind]
      generalize ((storeAllChecked (a.after j) attempts).run).run w' = rest at hrest ⊢
      obtain ⟨answers, left⟩ := rest
      obtain rfl : answers = _ := hrest
      cases wraps (a.after j) attempts <;> rfl

theorem toInt_nextId_accept {j : Journal} (t : Task) (hroom : j.nextId.toInt < 2 ^ 63 - 1) :
    (j.accept t).nextId.toInt = j.nextId.toInt + 1 := by
  have hleast := j.nextId.le_toInt
  have hone : (1 : Int64).toInt = 1 := rfl
  show (j.nextId + 1).toInt = _
  rw [Int64.toInt_add, hone, Int.bmod_eq_of_le (by omega) (by omega)]

theorem hasWrapped_iff {j : Journal} : j.hasWrapped = true ↔ j.nextId.toInt = -2 ^ 63 := by
  rw [hasWrapped, beq_iff_eq, ← Int64.toInt_inj]
  rfl

/-- **The next id wraps around after the greatest 64-bit id**, and not before. -/
theorem wraps_iff {j : Journal} (hj : j.hasWrapped = false) (attempts : List Attempt) :
    wraps j attempts = true ↔ 2 ^ 63 ≤ j.nextId.toInt + (acknowledged j attempts).length := by
  induction attempts generalizing j with
  | nil =>
    have hbelow := j.nextId.toInt_lt
    refine ⟨nofun, fun hfull => ?_⟩
    simp only [acknowledged, results, List.filterMap_nil, List.length_nil] at hfull
    omega
  | cons a attempts ih =>
    rw [wraps, Bool.or_eq_true]
    cases ha : a.report with
    | some f =>
      have hsame : a.after j = j := by rw [Attempt.after, ha]
      rw [hsame, hj, acknowledged_cons_fault j attempts ha, ih hj]
      simp
    | none =>
      have hnext : a.after j = j.accept (a.task j) := by rw [Attempt.after, ha]
      rw [hnext, acknowledged_cons_ok j attempts ha, List.length_cons]
      by_cases hroom : j.nextId.toInt < 2 ^ 63 - 1
      · have hstep := toInt_nextId_accept (a.task j) hroom
        have hleast := j.nextId.le_toInt
        have hgoes : (j.accept (a.task j)).hasWrapped = false := by
          rw [← Bool.not_eq_true, hasWrapped_iff, hstep]
          omega
        rw [hgoes, ih hgoes, hstep]
        simp only [Bool.false_eq_true, false_or]
        omega
      · -- The task has the greatest id.
        have hbelow := j.nextId.toInt_lt
        have hlast : j.nextId = Int64.maxValue := by
          rw [← Int64.toInt_inj]
          show j.nextId.toInt = 2 ^ 63 - 1
          omega
        have hwrapped : (j.accept (a.task j)).hasWrapped = true := by
          show (j.nextId + 1 == Int64.minValue) = true
          rw [hlast]
          rfl
        simp only [hwrapped, true_or, true_iff]
        omega

end Journal

end ChainAgent.Ledger
