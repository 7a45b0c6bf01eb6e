import ChainAgent.Ledger.Journal
import ChainAgent.Proofs.Ledger.Order
import Mathlib.Algebra.Group.Nat.Defs

/-! Attempts to store drafts.

Every attempt makes a task with the next id of the ledger. If no error of the append is reported,
the attempt is acknowledged: its task is added to the ledger and the next id is incremented. If an
error is reported the ledger stays as it is, so the next attempt has the same id. The ids of the
acknowledged tasks are therefore consecutive (`acknowledged_ids`). -/
namespace ChainAgent.Ledger.Journal

/-- An attempt to store a draft: the time of the clock, and the error that is reported for the
append, if any. -/
structure Attempt where
  now : Int64
  draft : Task.Draft
  report : Option Files.Fault := none

namespace Attempt

/-- The task of the draft. -/
def task (a : Attempt) (j : Journal) : Task := j.next a.draft a.now

/-- The result of the attempt. -/
def result (a : Attempt) (j : Journal) : Except Failure Task :=
  match a.report with
  | some f => .error (.io f)
  | none => .ok (a.task j)

/-- The ledger after the attempt. -/
def after (a : Attempt) (j : Journal) : Journal :=
  match a.report with
  | some _ => j
  | none => j.accept (a.task j)

theorem after_log (a : Attempt) (j : Journal) : (a.after j).log = j.log := by
  unfold after
  split <;> rfl

end Attempt

/-- The tasks of several attempts, in order. -/
def attempted (j : Journal) : List Attempt → List Task
  | [] => []
  | a :: attempts => a.task j :: attempted (a.after j) attempts

/-- The results of several attempts, in order. -/
def results (j : Journal) : List Attempt → List (Except Failure Task)
  | [] => []
  | a :: attempts => a.result j :: results (a.after j) attempts

/-- The ledger after several attempts. -/
def afterAll (j : Journal) : List Attempt → Journal
  | [] => j
  | a :: attempts => afterAll (a.after j) attempts

/-- The acknowledged tasks of several attempts, in order. -/
def acknowledged (j : Journal) (attempts : List Attempt) : List Task :=
  (results j attempts).filterMap Except.toOption

theorem mem_acknowledged {j : Journal} {attempts : List Attempt} {t : Task} :
    t ∈ acknowledged j attempts ↔ .ok t ∈ results j attempts := by
  rw [acknowledged, List.mem_filterMap]
  constructor
  · rintro ⟨r, hr, hok⟩
    cases r with
    | error f => cases hok
    | ok u =>
      cases hok
      exact hr
  · exact fun h => ⟨_, h, rfl⟩

section Cons

variable (j : Journal) {a : Attempt} (attempts : List Attempt)

theorem acknowledged_cons_ok (ha : a.report = none) :
    acknowledged j (a :: attempts) = a.task j :: acknowledged (j.accept (a.task j)) attempts := by
  simp [acknowledged, results, Attempt.result, Attempt.after, ha, Except.toOption]

theorem acknowledged_cons_fault {f : Files.Fault} (ha : a.report = some f) :
    acknowledged j (a :: attempts) = acknowledged j attempts := by
  rw [acknowledged, results, Attempt.result, Attempt.after, ha]
  rfl

end Cons

/-- The ledger gains the acknowledged tasks. -/
theorem afterAll_tasks (j : Journal) (attempts : List Attempt) :
    (afterAll j attempts).tasks = j.tasks ++ acknowledged j attempts := by
  induction attempts generalizing j with
  | nil => simp [afterAll, acknowledged, results]
  | cons a attempts ih =>
    rw [afterAll, ih]
    cases ha : a.report with
    | none =>
      rw [acknowledged_cons_ok j attempts ha]
      simp [Attempt.after, ha, accept]
    | some f =>
      rw [acknowledged_cons_fault j attempts ha]
      simp [Attempt.after, ha]

/-- If every attempt is acknowledged, the acknowledged tasks are those of all attempts. -/
theorem attempted_of_ok {j : Journal} {attempts : List Attempt} {tasks : List Task}
    (h : results j attempts = tasks.map .ok) :
    attempted j attempts = tasks ∧ acknowledged j attempts = tasks := by
  constructor
  · induction attempts generalizing j tasks with
    | nil =>
      rw [results, eq_comm, List.map_eq_nil_iff] at h
      rw [h, attempted]
    | cons a attempts ih =>
      rw [results, eq_comm, List.map_eq_cons_iff] at h
      obtain ⟨t, rest, rfl, hresult, hrest⟩ := h
      cases ha : a.report with
      | none =>
        rw [Attempt.result, ha] at hresult
        cases hresult
        rw [attempted, ih hrest.symm]
      | some f =>
        rw [Attempt.result, ha] at hresult
        cases hresult
  · rw [acknowledged, h, List.filterMap_map]
    exact List.filterMap_some

/-! ### Ids -/

theorem ofNat_succ (first : Int64) (i : Nat) :
    first + .ofNat (i + 1) = first + 1 + .ofNat i := by
  rw [Int64.ofNat_add, Int64.add_comm (.ofNat i), ← Int64.add_assoc]
  rfl

/-- **The ids of the acknowledged tasks are consecutive from the next id on.** -/
theorem acknowledged_ids (j : Journal) (attempts : List Attempt) :
    (acknowledged j attempts).map (·.id) =
      (List.range (acknowledged j attempts).length).map fun i => j.nextId + .ofNat i := by
  induction attempts generalizing j with
  | nil => rfl
  | cons a attempts ih =>
    cases ha : a.report with
    | none =>
      rw [acknowledged_cons_ok j attempts ha, List.length_cons, List.range_succ_eq_map,
        List.map_cons, List.map_cons, ih, List.map_map]
      refine List.cons_eq_cons.mpr ⟨(Int64.add_zero _).symm, List.map_congr_left fun i _ => ?_⟩
      exact (ofNat_succ j.nextId i).symm
    | some f =>
      rw [acknowledged_cons_fault j attempts ha]
      exact ih j

/-- Consecutive ids with the next one stay consecutive. -/
theorem ids_concat {tasks : List Task} {t : Task}
    (h : tasks.map (·.id) = (List.range tasks.length).map fun i => 1 + .ofNat i)
    (ht : t.id = 1 + .ofNat tasks.length) :
    (tasks ++ [t]).map (·.id) =
      (List.range (tasks ++ [t]).length).map fun i => 1 + .ofNat i := by
  rw [List.map_append, h, List.length_append, List.length_singleton, List.range_succ,
    List.map_append, List.map_singleton, List.map_singleton, ht]

theorem toInt_one_add {i : Nat} (hi : i + 1 < 2 ^ 63) : (1 + Int64.ofNat i).toInt = i + 1 := by
  rw [Int64.toInt_add, Int64.toInt_ofNat_of_lt (by omega)]
  have hone : (1 : Int64).toInt = 1 := rfl
  rw [hone, Int.bmod_eq_of_le (by omega) (by omega)]
  omega

/-- **Consecutive ids from one ascend** if and only if they do not wrap around. -/
theorem ascending_iff_of_counted {tasks : List Task}
    (h : tasks.map (·.id) = (List.range tasks.length).map fun i => 1 + .ofNat i) :
    Ascending tasks ↔ tasks.length < 2 ^ 63 := by
  rw [Ascending, ← List.pairwise_map, h, List.pairwise_map]
  constructor
  · intro hpairs
    rw [← Nat.not_le]
    intro hlong
    have hlast := List.pairwise_iff_getElem.mp hpairs (2 ^ 63 - 2) (2 ^ 63 - 1)
      (by simp; omega) (by simp; omega) (by omega)
    rw [List.getElem_range, List.getElem_range] at hlast
    exact absurd hlast (by decide)
  · intro hshort
    refine List.pairwise_lt_range.imp_of_mem fun {i k} hi hk hik => ?_
    rw [List.mem_range] at hi hk
    rw [Int64.lt_iff_toInt_lt, toInt_one_add (by omega), toInt_one_add (by omega)]
    omega

end ChainAgent.Ledger.Journal
