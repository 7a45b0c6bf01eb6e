import ChainAgent.Proofs.Ledger.LogFile
import Mathlib.Data.List.Induction

/-! The newest tasks of a ledger.

A ledger in memory returns its last tasks by id, newest first. They are the newest of all exactly
when none of them is older than a task before them (`recent_eq_iff`). That is so in every ledger in
which times ascend with the ids (`recent_of_steady`), but a log may have records whose times do not
(`recent_after_opening`). -/
namespace ChainAgent.Ledger

/-! ### The order of recency -/

theorem newestFirst_iff {a b : Task} :
    newestFirst a b ↔ b.createdAt < a.createdAt ∨ a.createdAt = b.createdAt ∧ b.id ≤ a.id := by
  simp [newestFirst]

theorem newestFirst_trans (a b c : Task) (hab : newestFirst a b) (hbc : newestFirst b c) :
    newestFirst a c := by
  simp only [newestFirst_iff, Int64.lt_iff_toInt_lt, Int64.le_iff_toInt_le, ← Int64.toInt_inj] at *
  omega

theorem newestFirst_total (a b : Task) : (newestFirst a b || newestFirst b a) := by
  simp only [Bool.or_eq_true, newestFirst_iff, Int64.lt_iff_toInt_lt, Int64.le_iff_toInt_le,
    ← Int64.toInt_inj]
  omega

/-- Of two tasks each no older than the other, the ids are the same. -/
theorem id_eq_of_newestFirst {a b : Task} (hab : newestFirst a b) (hba : newestFirst b a) :
    a.id = b.id := by
  simp only [newestFirst_iff, Int64.lt_iff_toInt_lt, Int64.le_iff_toInt_le, ← Int64.toInt_inj] at *
  omega

theorem newestFirst_of_le {t u : Task} (htime : t.createdAt ≤ u.createdAt) (hid : t.id ≤ u.id) :
    newestFirst u t := by
  simp only [newestFirst_iff, Int64.lt_iff_toInt_lt, Int64.le_iff_toInt_le, ← Int64.toInt_inj] at *
  omega

/-- All tasks, newest first. -/
def newest (tasks : List Task) : List Task := tasks.mergeSort newestFirst

theorem newest_perm (tasks : List Task) : (newest tasks).Perm tasks :=
  List.mergeSort_perm tasks newestFirst

theorem newest_pairwise (tasks : List Task) : (newest tasks).Pairwise (newestFirst · ·) :=
  List.pairwise_mergeSort newestFirst_trans newestFirst_total tasks

theorem eq_of_id_eq {tasks : List Task} (hnodup : (tasks.map (·.id)).Nodup) {t u : Task}
    (ht : t ∈ tasks) (hu : u ∈ tasks) (hid : t.id = u.id) : t = u := by
  have hfind := Journal.find?_of_nodup hnodup ht
  rw [hid, Journal.find?_of_nodup hnodup hu] at hfind
  exact (Option.some.inj hfind).symm

/-- Without duplicate ids, there is one order by recency. -/
theorem newest_eq_of_pairwise {tasks ordered : List Task} (hnodup : (tasks.map (·.id)).Nodup)
    (hperm : ordered.Perm tasks) (hordered : ordered.Pairwise (newestFirst · ·)) :
    newest tasks = ordered := by
  refine ((newest_perm tasks).trans hperm.symm).eq_of_pairwise ?_ (newest_pairwise tasks) hordered
  intro a b ha hb hab hba
  exact eq_of_id_eq hnodup ((newest_perm tasks).mem_iff.mp ha) (hperm.mem_iff.mp hb)
    (id_eq_of_newestFirst hab hba)

/-- Tasks that are no older than any of some others come first. -/
theorem newest_append {older kept : List Task} (hnodup : ((older ++ kept).map (·.id)).Nodup)
    (h : ∀ t ∈ older, ∀ u ∈ kept, newestFirst u t) :
    newest (older ++ kept) = newest kept ++ newest older := by
  refine newest_eq_of_pairwise hnodup ?_ ?_
  · exact ((newest_perm kept).append (newest_perm older)).trans List.perm_append_comm
  · refine List.pairwise_append.mpr ⟨newest_pairwise kept, newest_pairwise older, ?_⟩
    intro u hu t ht
    exact h t ((newest_perm older).mem_iff.mp ht) u ((newest_perm kept).mem_iff.mp hu)

/-! ### Times -/

theorem le_later_left (a b : Int64) : a ≤ later a b := by
  unfold later
  split
  · exact Int64.le_of_lt ‹_›
  · exact Int64.le_refl a

theorem le_later_right (a b : Int64) : b ≤ later a b := by
  unfold later
  split
  · exact Int64.le_refl b
  · rename_i hlt
    exact Int64.not_lt.mp hlt

theorem latest_concat (times : List Int64) (t : Int64) :
    latest (times ++ [t]) = some (match latest times with
      | some b => later b t
      | none => t) := by
  rw [latest, List.foldl_append]
  rfl

/-- No time is later than the latest. -/
theorem le_latest {times : List Int64} {t : Int64} (h : t ∈ times) :
    ∃ m, latest times = some m ∧ t ≤ m := by
  induction times using List.reverseRecOn with
  | nil => cases h
  | append_singleton times u ih =>
    rw [latest_concat]
    refine ⟨_, rfl, ?_⟩
    obtain hold | hlast := List.mem_append.mp h
    · obtain ⟨m, hm, hle⟩ := ih hold
      rw [hm]
      exact Int64.le_trans hle (le_later_left m u)
    · rw [List.mem_singleton] at hlast
      rw [hlast]
      split
      · exact le_later_right _ u
      · exact Int64.le_refl u

namespace Journal

/-! ### What a ledger gives -/

/-- The last tasks of a ledger, `limit` of them if there are so many. -/
def lastTasks (j : Journal) (limit : Nat) : List Task := j.tasks.drop (j.tasks.length - limit)

/-- The tasks before the last ones. -/
def earlierTasks (j : Journal) (limit : Nat) : List Task := j.tasks.take (j.tasks.length - limit)

theorem earlier_append_last (j : Journal) (limit : Nat) :
    j.earlierTasks limit ++ j.lastTasks limit = j.tasks :=
  List.take_append_drop _ _

theorem recent_perm (j : Journal) (limit : Nat) : (j.recent limit).Perm (j.lastTasks limit) := by
  rw [recent, List.take_reverse]
  exact (List.mergeSort_perm _ _).trans (List.reverse_perm _)

theorem recent_pairwise (j : Journal) (limit : Nat) : (j.recent limit).Pairwise (newestFirst · ·) :=
  List.pairwise_mergeSort newestFirst_trans newestFirst_total _

/-- The last tasks are as many as the limit, or all. -/
theorem take_lastTasks_append (j : Journal) (limit : Nat) {kept older : List Task}
    (hkept : kept.Perm (j.lastTasks limit)) (holder : older.Perm (j.earlierTasks limit)) :
    (kept ++ older).take limit = kept := by
  have hlength : kept.length = j.tasks.length - (j.tasks.length - limit) := by
    rw [hkept.length_eq, lastTasks, List.length_drop]
  by_cases hlimit : limit ≤ j.tasks.length
  · exact List.take_left' (by omega)
  · have hnone : older = [] := by
      rw [← List.length_eq_zero_iff, holder.length_eq, earlierTasks, List.length_take]
      omega
    rw [hnone, List.append_nil, List.take_of_length_le (by omega)]

section Distinct

variable {j : Journal} (hnodup : (j.tasks.map (·.id)).Nodup) (limit : Nat)
include hnodup

theorem recent_eq_newest_last : j.recent limit = newest (j.lastTasks limit) := by
  rw [← j.earlier_append_last limit, List.map_append, List.nodup_append] at hnodup
  exact (newest_eq_of_pairwise hnodup.2.1 (j.recent_perm limit) (j.recent_pairwise limit)).symm

/-- **The last tasks are the newest exactly when none of them is older than one before them.** -/
theorem recent_eq_iff : j.recent limit = (newest j.tasks).take limit ↔
    ∀ t ∈ j.earlierTasks limit, ∀ u ∈ j.lastTasks limit, newestFirst u t := by
  have hsplit := j.earlier_append_last limit
  constructor
  · intro hrecent t ht u hu
    have hdistinct := hnodup
    rw [← hsplit, List.map_append, List.nodup_append] at hdistinct
    have hsorted := newest_pairwise j.tasks
    rw [← List.take_append_drop limit (newest j.tasks), ← hrecent] at hsorted
    have hmem : t ∈ (newest j.tasks).take limit ++ (newest j.tasks).drop limit := by
      rw [List.take_append_drop, (newest_perm j.tasks).mem_iff, ← hsplit]
      exact List.mem_append_left _ ht
    obtain hgiven | hleft := List.mem_append.mp hmem
    · rw [← hrecent, (j.recent_perm limit).mem_iff] at hgiven
      exact absurd rfl (hdistinct.2.2 _ (List.mem_map_of_mem ht) _ (List.mem_map_of_mem hgiven))
    · exact (List.pairwise_append.mp hsorted).2.2 u ((j.recent_perm limit).mem_iff.mpr hu) t hleft
  · intro hnewer
    have hall : newest j.tasks = newest (j.lastTasks limit) ++ newest (j.earlierTasks limit) := by
      rw [← newest_append (by rwa [hsplit]) hnewer, hsplit]
    rw [hall, j.take_lastTasks_append limit (newest_perm _) (newest_perm _)]
    exact recent_eq_newest_last hnodup limit

/-- If every task is no older than those before it, the last are the newest. -/
theorem recent_of_steady (hsteady : j.tasks.Pairwise fun t u => newestFirst u t) :
    j.recent limit = (newest j.tasks).take limit := by
  refine (recent_eq_iff hnodup limit).mpr ?_
  rw [← j.earlier_append_last limit, List.pairwise_append] at hsteady
  exact hsteady.2.2

end Distinct

/-! ### Ledgers made of a log -/

theorem createdAt_le_last {log : Option String} {found : List Task} {t : Task}
    (ht : t ∈ (ofTasks log found).tasks) : t.createdAt ≤ (ofTasks log found).lastCreatedAt := by
  obtain ⟨m, hm, hle⟩ := le_latest (List.mem_map_of_mem (f := (·.createdAt)) ht)
  have hlast : (ofTasks log found).lastCreatedAt =
    (latest ((ofTasks log found).tasks.map (·.createdAt))).getD 0 := rfl
  rwa [hlast, hm]

/-- Times do not decrease while a ledger is in use. -/
theorem acknowledged_times (j : Journal) (attempts : List Attempt) :
    (acknowledged j attempts).Pairwise (·.createdAt ≤ ·.createdAt) ∧
      ∀ t ∈ acknowledged j attempts, j.lastCreatedAt ≤ t.createdAt := by
  induction attempts generalizing j with
  | nil => exact ⟨.nil, fun t ht => absurd ht List.not_mem_nil⟩
  | cons a attempts ih =>
    cases ha : a.report with
    | some f =>
      rw [acknowledged_cons_fault j attempts ha]
      exact ih j
    | none =>
      obtain ⟨hpairs, hrest⟩ := ih (j.accept (a.task j))
      have hfirst : j.lastCreatedAt ≤ (a.task j).createdAt := le_later_right a.now j.lastCreatedAt
      rw [acknowledged_cons_ok j attempts ha]
      refine ⟨List.pairwise_cons.mpr ⟨hrest, hpairs⟩, fun t ht => ?_⟩
      obtain rfl | ht := List.mem_cons.mp ht
      · exact hfirst
      · exact Int64.le_trans hfirst (hrest t ht)

/-- A task stored after opening is newer than everything before it, as long as the ids ascend. -/
theorem acknowledged_newer {log : Option String} {found : List Task} {attempts : List Attempt}
    (hids : Ascending (afterAll (ofTasks log found) attempts).tasks) :
    (acknowledged (ofTasks log found) attempts).Pairwise (fun t u => newestFirst u t) ∧
      ∀ t ∈ (ofTasks log found).tasks, ∀ u ∈ acknowledged (ofTasks log found) attempts,
        newestFirst u t := by
  obtain ⟨hpairs, hfirst⟩ := acknowledged_times (ofTasks log found) attempts
  rw [afterAll_tasks, Ascending, List.pairwise_append] at hids
  constructor
  · exact (hpairs.and hids.2.1).imp fun h => newestFirst_of_le h.1 (Int64.le_of_lt h.2)
  · intro t ht u hu
    exact newestFirst_of_le (Int64.le_trans (createdAt_le_last ht) (hfirst u hu))
      (Int64.le_of_lt (hids.2.2 t ht u hu))

/-- New tasks at the end that are newer than everything before them use up the limit; the rest of it
is for the old tasks. -/
theorem split_newer_iff {old new : Journal} {more : List Task}
    (htasks : new.tasks = old.tasks ++ more)
    (hmore : more.Pairwise fun t u => newestFirst u t)
    (hnewer : ∀ t ∈ old.tasks, ∀ u ∈ more, newestFirst u t) (limit : Nat) :
    (∀ t ∈ new.earlierTasks limit, ∀ u ∈ new.lastTasks limit, newestFirst u t) ↔
      ∀ t ∈ old.earlierTasks (limit - more.length), ∀ u ∈ old.lastTasks (limit - more.length),
        newestFirst u t := by
  unfold earlierTasks lastTasks
  rw [htasks, List.length_append, List.take_append, List.drop_append]
  by_cases hlimit : more.length ≤ limit
  · have hfront : old.tasks.length + more.length - limit =
        old.tasks.length - (limit - more.length) := by omega
    have hall : old.tasks.length - (limit - more.length) - old.tasks.length = 0 := by omega
    rw [hfront, hall, List.take_zero, List.drop_zero, List.append_nil]
    constructor
    · exact fun h t ht u hu => h t ht u (List.mem_append_left _ hu)
    · intro h t ht u hu
      obtain hold | hnew := List.mem_append.mp hu
      · exact h t ht u hold
      · exact hnewer t (List.mem_of_mem_take ht) u hnew
  · have hzero : limit - more.length = 0 := by omega
    have hpast : old.tasks.length ≤ old.tasks.length + more.length - limit := by omega
    rw [hzero, Nat.sub_zero, List.take_of_length_le hpast, List.drop_of_length_le hpast,
      List.drop_length, List.nil_append]
    refine iff_of_true (fun t ht u hu => ?_) fun t _ u hu => absurd hu List.not_mem_nil
    rw [← List.take_append_drop (old.tasks.length + more.length - limit - old.tasks.length) more,
      List.pairwise_append] at hmore
    obtain hold | hnew := List.mem_append.mp ht
    · exact hnewer t hold u (List.mem_of_mem_drop hu)
    · exact hmore.2.2 t hnew u hu

/-- **The recent tasks after opening any log** are its last tasks by id, newest first. They are the
newest of all exactly when none of them is older than a task before them. While the ids ascend, this
depends on the tasks of the log alone. -/
theorem recent_after_opening {w w₁ w₂ : World} {directory text : String} {j j' : Journal}
    {attempts : List Attempt} {answers : List (Except Failure Task)}
    (hlog : w.Logs directory text.toUTF8) (hopen : openAt World.host directory w = (.ok j, w₁))
    (hstore : storeAll j attempts w₁ = ((answers, j'), w₂)) (limit : Nat) :
    (j'.recent limit).Perm (j'.lastTasks limit) ∧ (j'.recent limit).Pairwise (newestFirst · ·) ∧
      ((j'.tasks.map (·.id)).Nodup →
        (j'.recent limit = (newest j'.tasks).take limit ↔
          ∀ t ∈ j'.earlierTasks limit, ∀ u ∈ j'.lastTasks limit, newestFirst u t)) ∧
      (Ascending j'.tasks →
        (j'.recent limit = (newest j'.tasks).take limit ↔
          ∀ t ∈ j.earlierTasks (limit - (j'.count - j.count)),
            ∀ u ∈ j.lastTasks (limit - (j'.count - j.count)), newestFirst u t)) := by
  rw [openAt_logs hlog] at hopen
  cases hopen
  obtain ⟨w', hrun, -⟩ := storeAll_logs attempts hlog (j := ofTasks _ (replay text)) rfl
  obtain ⟨hanswers, -⟩ := Prod.mk.inj (hrun.symm.trans hstore)
  obtain ⟨-, rfl⟩ := Prod.mk.inj hanswers
  refine ⟨recent_perm _ limit, recent_pairwise _ limit, fun h => recent_eq_iff h limit, ?_⟩
  intro hids
  have hgrown := afterAll_tasks (ofTasks (some (World.logPath directory)) (replay text)) attempts
  obtain ⟨hpairs, hnewer⟩ := acknowledged_newer hids
  rw [recent_eq_iff hids.nodup limit, split_newer_iff hgrown hpairs hnewer, count, count, hgrown,
    List.length_append, Nat.add_sub_cancel_left]

/-- A log whose second task has an earlier time than its first. -/
theorem recent_of_skewed_log :
    ∃ (late early : Task) (j : Journal) (w : World),
      w.Logs "data" (logOf [late, early]).toUTF8 ∧ openAt World.host "data" w = (.ok j, w) ∧
      storeAll j [] w = (([], j), w) ∧ Ascending j.tasks ∧
      j.recent 1 ≠ (newest j.tasks).take 1 := by
  let draft (goal : String) : Task.Draft := {goal := goal, chainAction := "", address := ""}
  let late : Task := (draft "late").stored 1 300
  let early : Task := (draft "early").stored 2 100
  let j := ofTasks (some (World.logPath "data")) [late, early]
  let w := World.keeping (some (logOf [late, early]).toUTF8)
  have hlog : w.Logs "data" (logOf [late, early]).toUTF8 := World.keeping_logs (some _)
  have hopen := openAt_logs hlog
  rw [replay_logOf] at hopen
  have hstore : storeAll j [] w = (([], j), w) := rfl
  have hascending : Ascending [late, early] :=
    List.pairwise_pair.mpr (show (1 : Int64) < 2 by decide)
  have htasks : j.tasks = [late, early] := ofTasks_of_ascending _ hascending
  obtain ⟨-, -, -, hexact⟩ := recent_after_opening hlog hopen hstore 1
  rw [htasks] at hexact
  refine ⟨late, early, j, w, hlog, hopen, hstore, by rwa [htasks], ?_⟩
  rw [htasks, Ne, hexact hascending, Nat.sub_self, earlierTasks, lastTasks, htasks]
  exact fun h => absurd (h late (by simp) early (by simp)) (by decide)

end Journal

end ChainAgent.Ledger
