import ChainAgent.Ledger.Journal

/-! The order of a ledger.

Whatever the order of the records in a log, the ledger of them is strictly ascending by id
(`ofTasks_ascending`) and has of each id the task whose record comes first (`mem_ofTasks`). In an
ascending ledger binary search finds every task (`get_eq_ok_iff`). -/
namespace ChainAgent.Ledger.Journal

/-- Tasks in ascending order of ids, each id once. -/
def Ascending (tasks : List Task) : Prop := tasks.Pairwise (·.id < ·.id)

theorem Ascending.nodup {tasks : List Task} (h : Ascending tasks) :
    (tasks.map (·.id)).Nodup := by
  rw [List.Nodup, List.pairwise_map]
  refine h.imp fun {t u} hlt heq => ?_
  rw [heq] at hlt
  exact Int64.lt_irrefl hlt

/-- In a list without duplicate ids, every task is found. -/
theorem find?_of_nodup {tasks : List Task} {t : Task} (hnodup : (tasks.map (·.id)).Nodup) (ht : t ∈ tasks) :
    tasks.find? (·.id == t.id) = some t := by
  induction tasks with
  | nil => cases ht
  | cons u tasks ih =>
    rw [List.map_cons, List.nodup_cons] at hnodup
    rw [List.find?_cons]
    obtain rfl | ht := List.mem_cons.mp ht
    · simp
    · have hne : (u.id == t.id) = false := by
        rw [beq_eq_false_iff_ne]
        exact fun heq => hnodup.1 (heq ▸ List.mem_map_of_mem ht)
      rw [hne]
      exact ih hnodup.2 ht

/-! ### Sorting -/

/-- The tasks of a log sorted by id, stably. -/
def sorted (found : List Task) : List Task := found.mergeSort fun a b => a.id ≤ b.id

theorem id_le_trans (a b c : Task) (hab : decide (a.id ≤ b.id)) (hbc : decide (b.id ≤ c.id)) :
    decide (a.id ≤ c.id) := by
  simp only [decide_eq_true_eq] at hab hbc ⊢
  exact Int64.le_trans hab hbc

theorem id_le_total (a b : Task) : (decide (a.id ≤ b.id) || decide (b.id ≤ a.id)) := by
  simpa using Int64.le_total a.id b.id

theorem sorted_pairwise (found : List Task) : (sorted found).Pairwise (·.id ≤ ·.id) :=
  (List.pairwise_mergeSort id_le_trans id_le_total found).imp of_decide_eq_true

/-- Sorting is stable: the tasks of one id keep their order. -/
theorem sorted_filter (found : List Task) (id : Int64) :
    (sorted found).filter (·.id == id) = found.filter (·.id == id) := by
  have hsame : (found.filter (·.id == id)).Pairwise fun a b => decide (a.id ≤ b.id) = true := by
    rw [List.pairwise_filter]
    refine List.pairwise_of_forall fun a b ha hb => ?_
    rw [beq_iff_eq] at ha hb
    simp [ha, hb]
  have hsublist : (found.filter (·.id == id)).Sublist (sorted found) :=
    List.sublist_mergeSort id_le_trans id_le_total hsame List.filter_sublist
  have hfilter := hsublist.filter (·.id == id)
  rw [List.filter_filter] at hfilter
  simp only [Bool.and_self] at hfilter
  refine (hfilter.eq_of_length ?_).symm
  exact ((List.mergeSort_perm found _).filter _).length_eq.symm

theorem sorted_find? (found : List Task) (id : Int64) :
    (sorted found).find? (·.id == id) = found.find? (·.id == id) := by
  rw [← List.head?_filter, sorted_filter, List.head?_filter]

/-! ### One task of each id -/

theorem mem_of_mem_firstOfEach {tasks : List Task} {t : Task} (h : t ∈ firstOfEach tasks) :
    t ∈ tasks := by
  fun_induction firstOfEach tasks with
  | case1 => exact h
  | case2 => exact h
  | case3 a b rest _ ih =>
    obtain rfl | hrest := List.mem_cons.mp (ih h)
    · exact List.mem_cons_self
    · simp [hrest]
  | case4 a b rest _ ih =>
    obtain rfl | hrest := List.mem_cons.mp h
    · exact List.mem_cons_self
    · exact List.mem_cons_of_mem a (ih hrest)

theorem firstOfEach_ascending {tasks : List Task} (h : tasks.Pairwise (·.id ≤ ·.id)) :
    Ascending (firstOfEach tasks) := by
  fun_induction firstOfEach tasks with
  | case1 => exact .nil
  | case2 t => exact List.pairwise_singleton _ t
  | case3 a b rest _ ih => exact ih (h.sublist (.cons_cons a (List.sublist_cons_self b rest)))
  | case4 a b rest hne ih =>
    refine List.pairwise_cons.mpr ⟨fun t ht => ?_, ih h.tail⟩
    have hab : a.id ≤ b.id := List.rel_of_pairwise_cons h (by simp)
    have hbt : b.id ≤ t.id := by
      obtain rfl | hrest := List.mem_cons.mp (mem_of_mem_firstOfEach ht)
      · exact Int64.le_refl _
      · exact List.rel_of_pairwise_cons h.tail hrest
    have hlt : a.id < b.id := Int64.lt_of_le_of_ne hab (by simpa using hne)
    exact Int64.lt_of_lt_of_le hlt hbt

/-- Deduplication keeps the first task of an id. -/
theorem firstOfEach_find? {tasks : List Task} (h : tasks.Pairwise (·.id ≤ ·.id)) (id : Int64) :
    (firstOfEach tasks).find? (·.id == id) = tasks.find? (·.id == id) := by
  fun_induction firstOfEach tasks with
  | case1 => rfl
  | case2 => rfl
  | case3 a b rest heq ih =>
    rw [ih (h.sublist (.cons_cons a (List.sublist_cons_self b rest)))]
    rw [beq_iff_eq] at heq
    simp only [List.find?_cons, ← heq]
    split <;> rfl
  | case4 a b rest _ ih =>
    rw [List.find?_cons, ih h.tail]
    rfl

/-- In a strictly ascending list, the task of an id is the one that is found. -/
theorem Ascending.mem_iff {tasks : List Task} (h : Ascending tasks) {t : Task} :
    t ∈ tasks ↔ tasks.find? (·.id == t.id) = some t :=
  ⟨find?_of_nodup h.nodup, List.mem_of_find?_eq_some⟩

/-! ### The ledger of a log -/

theorem ofTasks_ascending (log : Option String) (found : List Task) :
    Ascending (ofTasks log found).tasks :=
  firstOfEach_ascending (sorted_pairwise found)

theorem ofTasks_nextId (log : Option String) (found : List Task) :
    (ofTasks log found).nextId =
      match (ofTasks log found).tasks.getLast? with
      | some t => t.id + 1
      | none => 1 := rfl

/-- **Of several tasks with one id, the first in the log is kept.** -/
theorem mem_ofTasks {log : Option String} {found : List Task} {t : Task} :
    t ∈ (ofTasks log found).tasks ↔ found.find? (·.id == t.id) = some t := by
  have hfind := firstOfEach_find? (sorted_pairwise found) t.id
  rw [sorted_find?] at hfind
  rw [← hfind]
  exact (ofTasks_ascending log found).mem_iff

theorem firstOfEach_of_ascending {tasks : List Task} (h : Ascending tasks) :
    firstOfEach tasks = tasks := by
  fun_induction firstOfEach tasks with
  | case1 => rfl
  | case2 => rfl
  | case3 a b rest heq _ =>
    have hlt : a.id < b.id := List.rel_of_pairwise_cons h (by simp)
    rw [beq_iff_eq.mp heq] at hlt
    exact absurd hlt Int64.lt_irrefl
  | case4 a b rest _ ih => rw [ih h.tail]

/-- A log in order is a ledger as it is. -/
theorem ofTasks_of_ascending {found : List Task} (log : Option String) (h : Ascending found) :
    (ofTasks log found).tasks = found := by
  have hsorted : sorted found = found :=
    List.mergeSort_of_pairwise (h.imp fun hlt => by simpa using Int64.le_of_lt hlt)
  show firstOfEach (sorted found) = found
  rw [hsorted, firstOfEach_of_ascending h]

theorem ofTasks_nil (log : Option String) :
    (ofTasks log []).tasks = [] ∧ (ofTasks log []).nextId = 1 := by
  have htasks := ofTasks_of_ascending log (.nil : Ascending [])
  rw [ofTasks_nextId, htasks]
  exact ⟨rfl, rfl⟩

/-! ### Finding a task -/

theorem Ascending.lt_of_index {tasks : List Task} (h : Ascending tasks) {i k : Nat} {t u : Task}
    (hi : tasks[i]? = some t) (hk : tasks[k]? = some u) (hik : i < k) : t.id < u.id := by
  obtain ⟨hi', rfl⟩ := List.getElem?_eq_some_iff.mp hi
  obtain ⟨hk', rfl⟩ := List.getElem?_eq_some_iff.mp hk
  exact List.pairwise_iff_getElem.mp h i k hi' hk' hik

/-- Binary search ends at the place of the task: it never leaves the part that has it. -/
theorem searchFrom_eq {tasks : List Task} (h : Ascending tasks) {i : Nat} {t : Task}
    (hi : tasks[i]? = some t) {fuel base size : Nat} (hbase : base ≤ i) (hsize : i < base + size)
    (hend : base + size ≤ tasks.length) (hfuel : size ≤ fuel) :
    searchFrom tasks.toArray t.id fuel base size = i := by
  induction fuel generalizing base size with
  | zero => omega
  | succ fuel ih =>
    rw [searchFrom]
    split
    · omega
    · rename_i hlarge
      obtain ⟨middle, hmiddle⟩ : ∃ m, tasks[base + size / 2]? = some m :=
        ⟨_, List.getElem?_eq_getElem (by omega)⟩
      simp only [List.getElem?_toArray, hmiddle]
      by_cases hlt : t.id < middle.id
      · rw [if_pos hlt]
        have hleft : i < base + size / 2 := by
          rw [← Nat.not_le]
          intro hle
          obtain heq | hgt := Nat.eq_or_lt_of_le hle
          · rw [heq, hi, Option.some.injEq] at hmiddle
            rw [hmiddle] at hlt
            exact Int64.lt_irrefl hlt
          · exact Int64.lt_irrefl (Int64.lt_trans hlt (h.lt_of_index hmiddle hi hgt))
        exact ih hbase (by omega) (by omega) (by omega)
      · rw [if_neg hlt]
        have hright : base + size / 2 ≤ i := by
          rw [← Nat.not_lt]
          exact fun hgt => hlt (h.lt_of_index hi hmiddle hgt)
        exact ih hright (by omega) (by omega) (by omega)

/-- The task that is found under an id is one of the ledger with that id. -/
theorem mem_of_get {j : Journal} {id : Int64} {t : Task} (h : j.get id = .ok t) :
    t ∈ j.tasks ∧ t.id = id := by
  simp only [get] at h
  split at h
  · rename_i u hu
    split at h
    · rename_i hid
      cases h
      rw [List.getElem?_toArray] at hu
      exact ⟨List.mem_of_getElem? hu, by simpa using hid⟩
    · cases h
  · cases h

/-- An id without a task gives a not-found error with this id. -/
theorem get_eq_error {j : Journal} {id : Int64} (h : ∀ t, j.get id ≠ .ok t) :
    j.get id = .error (.notFound id) := by
  rcases hget : j.get id with f | t
  · simp only [get] at hget
    split at hget
    · split at hget
      · cases hget
      · cases hget
        rfl
    · cases hget
      rfl
  · exact absurd hget (h t)

/-- **A ledger in order finds a task by its id exactly when it has it.** -/
theorem get_eq_ok_iff {j : Journal} (h : Ascending j.tasks) {id : Int64} {t : Task} :
    j.get id = .ok t ↔ t ∈ j.tasks ∧ t.id = id := by
  refine ⟨mem_of_get, ?_⟩
  rintro ⟨ht, rfl⟩
  obtain ⟨i, hi⟩ := List.getElem?_of_mem ht
  have hlength := (List.getElem?_eq_some_iff.mp hi).1
  have hsearch : searchFrom j.tasks.toArray t.id j.tasks.length 0 j.tasks.length = i :=
    searchFrom_eq h hi (by omega) (by omega) (by omega) (by omega)
  simp [get, hsearch, hi]

/-- In the ledger of a log, a task is found when it is the first with its id there. -/
theorem get_ofTasks {log : Option String} {found : List Task} {t : Task} :
    (ofTasks log found).get t.id = .ok t ↔ found.find? (·.id == t.id) = some t := by
  rw [get_eq_ok_iff (ofTasks_ascending log found), mem_ofTasks, and_iff_left rfl]

end ChainAgent.Ledger.Journal
