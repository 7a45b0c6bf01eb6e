import ChainAgent.Proofs.Ledger.Overflow
import ChainAgent.Proofs.Ledger.Recency

/-! New ids after opening any log.

A log may have records with any ids. The ledger of it is in ascending order, and every create takes
the id after the last one, so all ids ascend as long as there is a 64-bit id left for each create.
The create after the greatest id wraps around to the least one: it is not greater than the ids
before it, the ledger is out of order, and the binary search misses a task that is there. This
happens exactly when the ids have run out (`creates_behind_log`). Times do not decrease in either
case. A build with overflow checks panics instead, one create earlier: it computes the next id in
advance. -/
namespace ChainAgent.Ledger.Journal

/-- The last id of a ledger in order, zero if it is empty. -/
def lastId (j : Journal) : Int := (j.tasks.getLast?.map (·.id.toInt)).getD 0

/-! ### The ids in a ledger made of a log -/

theorem lastId_lt (j : Journal) : j.lastId < 2 ^ 63 := by
  unfold lastId
  cases j.tasks.getLast? with
  | none => exact (by decide : (0 : Int) < 2 ^ 63)
  | some t => exact t.id.toInt_lt

theorem le_lastId (j : Journal) : -2 ^ 63 ≤ j.lastId := by
  unfold lastId
  cases j.tasks.getLast? with
  | none => exact (by decide : (-2 ^ 63 : Int) ≤ 0)
  | some t => exact t.id.le_toInt

theorem ofTasks_nextId_eq (log : Option String) (found : List Task) :
    (ofTasks log found).nextId = .ofInt ((ofTasks log found).lastId + 1) := by
  rw [ofTasks_nextId, lastId]
  cases (ofTasks log found).tasks.getLast? with
  | none => rfl
  | some t =>
    rw [Option.map_some, Option.getD_some, Int64.ofInt_add, Int64.ofInt_toInt]
    rfl

/-- In a ledger in order no id is greater than the last. -/
theorem Ascending.le_lastId {j : Journal} (h : Ascending j.tasks) {t : Task} (ht : t ∈ j.tasks) :
    t.id.toInt ≤ j.lastId := by
  obtain ⟨front, last, htasks⟩ :=
    (List.eq_nil_or_concat j.tasks).resolve_left (List.ne_nil_of_mem ht)
  rw [List.concat_eq_append] at htasks
  rw [lastId, htasks, List.getLast?_concat]
  rw [htasks] at h ht
  obtain hfront | hlast := List.mem_append.mp ht
  · have hlt := (List.pairwise_append.mp h).2.2 t hfront last (by simp)
    exact Int.le_of_lt (Int64.lt_iff_toInt_lt.mp hlt)
  · rw [List.mem_singleton] at hlast
    rw [hlast]
    exact Int.le_refl _

/-! ### The ids of creates -/

section Created

variable {log : Option String} {found tasks before behind : List Task} {attempts : List Attempt}
  {t : Task}

/-- A create takes the id after the last one, as a 64-bit integer. -/
theorem id_of_create (htasks : acknowledged (ofTasks log found) attempts = before ++ t :: behind) :
    t.id = .ofInt ((ofTasks log found).lastId + before.length + 1) := by
  have hids := acknowledged_ids (ofTasks log found) attempts
  rw [htasks] at hids
  have hplace := congrArg (·[before.length]?) hids
  simp only [List.map_append, List.map_cons, List.getElem?_map, List.length_append,
    List.length_cons] at hplace
  rw [List.getElem?_append_right (by simp), List.length_map, Nat.sub_self,
    List.getElem?_cons_zero, List.getElem?_range (by omega), Option.map_some,
    Option.some.injEq] at hplace
  rw [hplace, ofTasks_nextId_eq, Int.add_right_comm, Int64.ofInt_add _ (before.length : Int)]
  rfl

theorem toInt_of_create (htasks : acknowledged (ofTasks log found) attempts = before ++ t :: behind)
    (hroom : (ofTasks log found).lastId + before.length + 1 < 2 ^ 63) :
    t.id.toInt = (ofTasks log found).lastId + before.length + 1 := by
  have hleast := (ofTasks log found).le_lastId
  rw [id_of_create htasks]
  exact Int64.toInt_ofInt_of_le (by omega) hroom

/-- The ids before a create that has one left are smaller. -/
theorem id_lt_of_room (htasks : acknowledged (ofTasks log found) attempts = before ++ t :: behind)
    (hroom : (ofTasks log found).lastId + before.length + 1 < 2 ^ 63) {u : Task}
    (hu : u ∈ (ofTasks log found).tasks ++ before) : u.id < t.id := by
  rw [Int64.lt_iff_toInt_lt, toInt_of_create htasks hroom]
  obtain hold | hnew := List.mem_append.mp hu
  · have := (ofTasks_ascending log found).le_lastId hold
    omega
  · obtain ⟨first, second, rfl⟩ := List.append_of_mem hnew
    rw [List.append_assoc, List.cons_append] at htasks
    rw [List.length_append, List.length_cons] at hroom ⊢
    rw [toInt_of_create htasks (by omega)]
    omega

/-- If no id is left for a create, the greatest id is among those before it. -/
theorem exists_greatest (htasks : acknowledged (ofTasks log found) attempts = before ++ behind)
    (hfull : 2 ^ 63 ≤ (ofTasks log found).lastId + before.length + 1) :
    ∃ u ∈ (ofTasks log found).tasks ++ before, u.id = Int64.maxValue := by
  by_cases hlast : (ofTasks log found).lastId = 2 ^ 63 - 1
  · rw [lastId] at hlast
    cases hlatest : (ofTasks log found).tasks.getLast? with
    | none =>
      rw [hlatest] at hlast
      exact absurd hlast (by decide)
    | some u =>
      rw [hlatest] at hlast
      refine ⟨u, List.mem_append_left _ (List.mem_of_getLast? hlatest), ?_⟩
      rw [← Int64.toInt_inj]
      exact hlast
  · have hbelow := (ofTasks log found).lastId_lt
    have hleast := (ofTasks log found).le_lastId
    obtain ⟨i, hi⟩ := Int.eq_ofNat_of_zero_le
      (by omega : 0 ≤ 2 ^ 63 - 2 - (ofTasks log found).lastId)
    have hlength : i < before.length := by omega
    have hsplit : before = before.take i ++ before[i] :: before.drop (i + 1) := by
      rw [← List.drop_eq_getElem_cons, List.take_append_drop]
    refine ⟨before[i], List.mem_append_right _ (List.getElem_mem hlength), ?_⟩
    rw [hsplit, List.append_assoc, List.cons_append] at htasks
    rw [id_of_create htasks, List.length_take, Nat.min_eq_left (by omega)]
    have hid : (ofTasks log found).lastId + i + 1 = 2 ^ 63 - 1 := by omega
    rw [hid]
    rfl

/-- **A create has a greater id than all tasks before it exactly when one is left.** -/
theorem ids_lt_iff (htasks : acknowledged (ofTasks log found) attempts = before ++ t :: behind) :
    (∀ u ∈ (ofTasks log found).tasks ++ before, u.id < t.id) ↔
      (ofTasks log found).lastId + before.length + 1 < 2 ^ 63 := by
  refine ⟨fun hless => ?_, fun hroom u hu => id_lt_of_room htasks hroom hu⟩
  rw [← Int.not_le]
  intro hfull
  obtain ⟨u, hu, hid⟩ := exists_greatest htasks hfull
  have hlt := hless u hu
  rw [hid] at hlt
  exact Int64.lt_irrefl (Int64.lt_of_lt_of_le hlt (Int64.le_maxValue t.id))

/-- **The ledger stays in order exactly when there is an id left for every create.** -/
theorem ascending_iff_room :
    Ascending (afterAll (ofTasks log found) attempts).tasks ↔
      (ofTasks log found).lastId + (acknowledged (ofTasks log found) attempts).length < 2 ^ 63 := by
  rw [afterAll_tasks]
  generalize htasks : acknowledged (ofTasks log found) attempts = tasks
  constructor
  · intro hids
    obtain rfl | ⟨before, last, rfl⟩ := List.eq_nil_or_concat tasks
    · exact Int.add_zero _ ▸ (ofTasks log found).lastId_lt
    · rw [List.concat_eq_append] at hids htasks ⊢
      rw [← List.append_assoc, Ascending, List.pairwise_append] at hids
      have hroom := (ids_lt_iff htasks).mp fun u hu => hids.2.2 u hu last (by simp)
      rw [List.length_append, List.length_singleton]
      omega
  · intro hroom
    have hids : tasks.Pairwise (·.id < ·.id) := by
      rw [List.pairwise_iff_getElem]
      intro i k hi hk hik
      have hsplit : tasks = tasks.take k ++ tasks[k] :: tasks.drop (k + 1) := by
        rw [← List.drop_eq_getElem_cons, List.take_append_drop]
      refine id_lt_of_room (htasks.trans hsplit) ?_ (List.mem_append_right _ ?_)
      · rw [List.length_take]
        omega
      · exact List.mem_take_iff_getElem.mpr ⟨i, by omega, rfl⟩
    refine List.pairwise_append.mpr ⟨ofTasks_ascending log found, hids, fun u hu t ht => ?_⟩
    obtain ⟨before, behind, hsplit⟩ := List.append_of_mem ht
    refine id_lt_of_room (htasks.trans hsplit) ?_ (List.mem_append_left _ hu)
    rw [hsplit, List.length_append, List.length_cons] at hroom
    omega

end Created

/-! ### Looking for the greatest id -/

/-- Binary search for an id that no task exceeds ends at the last place. -/
theorem searchFrom_greatest {tasks : List Task} {id : Int64} (h : ∀ t ∈ tasks, ¬ id < t.id)
    {fuel base size : Nat} (hsize : 0 < size) (hend : base + size ≤ tasks.length)
    (hfuel : size ≤ fuel) : searchFrom tasks.toArray id fuel base size = base + size - 1 := by
  induction fuel generalizing base size with
  | zero => omega
  | succ fuel ih =>
    rw [searchFrom]
    split
    · omega
    · rename_i hlarge
      have hmiddle : tasks[base + size / 2]? = some tasks[base + size / 2] :=
        List.getElem?_eq_getElem (by omega)
      simp only [List.getElem?_toArray, hmiddle, if_neg (h _ (List.getElem_mem _))]
      rw [ih (by omega) (by omega) (by omega)]
      omega

/-- Under the greatest id only the last task is found. -/
theorem get_greatest {j : Journal} {front : List Task} {last t : Task}
    (htasks : j.tasks = front ++ [last]) (hget : j.get Int64.maxValue = .ok t) :
    last.id = Int64.maxValue := by
  have hnone : ∀ u ∈ j.tasks, ¬ Int64.maxValue < u.id := fun u _ =>
    Int64.not_lt.mpr (Int64.le_maxValue u.id)
  have hlength : j.tasks.length = front.length + 1 := by simp [htasks]
  have hsearch : searchFrom j.tasks.toArray Int64.maxValue j.tasks.length 0 j.tasks.length =
      front.length := by
    rw [searchFrom_greatest hnone (by omega) (by omega) (by omega)]
    omega
  have hplace : j.tasks[front.length]? = some last := by simp [htasks]
  rw [get] at hget
  simp only [List.size_toArray, hsearch, List.getElem?_toArray, hplace] at hget
  split at hget
  · rename_i hid
    simpa using hid
  · cases hget

/-- **Every task is found under its own id exactly when there is an id left for every create.** -/
theorem lookup_iff_room {log : Option String} {found : List Task} {attempts : List Attempt} :
    ((afterAll (ofTasks log found) attempts).tasks.map (·.id)).Nodup ∧
        (∀ t ∈ (afterAll (ofTasks log found) attempts).tasks,
          (afterAll (ofTasks log found) attempts).get t.id = .ok t) ↔
      (ofTasks log found).lastId + (acknowledged (ofTasks log found) attempts).length < 2 ^ 63 := by
  refine ⟨?_, fun hroom => ?_⟩
  · rintro ⟨hnodup, hfound⟩
    rw [← Int.not_le]
    intro hfull
    have hgrown := afterAll_tasks (ofTasks log found) attempts
    generalize htasks : acknowledged (ofTasks log found) attempts = tasks at hfull hgrown
    obtain rfl | ⟨before, last, rfl⟩ := List.eq_nil_or_concat tasks
    · exact absurd (ofTasks log found).lastId_lt (by simpa using hfull)
    -- The greatest id stands in front of the last create, which alone is found under it.
    · rw [List.concat_eq_append] at htasks hfull hgrown
      rw [List.length_append, List.length_singleton] at hfull
      obtain ⟨u, hu, hid⟩ := exists_greatest htasks (by omega)
      rw [← List.append_assoc] at hgrown
      have hget := hfound u (by rw [hgrown]; exact List.mem_append_left _ hu)
      rw [hid] at hget
      have hlast := get_greatest hgrown hget
      rw [hgrown, List.map_append, List.nodup_append] at hnodup
      exact hnodup.2.2 u.id (List.mem_map_of_mem hu) last.id (by simp) (hid.trans hlast.symm)
  · have hids := ascending_iff_room.mpr hroom
    exact ⟨hids.nodup, fun t ht => (get_eq_ok_iff hids).mpr ⟨ht, rfl⟩⟩

/-! ### Overflow checks -/

section Checked

variable {log : Option String} {found : List Task}

theorem toInt_nextId (hroom : (ofTasks log found).lastId + 1 < 2 ^ 63) :
    (ofTasks log found).nextId.toInt = (ofTasks log found).lastId + 1 := by
  have hleast := (ofTasks log found).le_lastId
  rw [ofTasks_nextId_eq]
  exact Int64.toInt_ofInt_of_le (by omega) hroom

theorem hasWrapped_ofTasks :
    (ofTasks log found).hasWrapped = true ↔ 2 ^ 63 ≤ (ofTasks log found).lastId + 1 := by
  by_cases hroom : (ofTasks log found).lastId + 1 < 2 ^ 63
  · have hleast := (ofTasks log found).le_lastId
    rw [hasWrapped_iff, toInt_nextId hroom]
    omega
  · have hbelow := (ofTasks log found).lastId_lt
    have hlast : (ofTasks log found).lastId = 2 ^ 63 - 1 := by omega
    rw [hasWrapped, ofTasks_nextId_eq, hlast]
    decide

/-- After opening a log, the next id wraps around when there is none left after the last create. -/
theorem wraps_ofTasks (hroom : (ofTasks log found).lastId + 1 < 2 ^ 63) (attempts : List Attempt) :
    wraps (ofTasks log found) attempts = true ↔ 2 ^ 63 ≤ (ofTasks log found).lastId +
      (acknowledged (ofTasks log found) attempts).length + 1 := by
  have hopened : (ofTasks log found).hasWrapped = false := by
    rw [← Bool.not_eq_true, hasWrapped_ofTasks, Int.not_le]
    exact hroom
  rw [wraps_iff hopened, toInt_nextId hroom]
  omega

end Checked

/-! ### Creates behind a log -/

/-- Times do not decrease after opening a log, whatever the ids are. -/
theorem createdAt_le_create {log : Option String} {found before behind : List Task} {t : Task}
    {attempts : List Attempt}
    (htasks : acknowledged (ofTasks log found) attempts = before ++ t :: behind) :
    ∀ u ∈ (ofTasks log found).tasks ++ before, u.createdAt ≤ t.createdAt := by
  obtain ⟨hpairs, hfirst⟩ := acknowledged_times (ofTasks log found) attempts
  rw [htasks] at hpairs hfirst
  intro u hu
  obtain hold | hnew := List.mem_append.mp hu
  · exact Int64.le_trans (createdAt_le_last hold) (hfirst t (by simp))
  · exact (List.pairwise_append.mp hpairs).2.2 u hnew t (by simp)

/-- **Creates after opening any log.** Times never decrease, and an absent id is not found. New ids
ascend, the ledger stays in order and every task is found under its own id exactly as long as there
is a 64-bit id left for each create. A build with overflow checks does the same as long as there is
one more id left, and panics otherwise: when it opens the log, or at a create. -/
theorem creates_behind_log {w w₁ w₂ : World} {directory text : String} {j j' : Journal}
    {attempts : List Attempt} {tasks : List Task} (hlog : w.Logs directory text.toUTF8)
    (hopen : openAt World.host directory w = (.ok j, w₁))
    (hstore : storeAll j attempts w₁ = ((tasks.map .ok, j'), w₂)) :
    j'.tasks = j.tasks ++ tasks ∧
      (∀ before t behind, tasks = before ++ t :: behind →
        (∀ u ∈ j.tasks ++ before, u.createdAt ≤ t.createdAt) ∧
          ((∀ u ∈ j.tasks ++ before, u.id < t.id) ↔ j.lastId + before.length + 1 < 2 ^ 63)) ∧
      (Ascending j'.tasks ↔ j.lastId + tasks.length < 2 ^ 63) ∧
      ((j'.tasks.map (·.id)).Nodup ∧ (∀ t ∈ j'.tasks, j'.get t.id = .ok t) ↔
        j.lastId + tasks.length < 2 ^ 63) ∧
      (∀ id, (∀ t ∈ j'.tasks, t.id ≠ id) → j'.get id = .error (.notFound id)) ∧
      (((openChecked World.host directory).run).run w).1 =
        (if 2 ^ 63 ≤ j.lastId + 1 then none else some (.ok j)) ∧
      (j.lastId + 1 < 2 ^ 63 → (((storeAllChecked j attempts).run).run w₁).1 =
        if 2 ^ 63 ≤ j.lastId + tasks.length + 1 then none else some (tasks.map .ok, j')) := by
  have hchecked := openChecked_logs hlog
  rw [openAt_logs hlog] at hopen
  cases hopen
  obtain ⟨w', hrun, -⟩ := storeAll_logs attempts hlog (j := ofTasks _ (replay text)) rfl
  obtain ⟨hanswers, -⟩ := Prod.mk.inj (hrun.symm.trans hstore)
  obtain ⟨hresults, rfl⟩ := Prod.mk.inj hanswers
  have htasks := (attempted_of_ok hresults).2
  have hroom := @ascending_iff_room (some (World.logPath directory)) (replay text) attempts
  have hlookup := @lookup_iff_room (some (World.logPath directory)) (replay text) attempts
  rw [htasks] at hroom hlookup
  refine ⟨htasks ▸ afterAll_tasks _ attempts, fun before t behind hsplit => ?_, hroom, hlookup,
    fun id hid => get_eq_error fun t hget => ?_, ?_, fun hopened => ?_⟩
  · rw [hsplit] at htasks
    exact ⟨createdAt_le_create htasks, ids_lt_iff htasks⟩
  · obtain ⟨ht, hsame⟩ := mem_of_get hget
    exact hid t ht hsame
  · rw [hchecked]
    exact if_congr hasWrapped_ofTasks rfl rfl
  · have hstored := storeAllChecked_logs attempts hlog
      (j := ofTasks (some (World.logPath directory)) (replay text)) rfl
    have hwraps := wraps_ofTasks hopened attempts
    rw [htasks] at hwraps
    rw [hstored, hresults]
    exact if_congr hwraps rfl rfl

/-- One create after opening a log with the greatest id. A build with overflow checks panics when it
opens the log. -/
theorem creates_behind_greatest :
    ∃ (first second : Task) (j j' : Journal) (w w' : World) (attempt : Attempt),
      w.Logs "data" first.line.toUTF8 ∧ openAt World.host "data" w = (.ok j, w) ∧
      storeAll j [attempt] w = (([second].map .ok, j'), w') ∧ j'.tasks = [first, second] ∧
      ¬ first.id < second.id ∧ ¬ Ascending j'.tasks ∧
      (¬ ∀ t ∈ [first, second], j'.get t.id = .ok t) ∧
      (((openChecked World.host "data").run).run w).1 = none := by
  let first : Task := Task.Draft.stored {goal := "last", chainAction := "", address := ""}
    Int64.maxValue 300
  let attempt : Attempt := {now := 400, draft := {goal := "next", chainAction := "", address := ""}}
  let j := ofTasks (some (World.logPath "data")) [first]
  let second := attempt.task j
  have hlog := World.keeping_logs (some first.line.toUTF8)
  have hopen := openAt_logs hlog
  rw [replay_record] at hopen
  have htasks : j.tasks = [first] := ofTasks_of_ascending _ (List.pairwise_singleton _ first)
  obtain ⟨w', hrun, -⟩ := storeAll_logs [attempt] hlog (j := j) rfl
  have hstore : storeAll j [attempt] _ = (([second].map .ok, _), w') := hrun
  obtain ⟨hgrown, hfresh, horder, hlookup, -, hchecked, -⟩ := creates_behind_log hlog hopen hstore
  have hlast : j.lastId = 2 ^ 63 - 1 := by
    rw [lastId, htasks]
    rfl
  obtain ⟨-, hless⟩ := hfresh [] second [] rfl
  rw [hlast] at hless horder hlookup hchecked
  rw [htasks] at hgrown hless
  refine ⟨first, second, j, _, _, w', attempt, hlog, hopen, hstore, hgrown, ?_, ?_, ?_, hchecked⟩
  · simpa using hless
  · simpa using horder
  · intro hall
    rw [hgrown] at hlookup
    have hids : ([first, second].map (·.id)).Nodup := by
      have hsecond : second.id = Int64.minValue := by
        show j.nextId = _
        rw [ofTasks_nextId_eq, hlast]
        rfl
      simp [hsecond, first, Task.Draft.stored]
      decide
    exact absurd (hlookup.mp ⟨hids, hall⟩) (by simp)

end ChainAgent.Ledger.Journal
