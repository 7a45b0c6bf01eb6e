import ChainAgent.Proofs.Ledger.Requests

/-! Growth of a ledger.

Whatever the machine does, a draft that is stored becomes the last task of the ledger under the next
id, and a draft that is not leaves the ledger as it is (`Store.create_cases`). In a ledger that was
empty at first ids are consecutive from one, so each of its tasks is found under its id
(`Store.CountsUp.get`), and times do not decrease, so its newest tasks are its last ones
(`Store.CountsUp.recent`). -/
namespace ChainAgent.Ledger

/-- The tasks of a ledger, in the order in which they were stored. -/
def Store.tasks : Store → List Task
  | .journal j => j.tasks
  | .database d => d.table.rows

/-- An empty ledger. -/
inductive Store.IsNew : Store → Prop
  | journal (log : Option String) : IsNew (.journal (.ofTasks log []))
  | database (path : Option String) (now : Int64) :
    IsNew (.database ⟨path, Table.blank.migrated now⟩)

/-- The next id of a ledger is the one after all its ids. -/
def Store.KnowsNext : Store → Prop
  | .journal j => j.nextId = 1 + .ofNat j.tasks.length
  | .database d => d.table.sequence = .ofNat d.table.rows.length ∧ d.table.rows.length < 2 ^ 63

/-- The last creation time that a ledger remembers is no earlier than any of its tasks; a table
computes it from its rows. -/
def Store.KnowsTime : Store → Prop
  | .journal j => ∀ t ∈ j.tasks, t.createdAt ≤ j.lastCreatedAt
  | .database _ => True

/-- A ledger with consecutive ids from one, and times that do not decrease. -/
structure Store.CountsUp (s : Store) : Prop extends Counted s.tasks where
  next : s.KnowsNext
  time : s.KnowsTime

/-- A ledger with one more task, made of a draft. -/
structure Store.Grown (before : Store) (d : Task.Draft) (t : Task) (after : Store) : Prop where
  stored : ∃ id createdAt, t = d.stored id createdAt
  tasks : after.tasks = before.tasks ++ [t]
  counts : before.CountsUp → after.CountsUp

theorem Store.IsNew.tasks {s : Store} (h : s.IsNew) : s.tasks = [] := by
  cases h with
  | journal log => exact (Journal.ofTasks_nil log).1
  | database path now => rfl

theorem Store.IsNew.countsUp {s : Store} (h : s.IsNew) : s.CountsUp := by
  refine ⟨by rw [h.tasks]; exact .nil, ?_, ?_⟩
  · cases h with
    | journal log =>
      obtain ⟨htasks, hid⟩ := Journal.ofTasks_nil log
      show (Journal.ofTasks log []).nextId = 1 + .ofNat (Journal.ofTasks log []).tasks.length
      rw [htasks, hid]
      rfl
    | database path now => exact ⟨rfl, (by decide : 0 < 2 ^ 63)⟩
  · cases h with
    | journal log => exact fun t => Journal.createdAt_le_last
    | database path now => exact trivial

section Creating

variable {ω : Type} (h : Host (StateM ω))

theorem Journal.create_cases (j : Journal) (d : Task.Draft) (w : ω) :
    (∃ f w', j.create h d w = ((.error f, j), w')) ∨
      ∃ now w', j.create h d w = ((.ok (j.next d now), j.accept (j.next d now)), w') := by
  rw [Journal.create, bind_apply, bind_apply]
  rcases j.appendLine h (j.next d (h.now w).1) (h.now w).2 with ⟨f | u, w'⟩
  · exact .inl ⟨.io f, w', rfl⟩
  · exact .inr ⟨(h.now w).1, w', rfl⟩

theorem Database.create_cases (b : Database) (d : Task.Draft) (w : ω) :
    (∃ f w', b.create h d w = ((.error f, b), w')) ∨
      ∃ now t table w', b.table.insert d now = .ok (t, table) ∧
        b.create h d w = ((.ok t, {b with table := table}), w') := by
  unfold Database.create
  rw [bind_apply]
  dsimp only
  cases hinsert : b.table.insert d (h.now w).1 with
  | error f => exact .inl ⟨f, (h.now w).2, rfl⟩
  | ok grown =>
    obtain ⟨t, table⟩ := grown
    dsimp only
    rw [bind_apply]
    rcases ({b with table := table} : Database).save h (h.now w).2 with ⟨f | u, w'⟩
    · exact .inl ⟨f, w', rfl⟩
    · exact .inr ⟨(h.now w).1, t, table, w', hinsert, rfl⟩

theorem Journal.accept_grown (j : Journal) (d : Task.Draft) (now : Int64) :
    Store.Grown (.journal j) d (j.next d now) (.journal (j.accept (j.next d now))) where
  stored := ⟨_, _, rfl⟩
  tasks := rfl
  counts := by
    rintro ⟨hcounted, hnext, htime⟩
    have hlater : ∀ t ∈ j.tasks, t.createdAt ≤ (j.next d now).createdAt := fun t ht =>
      Int64.le_trans (htime t ht) (le_later_right now j.lastCreatedAt)
    refine ⟨hcounted.concat hnext hlater, ?_, fun t ht => ?_⟩
    · show j.nextId + 1 = 1 + .ofNat (j.tasks ++ [j.next d now]).length
      have hnext : j.nextId = 1 + .ofNat j.tasks.length := hnext
      rw [List.length_append, List.length_singleton, Journal.ofNat_succ, hnext, Int64.add_assoc,
        Int64.add_assoc, Int64.add_comm 1 (.ofNat _)]
    · obtain hold | hlast := List.mem_append.mp ht
      · exact hlater t hold
      · rw [List.mem_singleton.mp hlast]
        exact Int64.le_refl _

theorem Database.insert_grown (b : Database) {d : Task.Draft} {now : Int64} {t : Task}
    {table : Table} (hinsert : b.table.insert d now = .ok (t, table)) :
    Store.Grown (.database b) d t (.database {b with table := table}) := by
  unfold Table.insert at hinsert
  split at hinsert
  · cases hinsert
  · rename_i hroom
    cases hinsert
    refine ⟨⟨_, _, rfl⟩, rfl, ?_⟩
    rintro ⟨hcounted, ⟨hsequence, hfew⟩, -⟩
    have hnext : b.table.sequence + 1 = 1 + .ofNat b.table.rows.length := by
      rw [hsequence, Int64.add_comm]
    have hlater : ∀ t ∈ b.table.rows, t.createdAt ≤ b.table.nextTime now := by
      intro t ht
      obtain ⟨m, hm, hle⟩ := le_latest (List.mem_map_of_mem (f := (·.createdAt)) ht)
      rw [Table.nextTime, hm]
      exact Int64.le_trans hle (le_later_right now m)
    refine ⟨hcounted.concat hnext hlater, ⟨?_, ?_⟩, trivial⟩
    · show b.table.sequence + 1 = .ofNat (b.table.rows ++ [_]).length
      rw [List.length_append, List.length_singleton, hsequence, Int64.ofNat_add]
      rfl
    · show (b.table.rows ++ [_]).length < 2 ^ 63
      have hlast : b.table.rows.length ≠ 2 ^ 63 - 1 := by
        intro hlength
        rw [hsequence, hlength] at hroom
        exact hroom rfl
      rw [List.length_append, List.length_singleton]
      omega

/-- **A create appends the task that it returns, or leaves the ledger as it is.** -/
theorem Store.create_cases (s : Store) (d : Task.Draft) (w : ω) :
    (∃ f w', s.create h d w = ((.error f, s), w')) ∨
      ∃ t s' w', s.create h d w = ((.ok t, s'), w') ∧ s.Grown d t s' := by
  cases s with
  | journal j =>
    rw [Store.create, bind_apply]
    obtain ⟨f, w', hcreate⟩ | ⟨now, w', hcreate⟩ := j.create_cases h d w
    · rw [hcreate]
      exact .inl ⟨f, w', rfl⟩
    · rw [hcreate]
      exact .inr ⟨_, _, w', rfl, j.accept_grown d now⟩
  | database b =>
    rw [Store.create, bind_apply]
    obtain ⟨f, w', hcreate⟩ | ⟨now, t, table, w', hinsert, hcreate⟩ := b.create_cases h d w
    · rw [hcreate]
      exact .inl ⟨f, w', rfl⟩
    · rw [hcreate]
      exact .inr ⟨t, _, w', rfl, b.insert_grown hinsert⟩

end Creating

/-- A ledger in order in memory has fewer tasks than there are ids, and a table accepts no more. -/
theorem Store.CountsUp.length_lt {s : Store} (h : s.CountsUp)
    (hfew : ∀ j, s = .journal j → j.count < 2 ^ 63) : s.tasks.length < 2 ^ 63 := by
  cases s with
  | journal j => exact hfew j rfl
  | database b => exact h.next.2

/-- **Every task of a ledger is found under its id.** -/
theorem Store.CountsUp.get {s : Store} (h : s.CountsUp)
    (hfew : ∀ j, s = .journal j → j.count < 2 ^ 63) {t : Task} (ht : t ∈ s.tasks) :
    s.get t.id = .ok t := by
  have hascending := h.toCounted.ascending (h.length_lt hfew)
  cases s with
  | journal j => exact (Journal.get_eq_ok_iff hascending).mpr ⟨ht, rfl⟩
  | database b =>
    have hfind : b.table.rows.find? (·.id == t.id) = some t :=
      Journal.find?_of_nodup hascending.nodup ht
    show b.table.get t.id = .ok t
    rw [Table.get, hfind]

/-- **The newest tasks of a ledger are its last ones.** -/
theorem Store.CountsUp.recent {s : Store} (h : s.CountsUp)
    (hfew : ∀ j, s = .journal j → j.count < 2 ^ 63) (limit : Nat) :
    s.recent limit = s.tasks.reverse.take limit := by
  have hnodup := (h.toCounted.ascending (h.length_lt hfew)).nodup
  have hsteady := h.toCounted.steady (h.length_lt hfew)
  have hnewest : newest s.tasks = s.tasks.reverse :=
    newest_eq_of_pairwise hnodup (List.reverse_perm _) (List.pairwise_reverse.mpr hsteady)
  rw [← hnewest]
  cases s with
  | journal j => exact Journal.recent_of_steady hnodup limit hsteady
  | database b => rfl

end ChainAgent.Ledger
