import ChainAgent.Proofs.Ledger.LogFile

/-! Truncated logs.

A log whose end is lost can be opened if it still is UTF-8: the ledger then has the tasks whose JSON
objects are complete, in order. A cut inside a character makes the log invalid UTF-8, and opening it
fails (`open_cut`). -/
namespace ChainAgent.Ledger.Journal

/-! ### The tasks in front of a cut -/

theorem endedBy_isPrefix_from {tasks : List Task} (start stop : Nat) :
    ((recordEnds start tasks).filter (·.2 ≤ stop)).map (·.1) <+: tasks := by
  induction tasks generalizing start with
  | nil => exact List.prefix_rfl
  | cons t tasks ih =>
    by_cases hend : start + t.line.utf8ByteSize ≤ stop
    · rw [recordEnds, List.filter_cons_of_pos (by simpa using hend), List.map_cons,
        List.cons_prefix_cons]
      exact ⟨rfl, ih _⟩
    · rw [recordEnds, List.filter_cons_of_neg (by simpa using hend), recordEnds_none (by omega)]
      exact List.nil_prefix

theorem endedBy_isPrefix (stop : Nat) (tasks : List Task) : endedBy stop tasks <+: tasks :=
  endedBy_isPrefix_from 0 stop

/-- The first of some tasks with consecutive ids from one ascend too, unless there are more tasks
than ids. -/
theorem ofTasks_of_counted {front tasks : List Task} (log : Option String) (hfront : front <+: tasks)
    (hids : tasks.map (·.id) = (List.range tasks.length).map fun i => 1 + .ofNat i) :
    (ofTasks log front).tasks = front ↔ front.length < 2 ^ 63 := by
  have hcounted : front.map (·.id) = (List.range front.length).map fun i => 1 + .ofNat i := by
    have htake := congrArg (List.take front.length) hids
    rw [← List.map_take, ← List.map_take, List.take_range, ← List.prefix_iff_eq_take.mp hfront,
      Nat.min_eq_left hfront.length_le] at htake
    exact htake
  rw [← ascending_iff_of_counted hcounted]
  exact ⟨fun h => h ▸ ofTasks_ascending log front, ofTasks_of_ascending log⟩

/-! ### Opening what is left -/

/-- **A log cut between two characters is opened as the ledger of the tasks whose objects are
complete**, in order, as long as there are no more tasks than ids. Cut inside a character it cannot
be opened. -/
theorem open_cut {w w₁ w₂ : World} {directory : String} {j j' : Journal}
    {attempts : List Attempt} {tasks : List Task} (hlog : w.Logs directory .empty)
    (hopen : openAt World.host directory w = (.ok j, w₁))
    (hstore : storeAll j attempts w₁ = ((tasks.map .ok, j'), w₂)) :
    w₂.Logs directory (logOf tasks).toUTF8 ∧
      ∀ (v : World) (place : String) (k : Nat), k ≤ (logOf tasks).utf8ByteSize →
        v.Logs place ((logOf tasks).toUTF8.extract 0 k) →
        (String.Pos.Raw.IsValid (logOf tasks) ⟨k⟩ →
          ∃ left, openAt World.host place v = (.ok left, v) ∧
            (left.tasks = endedBy k tasks ↔ (endedBy k tasks).length < 2 ^ 63)) ∧
        (¬ String.Pos.Raw.IsValid (logOf tasks) ⟨k⟩ →
          openAt World.host place v = (.error (.io .notText), v)) := by
  obtain ⟨hj, hresults, -, hgrown⟩ := storeAll_new hlog hopen hstore
  obtain ⟨hattempted, hacknowledged⟩ := attempted_of_ok hresults.symm
  rw [hattempted] at hgrown
  have hids := acknowledged_ids j attempts
  rw [hacknowledged, hj, (ofTasks_nil _).2] at hids
  refine ⟨hgrown, fun v place k hk hcut => ⟨fun hvalid => ?_, fun htorn => ?_⟩⟩
  · obtain ⟨front, behind, hsplit, hsize, htext⟩ := Text.exists_cut hvalid
    rw [htext] at hcut
    refine ⟨_, openAt_logs hcut, ?_⟩
    rw [replay_cut hsplit.symm, hsize]
    exact ofTasks_of_counted _ (endedBy_isPrefix k tasks) hids
  · exact openAt_torn hcut (Text.decode_torn hk htorn)

/-- The goal of a task is part of its line. -/
theorem line_of_letter {t : Task} (h : t.goal = "é") :
    ∃ front behind, t.line = front ++ String.singleton 'é' ++ behind := by
  have hquote : Json.quote t.goal = ['"', 'é', '"'] := by
    rw [h]
    decide
  let front := '{' :: (Json.quote "id" ++ ':' :: (Json.compactChars (.ofInt t.id.toInt) ++
    ',' :: (Json.quote "goal" ++ [':', '"'])))
  have hline : ∃ tail, t.line.toList = front ++ 'é' :: tail := by
    let later := (t.toJson.members?.getD []).drop 2
    refine ⟨'"' :: ',' :: (Json.compactMembers later ++ ['}']), ?_⟩
    rw [Task.line_toList]
    simp [Task.toJson, Json.compactChars, Json.compactMembers, hquote, front, later,
      Json.Value.members?]
  obtain ⟨tail, htail⟩ := hline
  refine ⟨.ofList front, .ofList tail, ?_⟩
  rw [← String.toList_inj, htail]
  simp

/-- A log of one task, cut inside a character of its goal. -/
theorem open_cut_letter :
    ∃ (t : Task) (j j' : Journal) (w w' v : World) (attempts : List Attempt) (k : Nat),
      w.Logs "data" .empty ∧ openAt World.host "data" w = (.ok j, w) ∧
      storeAll j attempts w = (([t].map .ok, j'), w') ∧
      k ≤ (logOf [t]).utf8ByteSize ∧ v.Logs "data" ((logOf [t]).toUTF8.extract 0 k) ∧
      endedBy k [t] = [] ∧ openAt World.host "data" v = (.error (.io .notText), v) := by
  let j := ofTasks (some (World.logPath "data")) []
  let stored : Attempt := ⟨100, {goal := "é", chainAction := "", address := ""}, none⟩
  let t := stored.task j
  have hlog : (World.keeping none).Logs "data" "".toUTF8 := World.keeping_logs none
  have hopen : openAt World.host "data" (World.keeping none) = (.ok j, _) := openAt_logs hlog
  obtain ⟨w', hrun, -⟩ := storeAll_logs [stored] hlog (j := j) rfl
  have hstore : storeAll j [stored] (World.keeping none) = (([t].map .ok, _), w') := hrun
  obtain ⟨front, behind, hline⟩ : ∃ front behind, t.line = front ++ String.singleton 'é' ++ behind :=
    line_of_letter rfl
  have hsplit : logOf [t] = front ++ String.singleton 'é' ++ (behind ++ "\n") := by
    rw [logOf, logOf, hline, String.append_empty, String.append_assoc]
  have hletter : (String.singleton 'é').utf8ByteSize = 2 := by
    rw [String.utf8ByteSize_singleton]
    decide
  have hsize : t.line.utf8ByteSize = front.utf8ByteSize + 2 + behind.utf8ByteSize := by
    rw [hline, String.utf8ByteSize_append, String.utf8ByteSize_append, hletter]
  have hk : front.utf8ByteSize + 1 ≤ (logOf [t]).utf8ByteSize := by
    rw [hsplit, String.utf8ByteSize_append, String.utf8ByteSize_append, hletter]
    omega
  let v := World.keeping (some ((logOf [t]).toUTF8.extract 0 (front.utf8ByteSize + 1)))
  have hcut : v.Logs "data" _ := World.keeping_logs (some _)
  have htorn : ¬ String.Pos.Raw.IsValid (logOf [t]) ⟨front.utf8ByteSize + 1⟩ := by
    rw [hsplit]
    exact Text.not_isValid_inside (Nat.lt_succ_self _) (Nat.add_lt_add_left (by decide) _)
  refine ⟨t, j, _, _, w', v, _, _, hlog, hopen, hstore, hk, hcut, ?_, ?_⟩
  · have hlate : ¬ 0 + t.line.utf8ByteSize ≤ front.utf8ByteSize + 1 := by omega
    rw [endedBy, recordEnds, recordEnds, List.filter_cons_of_neg (by simpa using hlate)]
    rfl
  · exact ((open_cut hlog hopen hstore).2 v "data" _ hk hcut).2 htorn

end ChainAgent.Ledger.Journal
