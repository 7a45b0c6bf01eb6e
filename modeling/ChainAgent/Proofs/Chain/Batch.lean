import ChainAgent.Proofs.Chain.Numbering
import ChainAgent.Proofs.Chain.Hex
import Mathlib.Data.List.Forall2
import Mathlib.Data.List.TakeWhile

/-! Batches.

A batch is one request: one exchange of the transport, which follows redirects inside it. A batch
with an entry that is no hex string sends none. The answers may come in any order and among others:
each transaction gets the hash under its own id (`batchHash_eq_ok_iff`), so neither the order of the
answers nor additional ones matter (`batchHash_of_perm`). Ids are never reused, in one batch or in
all requests of one executor (`sendBatch_matches`). -/
namespace ChainAgent.Chain

open Json (Value)

/-! ### Answers -/

/-- No two answers have one id. -/
def DistinctIds (answers : List PeerAnswer) : Prop := (answers.filterMap (·.id)).Nodup

/-- An answer to a batch: a JSON array of answers to calls. -/
def Lists (heard : Except Http.Fault Http.Answer) (answers : List PeerAnswer) : Prop :=
  ∃ v, Holds heard v ∧ Json.list peerAnswer v.node = .ok answers

/-- An answer with an id, with a hash as its result and no error. -/
def Gives (answers : List PeerAnswer) (id : UInt64) (hash : String) : Prop :=
  ∃ a ∈ answers, a.id = some id.toNat ∧ a.error = none ∧ a.result = some (.text (some hash))

section Matching

variable {answers : List PeerAnswer} {id : UInt64}

/-- The answers with an id. -/
def under (id : UInt64) (answers : List PeerAnswer) : List PeerAnswer :=
  answers.filter (·.id == some id.toNat)

theorem answerTo_eq_getLast? (answers : List PeerAnswer) (id : UInt64) :
    Network.answerTo answers id = (under id answers).getLast? := by
  induction answers using List.reverseRecOn with
  | nil => rfl
  | append_singleton answers a ih =>
    unfold Network.answerTo under at *
    rw [List.foldl_append, ih, List.filter_append, List.filter_singleton, List.foldl_cons,
      List.foldl_nil]
    cases a.id == some id.toNat with
    | true => exact List.getLast?_concat.symm
    | false => exact congrArg List.getLast? (List.append_nil _).symm

theorem under_eq_nil_or (h : DistinctIds answers) (id : UInt64) :
    under id answers = [] ∨ ∃ a, under id answers = [a] := by
  have hsame : (under id answers).filterMap (·.id) =
      List.replicate (under id answers).length id.toNat := by
    rw [← List.map_const', ← List.filterMap_eq_map]
    exact List.filterMap_congr fun a ha => beq_iff_eq.mp (List.mem_filter.mp ha).2
  have hnodup : ((under id answers).filterMap (·.id)).Nodup := (List.filter_sublist.filterMap _).nodup h
  rw [hsame, List.nodup_replicate] at hnodup
  obtain hnone | hone := Nat.le_one_iff_eq_zero_or_eq_one.mp hnodup
  · exact .inl (List.length_eq_zero_iff.mp hnone)
  · exact .inr (List.length_eq_one_iff.mp hone)

theorem answerTo_eq_some_iff (h : DistinctIds answers) {a : PeerAnswer} :
    Network.answerTo answers id = some a ↔ a ∈ answers ∧ a.id = some id.toNat := by
  have hmem : a ∈ under id answers ↔ a ∈ answers ∧ a.id = some id.toNat := by
    rw [under, List.mem_filter, beq_iff_eq]
  rw [answerTo_eq_getLast?, ← hmem]
  obtain hunder | ⟨b, hunder⟩ := under_eq_nil_or h id
  · simp [hunder]
  · simp [hunder, eq_comm]

/-- **A transaction gets the hash under its own id.** -/
theorem batchHash_eq_ok_iff (h : DistinctIds answers) {hash : String} :
    Network.batchHash answers id = .ok hash ↔ Gives answers id hash := by
  unfold Network.batchHash Gives
  constructor
  · intro hhash
    split at hhash
    · rename_i a ha
      obtain ⟨hmem, hid⟩ := (answerTo_eq_some_iff h).mp ha
      exact ⟨a, hmem, hid, (decode_eq_ok_iff _).mp hhash⟩
    · cases hhash
  · rintro ⟨a, hmem, hid, hresult⟩
    rw [(answerTo_eq_some_iff h).mpr ⟨hmem, hid⟩]
    exact (decode_eq_ok_iff _).mpr hresult

/-- **Neither the order of the answers nor additional answers matter.** -/
theorem batchHash_of_perm {answers' extra : List PeerAnswer} (h : DistinctIds answers)
    (hperm : answers'.Perm (answers ++ extra)) (hextra : ∀ a ∈ extra, a.id ≠ some id.toNat) :
    Network.batchHash answers' id = Network.batchHash answers id := by
  have hunder : (under id answers').Perm (under id answers) := by
    have hnone : under id extra = [] :=
      List.filter_eq_nil_iff.mpr fun a ha => by simpa using hextra a ha
    have hfilter := hperm.filter (·.id == some id.toNat)
    rwa [List.filter_append, ← under, ← under, ← under, hnone, List.append_nil] at hfilter
  have hsame : under id answers' = under id answers := by
    obtain hnil | ⟨a, hone⟩ := under_eq_nil_or h id
    · rw [hnil] at hunder ⊢
      exact List.perm_nil.mp hunder
    · rw [hone] at hunder ⊢
      exact List.perm_singleton.mp hunder
  rw [Network.batchHash, Network.batchHash, answerTo_eq_getLast?, answerTo_eq_getLast?, hsame]

/-- A traversal succeeds if every computation does. -/
theorem mapM_eq_ok_iff {α β ε : Type} {f : α → Except ε β} {l : List α} {results : List β} :
    l.mapM f = .ok results ↔ List.Forall₂ (fun a b => f a = .ok b) l results := by
  induction l generalizing results with
  | nil => cases results <;> simp [pure, Except.pure]
  | cons a l ih =>
    rw [List.mapM_cons]
    cases hhead : f a with
    | error e => cases results <;> simp [bind, Except.bind, hhead]
    | ok b =>
      cases htail : l.mapM f with
      | error e => cases results <;> simp [bind, Except.bind, hhead, htail, ← ih]
      | ok bs => cases results <;> simp [bind, Except.bind, pure, Except.pure, hhead, htail, ← ih]

theorem mapM_congr_of_mem {α β ε : Type} {f g : α → Except ε β} {l : List α}
    (h : ∀ a ∈ l, f a = g a) : l.mapM f = l.mapM g := by
  induction l with
  | nil => rfl
  | cons a l ih =>
    obtain ⟨hhead, htail⟩ := List.forall_mem_cons.mp h
    rw [List.mapM_cons, List.mapM_cons, hhead, ih htail]

end Matching

/-! ### The request -/

/-- A transaction as it is sent: trimmed and in lowercase. -/
def normal (raw : String) : String := String.ofList (Hex.lowered raw)

/-- Transactions with the next ids. -/
def entriesFrom (id : UInt64) : List String → List (UInt64 × String)
  | [] => []
  | blob :: rest => (id, blob) :: entriesFrom (id + 1) rest

/-- The request that broadcasts a batch. -/
def batchRequest (url : Url) (entries : List (UInt64 × String)) : Http.Request :=
  requestTo url (.array (entries.map fun e => callBody e.1 Network.broadcast [.text e.2]))

/-- The failure for an entry that is no hex string. -/
def notSigned : Failure :=
  .rpc Network.broadcast "signed transaction must be 0x-prefixed even-length hex"

/-- The entries before the first that is no hex string. -/
def leading (raws : List String) : List String := raws.takeWhile fun raw => (Hex.blob? raw).isSome

theorem map_snd_entriesFrom (id : UInt64) (blobs : List String) :
    (entriesFrom id blobs).map (·.2) = blobs := by
  induction blobs generalizing id with
  | nil => rfl
  | cons blob rest ih => rw [entriesFrom, List.map_cons, ih]

theorem map_toNat_entriesFrom (id : UInt64) (blobs : List String) :
    (entriesFrom id blobs).map (·.1.toNat) = (List.range blobs.length).map (numberAt id) := by
  induction blobs generalizing id with
  | nil => rfl
  | cons blob rest ih =>
    rw [entriesFrom, List.map_cons, ih, List.length_cons, List.range_succ_eq_map, List.map_cons,
      List.map_map]
    refine congrArg₂ _ (congrArg UInt64.toNat (UInt64.add_zero id).symm) ?_
    exact List.map_congr_left fun place _ => congrArg UInt64.toNat (add_one_add_ofNat id place)

theorem nodup_entriesFrom (id : UInt64) {blobs : List String} (h : blobs.length ≤ UInt64.size) :
    ((entriesFrom id blobs).map (·.1)).Nodup := by
  have hnodup := nodup_numberAt id h (List.Sublist.refl _)
  rw [← map_toNat_entriesFrom] at hnodup
  exact .of_map UInt64.toNat (by rwa [List.map_map])

theorem idsIn_entries (id : UInt64) (blobs : List String) :
    idsIn (.array ((entriesFrom id blobs).map fun e => callBody e.1 Network.broadcast [.text e.2])) =
      (List.range blobs.length).map (numberAt id) := by
  rw [← map_toNat_entriesFrom, idsIn, List.filterMap_map, ← List.filterMap_eq_map]
  rfl

/-- The result of an answer to a batch. -/
def hashesIn (entries : List (UInt64 × String)) (heard : Except Http.Fault Http.Answer) :
    Except Failure (List String) :=
  match valueIn Network.broadcast heard with
  | .error f => .error f
  | .ok v =>
    match decoded Network.broadcast (Json.list peerAnswer) v.node with
    | .error f => .error f
    | .ok answers => entries.mapM fun e => Network.batchHash answers e.1

section Hashes

variable {entries : List (UInt64 × String)} {heard heard' : Except Http.Fault Http.Answer}
  {answers answers' extra : List PeerAnswer}

theorem hashesIn_of_lists (h : Lists heard answers) :
    hashesIn entries heard = entries.mapM fun e => Network.batchHash answers e.1 := by
  obtain ⟨v, hv, hanswers⟩ := h
  rw [hashesIn, (valueIn_eq_ok_iff _).mpr hv]
  dsimp only
  rw [(decoded_eq_ok_iff _).mpr hanswers]

/-- The result of a batch depends on the answers with its ids. -/
theorem hashesIn_of_perm (h : Lists heard answers) (hdistinct : DistinctIds answers)
    (h' : Lists heard' answers') (hperm : answers'.Perm (answers ++ extra))
    (hextra : ∀ a ∈ extra, ∀ e ∈ entries, a.id ≠ some e.1.toNat) :
    hashesIn entries heard' = hashesIn entries heard := by
  rw [hashesIn_of_lists h, hashesIn_of_lists h']
  exact mapM_congr_of_mem fun e he => batchHash_of_perm hdistinct hperm fun a ha => hextra a ha e he

/-- The hashes are in the order of the entries, each the one under the entry's id. -/
theorem hashesIn_eq_ok_iff (h : Lists heard answers) (hdistinct : DistinctIds answers)
    {hashes : List String} : hashesIn entries heard = .ok hashes ↔
      List.Forall₂ (fun e hash => Gives answers e.1 hash) entries hashes := by
  simp only [hashesIn_of_lists h, mapM_eq_ok_iff, batchHash_eq_ok_iff hdistinct]

end Hashes

section Sending

variable {σ : Type} {raws : List String}

theorem outcome_numbered_cons (raw : String) (rest : List String) (id : UInt64) (w : σ) :
    outcome (Network.numbered (raw :: rest)) id w =
      match Network.signed raw with
      | .error f => ((.error f, id), w)
      | .ok blob =>
        match outcome (Network.numbered rest) (id + 1) w with
        | ((.ok entries, id'), w') => ((.ok ((id, blob) :: entries), id'), w')
        | ((.error f, id'), w') => ((.error f, id'), w') := by
  rw [Network.numbered, outcome_bind, outcome_mk]
  cases Network.signed raw with
  | error f => rfl
  | ok blob =>
    dsimp only
    rw [outcome_bind, outcome_nextId]
    dsimp only
    rw [outcome_bind]
    generalize outcome (Network.numbered rest) (id + 1) w = done
    obtain ⟨⟨_ | entries, next⟩, left⟩ := done <;> rfl

theorem signed_of_isBlob {raw : String} (h : Hex.IsBlob raw) : Network.signed raw = .ok (normal raw) := by
  rw [Network.signed, Hex.blob?_eq_some_iff.mpr ⟨h, rfl⟩]
  rfl

theorem signed_of_not_isBlob {raw : String} (h : ¬ Hex.IsBlob raw) :
    Network.signed raw = .error notSigned := by
  rw [Network.signed, Hex.blob?_eq_none h]
  rfl

theorem outcome_numbered (h : ∀ raw ∈ raws, Hex.IsBlob raw) (id : UInt64) (w : σ) :
    outcome (Network.numbered raws) id w =
      ((.ok (entriesFrom id (raws.map normal)), id + UInt64.ofNat raws.length), w) := by
  induction raws generalizing id with
  | nil =>
    show ((_, id), w) = ((_, id + 0), w)
    rw [UInt64.add_zero]
    rfl
  | cons raw rest ih =>
    obtain ⟨hraw, hrest⟩ := List.forall_mem_cons.mp h
    rw [outcome_numbered_cons, signed_of_isBlob hraw, ih hrest, add_one_add_ofNat]
    rfl

/-- Numbering stops at the first entry that is no hex string, after the ids of those before it. -/
theorem outcome_numbered_error (h : ∃ raw ∈ raws, ¬ Hex.IsBlob raw) (id : UInt64) (w : σ) :
    outcome (Network.numbered raws) id w =
      ((.error notSigned, id + UInt64.ofNat (leading raws).length), w) := by
  induction raws generalizing id with
  | nil => simp at h
  | cons raw rest ih =>
    rw [outcome_numbered_cons]
    by_cases hraw : Hex.IsBlob raw
    · have hrest : ∃ raw ∈ rest, ¬ Hex.IsBlob raw := by
        obtain ⟨other, hmem, hother⟩ := h
        obtain rfl | hmem := List.mem_cons.mp hmem
        · exact absurd hraw hother
        · exact ⟨other, hmem, hother⟩
      rw [signed_of_isBlob hraw, ih hrest, add_one_add_ofNat, leading, leading, List.takeWhile_cons,
        Hex.blob?_eq_some_iff.mpr ⟨hraw, rfl⟩]
      rfl
    · rw [signed_of_not_isBlob hraw, leading, List.takeWhile_cons, Hex.blob?_eq_none hraw]
      show ((_, id), w) = ((_, id + 0), w)
      rw [UInt64.add_zero]

variable (t : Http.Transport (StateM σ)) {n : Network} {url : Url}

/-- A batch with an entry that is no hex string sends nothing. -/
theorem outcome_sendBatch_error (h : ∃ raw ∈ raws, ¬ Hex.IsBlob raw) (id : UInt64) (w : σ) :
    outcome (n.sendBatch t raws) id w =
      ((.error notSigned, id + UInt64.ofNat (leading raws).length), w) := by
  have hne : ¬ raws.isEmpty = true := by
    obtain ⟨raw, hmem, -⟩ := h
    rw [List.isEmpty_iff]
    exact List.ne_nil_of_mem hmem
  unfold Network.sendBatch
  rw [if_neg hne, outcome_bind, outcome_numbered_error h]

/-- **A batch is one request.** -/
theorem outcome_sendBatch (h : LeadsTo n.address url) (hne : raws ≠ [])
    (hraws : ∀ raw ∈ raws, Hex.IsBlob raw) (id : UInt64) (w : σ) (log : List Http.Request) :
    let entries := entriesFrom id (raws.map normal)
    let heard := (t.exchange (batchRequest url entries)).run w
    outcome (n.sendBatch (recorded t) raws) id (w, log) =
      ((hashesIn entries heard.1, id + UInt64.ofNat raws.length), heard.2,
        log ++ [batchRequest url entries]) := by
  intro entries heard
  have hnumbered : outcome (Network.numbered raws) id (w, log) =
      ((.ok entries, id + UInt64.ofNat raws.length), w, log) := outcome_numbered hraws id (w, log)
  have hposted : (Http.post (recorded t) n.address none
      (.array (entries.map fun e => callBody e.1 Network.broadcast [.text e.2]))).run (w, log) =
        (heard.1, heard.2, log ++ [batchRequest url entries]) := post_recorded t h _ w log
  -- nothing below looks into the answer or the entries
  clear_value heard entries
  unfold Network.sendBatch hashesIn
  rw [if_neg (by rwa [List.isEmpty_iff]), outcome_bind, hnumbered]
  dsimp only
  rw [outcome_bind, outcome_post, hposted]
  dsimp only
  cases valueIn Network.broadcast heard.1 with
  | error f => rfl
  | ok v =>
    dsimp only
    rw [outcome_bind, outcome_mk]
    cases decoded Network.broadcast (Json.list peerAnswer) v.node with
    | error f => rfl
    | ok answers => rfl

end Sending

/-! ### One thing after another -/

/-- The operations of an executor. -/
inductive Ask where
  | execute (action address : String)
  | snapshot
  | deploy (raw : String)
  | batch (raws : List String)
  | logs (f : LogFilter)

section Asking

variable {σ : Type} (t : Http.Transport (StateM σ)) (n : Network)

/-- The moment after an operation, whatever its result. -/
def Ask.after (s : Moment σ) : Ask → Moment σ
  | .execute action address => momentAfter (n.execute (recorded t) action address) s
  | .snapshot => momentAfter (n.snapshot (recorded t)) s
  | .deploy raw => momentAfter (n.deploy (recorded t) raw) s
  | .batch raws => momentAfter (n.sendBatch (recorded t) raws) s
  | .logs f => momentAfter (n.logs (recorded t) f) s

/-- How many ids an operation takes: for a batch one for each transaction that was read, for any
other so few that the counter shows them. -/
def Ask.taken (s : Moment σ) : Ask → Nat
  | .batch raws => (leading raws).length
  | ask => ((ask.after t n s).1 - s.1).toNat

/-- The moment after several operations. -/
def afterAll (s : Moment σ) : List Ask → Moment σ
  | [] => s
  | ask :: rest => afterAll (ask.after t n s) rest

/-- How many ids several operations take. -/
def allTaken (s : Moment σ) : List Ask → Nat
  | [] => 0
  | ask :: rest => ask.taken t n s + allTaken (ask.after t n s) rest

variable {n} {url : Url}

theorem takes_batch (h : LeadsTo n.address url) (raws : List String) (s : Moment σ) :
    Takes url (leading raws).length s (momentAfter (n.sendBatch (recorded t) raws) s) := by
  obtain ⟨id, w, log⟩ := s
  unfold momentAfter
  by_cases hraws : ∀ raw ∈ raws, Hex.IsBlob raw
  · have hleading : leading raws = raws :=
      List.takeWhile_eq_self_iff.mpr fun raw hmem => by
        rw [Hex.blob?_eq_some_iff.mpr ⟨hraws raw hmem, rfl⟩]
        rfl
    rw [hleading]
    by_cases hne : raws = []
    · rw [hne]
      exact .refl _
    · rw [outcome_sendBatch t h hne hraws]
      refine .posting ?_
      rw [idsIn_entries, List.length_map]
  · have hsome : ∃ raw ∈ raws, ¬ Hex.IsBlob raw := by simpa using hraws
    rw [outcome_sendBatch_error _ hsome]
    exact .idle _ _ _

/-- The number of ids that are taken is shown by the counter. -/
theorem AtMost.takes {α : Type} {c : Watched σ α} (hc : AtMost url 3 c) (s : Moment σ) :
    Takes url ((momentAfter c s).1 - s.1).toNat s (momentAfter c s) := by
  obtain ⟨k, hk, htakes⟩ := hc s
  have hshown : ((momentAfter c s).1 - s.1).toNat = k := by
    rw [htakes.1, UInt64.add_comm, UInt64.add_sub_cancel]
    exact UInt64.toNat_ofNat_of_lt (hk.trans_lt (by decide))
  rwa [hshown]

/-- **An operation takes the next ids and posts each of them at most once.** -/
theorem Ask.takes (h : LeadsTo n.address url) (ask : Ask) (s : Moment σ) :
    Takes url (ask.taken t n s) s (ask.after t n s) := by
  cases ask with
  | execute action address => exact (atMost_execute t h action address).takes s
  | snapshot => exact ((atMost_snapshot t h).mono (by decide)).takes s
  | deploy raw => exact ((atMost_deploy t h raw).mono (by decide)).takes s
  | batch raws => exact takes_batch t h raws s
  | logs f => exact ((atMost_logs t h f).mono (by decide)).takes s

/-- So do several operations. -/
theorem takes_afterAll (h : LeadsTo n.address url) (asks : List Ask) (s : Moment σ) :
    Takes url (allTaken t n s asks) s (afterAll t n s asks) := by
  induction asks generalizing s with
  | nil => exact .refl s
  | cons ask rest ih => exact (ask.takes t h s).trans (ih _)

/-- **The hashes of a batch are matched by id and are in the order of the transactions.** A batch
with an entry that is no hex string sends nothing; any other is one request, that is one exchange of
the transport, and redirects of it are followed inside that exchange. In all requests of one
executor no id is used twice, as long as its counter has not wrapped around. -/
theorem sendBatch_matches (h : LeadsTo n.address url) :
    (∀ raws ≠ [], ∀ (id : UInt64) (w : σ) (log : List Http.Request),
      let done := outcome (n.sendBatch (recorded t) raws) id (w, log)
      ((∃ raw ∈ raws, ¬ Hex.IsBlob raw) → done.1.1 = .error notSigned ∧ done.2 = (w, log)) ∧
      ((∀ raw ∈ raws, Hex.IsBlob raw) →
        let entries := entriesFrom id (raws.map normal)
        entries.map (·.2) = raws.map normal ∧
        (raws.length ≤ UInt64.size → (entries.map (·.1)).Nodup) ∧
        done.2.2 = log ++ [batchRequest url entries] ∧
        ∀ answers, Lists ((t.exchange (batchRequest url entries)).run w).1 answers →
          DistinctIds answers →
          (∀ hashes, done.1.1 = .ok hashes ↔
            List.Forall₂ (fun e hash => Gives answers e.1 hash) entries hashes) ∧
          ∀ (σ' : Type) (t' : Http.Transport (StateM σ')) (w' : σ') (log' : List Http.Request)
            (answers' extra : List PeerAnswer),
            Lists ((t'.exchange (batchRequest url entries)).run w').1 answers' →
            answers'.Perm (answers ++ extra) →
            (∀ a ∈ extra, ∀ e ∈ entries, a.id ≠ some e.1.toNat) →
            (outcome (n.sendBatch (recorded t') raws) id (w', log')).1.1 = done.1.1)) ∧
    ∀ (asks : List Ask) (id : UInt64) (w : σ) (log : List Http.Request),
      ∃ bodies : List Value,
        (afterAll t n (id, w, log) asks).2.2 = log ++ bodies.map (requestTo url) ∧
        (allTaken t n (id, w, log) asks ≤ UInt64.size → (bodies.flatMap idsIn).Nodup) := by
  refine ⟨fun raws hne id w log => ⟨fun hsome => ?_, fun hraws => ?_⟩, fun asks id w log => ?_⟩
  · rw [outcome_sendBatch_error _ hsome]
    exact ⟨rfl, rfl⟩
  · refine ⟨map_snd_entriesFrom _ _, fun hlength => ?_, ?_, ?_⟩
    · exact nodup_entriesFrom _ (by rwa [List.length_map])
    · rw [outcome_sendBatch t h hne hraws]
    · intro answers hanswers hdistinct
      rw [outcome_sendBatch t h hne hraws]
      refine ⟨fun hashes => hashesIn_eq_ok_iff hanswers hdistinct, ?_⟩
      intro σ' t' w' log' answers' extra hanswers' hperm hextra
      rw [outcome_sendBatch t' h hne hraws]
      exact hashesIn_of_perm hanswers hdistinct hanswers' hperm hextra
  · obtain ⟨-, bodies, places, hlog, hplaces, hids⟩ := takes_afterAll t h asks (id, w, log)
    refine ⟨bodies, hlog, fun hfew => ?_⟩
    rw [hids]
    exact nodup_numberAt id hfew hplaces

end Asking

/-- The hashes of two transactions, in reverse order. -/
def twoHashes : Value :=
  .array [.object [("id", .ofNat 8), ("result", .text "second")],
    .object [("id", .ofNat 7), ("result", .text "first")]]

def listing (url : Url) : Http.Answer :=
  ⟨url, { status := 200, body := (Json.compact twoHashes).toUTF8 }⟩

theorem lists_listing (url : Url) : Lists (.ok (listing url))
    [⟨some 8, some (.text (some "second")), none⟩, ⟨some 7, some (.text (some "first")), none⟩] := by
  have hread := Json.readDocument_compact (v := twoHashes)
    ⟨⟨⟨8, ⟨by decide, by decide⟩, rfl⟩, trivial, trivial⟩,
      ⟨⟨7, ⟨by decide, by decide⟩, rfl⟩, trivial, trivial⟩, trivial⟩
  refine ⟨twoHashes, ⟨_, rfl, rfl, ?_⟩, rfl⟩
  rw [listing, Http.Response.strictText, Text.decode_toUTF8, Option.bind_eq_bind, Option.bind_some,
    Json.parse, hread]
  rfl

/-- Two hashes in reverse order are put back in order, and two batches have four ids. -/
theorem sendBatch_matches_two :
    let n : Network := ⟨"local", "http://localhost:8545"⟩
    let raws := [" 0xA1", "0xb2"]
    ∃ url, LeadsTo n.address url ∧
      let t := constantly (listing url)
      (outcome (n.sendBatch (recorded t) raws) 7 ((), [])).1.1 = .ok ["first", "second"] ∧
      ∃ bodies : List Value, (afterAll t n (7, (), []) [.batch raws, .batch raws]).2.2 =
        bodies.map (requestTo url) ∧ (bodies.flatMap idsIn).Nodup := by
  intro n raws
  obtain ⟨url, hleads⟩ : ∃ url, LeadsTo n.address url := isWeb_localhost.exists_leadsTo
  refine ⟨url, hleads, ?_⟩
  intro t
  obtain ⟨hbatch, hasks⟩ := sendBatch_matches t hleads
  have hraws : ∀ raw ∈ raws, Hex.IsBlob raw := by
    have hread : ∀ raw ∈ raws, (Hex.blob? raw).isSome = true := by decide
    intro raw hmem
    obtain ⟨blob, hblob⟩ := Option.isSome_iff_exists.mp (hread raw hmem)
    exact (Hex.blob?_eq_some_iff.mp hblob).1
  have hentries : entriesFrom 7 (raws.map normal) = [(7, "0xa1"), (8, "0xb2")] := by decide
  have htaken : allTaken t n (7, (), []) [.batch raws, .batch raws] ≤ UInt64.size := by
    show (leading raws).length + ((leading raws).length + 0) ≤ UInt64.size
    decide
  obtain ⟨-, hgood⟩ := hbatch raws (by decide) 7 () []
  obtain ⟨-, -, -, hanswers⟩ := hgood hraws
  rw [hentries] at hanswers
  have hdistinct : ([8, 7] : List Nat).Nodup := by decide
  obtain ⟨hmatched, -⟩ := hanswers _ (lists_listing url) hdistinct
  obtain ⟨bodies, hlog, hnodup⟩ := hasks [.batch raws, .batch raws] 7 () []
  refine ⟨(hmatched _).mpr ?_, bodies, hlog, hnodup htaken⟩
  refine .cons ⟨_, List.mem_cons_of_mem _ (List.mem_singleton.mpr rfl), rfl, rfl, rfl⟩ ?_
  exact .cons ⟨_, List.mem_cons_self, rfl, rfl, rfl⟩ .nil

end ChainAgent.Chain
