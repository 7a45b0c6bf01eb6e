import ChainAgent.Proofs.Chain.Exchange
import ChainAgent.Proofs.Chain.Hex

/-! Execution of actions.

An unknown action, or one without a valid account that it needs, sends nothing. Every other one
sends its call, and the answer to this alone decides whether it fails; the calls of the snapshot
after it give chain id and block number of the report, both or neither (`execute_exchanges`). -/
namespace ChainAgent.Chain

open Text (trim)

/-! ### Names -/

/-- A text that is a name of an action, ignoring case and surrounding whitespace. -/
def Names (raw : String) (a : Action) : Prop :=
  ∃ names, (a, names) ∈ Action.names ∧ ∃ name ∈ names, Action.sameIgnoringCase (trim raw) name = true

/-- No two actions share a name. -/
theorem eq_of_names {raw : String} {a b : Action} (ha : Names raw a) (hb : Names raw b) : a = b := by
  have hdisjoint : ∀ p ∈ Action.names, ∀ q ∈ Action.names, ∀ x ∈ p.2, ∀ y ∈ q.2,
      Action.sameIgnoringCase x y = true → p.1 = q.1 := by decide
  obtain ⟨names, hp, x, hx, hrawx⟩ := ha
  obtain ⟨names', hq, y, hy, hrawy⟩ := hb
  refine hdisjoint _ hp _ hq x hx y hy ?_
  rw [Action.sameIgnoringCase, beq_iff_eq] at *
  exact hrawx.symm.trans hrawy

theorem parse_eq_ok_iff {raw : String} {a : Action} : Action.parse raw = .ok a ↔ Names raw a := by
  have hfound {p : Action × List String}
      (h : Action.names.find? (fun p => p.2.any (Action.sameIgnoringCase (trim raw))) = some p) :
      Names raw p.1 := by
    have hname := List.find?_some h
    exact ⟨p.2, List.mem_of_find?_eq_some h, List.any_eq_true.mp hname⟩
  unfold Action.parse
  constructor
  · intro h
    dsimp only at h
    split at h
    · rename_i b names hb
      cases h
      exact hfound hb
    · cases h
  · intro hnames
    dsimp only
    split
    · rename_i b names hb
      rw [eq_of_names hnames (hfound hb)]
    · rename_i hnone
      obtain ⟨names, hmem, hname⟩ := hnames
      exact absurd (List.any_eq_true.mpr hname) (List.find?_eq_none.mp hnone _ hmem)

theorem parse_of_not_names {raw : String} (h : ∀ a, ¬ Names raw a) :
    Action.parse raw = .error (.unsupportedAction (trim raw)) := by
  cases hparse : Action.parse raw with
  | ok a => exact absurd (parse_eq_ok_iff.mp hparse) (h a)
  | error f =>
    unfold Action.parse at hparse
    dsimp only at hparse
    split at hparse
    · cases hparse
    · cases hparse
      rfl

/-! ### The first answer -/

/-- A result text that an action can decode. -/
def Action.Reads : Action → String → Prop
  | .balance, raw => ∃ wei, Hex.wide? raw = some wei
  | .code, _ => True
  | .nonce, raw | .blockNumber, raw | .chainId, raw => ∃ q, Hex.quantity? raw = some q

/-- An answer whose result the action can decode. -/
def Decodes (a : Action) (heard : Except Http.Fault Http.Answer) : Prop :=
  ∃ raw, HasText heard raw ∧ a.Reads raw

theorem exists_observationIn_iff {a : Action} {heard : Except Http.Fault Http.Answer} :
    (∃ told, observationIn a heard = .ok told) ↔ Decodes a heard := by
  have hmap {α : Type} {e : Except Failure α} {tell : α → String} :
      (∃ told, e.map tell = .ok told) ↔ ∃ x, e = .ok x := by
    cases e <;> simp [Except.map]
  have hquantity {method : String} : (∃ q, quantityIn method heard = .ok q) ↔
      ∃ raw, HasText heard raw ∧ ∃ q, Hex.quantity? raw = some q := by
    simp only [quantityIn_eq_ok_iff, HasQuantity]
    constructor
    · rintro ⟨q, raw, htext, hq⟩
      exact ⟨raw, htext, q, hq⟩
    · rintro ⟨raw, htext, q, hq⟩
      exact ⟨q, raw, htext, hq⟩
  cases a with
  | balance =>
    simp only [Decodes, Action.Reads, observationIn, ← resultIn_eq_ok_iff (Action.method .balance)]
    cases resultIn (Action.method .balance) Json.string heard with
    | error f => simp
    | ok raw => cases hwide : Hex.wide? raw <;> simp [hwide]
  | code =>
    simp only [Decodes, Action.Reads, and_true]
    exact hmap.trans (exists_congr fun _ => resultIn_eq_ok_iff _)
  | nonce => exact hmap.trans hquantity
  | blockNumber => exact hmap.trans hquantity
  | chainId => exact hmap.trans hquantity

/-! ### The answers behind it -/

/-- The requests after the first one, and the chain id and block number of their answers: both or
neither. -/
inductive Sequel (asksChain asksBlock : Http.Request) (chain block : Except Http.Fault Http.Answer) :
    List Http.Request → Option String → Option String → Prop
  | complete {c b : Nat} : HasQuantity chain c → HasQuantity block b →
      Sequel asksChain asksBlock chain block [asksChain, asksBlock] (some (toString c)) (some (toString b))
  | chainless : (∀ c, ¬ HasQuantity chain c) →
      Sequel asksChain asksBlock chain block [asksChain] none none
  | blockless {c : Nat} : HasQuantity chain c → (∀ b, ¬ HasQuantity block b) →
      Sequel asksChain asksBlock chain block [asksChain, asksBlock] none none

theorem not_hasQuantity {method : String} {heard : Except Http.Fault Http.Answer} {f : Failure}
    (h : quantityIn method heard = .error f) (q : Nat) : ¬ HasQuantity heard q := by
  rw [← quantityIn_eq_ok_iff method, h]
  nofun

section Peer

variable {σ : Type} (t : Http.Transport (StateM σ)) {n : Network} {url : Url}

theorem sequel_of_snapshot (h : LeadsTo n.address url) (id : UInt64) (w : σ)
    (log : List Http.Request) :
    let after := outcome (n.snapshot (recorded t)) id (w, log)
    let asksChain := requestTo url (callBody id "eth_chainId" [])
    let asksBlock := requestTo url (callBody (id + 1) "eth_blockNumber" [])
    let chain := (t.exchange asksChain).run w
    let block := (t.exchange asksBlock).run chain.2
    ∃ behind, after.2.2 = log ++ behind ∧
      Sequel asksChain asksBlock chain.1 block.1 behind
        (after.1.1.toOption.map fun s => toString s.chainId)
        (after.1.1.toOption.map fun s => toString s.blockNumber) := by
  intro after asksChain asksBlock chain block
  have hafter : after = outcome (n.snapshot (recorded t)) id (w, log) := rfl
  rw [Network.snapshot, outcome_bind, outcome_quantity, answered_recorded t h] at hafter
  cases hchain : quantityIn "eth_chainId" chain.1 with
  | error f =>
    rw [hchain] at hafter
    rw [hafter]
    exact ⟨[asksChain], rfl, .chainless (not_hasQuantity hchain)⟩
  | ok c =>
    rw [hchain] at hafter
    dsimp only at hafter
    rw [outcome_bind, outcome_quantity, answered_recorded t h] at hafter
    have hc := (quantityIn_eq_ok_iff _).mp hchain
    have hlog : log ++ [asksChain] ++ [asksBlock] = log ++ [asksChain, asksBlock] := by
      rw [List.append_assoc, List.singleton_append]
    cases hblock : quantityIn "eth_blockNumber" block.1 with
    | error f =>
      rw [hblock] at hafter
      rw [hafter]
      exact ⟨[asksChain, asksBlock], hlog, .blockless hc (not_hasQuantity hblock)⟩
    | ok b =>
      rw [hblock] at hafter
      rw [hafter]
      exact ⟨[asksChain, asksBlock], hlog, .complete hc ((quantityIn_eq_ok_iff _).mp hblock)⟩

/-! ### The whole -/

/-- The account that is sent: in lowercase, and only if the action needs one. -/
def sentAccount (a : Action) (address : String) : String :=
  if a.needsAddress then String.ofList (Hex.lowered address) else ""

theorem accountOf_eq {a : Action} {address : String} (h : a.needsAddress = true → Hex.IsAddress address) :
    accountOf a address = some (sentAccount a address) := by
  unfold accountOf sentAccount
  by_cases hneeds : a.needsAddress
  · rw [if_pos hneeds, if_pos hneeds]
    exact Hex.address?_eq_some_iff.mpr ⟨h hneeds, rfl⟩
  · rw [if_neg hneeds, if_neg hneeds]

theorem outcome_execute_unnamed {action : String} (h : ∀ a, ¬ Names action a) (address : String)
    (id : UInt64) (w : σ) :
    outcome (n.execute t action address) id w =
      ((.error (.unsupportedAction (trim action)), id), w) := by
  rw [Network.execute, outcome_bind, outcome_mk, parse_of_not_names h]

theorem outcome_execute_astray {action address : String} {a : Action} (ha : Names action a)
    (hneeds : a.needsAddress = true) (haddress : ¬ Hex.IsAddress address) (id : UInt64) (w : σ) :
    outcome (n.execute t action address) id w = ((.error (.invalidAddress address), id), w) := by
  rw [Network.execute, outcome_bind, outcome_mk, parse_eq_ok_iff.mpr ha]
  dsimp only
  rw [if_pos hneeds, Hex.address?_eq_none haddress]
  rfl

/-- **An unknown action, or one without a valid account, sends nothing; every other one fails if and
only if its first answer does not decode.** The requests of the snapshot after it give both
identifiers of the report or neither. A request is one exchange of the transport; redirects of it
are followed inside that exchange. -/
theorem execute_exchanges (h : LeadsTo n.address url) (action address : String) (id : UInt64) (w : σ)
    (log : List Http.Request) :
    let done := outcome (n.execute (recorded t) action address) id (w, log)
    ((∀ a, ¬ Names action a) → done = ((.error (.unsupportedAction (trim action)), id), w, log)) ∧
      ∀ a, Names action a →
        (a.needsAddress = true → ¬ Hex.IsAddress address →
          done = ((.error (.invalidAddress address), id), w, log)) ∧
        ((a.needsAddress = true → Hex.IsAddress address) →
          let first := requestTo url (callBody id a.method (paramsOf a (sentAccount a address)))
          let asksChain := requestTo url (callBody (id + 1) "eth_chainId" [])
          let asksBlock := requestTo url (callBody (id + 1 + 1) "eth_blockNumber" [])
          let heard := (t.exchange first).run w
          let chain := (t.exchange asksChain).run heard.2
          let block := (t.exchange asksBlock).run chain.2
          (∃ behind, done.2.2 = log ++ first :: behind) ∧
          ((∃ report, done.1.1 = .ok report) ↔ Decodes a heard.1) ∧
          ∀ report, done.1.1 = .ok report → ∃ behind, done.2.2 = log ++ first :: behind ∧
            Sequel asksChain asksBlock chain.1 block.1 behind report.chainId report.blockNumber) := by
  intro done
  refine ⟨fun hnone => outcome_execute_unnamed _ hnone _ _ _, fun a ha => ⟨fun hneeds haddress =>
    outcome_execute_astray _ ha hneeds haddress _ _, ?_⟩⟩
  intro haddress first asksChain asksBlock heard chain block
  have hheard : heardOf (recorded t) n a (sentAccount a address) id (w, log) =
      (heard.1, heard.2, log ++ [first]) := answered_recorded t h _ _ _ _ _
  have hdone := outcome_execute (recorded t) n (parse_eq_ok_iff.mpr ha) (accountOf_eq haddress)
    id (w, log)
  obtain ⟨behind, hlog, hsequel⟩ := sequel_of_snapshot t h (id + 1) heard.2 (log ++ [first])
  rw [hheard] at hdone
  dsimp only at hdone
  -- the result of the snapshot does not matter here: it only follows the first request
  generalize outcome (n.snapshot (recorded t)) (id + 1) (heard.2, log ++ [first]) = after
    at hdone hlog hsequel
  rw [List.append_assoc, List.singleton_append] at hlog
  rw [← exists_observationIn_iff]
  dsimp only [done]
  cases hobserved : observationIn a heard.1 with
  | error f =>
    rw [hobserved] at hdone
    rw [hdone]
    exact ⟨⟨[], rfl⟩, by simp, nofun⟩
  | ok told =>
    rw [hobserved] at hdone
    rw [hdone]
    refine ⟨⟨behind, hlog⟩, ⟨fun _ => ⟨told, rfl⟩, fun _ => ⟨_, rfl⟩⟩, ?_⟩
    intro report hreport
    cases hreport
    exact ⟨behind, hlog, hsequel⟩

end Peer

/-- A peer that always answers sixteen gets three requests, and the report has its answers. -/
theorem execute_exchanges_sixteen :
    let n : Network := ⟨"local", "http://localhost:8545"⟩
    ∃ url, LeadsTo n.address url ∧
      let done := outcome (n.execute (recorded (constantly (saying url "0x10"))) " Chain_ID" "") 1 ((), [])
      ∃ report, done.1.1 = .ok report ∧ report.chainId = some "16" ∧ report.blockNumber = some "16" ∧
        done.2.2.length = 3 := by
  intro n
  obtain ⟨url, hleads⟩ : ∃ url, LeadsTo n.address url := isWeb_localhost.exists_leadsTo
  have htext : HasText (.ok (saying url "0x10")) "0x10" :=
    (resultIn_eq_ok_iff _).mp (resultIn_saying "eth_chainId" url "0x10")
  have hsixteen {q : Nat} (h : HasQuantity (.ok (saying url "0x10")) q) : q = 16 := by
    have hread : quantityIn "eth_chainId" (.ok (saying url "0x10")) = .ok 16 :=
      (quantityIn_eq_ok_iff _).mpr ⟨_, htext, by decide⟩
    rw [← quantityIn_eq_ok_iff "eth_chainId", hread] at h
    cases h
    rfl
  refine ⟨url, hleads, ?_⟩
  obtain ⟨-, hnamed⟩ := execute_exchanges (constantly (saying url "0x10")) hleads " Chain_ID" "" 1 () []
  have hnames : Names " Chain_ID" .chainId :=
    ⟨["chain_id", "eth_chainId"], by decide, "chain_id", by decide, by decide⟩
  obtain ⟨-, hsent⟩ := hnamed .chainId hnames
  obtain ⟨-, hdecides, hsequel⟩ := hsent nofun
  obtain ⟨report, hreport⟩ := hdecides.mpr ⟨"0x10", htext, 16, by decide⟩
  obtain ⟨behind, hlog, hbehind⟩ := hsequel report hreport
  refine ⟨report, hreport, ?_⟩
  rw [hlog]
  generalize report.chainId = chainId at *
  generalize report.blockNumber = blockNumber at *
  cases hbehind with
  | complete hc hb =>
    rw [hsixteen hc, hsixteen hb]
    exact ⟨rfl, rfl, rfl⟩
  | chainless hnone => exact absurd ⟨_, htext, by decide⟩ (hnone 16)
  | blockless hc hnone => exact absurd ⟨_, htext, by decide⟩ (hnone 16)

end ChainAgent.Chain
