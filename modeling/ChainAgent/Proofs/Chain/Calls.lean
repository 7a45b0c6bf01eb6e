import ChainAgent.Chain.Executor
import ChainAgent.Proofs.Ledger.LogFile

/-! Results of calls.

A call takes an id and sends one request, and its result is decided by the answer: its JSON value,
the result in it, and the observation of the action (`outcome_call`, `outcome_observe`). An action
fails if and only if its first call does (`outcome_execute`). -/
namespace ChainAgent.Chain

open Json (Value Decoder)

/-! ### Outcomes -/

section Outcomes

variable {σ α β : Type}

/-- The result of a computation, the next call id, and the state of the peer. -/
def outcome (c : Call (StateM σ) α) (id : UInt64) (w : σ) : (Except Failure α × UInt64) × σ :=
  (c.run.run id).run w

theorem outcome_bind (c : Call (StateM σ) α) (f : α → Call (StateM σ) β) (id : UInt64) (w : σ) :
    outcome (c >>= f) id w =
      match outcome c id w with
      | ((.ok a, id'), w') => outcome (f a) id' w'
      | ((.error failure, id'), w') => ((.error failure, id'), w') := by
  simp only [outcome, ExceptT.run_bind, StateT.run_bind]
  generalize (c.run.run id).run w = done
  obtain ⟨⟨_ | a, id'⟩, w'⟩ := done <;> rfl

end Outcomes

/-! ### What is in an answer -/

/-- The JSON value of an answer, or why there is none. -/
def valueIn (method : String) : Except Http.Fault Http.Answer → Except Failure Value
  | .error f => .error (.transport (Text.sanitize f.message))
  | .ok answer =>
    if !answer.response.isSuccess then
      .error (.rpc method ("HTTP " ++ toString answer.response.status ++ ": " ++
        Text.sanitize answer.response.text))
    else
      match answer.response.strictText >>= Json.parse with
      | some v => .ok v
      | none => .error (.undecodable method (Http.undecodableBody answer.url))

/-- The result text of an answer. -/
def resultIn {α : Type} (method : String) (d : Decoder α) (heard : Except Http.Fault Http.Answer) :
    Except Failure α :=
  match valueIn method heard with
  | .error f => .error f
  | .ok v =>
    match decoded method peerAnswer v.node with
    | .error f => .error f
    | .ok a => a.decode method d

/-- The quantity of an answer. -/
def quantityIn (method : String) (heard : Except Http.Fault Http.Answer) : Except Failure Nat :=
  match resultIn method Json.string heard with
  | .error f => .error f
  | .ok raw =>
    match Hex.quantity? raw with
    | some q => .ok q
    | none => .error (.undecodable method ("invalid quantity '" ++ raw ++ "'"))

/-- The observation of an action from the answer to its call. -/
def observationIn (a : Action) (heard : Except Http.Fault Http.Answer) : Except Failure String :=
  match a with
  | .balance =>
    match resultIn a.method Json.string heard with
    | .error f => .error f
    | .ok raw =>
      match Hex.wide? raw with
      | some wei => .ok ("balance=" ++ Hex.etherText wei ++ " ETH")
      | none => .error (.undecodable a.method ("invalid balance '" ++ raw ++ "'"))
  | .nonce => (quantityIn a.method heard).map fun q => "nonce=" ++ toString q
  | .code => (resultIn a.method Json.string heard).map fun raw =>
      "code_size=" ++ toString (Hex.byteCount raw) ++ " bytes"
  | .blockNumber => (quantityIn a.method heard).map fun q => "block_number=" ++ toString q
  | .chainId => (quantityIn a.method heard).map fun q => "chain_id=" ++ toString q

/-- The parameters of the call of an action. -/
def paramsOf (a : Action) (account : String) : List Value :=
  if a.needsAddress then [.text account, .text "latest"] else []

/-! ### Calls -/

section Calls

variable {σ : Type} (t : Http.Transport (StateM σ)) (address : String)

/-- The answer to a call with an id, and the state of the peer. -/
def answered (method : String) (params : List Value) (id : UInt64) (w : σ) :
    Except Http.Fault Http.Answer × σ :=
  (Http.post t address none (callBody id method params)).run w

theorem outcome_post (method : String) (body : Value) (next : UInt64) (w : σ) :
    outcome (post t address method body) next w =
      ((valueIn method ((Http.post t address none body).run w).1, next),
        ((Http.post t address none body).run w).2) := by
  have hlift : outcome (liftM (Http.post t address none body) :
      Call (StateM σ) (Except Http.Fault Http.Answer)) next w =
        ((.ok ((Http.post t address none body).run w).1, next),
          ((Http.post t address none body).run w).2) := rfl
  unfold post
  rw [outcome_bind, hlift]
  generalize (Http.post t address none body).run w = heard
  obtain ⟨f | answer, left⟩ := heard
  · rfl
  · dsimp only [valueIn]
    split
    · rfl
    · cases answer.response.strictText >>= Json.parse <;> rfl

/-- A computation that sends nothing. -/
theorem outcome_mk {α : Type} (e : Except Failure α) (id : UInt64) (w : σ) :
    outcome (ExceptT.mk (pure e) : Call (StateM σ) α) id w = ((e, id), w) := rfl

theorem outcome_nextId (id : UInt64) (w : σ) :
    outcome (nextId : Call (StateM σ) UInt64) id w = ((.ok id, id + 1), w) := rfl

/-- **The result of a call is decided by its answer.** It takes an id in any case. -/
theorem outcome_call {α : Type} (method : String) (params : List Value) (d : Decoder α) (id : UInt64)
    (w : σ) :
    outcome (call t address method params d) id w =
      ((resultIn method d (answered t address method params id w).1, id + 1),
        (answered t address method params id w).2) := by
  unfold call resultIn
  rw [outcome_bind, outcome_nextId]
  dsimp only
  rw [outcome_bind, outcome_post, ← answered]
  generalize answered t address method params id w = heard
  cases valueIn method heard.1 with
  | error f => rfl
  | ok v =>
    dsimp only
    rw [outcome_bind, call.ofExcept, outcome_mk]
    cases decoded method peerAnswer v.node with
    | error f => rfl
    | ok a => rfl

end Calls

/-! ### Actions -/

section Actions

variable {σ : Type} (t : Http.Transport (StateM σ)) (n : Network)

theorem outcome_quantity (method : String) (params : List Value) (id : UInt64) (w : σ) :
    outcome (n.quantity t method params) id w =
      ((quantityIn method (answered t n.address method params id w).1, id + 1),
        (answered t n.address method params id w).2) := by
  unfold Network.quantity quantityIn
  rw [outcome_bind, outcome_call]
  generalize answered t n.address method params id w = heard
  cases resultIn method Json.string heard.1 with
  | error f => rfl
  | ok raw =>
    show outcome (match Hex.quantity? raw with
      | some q => return q
      | none => throw _) _ _ = ((match Hex.quantity? raw with
      | some q => _
      | none => _, _), _)
    cases Hex.quantity? raw <;> rfl

/-- The answer to the call of an action, and the state of the peer. -/
def heardOf (a : Action) (account : String) (id : UInt64) (w : σ) :
    Except Http.Fault Http.Answer × σ :=
  answered t n.address a.method (paramsOf a account) id w

/-- **The observation of an action is decided by the answer to its call.** -/
theorem outcome_observe (a : Action) (account : String) (id : UInt64) (w : σ) :
    outcome (n.observe t a account) id w =
      ((observationIn a (heardOf t n a account id w).1, id + 1), (heardOf t n a account id w).2) := by
  have hquantity {method : String} (params : List Value) (tell : Nat → String) :
      outcome (do return tell (← n.quantity t method params)) id w =
        (((quantityIn method (answered t n.address method params id w).1).map tell, id + 1),
          (answered t n.address method params id w).2) := by
    rw [outcome_bind, outcome_quantity]
    cases quantityIn method (answered t n.address method params id w).1 <;> rfl
  cases a with
  | balance =>
    have hheard : heardOf t n .balance account id w =
        answered t n.address "eth_getBalance" [.text account, .text "latest"] id w := rfl
    unfold Network.observe
    rw [outcome_bind, outcome_call, hheard]
    dsimp only [observationIn, Action.method]
    generalize answered t n.address "eth_getBalance" [.text account, .text "latest"] id w = heard
    cases resultIn "eth_getBalance" Json.string heard.1 with
    | error f => rfl
    | ok raw =>
      dsimp only
      cases Hex.wide? raw <;> rfl
  | code =>
    have hheard : heardOf t n .code account id w =
        answered t n.address "eth_getCode" [.text account, .text "latest"] id w := rfl
    unfold Network.observe
    rw [outcome_bind, outcome_call, hheard]
    dsimp only [observationIn, Action.method]
    cases resultIn "eth_getCode" Json.string
      (answered t n.address "eth_getCode" [.text account, .text "latest"] id w).1 <;> rfl
  | nonce => exact hquantity _ _
  | blockNumber => exact hquantity _ _
  | chainId => exact hquantity _ _

/-- A failing call is turned into none. -/
theorem outcome_attempt {α : Type} (c : Call (StateM σ) α) (id : UInt64) (w : σ) :
    outcome (Network.attempt c) id w =
      ((.ok (outcome c id w).1.1.toOption, (outcome c id w).1.2), (outcome c id w).2) := by
  have hcatch (d : Call (StateM σ) (Option α)) : outcome (tryCatch d fun _ => pure none) id w =
      match outcome d id w with
      | ((.ok a, id'), w') => ((.ok a, id'), w')
      | ((.error _, id'), w') => ((.ok none, id'), w') := by
    simp only [outcome, ExceptT.run_tryCatch, StateT.run_bind]
    generalize (d.run.run id).run w = done
    obtain ⟨⟨_ | a, id'⟩, w'⟩ := done <;> rfl
  unfold Network.attempt
  rw [hcatch, map_eq_pure_bind, outcome_bind]
  obtain ⟨⟨_ | a, id'⟩, w'⟩ := outcome c id w <;> rfl

/-- The account of an action, if it needs one. -/
def accountOf (a : Action) (address : String) : Option String :=
  if a.needsAddress then Hex.address? address else some ""

/-- The report of an action. -/
def reporting (a : Action) (account : String) : Call (StateM σ) Outcome := do
  let observation ← n.observe t a account
  let snapshot ← Network.attempt (n.snapshot t)
  return ⟨observation, snapshot.map fun s => toString s.chainId,
    snapshot.map fun s => toString s.blockNumber⟩

/-- A known action, with a valid account if it needs one, is reported. -/
theorem outcome_execute_eq {action address account : String} {a : Action}
    (haction : Action.parse action = .ok a) (haccount : accountOf a address = some account)
    (id : UInt64) (w : σ) :
    outcome (n.execute t action address) id w = outcome (reporting t n a account) id w := by
  unfold Network.execute
  rw [outcome_bind, outcome_mk, haction]
  dsimp only
  unfold accountOf at haccount
  split
  · rename_i hneeds
    rw [if_pos hneeds] at haccount
    rw [haccount]
    rfl
  · rename_i hneeds
    rw [if_neg hneeds] at haccount
    cases haccount
    rfl

/-- **An action fails if and only if its first call does.** -/
theorem outcome_execute {action address account : String} {a : Action}
    (haction : Action.parse action = .ok a) (haccount : accountOf a address = some account)
    (id : UInt64) (w : σ) :
    let heard := heardOf t n a account id w
    let after := outcome (n.snapshot t) (id + 1) heard.2
    outcome (n.execute t action address) id w =
      match observationIn a heard.1 with
      | .error f => ((.error f, id + 1), heard.2)
      | .ok observation =>
        ((.ok ⟨observation, after.1.1.toOption.map fun s => toString s.chainId,
          after.1.1.toOption.map fun s => toString s.blockNumber⟩, after.1.2), after.2) := by
  intro heard after
  rw [outcome_execute_eq t n haction haccount, reporting, outcome_bind, outcome_observe]
  cases observationIn a (heardOf t n a account id w).1 with
  | error f => rfl
  | ok observation =>
    dsimp only
    rw [outcome_bind, outcome_attempt]
    rfl

end Actions

end ChainAgent.Chain
