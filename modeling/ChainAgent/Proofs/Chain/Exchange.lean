import ChainAgent.Proofs.Chain.Messages
import ChainAgent.Settings.Validation

/-! Requests to a peer and its answers.

`recorded` stands between an executor and its peer and logs every request in order; the peer answers
as it does without it. A request here is one exchange of the transport: redirects are followed
inside it and are not logged. A value that is posted to an http or https URL is one request
(`post_eq_exchange`), so a call is one (`answered_recorded`); the validation of settings accepts no
other URL (`exists_leadsTo_of_checkUrl`). The result of a call is decided by its answer alone: its
JSON value, and the text of its result (`valueIn_eq_ok_iff`, `resultIn_eq_ok_iff`). -/
namespace ChainAgent.Chain

open Json (Value)

/-! ### Requests -/

/-- An http or https URL, and its parsed form as requests have it. -/
def LeadsTo (address : String) (url : Url) : Prop :=
  ∃ scheme, Url.parse address = .ok (scheme, some url) ∧ (scheme = "http" ∨ scheme = "https")

theorem IsWeb.exists_leadsTo {address : String} (h : IsWeb address) : ∃ url, LeadsTo address url := by
  obtain ⟨scheme, url, hparse, hscheme⟩ := h
  exact ⟨url, scheme, hparse, hscheme⟩

/-- A URL is parsed without its parts only if its scheme is not special. -/
theorem not_web_of_parse {address scheme : String} (h : Url.parse address = .ok (scheme, none)) :
    Url.webSchemes.find? (·.1 == scheme) = none := by
  unfold Url.parse at h
  split at h
  · cases h
  · rename_i found rest _
    split at h
    · cases hweb : Url.parseWeb found _ rest <;> rw [hweb] at h <;> cases h
    · rename_i hnone
      generalize (if found == "file" then Url.checkFile rest else Url.checkOther rest) = checked at h
      cases checked <;> cases h
      exact hnone

/-- A URL that settings accept is an http or https URL. -/
theorem exists_leadsTo_of_checkUrl {field address : String}
    (h : Settings.checkUrl field address = .ok ()) : ∃ url, LeadsTo address url := by
  unfold Settings.checkUrl at h
  split at h
  · cases h
  · rename_i scheme url hparse
    split at h
    · rename_i hscheme
      rw [Bool.or_eq_true, beq_iff_eq, beq_iff_eq] at hscheme
      cases url with
      | some url => exact ⟨url, scheme, hparse, hscheme⟩
      | none =>
        have hnone := not_web_of_parse hparse
        obtain rfl | rfl := hscheme <;> cases hnone
    · cases h

/-- The request that posts a value. -/
def requestTo (url : Url) (body : Value) : Http.Request where
  method := "POST"
  url := {url with userinfo := none}
  authorization := none
  contentType := some "application/json"
  body := Json.compact body

section Requests

variable {σ : Type}

/-- A peer together with the log of its requests. -/
def recorded (t : Http.Transport (StateM σ)) : Http.Transport (StateM (σ × List Http.Request)) where
  exchange request := do
    let (w, log) ← get
    let (heard, w) := (t.exchange request).run w
    set (w, log ++ [request])
    return heard

variable (t : Http.Transport (StateM σ)) {address : String} {url : Url}

/-- A value is posted in one request. -/
theorem post_eq_exchange (h : LeadsTo address url) (body : Value) :
    Http.post t address none body = t.exchange (requestTo url body) := by
  obtain ⟨scheme, hparse, hscheme⟩ := h
  have hweb : (scheme != "http" && scheme != "https") = false := by
    obtain rfl | rfl := hscheme <;> rfl
  simp only [Http.post, hparse, hweb, Option.any_none]
  rfl

theorem post_recorded (h : LeadsTo address url) (body : Value) (w : σ) (log : List Http.Request) :
    (Http.post (recorded t) address none body).run (w, log) =
      (((t.exchange (requestTo url body)).run w).1,
        ((t.exchange (requestTo url body)).run w).2, log ++ [requestTo url body]) := by
  rw [post_eq_exchange (recorded t) h]
  rfl

/-- **A call is one request.** -/
theorem answered_recorded (h : LeadsTo address url) (method : String) (params : List Value)
    (id : UInt64) (w : σ) (log : List Http.Request) :
    let request := requestTo url (callBody id method params)
    answered (recorded t) address method params id (w, log) =
      (((t.exchange request).run w).1, ((t.exchange request).run w).2, log ++ [request]) :=
  post_recorded t h _ w log

end Requests

/-! ### Answers -/

/-- A successful response with a JSON body. -/
def Holds (heard : Except Http.Fault Http.Answer) (v : Value) : Prop :=
  ∃ answer, heard = .ok answer ∧ answer.response.isSuccess = true ∧
    answer.response.strictText >>= Json.parse = some v

/-- An answer to one call, with a text as its result and no error. -/
def HasText (heard : Except Http.Fault Http.Answer) (raw : String) : Prop :=
  ∃ v a, Holds heard v ∧ peerAnswer v.node = .ok a ∧ a.error = none ∧ a.result = some (.text (some raw))

/-- An answer to one call whose result is a quantity. -/
def HasQuantity (heard : Except Http.Fault Http.Answer) (q : Nat) : Prop :=
  ∃ raw, HasText heard raw ∧ Hex.quantity? raw = some q

section Answers

variable (method : String) {raw : String} {heard : Except Http.Fault Http.Answer}

theorem decoded_eq_ok_iff {α : Type} {d : Json.Decoder α} {node : Json.Node} {x : α} :
    decoded method d node = .ok x ↔ d node = .ok x := by
  unfold decoded
  cases d node <;> simp

theorem string_eq_ok_iff {node : Json.Node} : Json.string node = .ok raw ↔ node = .text (some raw) := by
  unfold Json.string
  split
  · simp
  · rename_i h
    simpa using h raw

theorem valueIn_eq_ok_iff {v : Value} : valueIn method heard = .ok v ↔ Holds heard v := by
  unfold valueIn Holds
  split
  · simp
  · rename_i answer
    simp only [Except.ok.injEq, exists_eq_left']
    by_cases hsuccess : answer.response.isSuccess
    · cases answer.response.strictText >>= Json.parse <;> simp [hsuccess]
    · simp [hsuccess]

/-- The result of an answer is a text if it is a string and there is no error. -/
theorem decode_eq_ok_iff {a : PeerAnswer} : a.decode method Json.string = .ok raw ↔
    a.error = none ∧ a.result = some (.text (some raw)) := by
  unfold PeerAnswer.decode
  cases a.error with
  | some e => simp
  | none =>
    rw [decoded_eq_ok_iff, string_eq_ok_iff]
    cases a.result <;> simp

theorem resultIn_eq_ok_iff : resultIn method Json.string heard = .ok raw ↔ HasText heard raw := by
  unfold resultIn HasText
  constructor
  · intro h
    split at h
    · cases h
    · rename_i v hvalue
      split at h
      · cases h
      · rename_i a ha
        exact ⟨v, a, (valueIn_eq_ok_iff _).mp hvalue, (decoded_eq_ok_iff _).mp ha,
          (decode_eq_ok_iff _).mp h⟩
  · rintro ⟨v, a, hv, ha, hresult⟩
    rw [(valueIn_eq_ok_iff _).mpr hv]
    dsimp only
    rw [(decoded_eq_ok_iff _).mpr ha]
    exact (decode_eq_ok_iff _).mpr hresult

theorem quantityIn_eq_ok_iff {q : Nat} : quantityIn method heard = .ok q ↔ HasQuantity heard q := by
  unfold quantityIn HasQuantity
  simp only [← resultIn_eq_ok_iff method]
  cases resultIn method Json.string heard with
  | error f => simp
  | ok raw =>
    simp only [Except.ok.injEq, exists_eq_left']
    cases Hex.quantity? raw <;> simp

end Answers

end ChainAgent.Chain
