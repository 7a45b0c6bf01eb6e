import ChainAgent.Proofs.Chain.Calls
import ChainAgent.Proofs.Json.Faults
import ChainAgent.Proofs.Json.RoundTrip
import ChainAgent.Proofs.Text.Bytes
import ChainAgent.Proofs.Text.Sanitizing

/-! Error messages of failed actions.

The text of a peer that answers with an error or an unsuccessful status is sanitized: truncated and
with its secrets redacted. An answer that does not decode is quoted as it came, so the message is as
long as what it quotes and shows its secrets (`execute_message`). -/
namespace ChainAgent.Chain

open Json (Value Decoder)
open Text (Frame Wraps isFrame frame_of_isFrame sanitize tokenPrefixes ShowsNoToken peerTextLimit)

/-! ### Answers that do not decode -/

/-- The fixed words in the messages of the decoders of an answer and of a result. -/
def answerWords : List String :=
  ["a string", "u64", "i64", "struct RpcResponse", "struct RpcErrorBody", "fewer elements in array",
    "id", "result", "error", "code", "message"]

theorem peerError_fits : Json.Fits answerWords peerError := by
  refine Json.record_fits (Json.scan_fits (by decide) (by decide) ?_) _
  refine List.forall_mem_cons.mpr ⟨?_, List.forall_mem_singleton.mpr ?_⟩
  · exact Json.defaulted_fits (by decide) (Json.integer_fits (by decide))
  · exact Json.defaulted_fits (by decide) (Json.string_fits (by decide))

theorem peerAnswer_fits : Json.Fits answerWords peerAnswer := by
  refine Json.record_fits (Json.scan_fits (by decide) (by decide) ?_) _
  refine List.forall_mem_cons.mpr ⟨?_, List.forall_mem_cons.mpr ⟨?_, List.forall_mem_singleton.mpr ?_⟩⟩
  · exact Json.defaulted_fits (by decide) (Json.nullable_fits (Json.unsigned_fits (by decide)))
  · exact Json.defaulted_fits (by decide) (Json.nullable_fits nofun)
  · exact Json.defaulted_fits (by decide) (Json.nullable_fits peerError_fits)

section Codes

variable {n : Json.Node} {a : PeerAnswer} {e : PeerError}

/-- The code of a decoded error has at most nineteen digits. -/
theorem code_lt_of_peerError (h : peerError n = .ok e) (hn : n.IsSized) :
    e.code.natAbs < 10 ^ 19 := by
  obtain ⟨found, hfound, rfl⟩ := Json.exists_scan_of_record h
  dsimp only
  obtain hdefault | ⟨m, hm, hcode⟩ := Json.fieldOr_eq_or found "code" Json.integer 0
  · rw [hdefault]
    decide
  · have hsized : m.2.IsSized := fun x hx => hn x (hx.trans (Json.part_of_scan hfound m hm))
    have hbound := Json.natAbs_le_of_integer hcode hsized
    rw [Decimal.integerBound] at hbound
    omega

theorem code_lt_of_peerAnswer (h : peerAnswer n = .ok a) (herror : a.error = some e)
    (hn : n.IsSized) : e.code.natAbs < 10 ^ 19 := by
  obtain ⟨found, hfound, rfl⟩ := Json.exists_scan_of_record h
  dsimp only at herror
  obtain hdefault | ⟨m, hm, hread⟩ := Json.fieldOr_eq_or found "error" (Json.nullable peerError) none
  · rw [hdefault] at herror
    cases herror
  · have hsized : m.2.IsSized := fun x hx => hn x (hx.trans (Json.part_of_scan hfound m hm))
    rw [herror] at hread
    exact code_lt_of_peerError (Json.eq_ok_of_nullable hread) hsized

end Codes

/-! ### Words of the messages -/

section Words

variable {m : String}

theorem transport_wraps : Wraps 15 m (Failure.transport m).message :=
  .of_opening (frame_of_isFrame (by decide)) (by decide)

theorem method_showsNoToken (a : Action) (p : String) (hp : p ∈ tokenPrefixes) :
    ShowsNoToken p.toList a.method.toList := by
  have hwords : ∀ p ∈ tokenPrefixes, Text.occurs p.toList a.method.toList = false := by
    cases a <;> decide
  exact Text.showsNoToken_of_occurs (hwords p hp)

/-- The message of a failure has the method. -/
theorem method_wraps (a : Action) {words : String} (hwords : isFrame [] words.toList = true)
    (hlast : words.toList.getLast?.any (!Text.isSecretChar ·) = true) :
    Wraps (27 + words.toList.length) m ("rpc " ++ a.method ++ words ++ m) := by
  have hrpc : Frame "rpc ".toList [] := frame_of_isFrame (by decide)
  have hlength : a.method.toList.length ≤ 23 := by cases a <;> decide
  have hframe := (hrpc.beside (frame_of_isFrame hwords)).opening (method_showsNoToken a) hlast
  refine .of_opening ?_ ?_ <;> rw [String.toList_append, String.toList_append]
  · exact hframe
  · have hfour : "rpc ".toList.length = 4 := rfl
    rw [List.length_append, List.length_append, hfour]
    omega

theorem rpc_wraps (a : Action) : Wraps 36 m (Failure.rpc a.method m).message :=
  method_wraps a (by decide) (by decide)

theorem undecodable_wraps (a : Action) : Wraps 60 m (Failure.undecodable a.method m).message :=
  method_wraps a (by decide) (by decide)

/-- The message of a refusal has the status. -/
theorem refusal_wraps {status : Nat} (hstatus : status < 1000) :
    Wraps 10 m ("HTTP " ++ toString status ++ ": " ++ m) := by
  have hdigits : ∀ c ∈ Decimal.natDigits status ++ [':'], Decimal.IsNotation c ∨ c = ':' :=
    List.forall_mem_append.mpr ⟨fun c hc => .inl (Decimal.isNotation_natDigits status c hc),
      List.forall_mem_singleton.mpr (.inr rfl)⟩
  have hlength : (Decimal.natDigits status).length ≤ 3 :=
    (Nat.length_toDigits_le_iff (by decide) (by decide)).mpr hstatus
  have hwords : Frame "HTTP ".toList [' '] := frame_of_isFrame (by decide)
  have hfront : ("HTTP " ++ toString status ++ ": ").toList =
      "HTTP ".toList ++ (Decimal.natDigits status ++ [':']) ++ [' '] := by
    rw [String.toList_append, String.toList_append, Decimal.toList_toString_nat]
    simp
  refine .of_opening ?_ ?_ <;> rw [hfront]
  · exact hwords.opening (fun _ hp => Text.showsNoToken_of_isNotation hp hdigits) (by decide)
  · have hfive : "HTTP ".toList.length = 5 := rfl
    simp only [List.length_append, List.length_singleton]
    omega

/-- The message of an error object has the code. -/
theorem coded_wraps {code : Int} (hcode : code.natAbs < 10 ^ 19) :
    Wraps 28 m (m ++ " (code " ++ toString code ++ ")") := by
  have hdigits : ∀ c ∈ (toString code).toList, Decimal.IsNotation c ∨ c = ':' :=
    fun c hc => .inl (Decimal.isNotation_toString code c hc)
  have hlength : (toString code).toList.length ≤ 20 :=
    Decimal.length_toString_le (by decide) hcode
  have hwords : Frame " (code ".toList [')'] := frame_of_isFrame (by decide)
  have hback : (" (code " ++ toString code ++ ")").toList =
      " (code ".toList ++ (toString code).toList ++ [')'] := by
    rw [String.toList_append, String.toList_append]
    rfl
  have hmessage :
      m ++ " (code " ++ toString code ++ ")" = m ++ (" (code " ++ toString code ++ ")") := by
    simp only [String.append_assoc]
  rw [hmessage]
  refine .of_closing ?_ ?_ <;> rw [hback]
  · exact hwords.closing (fun _ hp => Text.showsNoToken_of_isNotation hp hdigits) (by decide)
  · have hseven : " (code ".toList.length = 7 := rfl
    simp only [List.length_append, List.length_singleton]
    omega

/-- The expected type is at the end of the message. -/
theorem frame_expected {front back word : String} (hword : word ∈ answerWords)
    (h : isFrame front.toList [] = true) (hback : isFrame back.toList [] = true)
    (hfirst : back.toList.head?.any (!Text.isSecretChar ·) = true)
    (hwidth : front.toList.length + back.toList.length ≤ 36) :
    Frame front.toList (back ++ word).toList ∧
      front.toList.length + (back ++ word).toList.length ≤ 59 := by
  have hwords : ∀ word ∈ answerWords, (∀ p ∈ tokenPrefixes,
      Text.occurs p.toList word.toList = false) ∧ word.toList.length ≤ 23 := by decide
  obtain ⟨hshown, hlength⟩ := hwords word hword
  have hclosing := (frame_of_isFrame hback).closing
    (fun p hp => Text.showsNoToken_of_occurs (hshown p hp)) hfirst
  rw [List.append_nil] at hclosing
  rw [String.toList_append, List.length_append]
  exact ⟨(frame_of_isFrame h).beside hclosing, by omega⟩

theorem frame_of_surrounds {front back : String} (h : Json.Surrounds answerWords front back) :
    Frame front.toList back.toList ∧ front.toList.length + back.toList.length ≤ 59 := by
  cases h with
  | nothing => exact ⟨frame_of_isFrame (by decide), by decide⟩
  | missing => exact ⟨frame_of_isFrame (by decide), by decide⟩
  | duplicate => exact ⟨frame_of_isFrame (by decide), by decide⟩
  | wrongType hword =>
    exact frame_expected hword (by decide) (by decide) (by decide) (by decide)
  | outOfRange hword =>
    exact frame_expected hword (by decide) (by decide) (by decide) (by decide)
  | wrongLength hword =>
    exact frame_expected hword (by decide) (by decide) (by decide) (by decide)

theorem tells_wraps {n : Json.Node} (h : Json.Tells answerWords n m) :
    ∃ said, Json.Told answerWords n said ∧ Wraps 59 said m := by
  obtain ⟨front, said, back, hsurrounds, hsaid, rfl⟩ := h
  obtain ⟨hframe, hwidth⟩ := frame_of_surrounds hsurrounds
  exact ⟨said, hsaid, front, back, rfl, hframe, hwidth⟩

end Words

/-! ### What is repeated -/

/-- The JSON value of a response. -/
def valueOf? (answer : Http.Answer) : Option Value := answer.response.strictText >>= Json.parse

/-- What the message of a failure quotes of an answer, sanitized or as it came. -/
inductive Repeats (a : Action) : Except Http.Fault Http.Answer → Failure → String → Prop
  /-- The message of a failed exchange. -/
  | fault (f : Http.Fault) (m : String) :
      Repeats a (.error f) (.transport m) (sanitize f.message)
  /-- The body of an unsuccessful response. -/
  | refusal (answer : Http.Answer) (m : String) :
      Repeats a (.ok answer) (.rpc a.method m) (sanitize answer.response.text)
  /-- The message of the peer's error object. -/
  | peerError {answer : Http.Answer} {v : Value} {said : PeerAnswer} {e : PeerError} (m : String) :
      valueOf? answer = some v → peerAnswer v.node = .ok said → said.error = some e →
      Repeats a (.ok answer) (.rpc a.method m) (sanitize e.message)
  /-- The URL of a body that is no JSON, after all redirects. -/
  | address (answer : Http.Answer) (m : String) : valueOf? answer = none →
      Repeats a (.ok answer) (.undecodable a.method m) answer.url.text
  /-- Part of an answer that does not decode. -/
  | answer {answer : Http.Answer} {v : Value} {said : String} (m : String) :
      valueOf? answer = some v → Json.Told answerWords v.node said →
      Repeats a (.ok answer) (.undecodable a.method m) said
  /-- Part of a result that is no string. -/
  | result {answer : Http.Answer} {v : Value} {peer : PeerAnswer} {said : String} (m : String) :
      valueOf? answer = some v → peerAnswer v.node = .ok peer →
      Json.Told answerWords (peer.result.getD .null) said →
      Repeats a (.ok answer) (.undecodable a.method m) said
  /-- The whole of a text that is no quantity. -/
  | quantity {heard : Except Http.Fault Http.Answer} {raw : String} (m : String) :
      resultIn a.method Json.string heard = .ok raw → Hex.quantity? raw = none ∨ Hex.wide? raw = none →
      Repeats a heard (.undecodable a.method m) raw

/-- The most characters of a message besides what it quotes. -/
def ownWords : Nat := 119

/-- A failure whose message quotes part of an answer. -/
def Quotes (a : Action) (heard : Except Http.Fault Http.Answer) (f : Failure) : Prop :=
  ∃ said, Repeats a heard f said ∧ Wraps ownWords said f.message

section Stages

variable {a : Action} {heard : Except Http.Fault Http.Answer} {f : Failure}
  (hstatus : ∀ answer, heard = .ok answer → answer.response.status < 1000)

include hstatus in
theorem quotes_of_valueIn (h : valueIn a.method heard = .error f) : Quotes a heard f := by
  unfold valueIn at h
  split at h
  · rename_i fault
    cases h
    exact ⟨_, .fault fault _, transport_wraps.mono (by decide)⟩
  · rename_i answer
    split at h
    · cases h
      exact ⟨_, .refusal answer _,
        ((refusal_wraps (hstatus answer rfl)).trans (rpc_wraps a)).mono (by decide)⟩
    · split at h
      · cases h
      · rename_i hvalue
        cases h
        have hurl : Wraps 39 answer.url.text (Http.undecodableBody answer.url) :=
          .of_isFrame (by decide) (by decide)
        exact ⟨_, .address answer _ hvalue, (hurl.trans (undecodable_wraps a)).mono (by decide)⟩

theorem exists_answer_of_valueIn {method : String} {v : Value} (h : valueIn method heard = .ok v) :
    ∃ answer, heard = .ok answer ∧ valueOf? answer = some v := by
  unfold valueIn at h
  split at h
  · cases h
  · rename_i answer
    split at h
    · cases h
    · split at h
      · rename_i v' hvalue
        cases h
        exact ⟨answer, rfl, hvalue⟩
      · cases h

/-- The message of a failed decoder quotes the tree that it decodes. -/
theorem wraps_of_decoded {α : Type} {d : Decoder α} {n : Json.Node} (hd : Json.Fits answerWords d)
    (h : decoded a.method d n = .error f) :
    ∃ m said, f = .undecodable a.method m ∧ Json.Told answerWords n said ∧
      Wraps ownWords said f.message := by
  unfold decoded at h
  split at h
  · cases h
  · rename_i fault hfault
    cases h
    obtain ⟨said, hsaid, hwraps⟩ := tells_wraps (hd n fault hfault).tells
    exact ⟨_, said, rfl, hsaid, (hwraps.trans (undecodable_wraps a)).mono (by decide)⟩

include hstatus in
theorem quotes_of_resultIn (h : resultIn a.method Json.string heard = .error f) :
    Quotes a heard f := by
  unfold resultIn at h
  split at h
  · rename_i f' hvalue
    cases h
    exact quotes_of_valueIn hstatus hvalue
  · rename_i v hvalue
    obtain ⟨answer, rfl, hv⟩ := exists_answer_of_valueIn hvalue
    split at h
    · rename_i f' hdecoded
      cases h
      obtain ⟨m, said, rfl, hsaid, hwraps⟩ := wraps_of_decoded peerAnswer_fits hdecoded
      exact ⟨said, .answer m hv hsaid, hwraps⟩
    · rename_i peer hdecoded
      have hpeer : peerAnswer v.node = .ok peer := by
        unfold decoded at hdecoded
        split at hdecoded
        · rename_i peer' hpeer
          cases hdecoded
          exact hpeer
        · cases hdecoded
      unfold PeerAnswer.decode at h
      split at h
      · rename_i e herror
        cases h
        obtain ⟨s, -, hs⟩ := Option.bind_eq_some_iff.mp hv
        have hcode := code_lt_of_peerAnswer hpeer herror (Json.isSized_of_parse hs)
        exact ⟨_, .peerError _ hv hpeer herror,
          ((coded_wraps hcode).trans (rpc_wraps a)).mono (by decide)⟩
      · obtain ⟨m, said, rfl, hsaid, hwraps⟩ := wraps_of_decoded (Json.string_fits (by decide)) h
        exact ⟨said, .result m hv hpeer hsaid, hwraps⟩

include hstatus in
theorem quotes_of_quantityIn (h : quantityIn a.method heard = .error f) : Quotes a heard f := by
  unfold quantityIn at h
  split at h
  · rename_i f' hresult
    cases h
    exact quotes_of_resultIn hstatus hresult
  · rename_i raw hresult
    split at h
    · cases h
    · rename_i hnone
      cases h
      have hraw : Wraps 19 raw ("invalid quantity '" ++ raw ++ "'") :=
        .of_isFrame (by decide) (by decide)
      exact ⟨raw, .quantity _ hresult (.inl hnone), (hraw.trans (undecodable_wraps a)).mono (by decide)⟩

include hstatus in
theorem quotes_of_observationIn (h : observationIn a heard = .error f) : Quotes a heard f := by
  have hmap {α : Type} {e : Except Failure α} {tell : α → String}
      (he : e.map tell = .error f) : e = .error f := by
    cases e with
    | error f' =>
      cases he
      rfl
    | ok x => cases he
  cases a with
  | balance =>
    simp only [observationIn] at h
    split at h
    · rename_i f' hresult
      cases h
      exact quotes_of_resultIn hstatus hresult
    · rename_i raw hresult
      split at h
      · cases h
      · rename_i hnone
        cases h
        have hraw : Wraps 18 raw ("invalid balance '" ++ raw ++ "'") :=
          .of_isFrame (by decide) (by decide)
        exact ⟨raw, .quantity _ hresult (.inr hnone),
          (hraw.trans (undecodable_wraps .balance)).mono (by decide)⟩
  | nonce => exact quotes_of_quantityIn hstatus (hmap h)
  | code => exact quotes_of_resultIn hstatus (hmap h)
  | blockNumber => exact quotes_of_quantityIn hstatus (hmap h)
  | chainId => exact quotes_of_quantityIn hstatus (hmap h)

end Stages

/-! ### Answers with a text for a result -/

/-- An answer whose result is a text. -/
def saying (url : Url) (raw : String) : Http.Answer :=
  ⟨url, { status := 200, body := (Json.compact (.object [("result", .text raw)])).toUTF8 }⟩

theorem valueOf?_saying (url : Url) (raw : String) :
    valueOf? (saying url raw) = some (.object [("result", .text raw)]) := by
  have hread := Json.readDocument_compact (v := .object [("result", .text raw)]) ⟨trivial, trivial⟩
  rw [valueOf?, saying, Http.Response.strictText, Text.decode_toUTF8, Option.bind_eq_bind,
    Option.bind_some, Json.parse, hread]
  rfl

theorem resultIn_saying (method : String) (url : Url) (raw : String) :
    resultIn method Json.string (.ok (saying url raw)) = .ok raw := by
  have hvalue : valueIn method (.ok (saying url raw)) = .ok (.object [("result", .text raw)]) := by
    have h := valueOf?_saying url raw
    rw [valueOf?] at h
    simp only [valueIn]
    rw [h]
    rfl
  rw [resultIn, hvalue]
  rfl

/-- Any text that is no quantity can be quoted from an answer. -/
theorem quantityIn_saying (method : String) (url : Url) {raw : String} (h : Hex.quantity? raw = none) :
    quantityIn method (.ok (saying url raw)) =
      .error (.undecodable method ("invalid quantity '" ++ raw ++ "'")) := by
  rw [quantityIn, resultIn_saying]
  dsimp only
  rw [h]

/-- A peer that always gives the same answer. -/
def constantly (answer : Http.Answer) : Http.Transport (StateM Unit) := ⟨fun _ => pure (.ok answer)⟩

/-- An http or https URL. -/
def IsWeb (address : String) : Prop :=
  ∃ scheme url, Url.parse address = .ok (scheme, some url) ∧ (scheme = "http" ∨ scheme = "https")

theorem isWeb_localhost : IsWeb "http://localhost:8545" := by
  have h : ((Url.parse "http://localhost:8545").toOption.any fun parsed =>
      parsed.1 == "http" && parsed.2.isSome) = true := by decide +kernel
  obtain ⟨⟨scheme, url⟩, hparsed, hweb⟩ := (Option.any_eq_true _ _).mp h
  rw [Bool.and_eq_true, beq_iff_eq, Option.isSome_iff_exists] at hweb
  obtain ⟨hscheme, url, rfl⟩ := hweb
  cases hparse : Url.parse "http://localhost:8545" with
  | error e =>
    rw [hparse] at hparsed
    cases hparsed
  | ok parsed =>
    rw [hparse] at hparsed
    cases hparsed
    exact ⟨scheme, url, hparse, .inl hscheme⟩

theorem heardOf_constantly (answer : Http.Answer) {n : Network} (h : IsWeb n.address) (a : Action)
    (account : String) (id : UInt64) :
    (heardOf (constantly answer) n a account id ()).1 = .ok answer := by
  obtain ⟨scheme, url, hparse, hscheme⟩ := h
  have hscheme : (scheme != "http" && scheme != "https") = false := by
    obtain rfl | rfl := hscheme <;> rfl
  simp only [heardOf, answered, Http.post, hparse, hscheme, Option.any_none]
  rfl

/-! ### Messages -/

/-- What a failure quotes other than from an answer that does not decode is sanitized. -/
theorem Repeats.eq_sanitize {a : Action} {heard : Except Http.Fault Http.Answer} {f : Failure}
    {said : String} (h : Repeats a heard f said) (hf : ∀ method m, f ≠ .undecodable method m) :
    ∃ s, said = sanitize s := by
  cases h with
  | fault f m => exact ⟨_, rfl⟩
  | refusal answer m => exact ⟨_, rfl⟩
  | peerError m _ _ _ => exact ⟨_, rfl⟩
  | address answer m _ => exact absurd rfl (hf _ _)
  | answer m _ _ => exact absurd rfl (hf _ _)
  | result m _ _ _ => exact absurd rfl (hf _ _)
  | quantity m _ _ => exact absurd rfl (hf _ _)

/-- **A message is as long as what it quotes and shows its secrets.** A peer's text is quoted
sanitized, except for what does not decode. -/
theorem execute_message {σ : Type} (t : Http.Transport (StateM σ)) (n : Network)
    {action address account : String} {a : Action} (haction : Action.parse action = .ok a)
    (haccount : accountOf a address = some account) (id : UInt64) (w : σ)
    (hstatus : ∀ answer, (heardOf t n a account id w).1 = .ok answer → answer.response.status < 1000)
    {f : Failure} (hfailed : (outcome (n.execute t action address) id w).1.1 = .error f) :
    ∃ said, Repeats a (heardOf t n a account id w).1 f said ∧
      said.toList <:+: f.message.toList ∧
      f.message.toList.length ≤ said.toList.length + ownWords ∧
      (∀ p ∈ tokenPrefixes,
        ShowsNoToken p.toList f.message.toList ↔ ShowsNoToken p.toList said.toList) ∧
      ((∀ method m, f ≠ .undecodable method m) →
        f.message.toList.length ≤ peerTextLimit + 3 + ownWords ∧
          ∀ p ∈ tokenPrefixes, ShowsNoToken p.toList f.message.toList) := by
  rw [outcome_execute t n haction haccount] at hfailed
  have hobserved : observationIn a (heardOf t n a account id w).1 = .error f := by
    cases hobservation : observationIn a (heardOf t n a account id w).1 with
    | error f' =>
      rw [hobservation] at hfailed
      cases hfailed
      rfl
    | ok observation =>
      rw [hobservation] at hfailed
      cases hfailed
  obtain ⟨said, hrepeats, hwraps⟩ := quotes_of_observationIn hstatus hobserved
  refine ⟨said, hrepeats, hwraps.infix, hwraps.length_le, fun p hp => hwraps.showsNoToken_iff hp, ?_⟩
  intro hf
  obtain ⟨s, rfl⟩ := hrepeats.eq_sanitize hf
  constructor
  · have hshort := Text.sanitize_length_le s
    have hlength := hwraps.length_le
    omega
  · exact fun p hp => (hwraps.showsNoToken_iff hp).mpr (Text.sanitize_showsNoToken s hp)

/-- A token that is the result of a call for the block number is shown. -/
theorem execute_message_token :
    let url : Url := ⟨"http", none, "localhost".toList, some 8545, ['/'], none, none⟩
    let t := constantly (saying url "sk-live")
    let n : Network := ⟨"local", "http://localhost:8545"⟩
    let f : Failure := .undecodable "eth_blockNumber" "invalid quantity 'sk-live'"
    (outcome (n.execute t "block_number" "") 1 ()).1.1 = .error f ∧
      (∃ said, Repeats .blockNumber (heardOf t n .blockNumber "" 1 ()).1 f said ∧
        said.toList <:+: f.message.toList ∧
        f.message.toList.length ≤ said.toList.length + ownWords ∧
        (∀ p ∈ tokenPrefixes,
          ShowsNoToken p.toList f.message.toList ↔ ShowsNoToken p.toList said.toList) ∧
        ((∀ method m, f ≠ .undecodable method m) →
          f.message.toList.length ≤ peerTextLimit + 3 + ownWords ∧
            ∀ p ∈ tokenPrefixes, ShowsNoToken p.toList f.message.toList)) ∧
      "sk-live".toList <:+: f.message.toList := by
  intro url t n f
  have haction : Action.parse "block_number" = .ok .blockNumber := by
    have hname : Text.trim "block_number" = "block_number" := by decide
    simp only [Action.parse, hname]
    rfl
  have haccount : accountOf .blockNumber "" = some "" := rfl
  have hheard : (heardOf t n .blockNumber "" 1 ()).1 = .ok (saying url "sk-live") :=
    heardOf_constantly _ isWeb_localhost _ _ _
  have hobserved : observationIn .blockNumber (.ok (saying url "sk-live")) = .error f := by
    rw [observationIn, quantityIn_saying _ url (by decide)]
    rfl
  have hfailed : (outcome (n.execute t "block_number" "") 1 ()).1.1 = .error f := by
    rw [outcome_execute t n haction haccount, hheard, hobserved]
  refine ⟨hfailed, execute_message t n haction haccount 1 () ?_ hfailed, ?_⟩
  · intro answer hanswer
    rw [hheard] at hanswer
    cases hanswer
    decide
  · exact ⟨"rpc eth_blockNumber returned an undecodable result: invalid quantity '".toList,
      "'".toList, by decide +kernel⟩

end ChainAgent.Chain
