import ChainAgent.Proofs.Chain.Execution
import ChainAgent.Proofs.Chain.Quantities
import ChainAgent.Proofs.Decimal.Fixed

/-! Observations of a peer's state.

A `Fact` is the answer that a peer has in its state: an amount, a count, a number or the code of a
contract. It encodes numbers in minimal hex and bytes in two digits each (`Fact.Encoded`); every
such answer is reported as that fact (`execute_tells`). -/
namespace ChainAgent.Chain

open Text (isHexDigit)
open Json (digitValue digitValue_pos isBlank_of_isHexDigit spelled spelled_cons)

/-! ### Encodings -/

namespace Hex

/-- The digits of a number without a leading zero, in either case. -/
structure Minimal (digits : List Char) (n : Nat) : Prop where
  isHex : ∀ d ∈ digits, isHexDigit d = true
  hasDigit : digits ≠ []
  trimmed : digits.length = 1 ∨ digits.head? ≠ some '0'
  value : spelled digits = n

/-- Two digits for each byte. -/
inductive Pairs : List Char → List UInt8 → Prop
  | nil : Pairs [] []
  | cons {high low : Char} {digits : List Char} {byte : UInt8} {bytes : List UInt8} :
      isHexDigit high = true → isHexDigit low = true → spelled [high, low] = byte.toNat →
      Pairs digits bytes → Pairs (high :: low :: digits) (byte :: bytes)

theorem Pairs.isHex {digits : List Char} {bytes : List UInt8} (h : Pairs digits bytes) :
    ∀ d ∈ digits, isHexDigit d = true := by
  induction h with
  | nil => exact nofun
  | cons hhigh hlow _ _ ih => exact List.forall_mem_cons.mpr ⟨hhigh, List.forall_mem_cons.mpr ⟨hlow, ih⟩⟩

theorem Pairs.length_eq {digits : List Char} {bytes : List UInt8} (h : Pairs digits bytes) :
    digits.length = 2 * bytes.length := by
  induction h with
  | nil => rfl
  | cons _ _ _ _ ih =>
    rw [List.length_cons, List.length_cons, List.length_cons, ih]
    omega

/-- A number has no more minimal digits than its size allows. -/
theorem Minimal.length_le {digits : List Char} {n places : Nat} (h : Minimal digits n)
    (hplaces : 0 < places) (hn : n < 16 ^ places) : digits.length ≤ places := by
  obtain hone | hhead := h.trimmed
  · omega
  · obtain ⟨d, digits, rfl⟩ := List.exists_cons_of_ne_nil h.hasDigit
    have hd : 0 < digitValue d :=
      digitValue_pos (h.isHex d List.mem_cons_self) fun hzero => hhead (congrArg some hzero)
    have hleast : 16 ^ digits.length ≤ n := by
      calc 16 ^ digits.length ≤ digitValue d * 16 ^ digits.length := Nat.le_mul_of_pos_left _ hd
        _ ≤ spelled (d :: digits) := by
          rw [spelled_cons]
          exact Nat.le_add_right _ _
        _ = n := h.value
    have hfew : digits.length < places :=
      (Nat.pow_lt_pow_iff_right (by decide : 1 < 16)).mp (hleast.trans_lt hn)
    exact hfew

section Encoded

variable {raw : String} {digits : List Char} {n : Nat} (hraw : raw.toList = '0' :: 'x' :: digits)
include hraw

/-- A text from `0x` to a digit has no surrounding whitespace. -/
theorem trimChars_of_isHex (hdigits : ∀ d ∈ digits, isHexDigit d = true) :
    Text.trimChars raw.toList = '0' :: 'x' :: digits := by
  rw [hraw]
  obtain rfl | ⟨before, d, rfl⟩ := List.eq_nil_or_concat' digits
  · rfl
  · have hd := isBlank_of_isHexDigit (hdigits d (List.mem_append_right _ List.mem_cons_self))
    exact @Text.trimChars_blank_append '0' d [] _ ('0' :: 'x' :: before) rfl rfl hd rfl

theorem Minimal.hasDigits (h : Minimal digits n) : HasDigits raw digits :=
  ⟨.inl (trimChars_of_isHex hraw h.isHex), h.isHex⟩

theorem quantity?_of_minimal (h : Minimal digits n) (hn : n < 2 ^ 64) : quantity? raw = some n :=
  quantity?_eq_some_iff.mpr (.inl ⟨digits, h.hasDigit, h.hasDigits hraw, h.value, hn⟩)

theorem wide?_of_minimal (h : Minimal digits n) (hn : n < 2 ^ 256) : wide? raw = some n :=
  wide?_eq_some_iff.mpr (.inl ⟨digits, h.hasDigit, h.hasDigits hraw,
    h.length_le (by decide) (hn.trans_eq (by norm_num)), h.value⟩)

theorem byteCount_of_pairs {bytes : List UInt8} (h : Pairs digits bytes) :
    byteCount raw = bytes.length := by
  have hdrop : dropMarks digits = digits := by
    unfold dropMarks
    split
    · exact absurd (h.isHex 'x' (by simp)) (by decide)
    · rfl
  rw [byteCount, trimChars_of_isHex hraw h.isHex, dropMarks, hdrop,
    utf8ByteSize_places fun d hd => .inl (h.isHex d hd), h.length_eq]
  omega

end Encoded

/-- An amount in ether is a plain decimal of its value. -/
theorem plain_etherText (wei : Nat) : Decimal.Plain (etherText wei).toList (wei / 10 ^ 18) := by
  have h := Decimal.plain_fixed (show 0 < etherPlaces by decide) wei
  rw [etherText, String.toList_ofList]
  exact h

example : etherText 1050000000000000000 = "1.05" := by decide +kernel

end Hex

/-! ### Facts -/

/-- The fact that an action asks for. -/
inductive Fact : Action → Type
  | balance (wei : BitVec 256) : Fact .balance
  | nonce (count : UInt64) : Fact .nonce
  | code (bytes : List UInt8) : Fact .code
  | blockNumber (number : UInt64) : Fact .blockNumber
  | chainId (id : UInt64) : Fact .chainId

namespace Fact

variable {a : Action}

/-- The number of a fact; for code the number of its bytes. -/
def number : {a : Action} → Fact a → Nat
  | _, balance wei => wei.toNat
  | _, code bytes => bytes.length
  | _, nonce q | _, blockNumber q | _, chainId q => q.toNat

/-- The result text of a peer. -/
def Encoded (fact : Fact a) (raw : String) : Prop :=
  ∃ digits, raw.toList = '0' :: 'x' :: digits ∧
    match fact with
    | code bytes => Hex.Pairs digits bytes
    | fact => Hex.Minimal digits fact.number

/-- The text of the observation. -/
def Told : {a : Action} → Fact a → String → Prop
  | _, balance wei, told => ∃ amount : String, told = "balance=" ++ amount ++ " ETH" ∧
      Decimal.Plain amount.toList (wei.toNat / 10 ^ 18)
  | _, nonce q, told => told = "nonce=" ++ toString q.toNat
  | _, code bytes, told => told = "code_size=" ++ toString bytes.length ++ " bytes"
  | _, blockNumber q, told => told = "block_number=" ++ toString q.toNat
  | _, chainId q, told => told = "chain_id=" ++ toString q.toNat

/-- The decimal text of a number is injective. -/
theorem toString_inj {m n : Nat} (h : toString m = toString n) : m = n := by
  have hdigits := congrArg (fun s => Json.digitsValue s.toList) h
  simpa only [Decimal.toList_toString_nat, Json.digitsValue_natDigits] using hdigits

/-- Facts with the same observation have the same number. -/
theorem Told.number_eq {fact other : Fact a} {told : String} (h : fact.Told told)
    (h' : other.Told told) : other.number = fact.number := by
  cases fact with
  | balance wei =>
    cases other with
    | balance wei' =>
      obtain ⟨amount, rfl, hamount⟩ := h
      obtain ⟨amount', hsame, hamount'⟩ := h'
      obtain rfl : amount = amount' := by
        rwa [String.append_left_inj, String.append_right_inj] at hsame
      have hvalue := hamount'.unique hamount
      rw [div_left_inj' (by norm_num)] at hvalue
      exact_mod_cast hvalue
  | code bytes =>
    cases other with
    | code bytes' =>
      obtain rfl := h
      have hsame : toString bytes.length = toString bytes'.length := by
        rwa [Told, String.append_left_inj, String.append_right_inj] at h'
      exact (toString_inj hsame).symm
  | nonce q | blockNumber q | chainId q =>
    cases other
    obtain rfl := h
    exact (toString_inj (String.append_right_inj _ |>.mp h')).symm

/-- The observation of an encoded fact. -/
theorem observationIn_told {fact : Fact a} {raw : String} {heard : Except Http.Fault Http.Answer}
    (hraw : fact.Encoded raw) (htext : HasText heard raw) :
    ∃ told, observationIn a heard = .ok told ∧ fact.Told told := by
  obtain ⟨digits, hdigits, hencoded⟩ := hraw
  have hquantity {q : UInt64} (method : String) (tell : Nat → String)
      (h : Hex.Minimal digits q.toNat) : (quantityIn method heard).map tell = .ok (tell q.toNat) := by
    rw [(quantityIn_eq_ok_iff method).mpr ⟨raw, htext, Hex.quantity?_of_minimal hdigits h q.toNat_lt⟩]
    rfl
  cases fact with
  | balance wei =>
    refine ⟨_, ?_, Hex.etherText wei.toNat, rfl, Hex.plain_etherText _⟩
    rw [observationIn, (resultIn_eq_ok_iff _).mpr htext]
    dsimp only
    rw [Hex.wide?_of_minimal hdigits hencoded wei.isLt]
    rfl
  | code bytes =>
    refine ⟨_, ?_, rfl⟩
    rw [observationIn, (resultIn_eq_ok_iff _).mpr htext, ← Hex.byteCount_of_pairs hdigits hencoded]
    rfl
  | nonce q | blockNumber q | chainId q => exact ⟨_, hquantity _ _ hencoded, rfl⟩

end Fact

/-! ### Reports -/

/-- **A fact that a peer encodes is reported as it is.** An amount is a plain decimal of its value,
every other number its own decimal; so different amounts are reported as different texts. -/
theorem execute_tells {σ : Type} (t : Http.Transport (StateM σ)) (n : Network)
    {action address account raw : String} {a : Action} (haction : Action.parse action = .ok a)
    (haccount : accountOf a address = some account) (fact : Fact a) (hraw : fact.Encoded raw)
    (id : UInt64) (w : σ) (htext : HasText (heardOf t n a account id w).1 raw) :
    ∃ report, (outcome (n.execute t action address) id w).1.1 = .ok report ∧
      fact.Told report.observation ∧
      ∀ other : Fact a, other.Told report.observation → other.number = fact.number := by
  obtain ⟨told, hobserved, htold⟩ := Fact.observationIn_told hraw htext
  rw [outcome_execute t n haction haccount, hobserved]
  exact ⟨_, rfl, htold, fun _ hother => htold.number_eq hother⟩

/-- An amount of 1.05 ether is reported. -/
theorem execute_tells_ether :
    let url : Url := ⟨"http", none, "localhost".toList, some 8545, ['/'], none, none⟩
    let t := constantly (saying url "0xe92596fd6290000")
    let n : Network := ⟨"local", "http://localhost:8545"⟩
    let fact : Fact .balance := .balance 1050000000000000000
    ∃ report, (outcome (n.execute t "balance" "0x52908400098527886E0F7030069857D2E4169EE7") 1 ()).1.1 =
        .ok report ∧ fact.Told report.observation ∧
      ∀ other : Fact .balance, other.Told report.observation → other.number = fact.number := by
  intro url t n fact
  have haction : Action.parse "balance" = .ok .balance :=
    parse_eq_ok_iff.mpr ⟨["balance", "eth_getBalance"], by decide, "balance", by decide, by decide⟩
  have haccount : accountOf .balance "0x52908400098527886E0F7030069857D2E4169EE7" =
      some "0x52908400098527886e0f7030069857d2e4169ee7" := by decide +kernel
  have hminimal : Hex.Minimal
      ['e', '9', '2', '5', '9', '6', 'f', 'd', '6', '2', '9', '0', '0', '0', '0'] 1050000000000000000 :=
    ⟨List.all_eq_true.mp rfl, by decide, by decide, by decide⟩
  have hnumber : 1050000000000000000 = fact.number := by decide +kernel
  rw [hnumber] at hminimal
  have hencoded : fact.Encoded "0xe92596fd6290000" := ⟨_, rfl, hminimal⟩
  have htext : HasText (heardOf t n .balance "0x52908400098527886e0f7030069857d2e4169ee7" 1 ()).1
      "0xe92596fd6290000" := by
    rw [heardOf_constantly _ isWeb_localhost]
    exact (resultIn_eq_ok_iff Action.balance.method).mp (resultIn_saying _ _ _)
  exact execute_tells t n haction haccount fact hencoded 1 () htext

end ChainAgent.Chain
