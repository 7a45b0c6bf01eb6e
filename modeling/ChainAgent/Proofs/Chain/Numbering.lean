import ChainAgent.Proofs.Chain.Exchange
import Mathlib.Data.List.Nodup
import Mathlib.Data.List.Range

/-! Call ids.

A counter numbers the calls of an executor. Every operation takes some of the next ids and posts
requests under some of them, each at most once (`Takes`); the next operation continues after them
(`Takes.trans`). Every operation but a batch takes at most three (`AtMost`). -/
namespace ChainAgent.Chain

open Json (Value)

variable {σ α β : Type}

/-! ### Ids -/

/-- The id of a posted call. -/
def idOf : Value → Option Nat
  | .object members =>
    match Json.lookup "id" members with
    | some (.number (.natural n)) => some n
    | _ => none
  | _ => none

/-- The ids in a posted value, a call or a batch. -/
def idsIn : Value → List Nat
  | .array items => items.filterMap idOf
  | v => (idOf v).toList

theorem idsIn_callBody (id : UInt64) (method : String) (params : List Value) :
    idsIn (callBody id method params) = [id.toNat] := rfl

/-- The id at a distance after one. -/
def numberAt (id : UInt64) (place : Nat) : Nat := (id + UInt64.ofNat place).toNat

theorem numberAt_add (id : UInt64) (k place : Nat) :
    numberAt (id + UInt64.ofNat k) place = numberAt id (k + place) := by
  rw [numberAt, numberAt, UInt64.ofNat_add, UInt64.add_assoc]

theorem add_one_add_ofNat (id : UInt64) (k : Nat) :
    id + 1 + UInt64.ofNat k = id + UInt64.ofNat (k + 1) := by
  rw [UInt64.ofNat_add, UInt64.add_assoc, UInt64.add_comm 1]
  rfl

/-- A counter only returns to an id after all the others. -/
theorem nodup_numberAt (id : UInt64) {k : Nat} (hk : k ≤ UInt64.size) {places : List Nat}
    (hplaces : places.Sublist (List.range k)) : (places.map (numberAt id)).Nodup := by
  refine (hplaces.nodup List.nodup_range).map_on fun i hi j hj h => ?_
  have hi := List.mem_range.mp (hplaces.subset hi)
  have hj := List.mem_range.mp (hplaces.subset hj)
  simp only [numberAt, UInt64.toNat_add, UInt64.toNat_ofNat'] at h
  have hid := id.toNat_lt
  simp only [UInt64.size] at hk
  omega

/-! ### Numbers taken -/

/-- The counter, the peer and the requests that it has got. -/
abbrev Moment (σ : Type) := UInt64 × σ × List Http.Request

/-- The requests between two moments have ids among the next `k`, each at most once. -/
def Takes (url : Url) (k : Nat) (s s' : Moment σ) : Prop :=
  s'.1 = s.1 + UInt64.ofNat k ∧ ∃ (bodies : List Value) (places : List Nat),
    s'.2.2 = s.2.2 ++ bodies.map (requestTo url) ∧ places.Sublist (List.range k) ∧
      bodies.flatMap idsIn = places.map (numberAt s.1)

section Taking

variable {url : Url}

theorem Takes.refl (s : Moment σ) : Takes url 0 s s :=
  ⟨(UInt64.add_zero _).symm, [], [], (List.append_nil _).symm, .slnil, rfl⟩

theorem Takes.trans {s s' s'' : Moment σ} {k l : Nat} (h : Takes url k s s')
    (h' : Takes url l s' s'') : Takes url (k + l) s s'' := by
  obtain ⟨hid, bodies, places, hlog, hplaces, hids⟩ := h
  obtain ⟨hid', bodies', places', hlog', hplaces', hids'⟩ := h'
  refine ⟨?_, bodies ++ bodies', places ++ places'.map (k + ·), ?_, ?_, ?_⟩
  · rw [hid', hid, UInt64.ofNat_add, UInt64.add_assoc]
  · rw [hlog', hlog, List.map_append, List.append_assoc]
  · rw [List.range_add]
    exact hplaces.append (hplaces'.map _)
  · rw [List.flatMap_append, hids, hids', hid, List.map_append, List.map_map]
    refine congrArg _ (List.map_congr_left fun place _ => ?_)
    exact numberAt_add s.1 k place

/-- One value is posted, with all the ids that are taken. -/
theorem Takes.posting {id : UInt64} {w w' : σ} {log : List Http.Request} {body : Value} {k : Nat}
    (h : idsIn body = (List.range k).map (numberAt id)) :
    Takes url k (id, w, log) (id + UInt64.ofNat k, w', log ++ [requestTo url body]) :=
  ⟨rfl, [body], List.range k, rfl, .refl _, by rw [List.flatMap_singleton, h]⟩

/-- Ids are taken, and nothing is posted. -/
theorem Takes.idle (id : UInt64) (k : Nat) (p : σ × List Http.Request) :
    Takes url k (id, p) (id + UInt64.ofNat k, p) :=
  ⟨rfl, [], [], (List.append_nil _).symm, List.nil_sublist _, rfl⟩

end Taking

/-! ### Work that takes few -/

/-- A computation of an executor whose requests are logged. -/
abbrev Watched (σ α : Type) := Call (StateM (σ × List Http.Request)) α

/-- The moment after an operation. -/
def momentAfter (c : Watched σ α) (s : Moment σ) : Moment σ :=
  ((outcome c s.1 s.2).1.2, (outcome c s.1 s.2).2)

/-- An operation that takes at most so many ids, whatever its result. -/
def AtMost (url : Url) (most : Nat) (c : Watched σ α) : Prop :=
  ∀ s, ∃ k ≤ most, Takes url k s (momentAfter c s)

section Few

variable {url : Url} {most more : Nat} {c : Watched σ α}

theorem AtMost.mono (hc : AtMost url most c) (hle : most ≤ more) : AtMost url more c := by
  intro s
  obtain ⟨k, hk, htakes⟩ := hc s
  exact ⟨k, hk.trans hle, htakes⟩

/-- A computation that sends nothing. -/
theorem atMost_mk (e : Except Failure α) : AtMost url 0 (ExceptT.mk (pure e) : Watched σ α) :=
  fun s => ⟨0, le_rfl, .refl s⟩

theorem AtMost.bind {f : α → Watched σ β} (hc : AtMost url most c)
    (hf : ∀ a, AtMost url more (f a)) : AtMost url (most + more) (c >>= f) := by
  intro s
  obtain ⟨k, hk, htakes⟩ := hc s
  unfold momentAfter at htakes ⊢
  rw [outcome_bind]
  generalize outcome c s.1 s.2 = done at htakes ⊢
  obtain ⟨⟨result, id⟩, w⟩ := done
  cases result with
  | error f =>
    -- after a failure nothing else is run
    exact ⟨k, hk.trans (Nat.le_add_right _ _), htakes⟩
  | ok a =>
    obtain ⟨l, hl, htakes'⟩ := hf a (id, w)
    exact ⟨k + l, Nat.add_le_add hk hl, htakes.trans htakes'⟩

theorem AtMost.attempt (hc : AtMost url most c) : AtMost url most (Network.attempt c) := by
  intro s
  obtain ⟨k, hk, htakes⟩ := hc s
  refine ⟨k, hk, ?_⟩
  unfold momentAfter
  rw [outcome_attempt]
  exact htakes

variable (t : Http.Transport (StateM σ)) {n : Network}

/-- **A call takes one id, and posts it.** -/
theorem atMost_call {address : String} (h : LeadsTo address url) (method : String)
    (params : List Value) (d : Json.Decoder α) :
    AtMost url 1 (call (recorded t) address method params d) := by
  intro s
  obtain ⟨id, w, log⟩ := s
  refine ⟨1, le_rfl, ?_⟩
  unfold momentAfter
  rw [outcome_call, answered_recorded t h]
  refine .posting ?_
  rw [idsIn_callBody, List.range_one, List.map_singleton]
  exact congrArg (fun id => [UInt64.toNat id]) (UInt64.add_zero id).symm

variable (h : LeadsTo n.address url)

include h

theorem atMost_quantity (method : String) (params : List Value) :
    AtMost url 1 (n.quantity (recorded t) method params) := by
  refine (atMost_call t h method params _).bind fun raw => (?_ : AtMost url 0 _)
  cases Hex.quantity? raw <;> exact atMost_mk _

theorem atMost_observe (a : Action) (account : String) :
    AtMost url 1 (n.observe (recorded t) a account) := by
  cases a with
  | balance =>
    refine (atMost_call t h _ _ _).bind fun raw => (?_ : AtMost url 0 _)
    cases Hex.wide? raw <;> exact atMost_mk _
  | code => exact (atMost_call t h _ _ _).bind fun raw => atMost_mk _
  | nonce => exact (atMost_quantity t h _ _).bind fun q => atMost_mk _
  | blockNumber => exact (atMost_quantity t h _ _).bind fun q => atMost_mk _
  | chainId => exact (atMost_quantity t h _ _).bind fun q => atMost_mk _

theorem atMost_snapshot : AtMost url 2 (n.snapshot (recorded t)) :=
  (atMost_quantity t h _ _).bind fun _ => (atMost_quantity t h _ _).bind fun _ => atMost_mk _

theorem atMost_execute (action address : String) :
    AtMost url 3 (n.execute (recorded t) action address) := by
  refine (atMost_mk _).bind fun a => (?_ : AtMost url 3 _)
  have hreport (account : String) : AtMost url 3 (reporting (recorded t) n a account) :=
    (atMost_observe t h a account).bind fun _ => (atMost_snapshot t h).attempt.bind fun _ => atMost_mk _
  have haccount (found : Except Failure String) :
      AtMost url 3 (ExceptT.mk (pure found) >>= reporting (recorded t) n a) :=
    (atMost_mk found).bind hreport
  dsimp only
  split
  · split
    · exact haccount (.ok _)
    · exact haccount (.error _)
  · exact haccount (.ok _)

theorem atMost_deploy (raw : String) : AtMost url 2 (n.deploy (recorded t) raw) :=
  (atMost_mk _).bind fun _ => (atMost_call t h _ _ _).bind fun _ =>
    (atMost_call t h _ _ _).attempt.bind fun _ => atMost_mk _

theorem atMost_logs (f : LogFilter) : AtMost url 1 (n.logs (recorded t) f) := by
  have hlogs (found : Except Failure (Option String)) : AtMost url 1 (ExceptT.mk (pure found) >>=
      fun account => call (recorded t) n.address "eth_getLogs" [Network.filterParams f account]
        (Json.list Network.log)) :=
    (atMost_mk found).bind fun _ => atMost_call t h _ _ _
  unfold Network.logs
  dsimp only
  split
  · exact hlogs (.ok _)
  · split
    · exact hlogs (.ok _)
    · exact hlogs (.error _)

end Few

end ChainAgent.Chain
