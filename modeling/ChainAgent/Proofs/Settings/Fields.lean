import ChainAgent.Proofs.Toml.Document
import ChainAgent.Settings.Decode
import ChainAgent.Settings.Encode

/-! Decoding inverts encoding for the sections of a configuration.

A section whose numbers fit into their fields (`Fits`) has a table that can be printed, and the
parsed table is decoded to the section again (`Kept`). For a section without subsections that is
`Kept.of_plain`, given that its members are plain and have names of the section; a section of
sections is kept if they are. So the whole configuration is, except for the file it belongs to
(`ofMembers_settled`). -/
namespace ChainAgent.Settings

open Toml (Value Members Writable IsPlain IsBare Absent settled plainMembers sectionMembers)

/-! ### What fits into the fields -/

theorem of_orElse {α : Type} {d : Decoder α} {P : α → Prop} {default : α} (hdefault : P default)
    (hd : ∀ v a, d v = some a → P a) {o : Option Value} {a : α} (h : orElse d default o = some a) :
    P a := by
  cases o with
  | none =>
    rw [← Option.some.inj h]
    exact hdefault
  | some v => exact hd v a h

theorem natural_lt {bound n : ℕ} {v : Value} (h : natural bound v = some n) : n < bound := by
  unfold natural at h
  split at h
  · rename_i i
    split at h
    · rename_i hi
      rw [Bool.and_eq_true, decide_eq_true_iff, decide_eq_true_iff] at hi
      rw [← Option.some.inj h]
      omega
    · cases h
  · cases h

theorem orElse_lt {bound n default : ℕ} {o : Option Value} (hdefault : default < bound)
    (h : orElse (natural bound) default o = some n) : n < bound :=
  of_orElse (P := (· < bound)) hdefault (fun _ _ => natural_lt) h

section Fits

/-- The numbers are 64-bit. -/
def Agent.Fits (a : Agent) : Prop :=
  a.memoryDepth < UInt64.size ∧ a.llmTimeoutSecs < UInt64.size ∧
    a.chainTimeoutSecs < UInt64.size ∧ a.requestTimeoutSecs < UInt64.size

def OpenAi.Fits (o : OpenAi) : Prop := o.timeoutSecs < UInt64.size

def Ollama.Fits (o : Ollama) : Prop := o.timeoutSecs < UInt64.size

def Script.Fits (s : Script) : Prop := s.timeoutSecs < UInt64.size

def Reasoning.Fits (r : Reasoning) : Prop := r.openai.Fits ∧ r.ollama.Fits ∧ r.script.Fits

def Knowledge.Fits (k : Knowledge) : Prop := k.maxResults < UInt64.size

def Storage.Fits (s : Storage) : Prop := s.maxConnections < UInt32.size

def Gateway.Fits (g : Gateway) : Prop := g.port < UInt16.size ∧ g.tokenTtlSecs < UInt64.size

variable {v : Value}

theorem Agent.fits_of_decode {a : Agent} (h : decode v = some a) : a.Fits := by
  simp only [decode, Option.bind_eq_bind, Option.bind_eq_some_iff] at h
  obtain ⟨f, -, n₁, h₁, n₂, h₂, n₃, h₃, n₄, h₄, h⟩ := h
  cases h
  exact ⟨orElse_lt (by decide) h₁, orElse_lt (by decide) h₂, orElse_lt (by decide) h₃,
    orElse_lt (by decide) h₄⟩

theorem OpenAi.fits_of_decode {o : OpenAi} (h : decode v = some o) : o.Fits := by
  simp only [decode, Option.bind_eq_bind, Option.bind_eq_some_iff] at h
  obtain ⟨f, -, _, -, _, -, _, -, _, -, _, -, n, hn, h⟩ := h
  cases h
  exact orElse_lt (by decide) hn

theorem Ollama.fits_of_decode {o : Ollama} (h : decode v = some o) : o.Fits := by
  simp only [decode, Option.bind_eq_bind, Option.bind_eq_some_iff] at h
  obtain ⟨f, -, _, -, _, -, _, -, n, hn, h⟩ := h
  cases h
  exact orElse_lt (by decide) hn

theorem Script.fits_of_decode {s : Script} (h : decode v = some s) : s.Fits := by
  simp only [decode, Option.bind_eq_bind, Option.bind_eq_some_iff] at h
  obtain ⟨f, -, _, -, _, -, _, -, n, hn, h⟩ := h
  cases h
  exact orElse_lt (by decide) hn

theorem Reasoning.fits_of_decode {r : Reasoning} (h : decode v = some r) : r.Fits := by
  simp only [decode, Option.bind_eq_bind, Option.bind_eq_some_iff] at h
  obtain ⟨f, -, _, -, openai, hopenai, ollama, hollama, script, hscript, h⟩ := h
  cases h
  exact ⟨of_orElse (by unfold OpenAi.Fits; decide) (fun _ _ => OpenAi.fits_of_decode) hopenai,
    of_orElse (by unfold Ollama.Fits; decide) (fun _ _ => Ollama.fits_of_decode) hollama,
    of_orElse (by unfold Script.Fits; decide) (fun _ _ => Script.fits_of_decode) hscript⟩

theorem Knowledge.fits_of_decode {k : Knowledge} (h : decode v = some k) : k.Fits := by
  simp only [decode, Option.bind_eq_bind, Option.bind_eq_some_iff] at h
  obtain ⟨f, -, _, -, n, hn, h⟩ := h
  cases h
  exact orElse_lt (by decide) hn

theorem Storage.fits_of_decode {s : Storage} (h : decode v = some s) : s.Fits := by
  simp only [decode, Option.bind_eq_bind, Option.bind_eq_some_iff] at h
  obtain ⟨f, -, _, -, _, -, _, -, n, hn, h⟩ := h
  cases h
  exact orElse_lt (by decide) hn

theorem Gateway.fits_of_decode {g : Gateway} (h : decode v = some g) : g.Fits := by
  simp only [decode, Option.bind_eq_bind, Option.bind_eq_some_iff] at h
  obtain ⟨f, -, port, hport, _, -, _, -, n, hn, _, -, h⟩ := h
  cases h
  exact ⟨orElse_lt (by decide) hport, orElse_lt (by decide) hn⟩

end Fits

/-! ### Fields of a table -/

@[simp] theorem find?_nil (key : String) : Toml.find? key [] = none := rfl

@[simp] theorem find?_cons (key name : String) (v : Value) (ms : Members) :
    Toml.find? key ((name, v) :: ms) = if name = key then some v else Toml.find? key ms := by
  rw [Toml.find?, List.find?_cons]
  by_cases h : name = key
  · simp [h]
  · have hname : (name == key) = false := beq_eq_false_iff_ne.mpr h
    simp only [hname, if_neg h]
    rfl

@[simp] theorem find?_append (key : String) (ms ms' : Members) :
    Toml.find? key (ms ++ ms') = (Toml.find? key ms).or (Toml.find? key ms') := by
  rw [Toml.find?, List.find?_append, Option.map_or]
  rfl

@[simp] theorem find?_optionalMember (key name : String) (o : Option String) :
    Toml.find? key (optionalMember name o) = if name = key then o.map .text else none := by
  cases o with
  | none => exact (ite_self none).symm
  | some s => exact find?_cons key name (.text s) []

@[simp] theorem orElse_text (default s : String) : orElse text default (some (.text s)) = some s :=
  rfl

@[simp] theorem orElse_real (default x : Float) : orElse number default (some (.real x)) = some x :=
  rfl

@[simp] theorem orElse_truth (default b : Bool) : orElse truth default (some (.bool b)) = some b :=
  rfl

@[simp] theorem orElse_natValue {bound n : ℕ} (h : n < bound) (default : ℕ) :
    orElse (natural bound) default (some (natValue n)) = some n := by
  have hbound : (n : ℤ) < bound := Int.ofNat_lt.mpr h
  simp [orElse, natural, natValue, hbound]

/-- An optional field. -/
@[simp] theorem orElse_present (o : Option String) :
    orElse (present text) none (o.map .text) = some o := by
  cases o <;> rfl

/-! ### Tables that are kept -/

/-- A table that can be printed, and that is parsed and decoded to the section it was encoded
from. -/
structure Kept {α : Type} (d : Decoder α) (ms : Members) (a : α) : Prop where
  writable : Writable ms
  decoded : d (.table .headed (settled ms)) = some a

section Sections

variable {α : Type} {d : Decoder α} {names : List String} {ms : Members} {a : α}
  {fields : (String → Option Value) → Option α} (hfields : ∀ v, d v = field? names v >>= fields)
  (hdecode : ∀ f, (∀ name, f name = Toml.find? name ms) → fields f = some a)
include hfields hdecode

/-- A decoder of fields finds the members of a table by their names. -/
theorem decode_table (form : Toml.Form) : d (.table form ms) = some a := by
  rw [hfields]
  exact hdecode _ (fun _ => rfl)

/-- **A section without subsections is kept**: its members have some of its names, and all are
plain. -/
theorem Kept.of_plain (hnames : names.Nodup ∧ ∀ name ∈ names, IsBare name)
    (hmembers : List.Sublist (ms.map Prod.fst) names)
    (hplain : ∀ v ∈ ms.map Prod.snd, IsPlain v ∧ v ≠ .tables []) : Kept d ms a where
  writable := Toml.writable_of_plain (hmembers.nodup hnames.1)
    (fun name hname => hnames.2 name (hmembers.subset hname)) (fun v hv => (hplain v hv).1)
  decoded := by
    rw [Toml.settled_of_plain hplain]
    exact decode_table hfields hdecode .headed

end Sections

@[simp] theorem isPlain_text (s : String) : IsPlain (.text s) := .text s

@[simp] theorem isPlain_natValue {n : ℕ} (h : n < UInt64.size) : IsPlain (natValue n) :=
  .natural (h.trans (by decide))

@[simp] theorem natValue_ne_tables (n : ℕ) (items : List Members) : natValue n ≠ .tables items :=
  nofun

section Optional

variable (name : String) (o : Option String) (front : Members)

/-- Members with an optional one among them have these names at most. -/
theorem names_around (back : Members) :
    List.Sublist ((front ++ optionalMember name o ++ back).map Prod.fst)
      (front.map Prod.fst ++ [name] ++ back.map Prod.fst) := by
  rw [List.map_append, List.map_append]
  refine ((List.Sublist.refl _).append ?_).append (.refl _)
  cases o with
  | none => exact List.nil_sublist [name]
  | some s => exact .refl [name]

theorem plain_around {back : Members}
    (hfront : ∀ v ∈ front.map Prod.snd, IsPlain v ∧ v ≠ .tables [])
    (hback : ∀ v ∈ back.map Prod.snd, IsPlain v ∧ v ≠ .tables []) :
    ∀ v ∈ (front ++ optionalMember name o ++ back).map Prod.snd, IsPlain v ∧ v ≠ .tables [] := by
  rw [List.map_append, List.map_append]
  refine List.forall_mem_append.mpr ⟨List.forall_mem_append.mpr ⟨hfront, ?_⟩, hback⟩
  cases o with
  | none => exact nofun
  | some s => simp [optionalMember]

end Optional

theorem Agent.kept {a : Agent} (h : a.Fits) : Kept decode a.members a := by
  obtain ⟨h₁, h₂, h₃, h₄⟩ := h
  refine .of_plain (fun _ => rfl) (fun f hf => ?_) (by decide) (.refl _) ?_
  · simp [hf, members, h₁, h₂, h₃, h₄]
  · simp [members, h₁, h₂, h₃, h₄]

theorem OpenAi.kept {o : OpenAi} (h : o.Fits) (ht : Decimal.IsMagnitude o.temperature) :
    Kept decode o.members o := by
  have hsecs : o.timeoutSecs < UInt64.size := h
  refine .of_plain (fun _ => rfl) (fun f hf => ?_) (by decide) ?_ ?_
  · simp [hf, members, hsecs]
  · exact names_around "api_key" o.apiKey [] _
  · exact plain_around "api_key" o.apiKey [] nofun (by simp [IsPlain.real ht, hsecs])

theorem Ollama.kept {o : Ollama} (h : o.Fits) (ht : Decimal.IsMagnitude o.temperature) :
    Kept decode o.members o := by
  have hsecs : o.timeoutSecs < UInt64.size := h
  refine .of_plain (fun _ => rfl) (fun f hf => ?_) (by decide) (.refl _) ?_
  · simp [hf, members, hsecs]
  · simp [members, IsPlain.real ht, hsecs]

theorem Script.kept {s : Script} (h : s.Fits) : Kept decode s.members s := by
  have hsecs : s.timeoutSecs < UInt64.size := h
  refine .of_plain (fun _ => rfl) (fun f hf => ?_) (by decide) ?_ ?_
  · simp [hf, members, hsecs]
  · exact names_around "working_dir" s.workingDir _ _
  · exact plain_around "working_dir" s.workingDir _ (by simp) (by simp [hsecs])

theorem Knowledge.kept {k : Knowledge} (h : k.Fits) : Kept decode k.members k := by
  have hresults : k.maxResults < UInt64.size := h
  refine .of_plain (fun _ => rfl) (fun f hf => ?_) (by decide) (.refl _) ?_
  · simp [hf, members, hresults]
  · simp [members, hresults]

theorem Storage.kept {s : Storage} (h : s.Fits) : Kept decode s.members s := by
  have hconnections : s.maxConnections < UInt32.size := h
  have hwide : s.maxConnections < UInt64.size := hconnections.trans (by decide)
  refine .of_plain (fun _ => rfl) (fun f hf => ?_) (by decide) ?_ ?_
  · simp [hf, members, hconnections]
  · exact names_around "sqlite_path" s.sqlitePath _ _
  · exact plain_around "sqlite_path" s.sqlitePath _ (by simp) (by simp [hwide])

theorem Network.kept (n : Network) : Kept decode n.members n := by
  refine .of_plain (fun _ => rfl) (fun f hf => ?_) (by decide) (.refl _) ?_
  · simp [hf, members, text]
  · simp [members]

theorem Client.kept (c : Client) : Kept decode c.members c := by
  refine .of_plain (fun _ => rfl) (fun f hf => ?_) (by decide) (.refl _) ?_
  · simp [hf, members, text]
  · simp [members]

theorem Logging.kept (l : Logging) : Kept decode l.members l := by
  refine .of_plain (fun _ => rfl) (fun f hf => ?_) (by decide) (.refl _) ?_
  · simp [hf, members]
  · simp [members]

/-! ### Sections of sections -/

theorem Kept.orElse {α : Type} {d : Decoder α} {ms : Members} {a : α} (h : Kept d ms a)
    (default : α) : orElse d default (some (.table .headed (settled ms))) = some a := h.decoded

theorem Reasoning.kept {r : Reasoning} (h : r.Fits)
    (hopenai : Decimal.IsMagnitude r.openai.temperature)
    (hollama : Decimal.IsMagnitude r.ollama.temperature) : Kept decode r.members r := by
  obtain ⟨h₁, h₂, h₃⟩ := h
  have hopenai := OpenAi.kept h₁ hopenai
  have hollama := Ollama.kept h₂ hollama
  have hscript := Script.kept h₃
  have hsettled : settled r.members = [
      ("provider", .text r.provider),
      ("openai", .table .headed (settled r.openai.members)),
      ("ollama", .table .headed (settled r.ollama.members)),
      ("script", .table .headed (settled r.script.members))] := rfl
  constructor
  · refine .plain (by decide) (by simp [Absent]) (.text _) ?_
    refine .table (by decide) (by simp [Absent]) hopenai.writable ?_
    refine .table (by decide) (by simp [Absent]) hollama.writable ?_
    exact .table (by decide) (by simp [Absent]) hscript.writable .nil
  · refine decode_table (fun _ => rfl) (fun f hf => ?_) .headed
    simp [hf, hsettled, hopenai.orElse, hollama.orElse, hscript.orElse]

/-- The parsed array of tables; an empty one has no header. -/
def listed {α : Type} (f : α → Members) : List α → Value
  | [] => .array []
  | as => .tables ((as.map f).map settled)

section Lists

variable {α : Type} {d : Decoder α} {f : α → Members} (h : ∀ a, Kept d (f a) a)
include h

theorem mapM_kept (as : List α) :
    ((as.map f).map settled).mapM (fun ms => d (.table .headed ms)) = some as := by
  induction as with
  | nil => rfl
  | cons a as ih =>
    rw [List.map_cons, List.map_cons, List.mapM_cons, (h a).decoded, ih]
    rfl

theorem orElse_listed (as default : List α) :
    orElse (list d) default (some (listed f as)) = some as := by
  cases as with
  | nil => rfl
  | cons a as => exact mapM_kept h (a :: as)

theorem writable_listed {name : String} (hname : IsBare name) (as : List α) :
    Writable [(name, .tables (as.map f))] := by
  cases as with
  | nil => exact .plain hname (Toml.absent_nil name) .noTables .nil
  | cons a as =>
    refine .tables hname (Toml.absent_nil name) (fun ms hms => ?_) .nil
    have hms : ms ∈ (a :: as).map f := hms
    obtain ⟨b, -, rfl⟩ := List.mem_map.mp hms
    exact (h b).writable

end Lists

theorem Chain.kept (c : Chain) : Kept decode c.members c := by
  have hsettled : settled c.members = [
      ("default_network", .text c.defaultNetwork),
      ("networks", listed Network.members c.networks)] := by
    rw [members]
    cases c.networks with
    | nil => rfl
    | cons n ns => simp [settled, plainMembers, sectionMembers, Toml.sectionMember,
        Toml.sectionValue, Toml.itemMembers_eq, Toml.isSection, Toml.inlined, listed]
  constructor
  · exact .plain (by decide) (by simp [Absent]) (.text _)
      (writable_listed Network.kept (by decide) c.networks)
  · refine decode_table (fun _ => rfl) (fun f hf => ?_) .headed
    simp [hf, hsettled, orElse_listed Network.kept]

theorem Gateway.kept {g : Gateway} (h : g.Fits) : Kept decode g.members g := by
  obtain ⟨hport, hsecs⟩ := h
  have hsettled : settled g.members = [
      ("port", natValue g.port),
      ("host", .text g.host),
      ("require_auth", .bool g.requireAuth),
      ("token_ttl_secs", natValue g.tokenTtlSecs),
      ("clients", listed Client.members g.clients)] := by
    rw [members]
    cases g.clients with
    | nil => rfl
    | cons c cs => simp [settled, plainMembers, sectionMembers, Toml.sectionMember,
        Toml.sectionValue, Toml.itemMembers_eq, Toml.isSection, Toml.inlined, listed, natValue]
  constructor
  · refine .plain (by decide) (by simp [Absent]) (isPlain_natValue (hport.trans (by decide))) ?_
    refine .plain (by decide) (by simp [Absent]) (.text _) ?_
    refine .plain (by decide) (by simp [Absent]) (.bool _) ?_
    refine .plain (by decide) (by simp [Absent]) (isPlain_natValue hsecs) ?_
    exact writable_listed Client.kept (by decide) g.clients
  · refine decode_table (fun _ => rfl) (fun f hf => ?_) .headed
    simp [hf, hsettled, hport, hsecs, orElse_listed Client.kept]

/-! ### The whole configuration -/

/-- All numbers fit into their fields. -/
structure Fits (s : Settings) : Prop where
  agent : s.agent.Fits
  reasoning : s.reasoning.Fits
  knowledge : s.knowledge.Fits
  storage : s.storage.Fits
  gateway : s.gateway.Fits

theorem fits_of_ofMembers {ms : Members} {s : Settings} (h : ofMembers ms = some s) : s.Fits := by
  simp only [ofMembers, Option.bind_eq_bind, Option.bind_eq_some_iff] at h
  obtain ⟨agent, hagent, reasoning, hreasoning, knowledge, hknowledge, storage, hstorage, chain, -,
    gateway, hgateway, logging, -, h⟩ := h
  cases h
  exact {
    agent := of_orElse (by unfold Agent.Fits; decide) (fun _ _ => Agent.fits_of_decode) hagent
    reasoning := of_orElse
      (by unfold Reasoning.Fits OpenAi.Fits Ollama.Fits Script.Fits; decide)
      (fun _ _ => Reasoning.fits_of_decode) hreasoning
    knowledge := of_orElse (by unfold Knowledge.Fits; decide)
      (fun _ _ => Knowledge.fits_of_decode) hknowledge
    storage := of_orElse (by unfold Storage.Fits; decide)
      (fun _ _ => Storage.fits_of_decode) hstorage
    gateway := of_orElse (by unfold Gateway.Fits; decide)
      (fun _ _ => Gateway.fits_of_decode) hgateway }

/-- **The document of a configuration is parsed as that configuration**, except for the file that it
belongs to. -/
theorem ofMembers_settled {s : Settings} (h : s.Fits)
    (hopenai : Decimal.IsMagnitude s.reasoning.openai.temperature)
    (hollama : Decimal.IsMagnitude s.reasoning.ollama.temperature) :
    Writable s.members ∧
      ofMembers (settled s.members) = some {s with path := "", baseDir := ""} := by
  have hagent := Agent.kept h.agent
  have hreasoning := Reasoning.kept h.reasoning hopenai hollama
  have hknowledge := Knowledge.kept h.knowledge
  have hstorage := Storage.kept h.storage
  have hchain := Chain.kept s.chain
  have hgateway := Gateway.kept h.gateway
  have hlogging := Logging.kept s.logging
  have hsettled : settled s.members = [
      ("agent", .table .headed (settled s.agent.members)),
      ("reasoning", .table .headed (settled s.reasoning.members)),
      ("knowledge", .table .headed (settled s.knowledge.members)),
      ("storage", .table .headed (settled s.storage.members)),
      ("chain", .table .headed (settled s.chain.members)),
      ("gateway", .table .headed (settled s.gateway.members)),
      ("logging", .table .headed (settled s.logging.members))] := rfl
  constructor
  · refine .table (by decide) (by simp [Absent]) hagent.writable ?_
    refine .table (by decide) (by simp [Absent]) hreasoning.writable ?_
    refine .table (by decide) (by simp [Absent]) hknowledge.writable ?_
    refine .table (by decide) (by simp [Absent]) hstorage.writable ?_
    refine .table (by decide) (by simp [Absent]) hchain.writable ?_
    refine .table (by decide) (by simp [Absent]) hgateway.writable ?_
    exact .table (by decide) (by simp [Absent]) hlogging.writable .nil
  · rw [hsettled, ofMembers]
    simp [hagent.orElse, hreasoning.orElse, hknowledge.orElse, hstorage.orElse, hchain.orElse,
      hgateway.orElse, hlogging.orElse]

end ChainAgent.Settings
