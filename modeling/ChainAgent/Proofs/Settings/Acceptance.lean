import ChainAgent.Settings.Validation

/-! Properties of accepted configurations.

The rules are checked one after the other, so a configuration that passes validation satisfies all
of them (`accepted_of_validate`). -/
namespace ChainAgent.Settings

/-- The rules for a network. -/
structure Network.Accepted (n : Network) : Prop where
  named : Text.saysNothing n.name = false
  kind : n.kind = "evm"
  address : checkUrl ("chain.networks." ++ n.name) n.rpcUrl = .ok ()

/-- The rules for a configuration. -/
structure Accepted (s : Settings) : Prop where
  provider : s.reasoning.provider ∈ providers
  driver : s.storage.driver ∈ drivers
  openaiTemperature : checkTemperature s.reasoning.openai.temperature = .ok ()
  ollamaTemperature : checkTemperature s.reasoning.ollama.temperature = .ok ()
  openaiUrl : checkUrl "reasoning.openai.base_url" s.reasoning.openai.baseUrl = .ok ()
  ollamaUrl : checkUrl "reasoning.ollama.base_url" s.reasoning.ollama.baseUrl = .ok ()
  networks : ∀ n ∈ s.chain.networks, n.Accepted
  defaultNetwork : Text.trim s.chain.defaultNetwork = "" ∨
    ∃ n ∈ s.chain.networks, n.name = Text.trim s.chain.defaultNetwork

theorem bind_eq_ok {c : Check} {next : Unit → Check} (h : c >>= next = .ok ()) :
    c = .ok () ∧ next () = .ok () := by
  cases c with
  | error f => cases h
  | ok _ => exact ⟨rfl, h⟩

theorem guard_eq_ok {broken : Bool} {message : String} {next : Unit → Check}
    (h : (if broken then refuse message >>= next else next ()) = .ok ()) :
    broken = false ∧ next () = .ok () := by
  split at h
  · cases h
  · rename_i hbroken
    exact ⟨Bool.eq_false_iff.mpr hbroken, h⟩

theorem forM_eq_ok {α : Type} {check : α → Check} {as : List α} (h : as.forM check = .ok ()) :
    ∀ a ∈ as, check a = .ok () := by
  induction as with
  | nil => exact fun a ha => absurd ha List.not_mem_nil
  | cons a as ih =>
    obtain ⟨hfirst, hrest⟩ := bind_eq_ok h
    exact List.forall_mem_cons.mpr ⟨hfirst, ih hrest⟩

theorem Network.accepted_of_check {n : Network} (h : checkNetwork n = .ok ()) : n.Accepted := by
  rw [checkNetwork] at h
  obtain ⟨hnamed, h⟩ := guard_eq_ok h
  obtain ⟨hkind, haddress⟩ := guard_eq_ok h
  exact ⟨hnamed, by simpa using hkind, haddress⟩

theorem named_of_checkDefaultNetwork {c : Chain} (h : checkDefaultNetwork c = .ok ()) :
    Text.trim c.defaultNetwork = "" ∨ ∃ n ∈ c.networks, n.name = Text.trim c.defaultNetwork := by
  rw [checkDefaultNetwork] at h
  split at h
  · rename_i hnamed
    simpa using hnamed
  · cases h

theorem exists_of_isOk {ε α : Type} {x : Except ε α} (h : x.isOk = true) : ∃ a, x = .ok a := by
  cases x with
  | error f => cases h
  | ok a => exact ⟨a, rfl⟩

theorem validate_of_isOk {s : Settings} (h : s.validate.isOk = true) : s.validate = .ok () := by
  obtain ⟨⟨⟩, hvalid⟩ := exists_of_isOk h
  exact hvalid

/-- **An accepted configuration satisfies all rules.** -/
theorem accepted_of_validate {s : Settings} (h : s.validate = .ok ()) : s.Accepted := by
  rw [validate] at h
  obtain ⟨hprovider, h⟩ := guard_eq_ok h
  obtain ⟨hdriver, h⟩ := guard_eq_ok h
  obtain ⟨hopenai, h⟩ := bind_eq_ok h
  obtain ⟨hollama, h⟩ := bind_eq_ok h
  obtain ⟨hopenaiUrl, h⟩ := bind_eq_ok h
  obtain ⟨hollamaUrl, h⟩ := bind_eq_ok h
  obtain ⟨hnetworks, hdefault⟩ := bind_eq_ok h
  exact {
    provider := by simpa using hprovider
    driver := by simpa using hdriver
    openaiTemperature := hopenai
    ollamaTemperature := hollama
    openaiUrl := hopenaiUrl
    ollamaUrl := hollamaUrl
    networks := fun n hn => Network.accepted_of_check (forM_eq_ok hnetworks n hn)
    defaultNetwork := named_of_checkDefaultNetwork hdefault }

end ChainAgent.Settings
