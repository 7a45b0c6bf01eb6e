import ChainAgent.Proofs.Settings.Loading
import ChainAgent.Proofs.Text.Blank
import ChainAgent.Reasoning.Backend

/-! The API key that is sent.

The key can be in the file, in an environment variable that the file names and in the general
variable `OPENAI_API_KEY`. Loading a file without a key fills in the general key before the named
variable is read, so of two keys that differ the general one is sent (`key_of_loaded`). Otherwise
the order is the documented one. -/
namespace ChainAgent.Reasoning

/-- A trimmed value that is not blank. -/
def said (value : Option String) : Option String := (value.map Text.trim).filter (!·.isEmpty)

/-- The trimmed value of an environment variable, if it is not blank. -/
def saidBy (w : World) (name : String) : Option String :=
  if name.isEmpty then none else said (w.valueOf name)

def generalName : String := "OPENAI_API_KEY"

/-- The key in the documented order: that of the file, that of the variable it names, the general
one. -/
def documentedKey (w : World) (o : Settings.OpenAi) : Option String :=
  said o.apiKey <|> saidBy w o.apiKeyEnv <|> saidBy w generalName

/-! ### What is said -/

theorem said_eq_some {value : Option String} {key : String} (h : said value = some key) :
    key.isEmpty = false ∧ Text.trim key = key := by
  obtain ⟨htrim, hsome⟩ := Option.filter_eq_some_iff.mp h
  obtain ⟨raw, -, rfl⟩ := Option.map_eq_some_iff.mp htrim
  exact ⟨by simpa using hsome, Text.trim_trim raw⟩

theorem said_said (value : Option String) : said (said value) = said value := by
  cases h : said value with
  | none => rfl
  | some key =>
    obtain ⟨hsome, htrim⟩ := said_eq_some h
    rw [said, Option.map_some, htrim, Option.filter_some, hsome]
    rfl

/-- An empty value counts as none. -/
theorem said_nonempty? (value : Option String) : said (Settings.nonempty? value) = said value := by
  cases value with
  | none => rfl
  | some raw =>
    by_cases hraw : raw = ""
    · rw [hraw]
      decide
    · have hkept : Settings.nonempty? (some raw) = some raw := by
        simp [Settings.nonempty?, hraw]
      rw [hkept]

/-! ### The key of a configuration -/

theorem firstVariable_eq (w : World) (names : List String) :
    firstVariable World.host names w = (names.findSome? fun name => said (w.valueOf name), w) := by
  induction names with
  | nil => rfl
  | cons name names ih =>
    rw [firstVariable, bind_apply, World.environment_eq, List.findSome?_cons]
    dsimp only
    rw [← said]
    cases said (w.valueOf name) with
    | none => exact ih
    | some key => rfl

/-- The resolved key of a configuration is the documented one. -/
theorem resolveApiKey_eq (w : World) (o : Settings.OpenAi) :
    resolveApiKey World.host o w = (documentedKey w o, w) := by
  rw [resolveApiKey, documentedKey, ← said]
  cases said o.apiKey with
  | some key => rfl
  | none =>
    have hgeneral : generalName.isEmpty = false := by decide
    refine (firstVariable_eq w ([o.apiKeyEnv, generalName].filter (!·.isEmpty))).trans ?_
    rw [saidBy, saidBy, hgeneral]
    by_cases hnamed : o.apiKeyEnv.isEmpty
    · cases hkey : said (w.valueOf generalName) <;> simp [hnamed, hgeneral, hkey]
    · cases hfirst : said (w.valueOf o.apiKeyEnv) <;>
        cases hkey : said (w.valueOf generalName) <;> simp [hnamed, hgeneral, hfirst, hkey]

/-- Loading fills in the general key if the file has none. -/
theorem overridden_openai {w : World} (hunset : w.valueOf "CHAINPILOT_OPENAI_API_KEY" = none)
    (s : Settings) : (s.overridden w.changes).reasoning.openai =
      {s.reasoning.openai with
        apiKey := s.reasoning.openai.apiKey <|>
          Settings.nonempty? (w.valueOf generalName)} := by
  have hown : w.changes.get? "CHAINPILOT_OPENAI_API_KEY" = w.valueOf "CHAINPILOT_OPENAI_API_KEY" :=
    Settings.get?_changes w (by decide)
  have hgeneral : w.changes.get? generalName = w.valueOf generalName :=
    Settings.get?_changes w (by decide)
  rw [generalName] at hgeneral ⊢
  rw [Settings.overridden]
  simp only [hown, hunset, hgeneral]
  rfl

theorem said_documentedKey (w : World) (o : Settings.OpenAi) :
    said (documentedKey w o) = documentedKey w o := by
  have hfirst {a b : Option String} (ha : said a = a) (hb : said b = b) :
      said (a <|> b) = (a <|> b) := by
    cases a with
    | none => exact hb
    | some key => exact ha
  have hvariable (name : String) : said (saidBy w name) = saidBy w name := by
    unfold saidBy
    split
    · rfl
    · exact said_said _
  exact hfirst (said_said _) (hfirst (hvariable _) (hvariable _))

/-- The resolved key is sent to the configured server. -/
theorem authorization_of_createBackend {w w' : World} {s : Settings} {c : Chat}
    (hprovider : s.reasoning.provider = "openai")
    (h : createBackend World.host s w = (.ok (.chat c), w')) :
    c.authorization = (documentedKey w s.reasoning.openai).map ("Bearer " ++ ·) := by
  have hsent (o : Settings.OpenAi) : (Chat.ofOpenAi o (documentedKey w o)).authorization =
      (documentedKey w o).map ("Bearer " ++ ·) := by
    show (said (documentedKey w o)).map _ = _
    rw [said_documentedKey]
  simp only [createBackend, hprovider, bind_apply, resolveApiKey_eq] at h
  split at h
  · cases h
  · cases h
    exact hsent _

/-- The order of the keys after a file has been loaded. -/
theorem documentedKey_loaded {w : World} (hunset : w.valueOf "CHAINPILOT_OPENAI_API_KEY" = none)
    (s : Settings) : documentedKey w (s.overridden w.changes).reasoning.openai =
      (said s.reasoning.openai.apiKey <|>
        (if s.reasoning.openai.apiKey.isNone then saidBy w generalName else none) <|>
          saidBy w s.reasoning.openai.apiKeyEnv <|> saidBy w generalName) := by
  have hgeneral : saidBy w generalName = said (w.valueOf generalName) := if_neg (by decide)
  rw [overridden_openai hunset, documentedKey]
  cases s.reasoning.openai.apiKey with
  | none =>
    have hkey : said (none <|> Settings.nonempty? (w.valueOf generalName)) =
        saidBy w generalName := by
      rw [hgeneral]
      exact said_nonempty? _
    rw [hkey]
    rfl
  | some raw =>
    cases h : said (some raw) <;> simp [h]

/-- **Without a key in the file the general key comes before the named one.** -/
theorem key_of_loaded {w w' : World} {path text : String} {file s : Settings}
    (hread : World.host.readText path w = (.ok text, w)) (hfile : Settings.parse text = some file)
    (hload : Settings.loadFrom World.host path w = (.ok s, w'))
    (hunset : w.valueOf "CHAINPILOT_OPENAI_API_KEY" = none) :
    ∃ key, resolveApiKey World.host s.reasoning.openai w' = (key, w') ∧
      (∀ c w'', s.reasoning.provider = "openai" →
        createBackend World.host s w' = (.ok (.chat c), w'') →
          c.authorization = key.map ("Bearer " ++ ·)) ∧
      key = (said file.reasoning.openai.apiKey <|>
        (if file.reasoning.openai.apiKey.isNone then saidBy w generalName else none) <|>
          saidBy w file.reasoning.openai.apiKeyEnv <|> saidBy w generalName) ∧
      (key = documentedKey w file.reasoning.openai ↔
        ¬ (file.reasoning.openai.apiKey = none ∧ ∃ general named, general ≠ named ∧
          saidBy w generalName = some general ∧
            saidBy w file.reasoning.openai.apiKeyEnv = some named)) := by
  obtain ⟨rfl, text', file', hread', hfile', hs, -⟩ := Settings.loadFrom_eq_ok.mp hload
  cases hread.symm.trans hread'
  cases hfile.symm.trans hfile'
  have hresolve := resolveApiKey_eq w' s.reasoning.openai
  have hkey : documentedKey w' s.reasoning.openai = _ :=
    hs ▸ documentedKey_loaded hunset (file.placed path)
  refine ⟨_, hresolve, ?_, hkey, ?_⟩
  · intro c w'' hprovider hbackend
    exact authorization_of_createBackend hprovider hbackend
  · rw [hkey, documentedKey]
    show (said file.reasoning.openai.apiKey <|>
        (if file.reasoning.openai.apiKey.isNone then saidBy w' generalName else none) <|>
          saidBy w' file.reasoning.openai.apiKeyEnv <|> saidBy w' generalName) = _ ↔ _
    cases file.reasoning.openai.apiKey with
    | some raw => simp
    | none =>
      cases hgeneral : saidBy w' generalName <;>
        cases hnamed : saidBy w' file.reasoning.openai.apiKeyEnv <;> simp [said]

/-- Both variables have a key, and the one that the file names is not sent. -/
theorem key_of_loaded_named :
    ∃ text file s, ∃ w w' : World, World.host.readText "config.toml" w = (.ok text, w) ∧
      Settings.parse text = some file ∧
      Settings.loadFrom World.host "config.toml" w = (.ok s, w') ∧
      w.valueOf "CHAINPILOT_OPENAI_API_KEY" = none ∧
      resolveApiKey World.host s.reasoning.openai w' = (some "sk-generic", w') ∧
      documentedKey w file.reasoning.openai = some "sk-mine" := by
  let text := "[reasoning.openai]\napi_key_env = \"MY_KEY\"\n"
  let w := World.configured text [("MY_KEY", "sk-mine"), ("OPENAI_API_KEY", "sk-generic")]
  have hread := World.readText_configured text
    [("MY_KEY", "sk-mine"), ("OPENAI_API_KEY", "sk-generic")]
  have hparse : (Settings.parse text).any (fun file =>
      file.reasoning.openai.apiKey.isNone && file.reasoning.openai.apiKeyEnv == "MY_KEY" &&
        ((file.placed "config.toml").overridden w.changes).validate.isOk) = true := by
    decide +kernel
  obtain ⟨file, hfile, hsays⟩ := (Option.any_eq_true _ _).mp hparse
  simp only [Bool.and_eq_true, Option.isNone_iff_eq_none, beq_iff_eq] at hsays
  obtain ⟨⟨hkey, hnamed⟩, hvalid⟩ := hsays
  have hload := Settings.loadFrom_of_isOk hread hfile hvalid
  have hunset : w.valueOf "CHAINPILOT_OPENAI_API_KEY" = none := by decide +kernel
  have hmine : saidBy w "MY_KEY" = some "sk-mine" := by decide +kernel
  have hgeneral : saidBy w generalName = some "sk-generic" := by decide +kernel
  obtain ⟨key, hresolve, -, hsent, -⟩ := key_of_loaded hread hfile hload hunset
  refine ⟨text, file, _, w, w, hread, hfile, hload, hunset, ?_, ?_⟩
  · rw [hresolve, hsent, hkey, hnamed, hmine, hgeneral]
    rfl
  · rw [documentedKey, hkey, hnamed, hmine]
    rfl

end ChainAgent.Reasoning
