import ChainAgent.Reasoning.Script
import ChainAgent.Proofs.Host.World
import ChainAgent.Proofs.Reasoning.Reply

/-! The output of a script.

An error object is an object with one member `error` that is a string and not blank. The decoder
also accepts an array of one such string as an error; every other output is a payload
(`generate_outcomes`). -/
namespace ChainAgent.Reasoning.Script

open Json (IsDocument Node Shape named readDocument)
open Text (saysNothing)

/-- A JSON object with one `error` that is not blank; it may have other members. -/
def Blames (output said : String) : Prop :=
  ∃ ms, IsDocument output (.object ms) ∧ (∀ m ∈ ms, m.1.isSome) ∧
    named "error" ms = [.text (some said)] ∧ saysNothing said = false

/-- A JSON array of one string that is not blank. -/
def Lists (output said : String) : Prop :=
  IsDocument output (.array [.text (some said)]) ∧ saysNothing said = false

/-! ### What is decoded -/

theorem check_required_string_iff {name : String} {n : Node} :
    (Json.required name Json.string).check n = .ok () ↔ ∃ said, n = .text (some said) := by
  constructor
  · intro h
    unfold Json.required Json.string at h
    dsimp only at h
    split at h
    · exact ⟨_, rfl⟩
    · cases h
  · rintro ⟨said, rfl⟩
    rfl

theorem find?_error (key : String) : failureShape.fields.find? (·.name == key) =
    if key = "error" then some (Json.required "error" Json.string) else none := by
  by_cases h : key = "error"
  · subst h
    rfl
  · rw [if_neg h]
    have hname : ("error" == key) = false := beq_eq_false_iff_ne.mpr (Ne.symm h)
    simp only [failureShape, List.find?_cons, Json.required, hname, List.find?_nil]

theorem known_eq (ms : List (Option String × Node)) :
    failureShape.known ms = (named "error" ms).map fun n => ("error", n) := by
  induction ms with
  | nil => rfl
  | cons m ms ih =>
    obtain ⟨_ | key, n⟩ := m
    · rw [Json.named_cons, if_neg nofun, ← ih]
      rfl
    · rw [Shape.known_cons, find?_error, Json.named_cons, ih]
      by_cases hkey : key = "error"
      · subst hkey
        rw [if_pos rfl, if_pos rfl]
        rfl
      · rw [if_neg hkey, if_neg fun h => hkey (Option.some.inj h)]

theorem allows_iff {m : Option String × Node} : failureShape.Allows m ↔
    m.1.isSome ∧ (m.1 = some "error" → ∃ said, m.2 = .text (some said)) ∧
      (m.1 ≠ some "error" → m.2.isBroken = false) := by
  obtain ⟨_ | key, n⟩ := m
  · exact iff_of_false (fun h => by obtain ⟨_, hkey, -⟩ := h; cases hkey) fun h => Bool.noConfusion h.1
  · simp only [Shape.Allows, Option.some.injEq, exists_eq_left', find?_error, Option.isSome_some, true_and]
    by_cases hkey : key = "error"
    · subst hkey
      simpa using check_required_string_iff
    · simp [hkey]

theorem memberFields_error_iff {ms : List (Option String × Node)} {found : List (String × Node)}
    (hsound : ∀ m ∈ ms, m.2.isBroken = false) : Json.memberFields failureShape [] ms = .ok found ↔
      (∀ m ∈ ms, m.1.isSome) ∧ (∀ n ∈ named "error" ms, ∃ said, n = .text (some said)) ∧
        (named "error" ms).length ≤ 1 ∧ found = (named "error" ms).map fun n => ("error", n) := by
  have hnames (ns : List Node) : ((ns.map fun n => ("error", n)).map (·.1)).Nodup ↔ ns.length ≤ 1 := by
    rw [List.map_map]
    show (ns.map fun _ => "error").Nodup ↔ _
    rw [List.map_const', List.nodup_replicate]
  rw [Json.memberFields_eq_ok_iff (by simp), List.nil_append, known_eq]
  constructor
  · rintro ⟨hallows, hnodup, rfl⟩
    exact ⟨fun m hm => (allows_iff.mp (hallows m hm)).1,
      fun n hn => (allows_iff.mp (hallows _ (Json.mem_named.mp hn))).2.1 rfl, (hnames _).mp hnodup, rfl⟩
  · rintro ⟨hwhole, htexts, hone, rfl⟩
    exact ⟨fun m hm => allows_iff.mpr ⟨hwhole m hm,
      fun hname => htexts m.2 (Json.mem_named.mpr (hname ▸ hm)), fun _ => hsound m hm⟩,
      (hnames _).mpr hone, rfl⟩

theorem failure_object_iff {ms : List (Option String × Node)} {said : String}
    (hsound : ∀ m ∈ ms, m.2.isBroken = false) : failure (.object ms) = .ok said ↔
      (∀ m ∈ ms, m.1.isSome) ∧ named "error" ms = [.text (some said)] := by
  constructor
  · intro h
    cases hfound : Json.memberFields failureShape [] ms with
    | error f =>
      simp only [failure, Shape.scan, hfound] at h
      cases h
    | ok found =>
      simp only [failure, Shape.scan, hfound] at h
      obtain ⟨hwhole, htexts, hone, rfl⟩ := (memberFields_error_iff hsound).mp hfound
      refine ⟨hwhole, ?_⟩
      obtain hzero | hone := Nat.le_one_iff_eq_zero_or_eq_one.mp hone
      · rw [List.length_eq_zero_iff.mp hzero] at h
        cases h
      · obtain ⟨n, hnamed⟩ := List.length_eq_one_iff.mp hone
        obtain ⟨said', rfl⟩ := htexts n (by rw [hnamed]; exact List.mem_singleton_self n)
        rw [hnamed] at h ⊢
        cases h
        rfl
  · rintro ⟨hwhole, hnamed⟩
    have hfound : Json.memberFields failureShape [] ms = .ok [("error", .text (some said))] :=
      (memberFields_error_iff hsound).mpr
        ⟨hwhole, by simp [hnamed], by simp [hnamed], by rw [hnamed]; rfl⟩
    simp only [failure, Shape.scan, hfound]
    rfl

theorem failure_array_iff {items : List Node} {said : String} :
    failure (.array items) = .ok said ↔ items = [.text (some said)] := by
  constructor
  · intro h
    cases items with
    | nil => cases h
    | cons n rest =>
      cases hcheck : (Json.required "error" Json.string).check n with
      | error f =>
        simp only [failure, Shape.scan, failureShape, Json.itemFields, hcheck] at h
        cases h
      | ok _ =>
        obtain ⟨said', rfl⟩ := check_required_string_iff.mp hcheck
        cases rest with
        | nil =>
          cases h
          rfl
        | cons m rest => cases h
  · rintro rfl
    rfl

/-- A node that is neither is no error. -/
theorem failure_eq_ok_cases {n : Node} {said : String} (h : failure n = .ok said) :
    (∃ ms, n = .object ms) ∨ ∃ items, n = .array items := by
  cases n with
  | object ms => exact .inl ⟨ms, rfl⟩
  | array items => exact .inr ⟨items, rfl⟩
  | null | bool | number | text | broken => cases h

/-! ### What an output says -/

theorem decodeText_failure_iff {output said : String} :
    Json.decodeText failure (Text.trim output) = .ok said ↔
      ∃ n, IsDocument output n ∧ failure n = .ok said := by
  simp only [Json.decodeText_eq_ok_iff, Json.readDocument_trim_eq_iff]

/-- An output is an error if it is an error object, or such an array. -/
theorem failure?_eq_some_iff {output said : String} :
    failure? output = some said ↔ Blames output said ∨ Lists output said := by
  have hdecoded : failure? output = some said ↔
      Json.decodeText failure (Text.trim output) = .ok said ∧ saysNothing said = false := by
    rw [failure?, Option.filter_eq_some_iff, Bool.not_eq_true']
    cases Json.decodeText failure (Text.trim output) <;> simp [Except.toOption]
  rw [hdecoded, decodeText_failure_iff]
  constructor
  · rintro ⟨⟨n, hdocument, hsaid⟩, hsays⟩
    obtain ⟨ms, rfl⟩ | ⟨items, rfl⟩ := failure_eq_ok_cases hsaid
    · obtain ⟨hwhole, hnamed⟩ := (failure_object_iff hdocument.isBroken_eq_false).mp hsaid
      exact .inl ⟨ms, hdocument, hwhole, hnamed, hsays⟩
    · obtain rfl := failure_array_iff.mp hsaid
      exact .inr ⟨hdocument, hsays⟩
  · rintro (⟨ms, hdocument, hwhole, hnamed, hsays⟩ | ⟨hdocument, hsays⟩)
    · exact ⟨⟨_, hdocument, (failure_object_iff hdocument.isBroken_eq_false).mpr ⟨hwhole, hnamed⟩⟩, hsays⟩
    · exact ⟨⟨_, hdocument, failure_array_iff.mpr rfl⟩, hsays⟩

/-- No output is both. -/
theorem Lists.not_blames {output said : String} (h : Lists output said) (said' : String) :
    ¬ Blames output said' := by
  rintro ⟨ms, hobject, -⟩
  cases hobject.unique h.1

/-! ### What a run comes to -/

/-- The child process of a script. -/
def child (s : Script) (input : String) : Host.Child := ⟨s.interpreter, s.path, s.directory, input⟩

theorem generate_apply {σ : Type} (h : Host (StateM σ)) (s : Script) (r : Request) (w : σ) :
    generate h s r w =
      match h.run (s.child (payload r (h.now w).1)) (h.now w).2 with
      | (.error f, w') => (.error (.process
          ("failed to spawn " ++ s.interpreter ++ " " ++ s.path ++ ": " ++ f.message)), w')
      | (.ok c, w') => (concluded c, w') := by
  rw [generate, bind_apply, bind_apply, child]
  rcases h.run ⟨s.interpreter, s.path, s.directory, payload r (h.now w).1⟩ (h.now w).2 with
    ⟨_ | _, _⟩ <;> rfl

theorem concluded_exited {c : Host.Completion} (hended : c.ending = .exited 0) :
    concluded c = replyOf (Text.decodeLossy c.output) := by
  rw [concluded, hended, Host.Ending.isSuccess, beq_self_eq_true, if_pos rfl]

theorem generate_eq {σ : Type} (h : Host (StateM σ)) (s : Script) (r : Request) (w : σ)
    {c : Host.Completion}
    (hrun : (h.run ⟨s.interpreter, s.path, s.directory, payload r (h.now w).1⟩ (h.now w).2).1 = .ok c)
    (hended : c.ending = .exited 0) :
    (generate h s r w).1 = replyOf (Text.decodeLossy c.output) := by
  rw [generate_apply, child]
  rcases hresult : h.run ⟨s.interpreter, s.path, s.directory, payload r (h.now w).1⟩ (h.now w).2 with
    ⟨result, w'⟩
  rw [hresult] at hrun
  obtain rfl : result = .ok c := hrun
  exact concluded_exited hended

theorem replyOf_eq_process_iff {output message : String} : replyOf output = .error (.process message) ↔
    ∃ said, (Blames output said ∨ Lists output said) ∧ message = Text.sanitize said := by
  simp only [← failure?_eq_some_iff]
  unfold replyOf
  cases failure? output with
  | some said => simp [eq_comm]
  | none =>
    refine iff_of_false (fun h => ?_) nofun
    obtain ⟨-, hempty, -⟩ := parseReply_classes output
    cases hempty _ h

theorem replyOf_eq_parseReply {output : String} (h : ∀ said, ¬ Blames output said ∧ ¬ Lists output said) :
    replyOf output = parseReply output := by
  have hnone : failure? output = none :=
    Option.eq_none_iff_forall_ne_some.mpr fun said hsaid =>
      (failure?_eq_some_iff.mp hsaid).elim (h said).1 (h said).2
  rw [replyOf, hnone]

/-- **A script that exits with status 0 has failed if its output is an error object or such an
array, and otherwise its output is a payload.** So it fails only for an error object, unless the
output is such an array. -/
theorem generate_outcomes {σ : Type} (h : Host (StateM σ)) (s : Script) (r : Request) (w : σ)
    {c : Host.Completion}
    (hrun : (h.run ⟨s.interpreter, s.path, s.directory, payload r (h.now w).1⟩ (h.now w).2).1 = .ok c)
    (hended : c.ending = .exited 0) :
    let output := Text.decodeLossy c.output
    let result := (generate h s r w).1
    (∀ message, result = .error (.process message) ↔
      ∃ said, (Blames output said ∨ Lists output said) ∧ message = Text.sanitize said) ∧
    ((∀ said, ¬ Blames output said ∧ ¬ Lists output said) → result = parseReply output) ∧
    ((((∃ message, result = .error (.process message)) ↔ ∃ said, Blames output said) ∧
      ((∀ said, ¬ Blames output said) → result = parseReply output)) ↔ ∀ said, ¬ Lists output said) := by
  intro output result
  have hresult : result = replyOf output := generate_eq h s r w hrun hended
  rw [hresult]
  refine ⟨fun _ => replyOf_eq_process_iff, replyOf_eq_parseReply, ?_⟩
  constructor
  · rintro ⟨hblames, -⟩ said hlists
    obtain ⟨said', hsaid⟩ := hblames.mp ⟨_, replyOf_eq_process_iff.mpr ⟨said, .inr hlists, rfl⟩⟩
    exact hlists.not_blames said' hsaid
  · intro hlists
    refine ⟨⟨?_, ?_⟩, fun hblames => replyOf_eq_parseReply fun said => ⟨hblames said, hlists said⟩⟩
    · rintro ⟨message, hmessage⟩
      obtain ⟨said, hsaid, -⟩ := replyOf_eq_process_iff.mp hmessage
      exact ⟨said, hsaid.resolve_right (hlists said)⟩
    · rintro ⟨said, hsaid⟩
      exact ⟨_, replyOf_eq_process_iff.mpr ⟨said, .inl hsaid, rfl⟩⟩

/-- An array of one string is decoded as an error, and is no error object. -/
theorem generate_outcomes_listed :
    let c : Host.Completion := ⟨.exited 0, "[\"err\"]".toUTF8, .empty⟩
    let h : Host (StateM World) := {World.host with run := fun _ => pure (.ok c)}
    let result := (generate h ⟨"python3", "reply.py", "/", .ofSecs 5⟩ ⟨"hi", "", "", [], []⟩ World.bare).1
    result = .error (.process (Text.sanitize "err")) ∧
      ∀ said, ¬ Blames (Text.decodeLossy c.output) said := by
  intro c h result
  have houtput : Text.decodeLossy c.output = "[\"err\"]" := by decide +kernel
  have hlists : Lists (Text.decodeLossy c.output) "err" := by
    rw [houtput]
    exact ⟨⟨[], _, [], rfl, rfl, .array (@Json.Writes.lastItem _ [] _ [] rfl
      (.text (Json.writesText_plain (by simp))) rfl), by decide⟩, by decide⟩
  obtain ⟨hprocess, -, -⟩ := generate_outcomes h ⟨"python3", "reply.py", "/", .ofSecs 5⟩
    ⟨"hi", "", "", [], []⟩ World.bare (c := c) rfl rfl
  exact ⟨(hprocess _).mpr ⟨"err", .inr hlists, rfl⟩, hlists.not_blames⟩

end ChainAgent.Reasoning.Script
