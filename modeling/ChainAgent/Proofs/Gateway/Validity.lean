import ChainAgent.Proofs.Gateway.Issuing

/-! Accepted tokens.

An issuer stores digests, and prunes the expired ones whenever it issues or checks a token. Pruning
has no visible effect: every stored digest is that of an issued token (`History.issued_given`), and
an issued token is stored until it expires (`History.given_holds`). So a text is accepted exactly
when it was issued as a token and is not expired (`accepts_iff_issued`). -/
namespace ChainAgent.Gateway.Issuer

open Time (Span)

/-! ### One turn -/

section Turns

variable (i : Issuer) {now later : Span} {text token : String}

theorem holds_failed : (i.failed now).Holds later text ↔ i.Holds later text := by
  unfold failed Holds
  split <;> rfl

/-- A pruned digest is expired. -/
theorem holds_pruned (hle : now.nanos ≤ later.nanos) :
    (i.pruned now).Holds later text ↔ i.Holds later text := by
  constructor
  · rintro ⟨t, hmem, hlive⟩
    exact ⟨t, (i.mem_pruned.mp hmem).1, hlive⟩
  · rintro ⟨t, hmem, hlive⟩
    refine ⟨t, i.mem_pruned.mpr ⟨hmem, ?_⟩, hlive⟩
    omega

theorem holds_granted (hdigest : Digest.ofText token = Digest.ofText text) :
    (i.granted now token).Holds later text ↔ later.nanos - now.nanos < i.lifetime.nanos := by
  constructor
  · rintro ⟨t, hmem, hlive⟩
    obtain ⟨-, rfl⟩ | ⟨-, hother⟩ := i.mem_granted.mp hmem
    · exact hlive
    · exact absurd hdigest.symm hother
  · intro hlive
    exact ⟨now, i.mem_granted.mpr (.inl ⟨hdigest.symm, rfl⟩), hlive⟩

theorem holds_granted_other (hdigest : Digest.ofText token ≠ Digest.ofText text)
    (hle : now.nanos ≤ later.nanos) :
    (i.granted now token).Holds later text ↔ i.Holds later text := by
  constructor
  · rintro ⟨t, hmem, hlive⟩
    obtain ⟨hsame, -⟩ | ⟨⟨hmem, -⟩, -⟩ := i.mem_granted.mp hmem
    · exact absurd hsame.symm hdigest
    · exact ⟨t, hmem, hlive⟩
  · rintro ⟨t, hmem, hlive⟩
    refine ⟨t, i.mem_granted.mpr (.inr ⟨⟨hmem, ?_⟩, hdigest.symm⟩), hlive⟩
    omega

variable {i} in
/-- **A turn that does not issue a text as a token does not change whether it is accepted.** -/
theorem Turn.holds_iff {a : Option Attempt} {next : Issuer} (h : i.Turn now a next)
    (hle : now.nanos ≤ later.nanos)
    (hother : ∀ token, a = some ⟨now, .ok token⟩ → Digest.ofText token ≠ Digest.ofText text) :
    next.Holds later text ↔ i.Holds later text := by
  cases h with
  | lockedOut _ => rfl
  | passed => rfl
  | failed _ => exact i.holds_failed
  | checked => exact i.holds_pruned hle
  | granted _ _ => exact i.holds_granted_other (hother _ rfl) hle

end Turns

/-! ### Histories -/

section Histories

variable {clients : List Settings.Client} {lifetimeSecs : Nat} {attempts : List Attempt}
  {last : Span} {i : Issuer}

/-- Every stored digest is that of a token issued then. -/
theorem History.issued_given (h : History clients lifetimeSecs attempts last i) {digest : String}
    {t : Span} (hmem : (digest, t) ∈ i.issued) :
    ∃ token, digest = Digest.ofText token ∧ ⟨t, .ok token⟩ ∈ attempts := by
  induction h with
  | start => exact absurd hmem List.not_mem_nil
  | @turn attempts last now i next a _ _ hturn ih =>
    have hold (hmem : (digest, t) ∈ i.issued) :
        ∃ token, digest = Digest.ofText token ∧ ⟨t, .ok token⟩ ∈ attempts ++ a.toList := by
      obtain ⟨token, hdigest, hgiven⟩ := ih hmem
      exact ⟨token, hdigest, List.mem_append_left _ hgiven⟩
    cases hturn with
    | lockedOut _ => exact hold hmem
    | passed => exact hold hmem
    | failed _ =>
      apply hold
      unfold Issuer.failed at hmem
      split at hmem <;> exact hmem
    | checked => exact hold (i.mem_pruned.mp hmem).1
    | @granted token _ _ =>
      obtain ⟨hdigest, rfl⟩ | ⟨⟨hmem, -⟩, -⟩ := i.mem_granted.mp hmem
      · exact ⟨token, hdigest, by simp⟩
      · exact hold hmem

/-- An issued token is stored until it expires: if its digest is issued again, then for longer. -/
theorem History.given_holds (h : History clients lifetimeSecs attempts last i) {t now : Span}
    {token : String} (hgiven : ⟨t, .ok token⟩ ∈ attempts) (hnow : last.nanos ≤ now.nanos)
    (hlive : now.nanos < t.nanos + (Span.ofSecs lifetimeSecs).nanos) : i.Holds now token := by
  induction h with
  | start => exact absurd hgiven List.not_mem_nil
  | @turn attempts last u i next a h hle hturn ih =>
    by_cases hother : ∃ given, a = some ⟨u, .ok given⟩ ∧ Digest.ofText given = Digest.ofText token
    · obtain ⟨given, rfl, hdigest⟩ := hother
      cases hturn with
      | granted _ _ =>
        -- Given then or before, its time is over no sooner than that of a token given then.
        have ht : t.nanos ≤ u.nanos := by
          obtain hold | hnew := List.mem_append.mp hgiven
          · exact Nat.le_trans (h.instant_le _ hold) hle
          · cases List.mem_singleton.mp hnew
            exact Nat.le_refl _
        rw [i.holds_granted hdigest, h.lifetime]
        omega
    · have hold : ⟨t, .ok token⟩ ∈ attempts := by
        obtain hold | hnew := List.mem_append.mp hgiven
        · exact hold
        · cases hturn with
          | granted _ _ =>
            cases List.mem_singleton.mp hnew
            exact absurd ⟨token, rfl, rfl⟩ hother
          | _ => simp at hnew
      rw [hturn.holds_iff hnow fun given hgives hdigest => hother ⟨given, hgives, hdigest⟩]
      exact ih hold (Nat.le_trans hle hnow)

/-- The texts that an issuer accepts after a history, among those that share no digest with another
token. -/
theorem History.accepts_iff (h : History clients lifetimeSecs attempts last i) {now : Span}
    {text : String} (hnow : last.nanos ≤ now.nanos)
    (hdigests : ∀ t token, ⟨t, .ok token⟩ ∈ attempts →
      Digest.ofText token = Digest.ofText text → token = text) :
    (i.accepts now text).1 = true ↔
      ∃ t, ⟨t, .ok text⟩ ∈ attempts ∧ now.nanos < t.nanos + (Span.ofSecs lifetimeSecs).nanos := by
  rw [Issuer.accepts_iff]
  constructor
  · rintro ⟨-, t, hmem, hlive⟩
    obtain ⟨token, hdigest, hgiven⟩ := h.issued_given hmem
    obtain rfl := hdigests t token hgiven hdigest.symm
    have ht : t.nanos ≤ last.nanos := h.instant_le _ hgiven
    rw [h.lifetime] at hlive
    exact ⟨t, hgiven, by omega⟩
  · rintro ⟨t, hgiven, hlive⟩
    exact ⟨h.token_ne_empty hgiven, h.given_holds hgiven hnow hlive⟩

end Histories

/-! ### What is asked -/

/-- **Tokens are accepted until they expire.** After any requests in order, a text is accepted
exactly if it was issued as a token and is not expired; and any other request before makes no
difference to it, unless it is the one that issues the text. Texts here share no digest with a
different token. -/
theorem accepts_iff_issued (clients : List Settings.Client) (lifetimeSecs : Nat) (asks : List Ask)
    (now : Span) (text : String) (horder : InOrder (asks ++ [.check now text]))
    (hdigests : ∀ t token, ⟨t, .ok token⟩ ∈ (create clients lifetimeSecs).attempts asks →
      Digest.ofText token = Digest.ofText text → token = text) :
    let i := create clients lifetimeSecs
    (((i.after asks).accepts now text).1 = true ↔
      ∃ t, ⟨t, .ok text⟩ ∈ i.attempts asks ∧
        now.nanos < t.nanos + (Span.ofSecs lifetimeSecs).nanos) ∧
    ∀ ask, InOrder (asks ++ [ask, .check now text]) →
      (∀ token, (i.after asks).attempted ask = some ⟨ask.instant, .ok token⟩ →
        Digest.ofText token ≠ Digest.ofText text) →
      ((i.after (asks ++ [ask])).accepts now text).1 = ((i.after asks).accepts now text).1 := by
  intro i
  constructor
  · obtain ⟨hasks, -, hlater⟩ := List.pairwise_append.mp horder
    obtain ⟨last, hhistory, hlast⟩ := exists_history hasks
    have hnow := hlast now fun ask hask => hlater ask hask (.check now text) (by simp)
    exact hhistory.accepts_iff hnow hdigests
  · intro ask hask hother
    obtain ⟨-, hlast, -⟩ := List.pairwise_append.mp hask
    have hle : ask.instant.nanos ≤ now.nanos :=
      (List.pairwise_cons.mp hlast).1 (.check now text) (by simp)
    rw [Bool.eq_iff_iff, after_concat, Issuer.accepts_iff, Issuer.accepts_iff,
      ((i.after asks).asked_turn ask).holds_iff hle hother]

/-- A token with a lifetime of ten seconds, with a failure and another token after it, is accepted
until they are over. -/
theorem accepts_for_ten_seconds :
    let asks : List Ask := [.issue (.ofSecs 1) [7] "agent" "secret",
      .issue (.ofSecs 2) [8] "agent" "guess", .issue (.ofSecs 3) [9] "agent" "secret"]
    let i := (create [⟨"agent", "secret"⟩] 10).after asks
    (i.accepts ⟨10999999999⟩ "cp_07").1 = true ∧ (i.accepts (.ofSecs 11) "cp_07").1 = false := by
  intro asks i
  have hattempts : (create [⟨"agent", "secret"⟩] 10).attempts asks =
      [⟨.ofSecs 1, .ok "cp_07"⟩, ⟨.ofSecs 2, .error .invalidCredentials⟩,
        ⟨.ofSecs 3, .ok "cp_09"⟩] := rfl
  have hdigests : ∀ t token,
      ⟨t, .ok token⟩ ∈ (create [⟨"agent", "secret"⟩] 10).attempts asks →
        Digest.ofText token = Digest.ofText "cp_07" → token = "cp_07" := by
    intro t token hgiven hdigest
    have hother : Digest.ofText "cp_09" ≠ Digest.ofText "cp_07" := by decide +kernel
    rw [hattempts] at hgiven
    obtain ⟨-, rfl⟩ | ⟨-, rfl⟩ :
        (t = .ofSecs 1 ∧ token = "cp_07") ∨ (t = .ofSecs 3 ∧ token = "cp_09") := by
      simpa using hgiven
    · rfl
    · exact absurd hdigest hother
  constructor
  · refine (accepts_iff_issued _ 10 asks ⟨10999999999⟩ "cp_07" ?_ hdigests).1.mpr ?_
    · simp [asks, InOrder, Ask.instant, Span.ofSecs]
    · exact ⟨.ofSecs 1, hattempts ▸ List.mem_cons_self, by decide⟩
  · rw [← Bool.not_eq_true, (accepts_iff_issued _ 10 asks (.ofSecs 11) "cp_07" ?_ hdigests).1]
    · rintro ⟨t, hgiven, hlive⟩
      rw [hattempts] at hgiven
      obtain rfl : t = .ofSecs 1 := by simpa using hgiven
      exact absurd hlive (by decide)
    · simp [asks, InOrder, Ask.instant, Span.ofSecs]

end ChainAgent.Gateway.Issuer
