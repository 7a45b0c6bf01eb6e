import ChainAgent.Proofs.Gateway.Lockout

/-! How long a locked-out client has to wait.

The answer `LockedOut` has whole seconds, rounded down, and at least one. Waiting that long suffices
when the lockout ends on a whole second from the attempt, or within the second that is always told;
otherwise an attempt exactly then comes too early and is locked out again (`waiting_suffices_iff`).
One second more always suffices. -/
namespace ChainAgent.Gateway.Issuer

open Time (Span)

section Histories

variable {clients : List Settings.Client} {lifetimeSecs : Nat} {attempts : List Attempt}
  {last : Span} {i : Issuer}

/-- **A lockout ends five minutes after the failure that completed a streak.** -/
theorem History.lockout_of_locked (h : History clients lifetimeSecs attempts last i) {now : Span}
    (hlocked : i.IsLocked now) :
    ∃ before a later, attempts = before ++ a :: later ∧ Completes before a ∧
      i.lockedUntil = some (a.instant + lockoutTime) := by
  obtain ⟨limit, hlimit, hlt⟩ := hlocked
  -- The last instant at which everyone is locked out still belongs to the lockout of a streak.
  have hbefore : i.IsLocked ⟨limit.nanos - 1⟩ := ⟨limit, hlimit, Nat.sub_one_lt_of_lt hlt⟩
  obtain ⟨before, a, later, hsplit, hcompletes, hlive⟩ := h.isLocked_iff.mp hbefore
  have hover : ¬ i.IsLocked limit := by
    rintro ⟨limit', hlimit', hlt'⟩
    rw [hlimit] at hlimit'
    cases hlimit'
    exact absurd hlt' (Nat.lt_irrefl _)
  have hend : ¬ limit.nanos < (a.instant + lockoutTime).nanos := fun hlate =>
    hover (h.isLocked_iff.mpr ⟨before, a, later, hsplit, hcompletes, hlate⟩)
  refine ⟨before, a, later, hsplit, hcompletes, ?_⟩
  have hsame : limit.nanos = (a.instant + lockoutTime).nanos := by
    dsimp only at hlive
    omega
  rw [hlimit, Option.some_inj]
  cases limit
  exact congrArg Span.mk hsame

end Histories

/-! ### What is told -/

section Telling

variable (i : Issuer) {now start : Span} {s : Nat}

/-- A locked-out attempt is told the remaining whole seconds, at least one, and changes nothing. -/
theorem eq_told_of_lockedOut {token id secret : String}
    (h : (i.issue now token id secret).1 = .error (.lockedOut s)) :
    i.IsLocked now ∧ s = max (i.remaining now).secs 1 ∧ (i.issue now token id secret).2 = i := by
  have hlocked : i.IsLocked now := i.issue_lockedOut_iff.mp ⟨s, h⟩
  rw [i.issue_locked hlocked] at h ⊢
  cases h
  exact ⟨hlocked, rfl, rfl⟩

theorem remaining_of_lockedUntil {limit : Span} (h : i.lockedUntil = some limit) :
    (i.remaining now).nanos = limit.nanos - now.nanos := by
  rw [remaining, h]
  rfl

theorem isLocked_iff_of_lockedUntil {limit : Span} (h : i.lockedUntil = some limit) :
    i.IsLocked now ↔ now.nanos < limit.nanos := by
  simp [IsLocked, h]

/-- Waiting the whole seconds suffices if nothing but them remains, or less than one. -/
theorem told_suffices_iff (hlimit : i.lockedUntil = some (start + lockoutTime))
    (hstart : start.nanos ≤ now.nanos) (hlocked : i.IsLocked now)
    (hs : s = max (i.remaining now).secs 1) :
    ¬ i.IsLocked (now + .ofSecs s) ↔
      (∃ k, now = start + .ofSecs k) ∨ (start + .ofSecs 299).nanos < now.nanos := by
  have hleft : now.nanos < start.nanos + 300 * 1000000000 :=
    (i.isLocked_iff_of_lockedUntil hlimit).mp hlocked
  have hrest : (i.remaining now).nanos = start.nanos + 300 * 1000000000 - now.nanos :=
    i.remaining_of_lockedUntil hlimit
  have hback : i.IsLocked (now + .ofSecs s) ↔
      now.nanos + s * 1000000000 < start.nanos + 300 * 1000000000 :=
    i.isLocked_iff_of_lockedUntil hlimit
  have hwhole : (∃ k, now = start + .ofSecs k) ↔
      1000000000 ∣ start.nanos + 300 * 1000000000 - now.nanos := by
    constructor
    · rintro ⟨k, rfl⟩
      have hnanos : (start + Span.ofSecs k).nanos = start.nanos + k * 1000000000 := rfl
      rw [hnanos]
      exact ⟨300 - k, by omega⟩
    · rintro ⟨k, hk⟩
      refine ⟨300 - k, ?_⟩
      have hnanos : now.nanos = start.nanos + (300 - k) * 1000000000 := by omega
      cases now
      exact congrArg Span.mk hnanos
  have hlast : (start + Span.ofSecs 299).nanos = start.nanos + 299 * 1000000000 := rfl
  have hsecs : s = max ((start.nanos + 300 * 1000000000 - now.nanos) / 1000000000) 1 := by
    rw [hs, Span.secs, hrest]
  rw [hback, hwhole, hlast]
  omega

/-- Waiting one second more always suffices. -/
theorem told_and_one_suffices (hlimit : i.lockedUntil = some (start + lockoutTime))
    (hs : s = max (i.remaining now).secs 1) : ¬ i.IsLocked (now + .ofSecs (s + 1)) := by
  have hrest : (i.remaining now).nanos = (start + lockoutTime).nanos - now.nanos :=
    i.remaining_of_lockedUntil hlimit
  have hback : i.IsLocked (now + .ofSecs (s + 1)) ↔
      now.nanos + (s + 1) * 1000000000 < (start + lockoutTime).nanos :=
    i.isLocked_iff_of_lockedUntil hlimit
  have hsecs : s = max (((start + lockoutTime).nanos - now.nanos) / 1000000000) 1 := by
    rw [hs, Span.secs, hrest]
  rw [hback]
  omega

end Telling

/-! ### What is asked -/

/-- **Waiting as long as told suffices exactly if a whole number of seconds has passed since the
failure that locked everyone out, or less than one second is left.** The told time is at least one
second and at most five minutes, and one second more always suffices. -/
theorem waiting_suffices_iff (clients : List Settings.Client) (lifetimeSecs : Nat) (asks : List Ask)
    (horder : InOrder asks) {now : Span} (hnow : ∀ ask ∈ asks, ask.instant.nanos ≤ now.nanos)
    {token id secret : String} {s : Nat}
    (htold : (((create clients lifetimeSecs).after asks).issue now token id secret).1 =
      .error (.lockedOut s)) :
    let made := (create clients lifetimeSecs).attempts asks
    let left := (((create clients lifetimeSecs).after asks).issue now token id secret).2
    1 ≤ s ∧ s ≤ 300 ∧
    ∃ before a later, made = before ++ a :: later ∧ Completes before a ∧
      a.instant.nanos ≤ now.nanos ∧ now.nanos < (a.instant + .ofSecs 300).nanos ∧
      ∀ token id secret,
        ((∀ n, (left.issue (now + .ofSecs s) token id secret).1 ≠ .error (.lockedOut n)) ↔
          (∃ k, now = a.instant + .ofSecs k) ∨ (a.instant + .ofSecs 299).nanos < now.nanos) ∧
        ∀ n, (left.issue (now + .ofSecs (s + 1)) token id secret).1 ≠ .error (.lockedOut n) := by
  intro made left
  obtain ⟨last, hhistory, hlast⟩ : ∃ last, History clients lifetimeSecs made last _ ∧ _ :=
    exists_history horder
  obtain ⟨hlocked, hs, hunchanged⟩ := eq_told_of_lockedOut _ htold
  have hleft : left = (create clients lifetimeSecs).after asks := hunchanged
  obtain ⟨before, a, later, hsplit, hcompletes, hlimit⟩ := hhistory.lockout_of_locked hlocked
  have hstart : a.instant.nanos ≤ now.nanos :=
    Nat.le_trans (hhistory.instant_le a (by simp [hsplit])) (hlast now hnow)
  have hlive := (isLocked_iff_of_lockedUntil _ hlimit).mp hlocked
  have hrest : (((create clients lifetimeSecs).after asks).remaining now).nanos =
      (a.instant + lockoutTime).nanos - now.nanos := remaining_of_lockedUntil _ hlimit
  have hlate : (a.instant + lockoutTime).nanos = a.instant.nanos + 300 * 1000000000 := rfl
  refine ⟨by omega, ?_, before, a, later, hsplit, hcompletes, hstart, hlive, ?_⟩
  · rw [hs, Span.secs, hrest]
    omega
  · intro token id secret
    have hagain (later : Span) : (∀ n, (left.issue later token id secret).1 ≠ .error (.lockedOut n)) ↔
        ¬ left.IsLocked later := by
      rw [← left.issue_lockedOut_iff, not_exists]
    rw [hagain, hagain, hleft]
    exact ⟨told_suffices_iff _ hlimit hstart hlocked hs, told_and_one_suffices _ hlimit hs⟩

/-- Half a second after the failure 299 seconds are told, and after waiting these the client is
still locked out. -/
theorem waiting_falls_short_by_half :
    let asks : List Ask := List.replicate 5 (.issue (.ofSecs 1) [7] "agent" "guess")
    let i := (create [⟨"agent", "secret"⟩] 10).after asks
    (i.issue ⟨1500000000⟩ "cp_07" "agent" "secret").1 = .error (.lockedOut 299) ∧
      ¬ ∀ n, (i.issue (⟨1500000000⟩ + .ofSecs 299) "cp_07" "agent" "secret").1 ≠
        .error (.lockedOut n) := by
  intro asks i
  have horder : InOrder asks := by simp [asks, InOrder]
  have hnow : ∀ ask ∈ asks, ask.instant.nanos ≤ 1500000000 := by
    intro ask hask
    rw [List.eq_of_mem_replicate hask]
    decide
  have hi : i = ⟨[⟨"agent", "secret"⟩], .ofSecs 10, [], 0, some (.ofSecs 301)⟩ := rfl
  have htold : (i.issue ⟨1500000000⟩ "cp_07" "agent" "secret").1 = .error (.lockedOut 299) := by
    rw [hi]
    rfl
  have hleft : (i.issue ⟨1500000000⟩ "cp_07" "agent" "secret").2 = i := by
    rw [hi]
    rfl
  obtain ⟨-, -, before, a, later, hsplit, -, -, -, hwaited⟩ :=
    waiting_suffices_iff [⟨"agent", "secret"⟩] 10 asks horder hnow htold
  have ha : a.instant = .ofSecs 1 := by
    have hmem : a ∈ (create [⟨"agent", "secret"⟩] 10).attempts asks := by
      rw [hsplit]
      simp
    have hattempts : (create [⟨"agent", "secret"⟩] 10).attempts asks =
        List.replicate 5 ⟨.ofSecs 1, .error .invalidCredentials⟩ := rfl
    rw [hattempts] at hmem
    rw [List.eq_of_mem_replicate hmem]
  refine ⟨htold, fun henough => ?_⟩
  rw [← hleft] at henough
  obtain ⟨k, hk⟩ | hlate := (hwaited "cp_07" "agent" "secret").1.mp henough
  · have hnanos : 1500000000 = 1 * 1000000000 + k * 1000000000 := by
      rw [ha] at hk
      exact congrArg Span.nanos hk
    omega
  · rw [ha] at hlate
    exact absurd hlate (by decide)

end ChainAgent.Gateway.Issuer
