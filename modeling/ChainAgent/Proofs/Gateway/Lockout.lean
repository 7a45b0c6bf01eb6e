import ChainAgent.Proofs.Gateway.Issuing
import Mathlib.Data.List.DropRight

/-! Rate limiting of secrets.

An issuer counts consecutive failures; a success resets the count, and the fifth failure locks
everyone out for five minutes and resets the count. So the count is determined by the attempts
(`History.failures_eq`), a lockout only comes from a streak of five (`History.isLocked_iff`), and a
window that is no longer than a lockout and has no success has five failures at most
(`History.window_bound`): the fifth of them locks out for the rest of it. -/
namespace ChainAgent.Gateway.Issuer

open Time (Span)

/-! ### Streaks -/

/-- The failures since the last success. -/
def failuresSince (attempts : List Attempt) : Nat :=
  (attempts.rtakeWhile fun a => !a.succeeded).countP (·.failed)

/-- The attempt fails and completes a streak: it is the fifth failure since the last success, or the
tenth, and so on. -/
def Completes (before : List Attempt) (a : Attempt) : Prop :=
  a.failed = true ∧ failureLimit ∣ failuresSince (before ++ [a])

/-- The attempts within a lockout's duration from an instant on. -/
def windowFrom (start : Span) (attempts : List Attempt) : List Attempt :=
  attempts.filter fun a =>
    start.nanos ≤ a.instant.nanos ∧ a.instant.nanos < (start + lockoutTime).nanos

/-- One of these attempts completes a streak, and its lockout is not over. -/
def LocksOut (attempts : List Attempt) (now : Span) : Prop :=
  ∃ before a later, attempts = before ++ a :: later ∧ Completes before a ∧
    now.nanos < (a.instant + lockoutTime).nanos

section Streaks

variable (attempts : List Attempt) (now : Span)

@[simp]
theorem failuresSince_succeeded (token : String) :
    failuresSince (attempts ++ [⟨now, .ok token⟩]) = 0 := by
  simp [failuresSince, Attempt.succeeded]

@[simp]
theorem failuresSince_failed :
    failuresSince (attempts ++ [⟨now, .error .invalidCredentials⟩]) = failuresSince attempts + 1 := by
  simp [failuresSince, Attempt.succeeded, Attempt.failed]

@[simp]
theorem failuresSince_lockedOut (n : Nat) :
    failuresSince (attempts ++ [⟨now, .error (.lockedOut n)⟩]) = failuresSince attempts := by
  simp [failuresSince, Attempt.succeeded, Attempt.failed]

theorem windowFrom_append (start : Span) (more : List Attempt) :
    windowFrom start (attempts ++ more) = windowFrom start attempts ++ windowFrom start more :=
  List.filter_append ..

theorem windowFrom_singleton {start : Span} {a : Attempt}
    (h : start.nanos ≤ a.instant.nanos ∧ a.instant.nanos < (start + lockoutTime).nanos) :
    windowFrom start [a] = [a] := by
  simp [windowFrom, h]

theorem Attempt.eq_of_lockedOut {a : Attempt} (h : a.lockedOut = true) :
    ∃ now n, a = ⟨now, .error (.lockedOut n)⟩ := by
  obtain ⟨now, (_ | n) | _⟩ := a
  · simp [lockedOut] at h
  · exact ⟨now, n, rfl⟩
  · simp [lockedOut] at h

variable {attempts} {now}

theorem locksOut_concat {a : Attempt} :
    LocksOut (attempts ++ [a]) now ↔
      LocksOut attempts now ∨ Completes attempts a ∧ now.nanos < (a.instant + lockoutTime).nanos := by
  constructor
  · rintro ⟨before, b, later, hsplit, hlocks⟩
    obtain ⟨-, rfl, rfl⟩ | ⟨front, -, rfl⟩ := concat_eq_split_iff.mp hsplit
    · exact .inr hlocks
    · exact .inl ⟨before, b, front, rfl, hlocks⟩
  · rintro (⟨before, b, later, rfl, hlocks⟩ | hlocks)
    · exact ⟨before, b, later ++ [a], by simp, hlocks⟩
    · exact ⟨attempts, a, [], rfl, hlocks⟩

/-- Only a failure locks out. -/
theorem locksOut_concat_of_not_failed {a : Attempt} (h : a.failed = false) :
    LocksOut (attempts ++ [a]) now ↔ LocksOut attempts now := by
  rw [locksOut_concat]
  simp [Completes, h]

/-- Attempts that are locked out neither count nor lock out. -/
theorem append_lockedOut {later : List Attempt} (h : ∀ a ∈ later, a.lockedOut = true) :
    failuresSince (attempts ++ later) = failuresSince attempts ∧
      (LocksOut (attempts ++ later) now ↔ LocksOut attempts now) := by
  induction later using List.reverseRecOn with
  | nil => simp
  | append_singleton front a ih =>
    obtain ⟨hcount, hlocks⟩ := ih fun b hb => h b (List.mem_append_left _ hb)
    obtain ⟨u, n, rfl⟩ := Attempt.eq_of_lockedOut (h a (by simp))
    rw [← List.append_assoc, failuresSince_lockedOut, locksOut_concat_of_not_failed (by rfl)]
    exact ⟨hcount, hlocks⟩

end Streaks

/-! ### Failures -/

section Failures

variable (i : Issuer) {u now : Span}

theorem failed_at_limit (h : failureLimit ≤ i.failures + 1) :
    i.failed u = {i with failures := 0, lockedUntil := some (u + lockoutTime)} :=
  if_pos h

theorem failed_below_limit (h : ¬ failureLimit ≤ i.failures + 1) :
    i.failed u = {i with failures := i.failures + 1} :=
  if_neg h

theorem isLocked_at_limit (h : failureLimit ≤ i.failures + 1) :
    (i.failed u).IsLocked now ↔ now.nanos < (u + lockoutTime).nanos := by
  simp [i.failed_at_limit h, IsLocked]

theorem isLocked_below_limit (h : ¬ failureLimit ≤ i.failures + 1) :
    (i.failed u).IsLocked now ↔ i.IsLocked now := by
  simp [i.failed_below_limit h, IsLocked]

theorem issue_lockedOut_iff {token id secret : String} :
    (∃ n, (i.issue now token id secret).1 = .error (.lockedOut n)) ↔ i.IsLocked now := by
  by_cases hlocked : i.IsLocked now
  · simp [i.issue_locked hlocked, hlocked]
  · rw [i.issue_open hlocked]
    cases i.knows id secret <;> simp [hlocked]

end Failures

/-! ### Histories -/

section Histories

variable {clients : List Settings.Client} {lifetimeSecs : Nat} {attempts : List Attempt}
  {last : Span} {i : Issuer}

/-- **The count is that of the failures since the last success**, modulo the length of a streak. -/
theorem History.failures_eq (h : History clients lifetimeSecs attempts last i) :
    i.failures = failuresSince attempts % failureLimit := by
  induction h with
  | start => rfl
  | @turn _ _ _ i _ _ _ _ hturn ih =>
    cases hturn with
    | failed _ =>
      rw [Option.toList_some, failuresSince_failed]
      by_cases hlimit : failureLimit ≤ i.failures + 1
      · rw [i.failed_at_limit hlimit]
        unfold failureLimit at *
        show 0 = _
        omega
      · rw [i.failed_below_limit hlimit]
        unfold failureLimit at *
        show i.failures + 1 = _
        omega
    | lockedOut _ => simpa using ih
    | granted _ _ => simp [Issuer.granted, pruned]
    | passed => simpa using ih
    | checked => simpa [pruned] using ih

theorem History.failures_lt (h : History clients lifetimeSecs attempts last i) :
    i.failures < failureLimit := by
  rw [h.failures_eq]
  exact Nat.mod_lt _ (by decide)

/-- A failure completes a streak if it brings the count to the limit. -/
theorem History.completes_iff (h : History clients lifetimeSecs attempts last i) {now : Span} :
    Completes attempts ⟨now, .error .invalidCredentials⟩ ↔ failureLimit ≤ i.failures + 1 := by
  have hcount := h.failures_eq
  simp only [Completes, failuresSince_failed, Attempt.failed, true_and]
  unfold failureLimit at *
  omega

/-- **The issuer is locked exactly while the lockout of a streak lasts.** -/
theorem History.isLocked_iff (h : History clients lifetimeSecs attempts last i) {now : Span} :
    i.IsLocked now ↔ LocksOut attempts now := by
  induction h with
  | start => simp [IsLocked, create, LocksOut]
  | @turn attempts last u i next a h hle hturn ih =>
    cases hturn with
    | lockedOut _ => rwa [Option.toList_some, locksOut_concat_of_not_failed (by rfl)]
    | granted _ _ =>
      rw [Option.toList_some, locksOut_concat_of_not_failed (by rfl)]
      exact ih
    | passed => simpa using ih
    | checked => simpa [pruned, IsLocked] using ih
    | failed _ =>
      rw [Option.toList_some, locksOut_concat, h.completes_iff]
      by_cases hlimit : failureLimit ≤ i.failures + 1
      · -- The lockouts of earlier streaks are over before this one.
        have hearlier : LocksOut attempts now → now.nanos < (u + lockoutTime).nanos := by
          rintro ⟨before, b, later, rfl, -, hlive⟩
          have hb := h.instant_le b (by simp)
          exact Nat.lt_of_lt_of_le hlive (Nat.add_le_add_right (Nat.le_trans hb hle) _)
        rw [i.isLocked_at_limit hlimit]
        exact ⟨fun hlive => .inr ⟨hlimit, hlive⟩, fun hlocks => hlocks.elim hearlier And.right⟩
      · rw [i.isLocked_below_limit hlimit, ih]
        simp [hlimit]

/-- With a positive count the issuer is not locked. -/
theorem History.not_isLocked (h : History clients lifetimeSecs attempts last i) {now : Span}
    (hnow : last.nanos ≤ now.nanos) (hcount : 0 < i.failures) : ¬ i.IsLocked now := by
  induction h generalizing now with
  | start => exact absurd hcount (Nat.lt_irrefl 0)
  | @turn attempts last u i next a h hle hturn ih =>
    have hmono (hopen : ¬ i.IsLocked u) : ¬ i.IsLocked now := by
      rintro ⟨limit, hlimit, hlt⟩
      exact hopen ⟨limit, hlimit, Nat.lt_of_le_of_lt hnow hlt⟩
    cases hturn with
    | failed hopen =>
      by_cases hlimit : failureLimit ≤ i.failures + 1
      · rw [i.failed_at_limit hlimit] at hcount
        exact absurd hcount (Nat.lt_irrefl 0)
      · rw [i.isLocked_below_limit hlimit]
        exact hmono hopen
    | lockedOut _ => exact ih (Nat.le_trans hle hnow) hcount
    | granted _ _ => exact absurd hcount (Nat.lt_irrefl 0)
    | passed => exact ih (Nat.le_trans hle hnow) hcount
    | checked => exact ih (Nat.le_trans hle hnow) hcount

/-- The counted failures are the last attempts. -/
theorem History.exists_streak (h : History clients lifetimeSecs attempts last i) :
    ∃ front streak, attempts = front ++ streak ∧ streak.length = i.failures ∧
      ∀ b ∈ streak, b.failed = true := by
  induction h with
  | start => exact ⟨[], [], rfl, rfl, by simp⟩
  | @turn attempts last u i next a h hle hturn ih =>
    obtain ⟨front, streak, rfl, hlength, hfailed⟩ := ih
    have hnone {a : Option Attempt} : ∃ front' streak' : List Attempt,
        front ++ streak ++ a.toList = front' ++ streak' ∧ streak'.length = 0 ∧
          ∀ b ∈ streak', b.failed = true :=
      ⟨front ++ streak ++ a.toList, [], by simp⟩
    cases hturn with
    | lockedOut hlocked =>
      have hzero : i.failures = 0 := by
        by_contra hcount
        exact h.not_isLocked hle (Nat.pos_of_ne_zero hcount) hlocked
      rw [hzero]
      exact hnone
    | granted _ _ => exact hnone
    | passed => exact ⟨front, streak, by simp, hlength, hfailed⟩
    | checked => exact ⟨front, streak, by simp, hlength, hfailed⟩
    | failed _ =>
      by_cases hlimit : failureLimit ≤ i.failures + 1
      · rw [i.failed_at_limit hlimit]
        exact hnone
      · rw [i.failed_below_limit hlimit]
        refine ⟨front, streak ++ [⟨u, .error .invalidCredentials⟩], by simp, by simp [hlength], ?_⟩
        intro b hb
        obtain hb | hb := List.mem_append.mp hb
        · exact hfailed b hb
        · rw [List.mem_singleton.mp hb]
          rfl

/-- **An attempt that completes a streak comes right after four that failed as well.** -/
theorem History.streak_of_completes {before later : List Attempt} {a : Attempt}
    (h : History clients lifetimeSecs (before ++ a :: later) last i)
    (hcompletes : Completes before a) :
    ∃ front streak, before = front ++ streak ∧ streak.length + 1 = failureLimit ∧
      ∀ b ∈ streak, b.failed = true := by
  obtain ⟨_, j, _, hbefore, -, hturn⟩ := h.turn_at
  obtain ⟨front, streak, rfl, hlength, hfailed⟩ := hbefore.exists_streak
  have hlt := hbefore.failures_lt
  obtain ⟨now, result⟩ := a
  cases hturn with
  | failed _ =>
    have hlimit := hbefore.completes_iff.mp hcompletes
    exact ⟨front, streak, rfl, by omega, hfailed⟩
  | lockedOut _ => exact absurd hcompletes.1 (by simp [Attempt.failed])
  | granted _ _ => exact absurd hcompletes.1 (by simp [Attempt.failed])

/-- **During the lockout of a streak every attempt is locked out.** -/
theorem History.lockedOut_after {before later : List Attempt} {a b : Attempt}
    (h : History clients lifetimeSecs (before ++ a :: later) last i)
    (hcompletes : Completes before a) (hb : b ∈ later)
    (hlive : b.instant.nanos < (a.instant + lockoutTime).nanos) : b.lockedOut = true := by
  obtain ⟨front, back, rfl⟩ := List.append_of_mem hb
  rw [← List.cons_append, ← List.append_assoc] at h
  obtain ⟨_, j, _, hfront, -, hturn⟩ := h.turn_at
  have hlocked : j.IsLocked b.instant :=
    hfront.isLocked_iff.mpr ⟨before, a, front, rfl, hcompletes, hlive⟩
  obtain ⟨now, result⟩ := b
  cases hturn with
  | lockedOut _ => rfl
  | failed hopen => exact absurd hlocked hopen
  | granted hopen _ => exact absurd hlocked hopen

/-- **A window without success has no more failures than a streak.** Until its end the failures in
it are counted, unless the issuer is locked until then. -/
theorem History.window_bound (h : History clients lifetimeSecs attempts last i) (start : Span)
    (hnone : ∀ a ∈ windowFrom start attempts, a.succeeded = false) :
    (windowFrom start attempts).countP (·.failed) ≤ failureLimit ∧
      (last.nanos < (start + lockoutTime).nanos →
        (windowFrom start attempts).countP (·.failed) ≤ i.failures ∨
          ∀ now : Span, now.nanos < (start + lockoutTime).nanos → i.IsLocked now) := by
  induction h with
  | start => simp [windowFrom]
  | @turn attempts last u i next x h hle hturn ih =>
    rw [windowFrom_append] at hnone ⊢
    rw [List.countP_append]
    obtain ⟨hbound, hcount⟩ := ih fun a ha => hnone a (List.mem_append_left _ ha)
    by_cases hin : start.nanos ≤ u.nanos ∧ u.nanos < (start + lockoutTime).nanos
    · have hcount := hcount (Nat.lt_of_le_of_lt hle hin.2)
      cases hturn with
      | lockedOut _ =>
        rw [Option.toList_some, windowFrom_singleton hin]
        exact ⟨hbound, fun _ => hcount⟩
      | passed => exact ⟨hbound, fun _ => hcount⟩
      | checked => exact ⟨hbound, fun _ => hcount⟩
      | granted _ _ =>
        rw [Option.toList_some, windowFrom_singleton hin] at hnone
        have hsucceeded := hnone _ (List.mem_append_right _ List.mem_cons_self)
        simp [Attempt.succeeded] at hsucceeded
      | failed hopen =>
        have hlt := h.failures_lt
        rw [Option.toList_some, windowFrom_singleton hin, List.countP_cons_of_pos rfl,
          List.countP_nil]
        -- Who fails is not locked out, so all failures in the window count so far.
        have hcount := hcount.resolve_right fun hlocked => hopen (hlocked u hin.2)
        refine ⟨by omega, fun _ => ?_⟩
        by_cases hlimit : failureLimit ≤ i.failures + 1
        · right
          intro now hnow
          rw [i.isLocked_at_limit hlimit]
          exact Nat.lt_of_lt_of_le hnow (Nat.add_le_add_right hin.1 _)
        · left
          rw [i.failed_below_limit hlimit]
          show _ ≤ i.failures + 1
          omega
    · have hnew : windowFrom start x.toList = [] := by
        cases hturn <;> simp [windowFrom] <;> omega
      rw [hnew, List.countP_nil, Nat.add_zero]
      refine ⟨hbound, fun hend => .inl ?_⟩
      -- The window has not begun.
      have hold : windowFrom start attempts = [] := by
        rw [windowFrom, List.filter_eq_nil_iff]
        intro a ha
        have := h.instant_le a ha
        simp
        omega
      rw [hold]
      exact Nat.zero_le _

/-- **The count restarts.** When a lockout is over and there was no attempt since, the count is zero
and the issuer is not locked. -/
theorem History.restarts {before later : List Attempt} {a : Attempt}
    (h : History clients lifetimeSecs (before ++ a :: later) last i)
    (hcompletes : Completes before a)
    (hlater : ∀ b ∈ later, b.instant.nanos < (a.instant + lockoutTime).nanos) {now : Span}
    (hover : (a.instant + lockoutTime).nanos ≤ now.nanos) :
    i.failures = 0 ∧ ¬ i.IsLocked now := by
  obtain ⟨hcount, hlocks⟩ : failuresSince (before ++ [a] ++ later) = failuresSince (before ++ [a]) ∧
      (LocksOut (before ++ [a] ++ later) now ↔ LocksOut (before ++ [a]) now) :=
    append_lockedOut fun b hb => h.lockedOut_after hcompletes hb (hlater b hb)
  obtain ⟨earlier, _, _, hbefore, hearlier, -⟩ := h.turn_at
  rw [← List.singleton_append, ← List.append_assoc] at h
  constructor
  · rw [h.failures_eq, hcount]
    exact Nat.mod_eq_zero_of_dvd hcompletes.2
  · rw [h.isLocked_iff, hlocks, locksOut_concat]
    rintro (⟨front, b, back, rfl, -, hlive⟩ | ⟨-, hlive⟩)
    · have hle : b.instant.nanos ≤ a.instant.nanos :=
        Nat.le_trans (hbefore.instant_le b (by simp)) hearlier
      have hend : (b.instant + lockoutTime).nanos ≤ (a.instant + lockoutTime).nanos :=
        Nat.add_le_add_right hle _
      omega
    · omega

end Histories

/-! ### What is asked -/

/-- **Guesses are bounded.** For any requests to an issuer in order: five minutes without success
have five failures at most; a failure that completes a streak comes right after four others, and
once five minutes are over the count restarts from zero; a call is locked out exactly if a streak
was completed less than five minutes ago, whatever its credentials are, and it changes nothing. -/
theorem guesses_bounded (clients : List Settings.Client) (lifetimeSecs : Nat) (asks : List Ask)
    (horder : InOrder asks) :
    let made := (create clients lifetimeSecs).attempts asks
    let i := (create clients lifetimeSecs).after asks
    let fiveMinutes := Span.ofSecs 300
    (∀ start : Span,
      let window := made.filter fun a =>
        start.nanos ≤ a.instant.nanos ∧ a.instant.nanos < (start + fiveMinutes).nanos
      (∀ a ∈ window, a.succeeded = false) → window.countP (·.failed) ≤ 5) ∧
    (∀ before a later, made = before ++ a :: later → Completes before a →
      (∃ front streak, before = front ++ streak ∧ streak.length = 4 ∧
        ∀ b ∈ streak, b.failed = true) ∧
      ((∀ b ∈ later, b.instant.nanos < (a.instant + fiveMinutes).nanos) →
        ∀ now : Span, (a.instant + fiveMinutes).nanos ≤ now.nanos → ∀ token id secret,
          i.failures = 0 ∧ (∀ n, (i.issue now token id secret).1 ≠ .error (.lockedOut n)) ∧
            ((i.issue now token id secret).1 = .error .invalidCredentials →
              (i.issue now token id secret).2.failures = 1))) ∧
    ∀ now token id secret,
      ((∃ n, (i.issue now token id secret).1 = .error (.lockedOut n)) ↔
        ∃ before a later, made = before ++ a :: later ∧ Completes before a ∧
          now.nanos < (a.instant + fiveMinutes).nanos) ∧
      ∀ n, (i.issue now token id secret).1 = .error (.lockedOut n) →
        ∀ token id secret, i.issue now token id secret = (.error (.lockedOut n), i) := by
  intro made i fiveMinutes
  obtain ⟨last, hhistory, -⟩ : ∃ last, History clients lifetimeSecs made last i ∧ _ :=
    exists_history horder
  refine ⟨fun start hnone => (hhistory.window_bound start hnone).1,
    fun before a later hsplit hcompletes => ⟨?_, ?_⟩, fun now token id secret => ⟨?_, ?_⟩⟩
  · rw [hsplit] at hhistory
    obtain ⟨front, streak, hbefore, hlength, hfailed⟩ := hhistory.streak_of_completes hcompletes
    exact ⟨front, streak, hbefore, Nat.succ.inj hlength, hfailed⟩
  · intro hlater now hover token id secret
    rw [hsplit] at hhistory
    obtain ⟨hcount, hopen⟩ := hhistory.restarts hcompletes hlater hover
    refine ⟨hcount, fun n hn => hopen (i.issue_lockedOut_iff.mp ⟨n, hn⟩), ?_⟩
    rw [i.issue_open hopen]
    cases i.knows id secret with
    | true => simp
    | false =>
      have hbelow : ¬ failureLimit ≤ i.failures + 1 := by
        rw [hcount]
        decide
      simp [i.failed_below_limit hbelow, hcount]
  · rw [i.issue_lockedOut_iff, hhistory.isLocked_iff]
    rfl
  · intro n hn token' id' secret'
    have hlocked := i.issue_lockedOut_iff.mp ⟨n, hn⟩
    rw [i.issue_locked hlocked] at hn ⊢
    rw [← hn]

/-- Five failures at once lock out even the right secret until five minutes are over. -/
theorem guesses_bounded_of_five :
    let asks : List Ask := List.replicate 5 (.issue (.ofSecs 1) [7] "agent" "guess")
    let i := (create [⟨"agent", "secret"⟩] 10).after asks
    (∃ n, (i.issue ⟨300999999999⟩ "cp_07" "agent" "secret").1 = .error (.lockedOut n)) ∧
      i.issue ⟨300999999999⟩ "cp_07" "agent" "guess" = (.error (.lockedOut 1), i) ∧
      (i.issue (.ofSecs 301) "cp_07" "agent" "guess").2.failures = 1 := by
  intro asks i
  have horder : InOrder asks := by simp [asks, InOrder]
  obtain ⟨-, hcompleted, hcalls⟩ := guesses_bounded [⟨"agent", "secret"⟩] 10 asks horder
  let failure : Attempt := ⟨.ofSecs 1, .error .invalidCredentials⟩
  have hattempts : (create [⟨"agent", "secret"⟩] 10).attempts asks =
      List.replicate 4 failure ++ failure :: [] := rfl
  have hcompletes : Completes (List.replicate 4 failure) failure := by
    constructor
    · rfl
    · decide
  have hi : i = ⟨[⟨"agent", "secret"⟩], .ofSecs 10, [], 0, some (.ofSecs 301)⟩ := rfl
  have hlocked : (i.issue ⟨300999999999⟩ "cp_07" "agent" "secret").1 = .error (.lockedOut 1) := by
    rw [hi]
    rfl
  have hopen : (i.issue (.ofSecs 301) "cp_07" "agent" "guess").1 = .error .invalidCredentials := by
    rw [hi]
    rfl
  subst i
  refine ⟨⟨1, hlocked⟩, ?_, ?_⟩
  · exact (hcalls ⟨300999999999⟩ "cp_07" "agent" "secret").2 1 hlocked "cp_07" "agent" "guess"
  · have hover := (hcompleted _ failure [] hattempts hcompletes).2 (by simp) (.ofSecs 301) (by decide)
    exact (hover "cp_07" "agent" "guess").2.2 hopen

end ChainAgent.Gateway.Issuer
