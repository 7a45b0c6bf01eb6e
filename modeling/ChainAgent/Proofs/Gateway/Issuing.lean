import ChainAgent.Gateway.Tokens
import Mathlib.Data.List.Induction

/-! Histories of a token issuer.

An issuer is asked to issue tokens and to check them. `Turn` describes the possible results of one
request and the issuer after it, and a `History` is a sequence of turns at instants that do not
decrease; invariants of an issuer are proved by induction on its history. Every sequence of requests
in order makes a history (`exists_history`). -/
namespace ChainAgent.Gateway.Issuer

open Time (Span)

/-! ### What is asked -/

/-- A request to an issuer at an instant. -/
inductive Ask where
  /-- Issue a token for an id and a secret; these are the random bytes for it. -/
  | issue (now : Span) (bytes : List UInt8) (id secret : String)
  /-- Check a token. -/
  | check (now : Span) (text : String)

def Ask.instant : Ask → Span
  | .issue now _ _ _ => now
  | .check now _ => now

/-- The instants of the requests do not decrease. -/
def InOrder (asks : List Ask) : Prop :=
  asks.Pairwise fun a b => a.instant.nanos ≤ b.instant.nanos

/-- An attempt to get a token: its instant, and the token or the error. -/
structure Attempt where
  instant : Span
  result : Except IssueFailure String

namespace Attempt

def succeeded (a : Attempt) : Bool :=
  match a.result with
  | .ok _ => true
  | .error _ => false

/-- Whether the credentials of an attempt were invalid. -/
def failed (a : Attempt) : Bool :=
  match a.result with
  | .error .invalidCredentials => true
  | _ => false

/-- Whether an attempt was locked out. -/
def lockedOut (a : Attempt) : Bool :=
  match a.result with
  | .error (.lockedOut _) => true
  | _ => false

end Attempt

section Asking

variable (i : Issuer)

/-- The attempt of a request, if it is one. -/
def attempted : Ask → Option Attempt
  | .issue now bytes id secret =>
    some ⟨now, (i.issue now (tokenOf bytes) id secret).1.map fun _ => tokenOf bytes⟩
  | .check _ _ => none

/-- The issuer after a request. -/
def asked : Ask → Issuer
  | .issue now bytes id secret => (i.issue now (tokenOf bytes) id secret).2
  | .check now text => (i.accepts now text).2

/-- The issuer after several requests. -/
def after (asks : List Ask) : Issuer := asks.foldl asked i

/-- The attempts of several requests. -/
def attempts (i : Issuer) : List Ask → List Attempt
  | [] => []
  | ask :: rest => (i.attempted ask).toList ++ (i.asked ask).attempts rest

theorem after_concat (asks : List Ask) (ask : Ask) :
    i.after (asks ++ [ask]) = (i.after asks).asked ask := by
  simp [after]

theorem attempts_append (front back : List Ask) :
    i.attempts (front ++ back) = i.attempts front ++ (i.after front).attempts back := by
  induction front generalizing i with
  | nil => rfl
  | cons ask rest ih =>
    rw [List.cons_append, attempts, attempts, ih, List.append_assoc]
    rfl

theorem attempts_concat (asks : List Ask) (ask : Ask) :
    i.attempts (asks ++ [ask]) = i.attempts asks ++ ((i.after asks).attempted ask).toList := by
  rw [attempts_append, attempts, attempts, List.append_nil]

end Asking

/-! ### What it comes to -/

section Turning

variable (i : Issuer)

/-- The issuer is locked. -/
def IsLocked (now : Span) : Prop := ∃ limit, i.lockedUntil = some limit ∧ now.nanos < limit.nanos

/-- A token is issued and not expired. -/
def Holds (now : Span) (text : String) : Prop :=
  ∃ t, (Digest.ofText text, t) ∈ i.issued ∧ now.nanos - t.nanos < i.lifetime.nanos

/-- The issuer after it has issued a token. -/
def granted (now : Span) (token : String) : Issuer :=
  let i := {i with failures := 0}.pruned now
  {i with issued := (Digest.ofText token, now) :: i.issued.filter (·.1 != Digest.ofText token)}

theorem remaining_pos {now : Span} : 0 < (i.remaining now).nanos ↔ i.IsLocked now := by
  unfold remaining IsLocked
  cases i.lockedUntil with
  | none => simp
  | some limit =>
    show 0 < limit.nanos - now.nanos ↔ _
    simp only [Nat.sub_pos_iff_lt, Option.some.injEq, exists_eq_left']

/-- Pruning keeps the entries that are not expired. -/
theorem mem_pruned {now t : Span} {digest : String} :
    (digest, t) ∈ (i.pruned now).issued ↔
      (digest, t) ∈ i.issued ∧ now.nanos - t.nanos < i.lifetime.nanos := by
  simp [pruned]

theorem mem_granted {now t : Span} {digest token : String} :
    (digest, t) ∈ (i.granted now token).issued ↔
      (digest = Digest.ofText token ∧ t = now) ∨
        ((digest, t) ∈ i.issued ∧ now.nanos - t.nanos < i.lifetime.nanos) ∧
          digest ≠ Digest.ofText token := by
  have hpruned : (digest, t) ∈ ({i with failures := 0}.pruned now).issued ↔ _ :=
    mem_pruned {i with failures := 0}
  simp only [granted, List.mem_cons, Prod.mk.injEq, List.mem_filter, hpruned, bne_iff_ne]

theorem accepts_iff {now : Span} {text : String} :
    (i.accepts now text).1 = true ↔ text ≠ "" ∧ i.Holds now text := by
  by_cases hempty : text = ""
  · simp [accepts, hempty]
  · simp [accepts, hempty, Holds, pruned]

/-- The possible results of a request at an instant: its attempt, if it is one, and the issuer after
it. -/
inductive Turn (now : Span) : Option Attempt → Issuer → Prop
  | lockedOut {n : Nat} : i.IsLocked now → Turn now (some ⟨now, .error (.lockedOut n)⟩) i
  | failed : ¬ i.IsLocked now → Turn now (some ⟨now, .error .invalidCredentials⟩) (i.failed now)
  | granted {token : String} : ¬ i.IsLocked now → token ≠ "" →
    Turn now (some ⟨now, .ok token⟩) (i.granted now token)
  | passed : Turn now none i
  | checked : Turn now none (i.pruned now)

theorem tokenOf_ne_empty (bytes : List UInt8) : tokenOf bytes ≠ "" := by
  rw [tokenOf, ne_eq, String.append_eq_empty_iff]
  rintro ⟨hempty, -⟩
  exact absurd hempty (by decide)

/-- A locked issuer does not check credentials. -/
theorem issue_locked {now : Span} (h : i.IsLocked now) (token id secret : String) :
    i.issue now token id secret = (.error (.lockedOut (max (i.remaining now).secs 1)), i) := by
  rw [issue, if_pos (i.remaining_pos.mpr h)]

theorem issue_open {now : Span} (h : ¬ i.IsLocked now) (token id secret : String) :
    i.issue now token id secret =
      if i.knows id secret then (.ok (), i.granted now token)
      else (.error .invalidCredentials, i.failed now) := by
  rw [issue, if_neg (mt i.remaining_pos.mp h)]
  cases i.knows id secret <;> rfl

/-- **Every request takes one turn.** -/
theorem asked_turn (ask : Ask) : i.Turn ask.instant (i.attempted ask) (i.asked ask) := by
  cases ask with
  | issue now bytes id secret =>
    by_cases hlocked : i.IsLocked now
    · simp only [attempted, asked, i.issue_locked hlocked]
      exact .lockedOut hlocked
    · simp only [attempted, asked, i.issue_open hlocked]
      cases i.knows id secret with
      | true => exact .granted hlocked (tokenOf_ne_empty bytes)
      | false => exact .failed hlocked
  | check now text =>
    simp only [attempted, asked, accepts]
    cases text.isEmpty with
    | true => exact .passed
    | false => exact .checked

end Turning

/-! ### Histories -/

/-- A member of a list with one element appended is that element or a member before it. -/
theorem concat_eq_split_iff {last a : Attempt} {attempts before later : List Attempt} :
    attempts ++ [last] = before ++ a :: later ↔
      (later = [] ∧ attempts = before ∧ last = a) ∨
        ∃ front, later = front ++ [last] ∧ attempts = before ++ a :: front := by
  constructor
  · intro h
    rcases later.eq_nil_or_concat with rfl | ⟨front, b, rfl⟩
    · obtain ⟨hbefore, hlast⟩ := List.append_inj' h rfl
      exact .inl ⟨rfl, hbefore, by simpa using hlast⟩
    · rw [List.concat_eq_append, ← List.cons_append, ← List.append_assoc] at h
      obtain ⟨hattempts, hlast⟩ := List.append_inj' h rfl
      obtain rfl : last = b := by simpa using hlast
      exact .inr ⟨front, List.concat_eq_append, hattempts⟩
  · rintro (⟨rfl, rfl, rfl⟩ | ⟨front, rfl, rfl⟩)
    · rfl
    · simp

/-- The attempts up to an instant and the issuer after them, from its creation on. -/
inductive History (clients : List Settings.Client) (lifetimeSecs : Nat) :
    List Attempt → Span → Issuer → Prop
  | start : History clients lifetimeSecs [] ⟨0⟩ (create clients lifetimeSecs)
  | turn {attempts : List Attempt} {last now : Span} {i next : Issuer} {a : Option Attempt} :
    History clients lifetimeSecs attempts last i → last.nanos ≤ now.nanos → i.Turn now a next →
    History clients lifetimeSecs (attempts ++ a.toList) now next

section Histories

variable {clients : List Settings.Client} {lifetimeSecs : Nat} {attempts : List Attempt}
  {last : Span} {i : Issuer}

theorem History.lifetime (h : History clients lifetimeSecs attempts last i) :
    i.lifetime = .ofSecs lifetimeSecs := by
  induction h with
  | start => rfl
  | turn _ _ hturn ih =>
    rw [← ih]
    cases hturn with
    | failed _ =>
      unfold Issuer.failed
      split <;> rfl
    | _ => rfl

/-- No attempt is later than the last instant. -/
theorem History.instant_le (h : History clients lifetimeSecs attempts last i) :
    ∀ a ∈ attempts, a.instant.nanos ≤ last.nanos := by
  induction h with
  | start => exact fun a ha => absurd ha List.not_mem_nil
  | turn _ hle hturn ih =>
    intro a ha
    obtain ha | ha := List.mem_append.mp ha
    · exact Nat.le_trans (ih a ha) hle
    · cases hturn <;> simp_all

/-- Every attempt was the turn of an issuer with the history before it. -/
theorem History.turn_at {before later : List Attempt} {a : Attempt}
    (h : History clients lifetimeSecs (before ++ a :: later) last i) :
    ∃ earlier j next, History clients lifetimeSecs before earlier j ∧
      earlier.nanos ≤ a.instant.nanos ∧ j.Turn a.instant (some a) next := by
  generalize hsplit : before ++ a :: later = attempts at h
  induction h generalizing later with
  | start => simp at hsplit
  | @turn attempts last now i next x h hle hturn ih =>
    cases x with
    | none => exact ih (by simpa using hsplit)
    | some x =>
      obtain ⟨-, rfl, rfl⟩ | ⟨front, -, hfront⟩ := concat_eq_split_iff.mp hsplit.symm
      · obtain rfl : x.instant = now := by cases hturn <;> rfl
        exact ⟨last, i, next, h, hle, hturn⟩
      · exact ih hfront.symm

theorem History.token_ne_empty (h : History clients lifetimeSecs attempts last i) {t : Span}
    {token : String} (hgiven : ⟨t, .ok token⟩ ∈ attempts) : token ≠ "" := by
  induction h with
  | start => exact absurd hgiven List.not_mem_nil
  | turn _ _ hturn ih =>
    obtain hold | hnew := List.mem_append.mp hgiven
    · exact ih hold
    · cases hturn <;> simp_all

/-- **Requests in order make a history** of no more turns than there are requests. -/
theorem exists_history {asks : List Ask} (h : InOrder asks) :
    ∃ last, History clients lifetimeSecs ((create clients lifetimeSecs).attempts asks) last
        ((create clients lifetimeSecs).after asks) ∧
      ∀ now : Span, (∀ ask ∈ asks, ask.instant.nanos ≤ now.nanos) → last.nanos ≤ now.nanos := by
  induction asks using List.reverseRecOn with
  | nil => exact ⟨⟨0⟩, .start, fun now _ => Nat.zero_le _⟩
  | append_singleton asks ask ih =>
    obtain ⟨hfront, -, hlater⟩ := List.pairwise_append.mp h
    obtain ⟨last, hhistory, hlast⟩ := ih hfront
    have hle := hlast ask.instant fun earlier hearlier => hlater earlier hearlier ask (by simp)
    rw [attempts_concat, after_concat]
    refine ⟨ask.instant, .turn hhistory hle (asked_turn _ ask), fun now hnow => ?_⟩
    exact hnow ask (by simp)

end Histories

end ChainAgent.Gateway.Issuer
