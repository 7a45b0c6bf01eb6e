import ChainAgent.Digest.Sha256
import ChainAgent.Settings.Basic

/-! Access tokens of clients.

A client exchanges its id and its secret for a token with a fixed lifetime. Only digests of tokens
are stored. Five failures in a row lock every client out for five minutes. Instants are of a
monotonic clock. -/
namespace ChainAgent.Gateway

open Time (Span)

/-- The number of consecutive failures that locks every client out. -/
def failureLimit : Nat := 5

def lockoutTime : Span := .ofSecs 300

/-- The token of random bytes. -/
def tokenOf (bytes : List UInt8) : String := "cp_" ++ Digest.hexText bytes

/-- A version 4 UUID of sixteen random bytes. -/
def requestIdOf (bytes : List UInt8) : String :=
  let marked := bytes.mapIdx fun i b =>
    if i == 6 then (b &&& 0x0F) ||| 0x40 else if i == 8 then (b &&& 0x3F) ||| 0x80 else b
  let part (first count : Nat) : String := Digest.hexText ((marked.drop first).take count)
  "-".intercalate [part 0 4, part 4 2, part 6 2, part 8 2, part 10 6]

/-- The clients, the digests of the issued tokens, and the state of the lockout. -/
structure Issuer where
  clients : List Settings.Client
  lifetime : Span
  /-- The digests of the issued tokens, with the instants of their issue. -/
  issued : List (String × Span)
  failures : Nat
  lockedUntil : Option Span

inductive IssueFailure where
  | invalidCredentials
  /-- Seconds until another attempt is accepted. -/
  | lockedOut (retryAfter : Nat)
deriving DecidableEq

namespace Issuer

/-- Whether the id and the secret of a client are not blank. -/
def isUsable (c : Settings.Client) : Bool := !Text.saysNothing c.id && !c.secret.isEmpty

/-- An issuer without tokens; clients with a blank id or secret are dropped. -/
def create (clients : List Settings.Client) (lifetimeSecs : Nat) : Issuer where
  clients := clients.filter isUsable
  lifetime := .ofSecs lifetimeSecs
  issued := []
  failures := 0
  lockedUntil := none

def hasClients (i : Issuer) : Bool := !i.clients.isEmpty

/-- The remaining time of the lockout. -/
def remaining (i : Issuer) (now : Span) : Span := ⟨(i.lockedUntil.getD ⟨0⟩).nanos - now.nanos⟩

/-- Whether a client has this id and this secret. -/
def knows (i : Issuer) (id secret : String) : Bool :=
  i.clients.any fun c => Text.trim id == Text.trim c.id && secret == c.secret

/-- The issuer after a failure. -/
def failed (i : Issuer) (now : Span) : Issuer :=
  if failureLimit ≤ i.failures + 1 then
    {i with failures := 0, lockedUntil := some (now + lockoutTime)}
  else {i with failures := i.failures + 1}

/-- Without the expired tokens. -/
def pruned (i : Issuer) (now : Span) : Issuer :=
  {i with issued := i.issued.filter fun (_, at_) => now.nanos - at_.nanos < i.lifetime.nanos}

/-- Issues a new token for an id and a secret. -/
def issue (i : Issuer) (now : Span) (token id secret : String) :
    Except IssueFailure Unit × Issuer :=
  if 0 < (i.remaining now).nanos then (.error (.lockedOut (max (i.remaining now).secs 1)), i)
  else if !i.knows id secret then (.error .invalidCredentials, i.failed now)
  else
    let i := {i with failures := 0}.pruned now
    let digest := Digest.ofText token
    (.ok (), {i with issued := (digest, now) :: i.issued.filter (·.1 != digest)})

/-- Whether a token is issued and not expired. -/
def accepts (i : Issuer) (now : Span) (token : String) : Bool × Issuer :=
  if token.isEmpty then (false, i)
  else
    let i := i.pruned now
    (i.issued.any (·.1 == Digest.ofText token), i)

end Issuer

end ChainAgent.Gateway
