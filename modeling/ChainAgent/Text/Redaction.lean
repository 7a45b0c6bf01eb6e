import ChainAgent.Text.Preview

/-! Redaction of secrets in text from a peer.

There are three kinds of secret: a token that starts with one of eight vendor prefixes, a value
after one of eleven markers, and `0x` with exactly 64 hex digits. Each is replaced by `[REDACTED]`;
a prefix is replaced with its token and a marker is kept. The passes run in a fixed order over the
whole text, and no pass rescans what it has written. -/
namespace ChainAgent.Text

def redacted : List Char := "[REDACTED]".toList

/-- The characters of a token or of a marked value. -/
def isSecretChar (c : Char) : Bool :=
  c.isAlphanum || c == '-' || c == '_' || c == '.' || c == ':' || c == '+' || c == '/' || c == '='

def isHexDigit (c : Char) : Bool :=
  c.isDigit || ('a' ≤ c && c ≤ 'f') || ('A' ≤ c && c ≤ 'F')

/-- A token prefix or a value marker: `label` is either part of the secret or kept. -/
structure Sign where
  label : List Char
  kept : Bool

/-- Prefixes of vendor tokens. -/
def tokenPrefixes : List String :=
  ["sk-", "ghp_", "github_pat_", "hf_", "glpat-", "ya29.", "AIza", "xoxb-"]

/-- Markers of a secret value. -/
def valueMarkers : List String :=
  ["Authorization: Bearer ", "authorization: bearer ", "\"authorization\":\"Bearer ",
    "api_key=", "apikey=", "access_token=", "private_key=", "\"api_key\":\"",
    "\"access_token\":\"", "\"private_key\":\"", "\"token\":\""]

/-- All signs in the order of their passes. -/
def signs : List Sign :=
  tokenPrefixes.map (fun t => ⟨t.toList, false⟩) ++ valueMarkers.map (fun t => ⟨t.toList, true⟩)

/-- One pass: every occurrence of the sign, from the left, with at least one secret character after
it loses the whole run of them. -/
def redactSign (g : Sign) : List Char → List Char
  | [] => []
  | c :: rest =>
    if g.label.isPrefixOf (c :: rest) ∧ g.label ≠ [] then
      let after := (c :: rest).drop g.label.length
      let run := after.takeWhile isSecretChar
      let head := if run.isEmpty then g.label else if g.kept then g.label ++ redacted else redacted
      head ++ redactSign g (after.drop run.length)
    else c :: redactSign g rest
  termination_by cs => cs.length
  decreasing_by
    all_goals simp_wf
    rename_i h
    have : 0 < g.label.length := List.length_pos_iff.2 h.2
    omega

/-- The number of hex digits of a private key. -/
def keyDigits : Nat := 64

/-- One pass: every `0x`, from the left, with exactly 64 hex digits after it is replaced together
with them. -/
def redactKeys : List Char → List Char
  | [] => []
  | '0' :: 'x' :: rest =>
    let digits := rest.takeWhile isHexDigit
    let head := if digits.length == keyDigits then redacted else '0' :: 'x' :: digits
    head ++ redactKeys (rest.drop digits.length)
  | c :: rest => c :: redactKeys rest
  termination_by cs => cs.length
  decreasing_by all_goals (simp_wf; try omega)

/-- All passes in order. -/
def redactChars (cs : List Char) : List Char :=
  redactKeys (signs.foldl (fun text g => redactSign g text) cs)

/-- Whether a text may contain a secret: it contains a sign or `0x`. -/
def isSuspicious (cs : List Char) : Bool :=
  signs.any (fun g => occurs g.label cs) || occurs ['0', 'x'] cs

/-- The text with its secrets redacted. -/
def redact (s : String) : String :=
  if isSuspicious s.toList then String.ofList (redactChars s.toList) else s

/-- Whether `redact` gives the text itself back and no copy: it is not suspicious, or the passes
change nothing in it. -/
def isClean (s : String) : Bool := !isSuspicious s.toList || redactChars s.toList == s.toList

/-- The most characters of a peer's text in an error. -/
def peerTextLimit : Nat := 200

/-- A peer's text in an error: trimmed, redacted and truncated. -/
def sanitize (s : String) : String := truncate (redact (trim s)) peerTextLimit

end ChainAgent.Text
