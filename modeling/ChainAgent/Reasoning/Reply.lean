import ChainAgent.Reasoning.Request
import ChainAgent.Text.Blank
import ChainAgent.Json.Reader

/-! Parsing of a backend's payload.

A JSON object whose members `thought` and `reply` are strings where they are present is a structured
payload. Its reply is taken unless it is blank; every other payload is the reply itself, and only a
blank payload is an error. -/
namespace ChainAgent.Reasoning

/-- A member that is a string, or missing and then empty. -/
def textMember (name : String) (members : List (String × Json.Value)) : Option String :=
  match Json.lookup name members with
  | none => some ""
  | some (.text s) => some s
  | some _ => none

/-- Thought and reply of a structured payload. -/
def structured? (payload : String) : Option Reply := do
  let members ← (← Json.parse payload).members?
  return ⟨← textMember "thought" members, ← textMember "reply" members⟩

/-- The reply of a payload. -/
def parseReply (raw : String) : Except Failure Reply :=
  if Text.saysNothing raw then .error .emptyReply
  else
    match structured? (Text.trim raw) with
    | some r => .ok (if Text.saysNothing r.reply then {r with reply := raw} else r)
    | none => .ok ⟨"", raw⟩

end ChainAgent.Reasoning
