import ChainAgent.Knowledge.Card
import ChainAgent.Host.Basic
import ChainAgent.Json.Decode
import ChainAgent.Text.Lowercase

/-! The static knowledge source: snippets in a file.

A snippet without keywords always matches. Any other one matches if a keyword or a tag occurs in the
goal or in the chain action, ignoring case. -/
namespace ChainAgent.Knowledge

structure Snippet where
  title : String
  content : String
  keywords : List String
  tags : List String
deriving DecidableEq

/-- A text in lowercase, as keywords are compared. -/
def folded (s : String) : List Char := (Text.lower s).toList

/-- Whether a keyword occurs in a lowercase text; a blank keyword never does. -/
def stands (word : String) (text : List Char) : Bool :=
  let w := folded (Text.trim word)
  !w.isEmpty && Text.occurs w text

def Snippet.answers (s : Snippet) (goal action : List Char) : Bool :=
  s.keywords.isEmpty || (s.keywords ++ s.tags).any fun w => stands w goal || stands w action

structure Catalogue where
  snippets : List Snippet
  /-- The most cards of one lookup. -/
  maxResults : Nat

namespace Catalogue

/-- The cards for a goal and a chain action, in the order of the file. -/
def lookup (c : Catalogue) (goal action : String) : List Card :=
  let goal := folded goal
  let action := folded action
  let found := c.snippets.filter fun s => !Text.saysNothing s.content && s.answers goal action
  (found.take c.maxResults).map fun s => ⟨s.title, s.content⟩

def snippetShape : Json.Shape := ⟨"Snippet", [
  Json.required "title" Json.string,
  Json.required "content" Json.string,
  Json.defaulted "keywords" (Json.list Json.string),
  Json.defaulted "tags" (Json.list Json.string)]⟩

def snippet : Json.Decoder Snippet := fun n => do
  let found ← snippetShape.scan .text n
  return {
    title := Json.fieldOr found "title" Json.string ""
    content := Json.fieldOr found "content" Json.string ""
    keywords := Json.fieldOr found "keywords" (Json.list Json.string) []
    tags := Json.fieldOr found "tags" (Json.list Json.string) [] }

/-- Loads the snippets of a file. -/
def load {m : Type → Type} [Monad m] (h : Host m) (path : String) (maxResults : Nat) :
    m (Except Failure Catalogue) := do
  match ← h.readText path with
  | .error f => return .error (.unreadable path f.message)
  | .ok text =>
    match Json.decodeText (Json.list snippet) text with
    | .error f => return .error (.undecodable path f.message)
    | .ok snippets => return .ok ⟨snippets, maxResults⟩

end Catalogue

end ChainAgent.Knowledge
