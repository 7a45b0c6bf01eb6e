import ChainAgent.Reasoning.Request
import ChainAgent.Text.Preview

/-! The prompt for a networked backend.

It has the current task, then at most five past tasks and at most five knowledge cards, each on one
line with long texts previewed, then the instruction. -/
namespace ChainAgent.Reasoning

/-- The system prompt of every backend. -/
def systemPrompt : String :=
  "You are the reasoning engine of an on-chain assistant. " ++
  "Always respond with a compact JSON object: \x7b\"thought\": string, \"reply\": string\x7d. " ++
  "Summarise your reasoning in \"thought\" and write the user-facing answer in \"reply\", " ++
  "using the language of the goal."

/-- The most past tasks in a prompt. -/
def historyLimit : Nat := 5

/-- The most knowledge cards in a prompt. -/
def knowledgeLimit : Nat := 5

/-- The most characters of a previewed text. -/
def previewLimit : Nat := 80

/-- The number of an item in its section. -/
def numbered (index : Nat) : String := "[" ++ toString (index + 1) ++ "] "

/-- The line of a past task. -/
def historyLine (index : Nat) (p : PastTask) : String :=
  numbered index ++ "goal: " ++ Text.preview p.goal previewLimit ++
    " | reply: " ++ Text.preview p.reply previewLimit ++
    (if Text.saysNothing p.observations then ""
     else " | observations: " ++ Text.preview p.observations previewLimit) ++ "\n"

/-- The line of a knowledge card. -/
def cardLine (index : Nat) (c : Knowledge.Card) : String :=
  numbered index ++ Text.trim c.title ++ ": " ++ Text.preview c.content previewLimit ++ "\n"

/-- A labelled line of the current task, unless its value is empty. -/
def taskLine (label value : String) : String :=
  if Text.saysNothing value then "" else label ++ ": " ++ Text.trim value ++ "\n"

/-- A titled section with the lines of its items; nothing without items. -/
def itemSection {α : Type} (title : String) (limit : Nat) (line : Nat → α → String)
    (items : List α) : String :=
  if items.isEmpty then ""
  else "\n## " ++ title ++ "\n" ++ String.join ((items.take limit).mapIdx line)

def userPrompt (r : Request) : String :=
  "## Current task\n" ++
  "Goal: " ++ Text.trim r.goal ++ "\n" ++
  taskLine "Chain action" r.chainAction ++
  taskLine "Address" r.address ++
  itemSection "Recent tasks (newest first)" historyLimit historyLine r.history ++
  itemSection "Knowledge" knowledgeLimit cardLine r.knowledge ++
  "\nUsing the information above, give your most reasonable thought and a reply the user can act on."

end ChainAgent.Reasoning
