import ChainAgent.Task.Basic
import ChainAgent.Json.Printer
import ChainAgent.Json.Decode

/-! Tasks as JSON records.

A task is written with its fields in one fixed order. It is read from an object or from an array of
the fields; in an object all texts but the goal and the reply may be missing and are then empty. -/
namespace ChainAgent.Task

open Json (Value Field Node Fault)

/-- The JSON object of a task. -/
def toJson (t : Task) : Value :=
  .object [
    ("id", .ofInt t.id.toInt),
    ("goal", .text t.goal),
    ("chain_action", .text t.chainAction),
    ("address", .text t.address),
    ("thought", .text t.thought),
    ("reply", .text t.reply),
    ("chain_id", .text t.chainId),
    ("block_number", .text t.blockNumber),
    ("observations", .text t.observations),
    ("created_at", .ofInt t.createdAt.toInt),
    ("updated_at", .ofInt t.updatedAt.toInt)]

/-- The record on one line. -/
def line (t : Task) : String := Json.compact t.toJson

def shape : Json.Shape := ⟨"Task", [
  Json.required "id" Json.integer,
  Json.required "goal" Json.string,
  Json.defaulted "chain_action" Json.string,
  Json.defaulted "address" Json.string,
  Json.defaulted "thought" Json.string,
  Json.required "reply" Json.string,
  Json.defaulted "chain_id" Json.string,
  Json.defaulted "block_number" Json.string,
  Json.defaulted "observations" Json.string,
  Json.required "created_at" Json.integer,
  Json.required "updated_at" Json.integer]⟩

/-- The task of a record. -/
def ofNode (n : Node) : Except Fault Task := do
  let found ← shape.scan .text n
  let text (name : String) : String := Json.fieldOr found name Json.string ""
  let int (name : String) : Int64 := .ofInt (Json.fieldOr found name Json.integer 0)
  return {
    id := int "id"
    goal := text "goal"
    chainAction := text "chain_action"
    address := text "address"
    thought := text "thought"
    reply := text "reply"
    chainId := text "chain_id"
    blockNumber := text "block_number"
    observations := text "observations"
    createdAt := int "created_at"
    updatedAt := int "updated_at" }

/-- The task of a JSON text. -/
def ofText? (s : String) : Option Task := (Json.decodeText ofNode s).toOption

end ChainAgent.Task
