import ChainAgent.Task.Record
import ChainAgent.Ledger.Failure
import ChainAgent.Ledger.Stats
import ChainAgent.Files.Path
import ChainAgent.Host.Basic

/-! The ledger backed by a database table.

Ids are assigned by autoincrement and are never used again: the sequence remembers the greatest id
so far. A new task is no older than the newest in the table. Numbered migrations bring the schema up
to date, each applied once. -/
namespace ChainAgent.Ledger

/-- A schema migration, and when it was applied. -/
structure Migration where
  version : Int64
  name : String
  appliedAt : Int64
deriving DecidableEq

/-- The rows, the greatest id so far and the migrations applied. -/
structure Table where
  rows : List Task
  sequence : Int64
  migrations : List Migration

namespace Table

/-- All migrations in order. -/
def allMigrations : List (Int64 × String) := [(1, "create tasks"), (2, "index tasks by recency")]

def blank : Table := ⟨[], 0, []⟩

/-- Applies the migrations that have not been applied. -/
def migrated (t : Table) (now : Int64) : Table :=
  let due := allMigrations.filter fun (v, _) => !t.migrations.any (·.version == v)
  {t with migrations := t.migrations ++ due.map fun (v, name) => ⟨v, name, now⟩}

/-- The failure when no id is left. -/
def full : Failure := .database "error returned from database: (code: 13) database or disk is full"

/-- The creation time of a new row: now, unless a row is newer. -/
def nextTime (t : Table) (now : Int64) : Int64 :=
  later now ((latest (t.rows.map (·.createdAt))).getD 0)

/-- Inserts a draft under the next id. -/
def insert (t : Table) (d : Task.Draft) (now : Int64) : Except Failure (Task × Table) :=
  if t.sequence == Int64.maxValue then .error full
  else
    let task := d.stored (t.sequence + 1) (t.nextTime now)
    .ok (task, {t with rows := t.rows ++ [task], sequence := t.sequence + 1})

/-- Inserts a row as it is, unless its id is taken. -/
def insertRow (t : Table) (row : Task) : Option Table :=
  if t.rows.any (·.id == row.id) then none
  else some {t with rows := t.rows ++ [row], sequence := later t.sequence row.id}

/-- At most `limit` rows, newest first. -/
def recent (t : Table) (limit : Nat) : List Task := (t.rows.mergeSort newestFirst).take limit

def get (t : Table) (id : Int64) : Except Failure Task :=
  match t.rows.find? (·.id == id) with
  | some row => .ok row
  | none => .error (.notFound id)

def count (t : Table) : Nat := t.rows.length

def stats (t : Table) : Stats := .of t.rows

/-! ### The file of a table -/

def migrationJson (g : Migration) : Json.Value :=
  .array [.ofInt g.version.toInt, .text g.name, .ofInt g.appliedAt.toInt]

/-- The file content of a table. -/
def encode (t : Table) : String :=
  Json.compact (.object [
    ("migrations", .array (t.migrations.map migrationJson)),
    ("sequence", .ofInt t.sequence.toInt),
    ("rows", .array (t.rows.map Task.toJson))])

def migrationShape : Json.Shape := ⟨"Migration", [Json.required "version" Json.integer,
  Json.required "name" Json.string, Json.required "applied_at" Json.integer]⟩

def migrationOf : Json.Decoder Migration := fun n => do
  let found ← migrationShape.scan .text n
  return ⟨.ofInt (Json.fieldOr found "version" Json.integer 0),
    Json.fieldOr found "name" Json.string "",
    .ofInt (Json.fieldOr found "applied_at" Json.integer 0)⟩

def shape : Json.Shape := ⟨"Table", [Json.required "migrations" (Json.list migrationOf),
  Json.required "sequence" Json.integer, Json.required "rows" (Json.list Task.ofNode)]⟩

def ofNode : Json.Decoder Table := fun n => do
  let found ← shape.scan .text n
  return ⟨Json.fieldOr found "rows" (Json.list Task.ofNode) [],
    .ofInt (Json.fieldOr found "sequence" Json.integer 0),
    Json.fieldOr found "migrations" (Json.list migrationOf) []⟩

/-- Decodes a file. -/
def decode (text : String) : Option Table := (Json.decodeText ofNode text).toOption

end Table

/-- A table and its file, if it has one. -/
structure Database where
  path : Option String
  table : Table

namespace Database

variable {m : Type → Type} [Monad m]

/-- A database without a file. -/
def inMemory (h : Host m) : m Database := do
  return ⟨none, Table.blank.migrated (← h.now)⟩

/-- The failure of opening a file. -/
def unopened : Failure :=
  .database "error returned from database: (code: 14) unable to open database file"

/-- The failure of opening a file that is no database. -/
def foreign : Failure := .database "error returned from database: (code: 26) file is not a database"

/-- Writes the table to its file. -/
def save (h : Host m) (d : Database) : m (Except Failure Unit) :=
  match d.path with
  | none => return .ok ()
  | some path => do
    match ← h.writeFile path d.table.encode.toUTF8 with
    | .ok _ => return .ok ()
    | .error _ => return .error unopened

/-- Creates the parent directory of a path. -/
def reach (h : Host m) (path : String) : m (Except Files.Fault Unit) :=
  match Files.Path.parent? path with
  | some directory => h.createDirs directory
  | none => return .ok ()

/-- The table of a file; an empty or missing file has an empty one. -/
def loaded : Except Files.Fault String → Except Failure Table
  | .ok "" => .ok .blank
  | .ok text =>
    match Table.decode text with
    | some t => .ok t
    | none => .error foreign
  | .error .missing => .ok .blank
  | .error .notText => .error foreign
  | .error _ => .error unopened

/-- Opens the database of a file, which may be missing, and migrates it. -/
def openAt (h : Host m) (path : String) : m (Except Failure Database) := do
  match ← reach h path with
  | .error f => return .error (.io f)
  | .ok _ =>
    match loaded (← h.readText path) with
    | .error f => return .error f
    | .ok table =>
      let d : Database := ⟨some path, table.migrated (← h.now)⟩
      return (← d.save h).map fun _ => d

/-- Stores a draft. -/
def create (h : Host m) (d : Database) (draft : Task.Draft) :
    m (Except Failure Task × Database) := do
  match d.table.insert draft (← h.now) with
  | .error f => return (.error f, d)
  | .ok (task, table) =>
    let grown := {d with table := table}
    match ← grown.save h with
    | .error f => return (.error f, d)
    | .ok _ => return (.ok task, grown)

end Database

end ChainAgent.Ledger
