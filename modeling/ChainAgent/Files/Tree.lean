import ChainAgent.Files.Fault
import ChainAgent.Files.Path

/-! File trees.

A tree maps the components of paths to files and directories. An operation on a path that goes
through a file, ends at a directory or does not exist fails with the error that a POSIX system
reports. -/
namespace ChainAgent.Files

inductive Entry where
  | directory
  | file (bytes : ByteArray)

/-- Everything below the root. -/
structure Tree where
  entries : List (List String × Entry)

namespace Tree

def empty : Tree := ⟨[]⟩

/-- The entry at a path; the root is a directory. -/
def get? (t : Tree) (place : List String) : Option Entry :=
  if place.isEmpty then some .directory
  else (t.entries.find? (·.1 == place)).map (·.2)

def put (t : Tree) (place : List String) (e : Entry) : Tree :=
  ⟨(place, e) :: t.entries.filter (·.1 != place)⟩

/-- The error for a path without an entry: it may lead through a file. -/
def absence (t : Tree) (place : List String) : Fault :=
  let ways := (List.range place.length).map place.take
  if ways.any (fun w => match t.get? w with
    | some (.file _) => true
    | _ => false) then .notDirectory
  else .missing

def read (t : Tree) (place : List String) : Except Fault ByteArray :=
  match t.get? place with
  | some (.file bytes) => .ok bytes
  | some .directory => .error .isDirectory
  | none => .error (t.absence place)

/-- Replaces a file, or creates one in an existing directory. -/
def write (t : Tree) (place : List String) (bytes : ByteArray) : Except Fault Tree :=
  match t.get? place with
  | some (.file _) => .ok (t.put place (.file bytes))
  | some .directory => .error .isDirectory
  | none =>
    match t.get? place.dropLast with
    | some .directory => .ok (t.put place (.file bytes))
    | _ => .error (t.absence place)

/-- Appends bytes to a file, which is created if it is missing. -/
def append (t : Tree) (place : List String) (bytes : ByteArray) : Except Fault Tree :=
  match t.get? place with
  | some (.file old) => .ok (t.put place (.file (old ++ bytes)))
  | some .directory => .error .isDirectory
  | none => t.write place bytes

/-- Creates a directory and its parents. -/
def createDirs (t : Tree) (place : List String) : Except Fault Tree :=
  match t.get? place with
  | some .directory => .ok t
  | some (.file _) => .error .exists
  | none =>
    match t.absence place with
    | .missing =>
      .ok ((List.range place.length).foldl (fun t n =>
        let way := place.take (n + 1)
        if (t.get? way).isSome then t else t.put way .directory) t)
    | fault => .error fault

def isPresent (t : Tree) (place : List String) : Bool := (t.get? place).isSome

def isDirectory (t : Tree) (place : List String) : Bool :=
  match t.get? place with
  | some .directory => true
  | _ => false

end Tree

end ChainAgent.Files
