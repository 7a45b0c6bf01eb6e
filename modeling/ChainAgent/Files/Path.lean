import ChainAgent.Text.Blank
import ChainAgent.Text.Lines

/-! Paths as text.

A path is absolute when it starts with a slash. Joining keeps an absolute path as it is and puts a
relative one behind its base; nothing is normalised, so a path shows how it was written. -/
namespace ChainAgent.Files.Path

def isAbsolute (p : String) : Bool := p.toList.head? == some '/'

/-- A path relative to a base. -/
def join (base p : String) : String :=
  if isAbsolute p then p
  else if base.isEmpty then p
  else if base.toList.getLast? == some '/' then base ++ p
  else base ++ "/" ++ p

/-- A reversed path without its trailing slashes and `.` components; the root stays. -/
def trimmedEnd : List Char → List Char
  | '.' :: '/' :: rest => trimmedEnd ('/' :: rest)
  | '/' :: c :: rest => trimmedEnd (c :: rest)
  | cs => cs
  termination_by cs => cs.length

/-- The parent directory of a path; none for the root and for the empty path. -/
def parent? (p : String) : Option String :=
  let cs := trimmedEnd p.toList.reverse
  if cs.isEmpty || cs == ['/'] then none
  else some (String.ofList (trimmedEnd (cs.dropWhile (· != '/'))).reverse)

/-- Expands a leading `~` or `~/` to the home directory. -/
def expandHome (home : Option String) (p : String) : String :=
  match home, p.toList with
  | some h, ['~'] => h
  | some h, '~' :: '/' :: rest => h ++ String.ofList ('/' :: rest)
  | _, _ => p

/-- A configured path: trimmed, with `~` expanded, and relative to a base. -/
def resolve (base : String) (home : Option String) (raw : String) : String :=
  join base (expandHome home (Text.trim raw))

/-- The components of a path, between its slashes. -/
def names (p : String) : List String := (Text.pieces '/' p).filter (!·.isEmpty)

/-- The components of a path relative to a directory, with `.` and `..` resolved. -/
def components (directory p : String) : List String :=
  let all := (if isAbsolute p then [] else names directory) ++ names p
  (all.foldl (fun done n => if n == "." then done else if n == ".." then done.drop 1 else n :: done)
    []).reverse

end ChainAgent.Files.Path
