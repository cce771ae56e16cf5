import Rehome.Mapping.Error

/-! # File paths

A path is a text of names between slashes. Slashes at its end do not count, and a name that is a single
dot counts only at the start. -/

namespace Rehome.Path

def isAbsolute (path : String) : Bool := path.toList.head? == some '/'

/-- A path below a directory; an absolute path stays as it is. -/
def join (directory path : String) : String :=
  if isAbsolute path then path
  else if directory = "" ∨ directory.toList.getLast? = some '/' then directory ++ path
  else s!"{directory}/{path}"

/-- Drops from a reversed path the slashes and single dots at its end, but not the root. -/
def dropBlankNames : List Char → List Char
  | [] => []
  | c :: rest =>
    if c = '/' ∧ ¬rest.isEmpty then dropBlankNames rest
    else if c = '.' ∧ rest.head? = some '/' then dropBlankNames rest
    else c :: rest

/-- The path in reverse, up to its last name. -/
def reversed (path : String) : List Char := dropBlankNames path.toList.reverse

/-- The directory that holds the last name of a path, if it has a last name. -/
def parent? (path : String) : Option String :=
  let cs := reversed path
  if cs = [] ∨ cs = ['/'] then none
  else some (String.ofList (dropBlankNames (cs.dropWhile (· ≠ '/'))).reverse)

/-- The last name of a path, in reverse; dots are no names. -/
def lastName? (path : String) : Option (List Char) :=
  let name := (reversed path).takeWhile (· ≠ '/')
  if name = [] ∨ name = ['.'] ∨ name = ['.', '.'] then none else some name

/-- What follows the last dot of the last name, unless the name starts with that dot. -/
def extension? (path : String) : Option String := do
  let name ← lastName? path
  match name.dropWhile (· ≠ '.') with
  | [] | [_] => none
  | _ => some (String.ofList (name.takeWhile (· ≠ '.')).reverse)

end Rehome.Path
