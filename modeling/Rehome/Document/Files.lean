import Rehome.Mapping.Error

/-! # Files in memory

Files by their paths from the root, and the working directory that relative paths start from. A place is
a directory if some file lies below it. Every name of a path but the last must lead to a directory. -/

namespace Rehome

structure Files where
  /-- The working directory, as names from the root. -/
  directory : List String
  contents : List (List String × String)

namespace Files

def isFile (place : List String) (f : Files) : Bool := (f.contents.lookup place).isSome

def isDirectory (place : List String) (f : Files) : Bool :=
  (f.directory :: f.contents.map fun p => p.1.dropLast).any place.isPrefixOf

/-- Why nothing can be found below a place, if so. -/
def obstacle? (place : List String) (f : Files) : Option FileError :=
  if f.isDirectory place then none
  else if f.isFile place then some .notDirectory
  else some .notFound

/-- The place that a name leads to from a directory. -/
def enter (place : List String) (name : String) : List String :=
  if name = "" ∨ name = "." then place
  else if name = ".." then place.dropLast
  else place ++ [name]

/-- The place that names lead to. -/
def follow (f : Files) : List String → List String → Except FileError (List String)
  | place, [] => .ok place
  | place, name :: rest =>
    match f.obstacle? place with
    | some e => .error e
    | none => follow f (enter place name) rest

def read (path : String) (f : Files) : Except FileError String := do
  if path = "" then throw .notFound
  let start := if path.toList.head? = some '/' then [] else f.directory
  let place ← f.follow start (path.splitOn "/")
  match f.contents.lookup place with
  | some text => return text
  | none => throw (if f.isDirectory place then .isDirectory else .notFound)

/-- Adds a file, by its path below the working directory. -/
def insert (path text : String) (f : Files) : Files :=
  { f with contents := (f.directory ++ path.splitOn "/", text) :: f.contents }

end Files

end Rehome
