import Rehome.Command.Run

/-! # The program -/

namespace Rehome

/-- Reads a file of the file system. -/
def readText (path : String) : IO (Except FileError String) := do
  try
    return .ok (← IO.FS.readFile path)
  catch e =>
    return .error (match e with
      | .noFileOrDirectory _ _ _ => .notFound
      | .inappropriateType _ _ _ => .isDirectory
      | _ => .other (toString e))

/-- Shows the outcome of a run, and answers its exit code. -/
def Outcome.show (outcome : Outcome) : IO UInt32 := do
  for line in outcome.output do IO.println line
  for line in outcome.error do IO.eprintln line
  return UInt32.ofNat outcome.code

end Rehome

def main (arguments : List String) : IO UInt32 := do
  let outcome ← Rehome.Command.run Rehome.readText Rehome.Config.client arguments
  outcome.show
