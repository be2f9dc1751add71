import ViewCompiler.CommandLine

/-!
# The Program

Reads the files and the variable that a run asks for, and prints its outcome.
-/

namespace ViewCompiler

namespace CommandLine

/-- The content of a file, if it can be opened. A file that can be opened and
    not read is taken to be empty, which no request is. -/
def readIfPresent (name : String) : IO (Option (List UInt8)) := do
  match ← (IO.FS.Handle.mk name .read).toBaseIO with
  | .error _ => return none
  | .ok handle =>
      match ← handle.readBinToEnd.toBaseIO with
      | .error _ => return some []
      | .ok bytes => return some bytes.toList

/-- Prints an outcome; the result is the exit code. -/
def Outcome.print : Outcome → IO UInt32
  | .printed text => do
      IO.print text
      return 0
  | .failed message => do
      IO.eprintln ("Error: " ++ message)
      return 1
  | .misused => do
      IO.eprint usageText
      return 2

/-- Runs the program with its arguments. -/
def execute (args : List String) : IO UInt32 := do
  let contents ← (filesNeeded args).mapM fun name => return (name, ← readIfPresent name)
  let limit ← IO.getEnv Settings.minDepthKey
  let files : Files := fun name => (Entries.get? name contents).join
  let env : Environment := fun key => if key = Settings.minDepthKey then limit else none
  (run args files env).print

end CommandLine

end ViewCompiler

/-- The program. -/
def main (args : List String) : IO UInt32 :=
  ViewCompiler.CommandLine.execute args
