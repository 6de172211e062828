import NoiseFilter.CommandLine.Run

/-!
# The program

Reads the files that the command line names, runs it, and prints what comes of it.
-/

namespace NoiseFilter.CommandLine

/-- The text of a file, if it can be read. -/
def fileText (path : String) : IO (Option String) := do
  try
    return some (← IO.FS.readFile path)
  catch _ =>
    return none

/-- Read files; each comes with its path. -/
def fileTexts (paths : List String) : IO (List (String × String)) := do
  let texts ← paths.mapM fun path => do
    return (← fileText path).map fun text => (path, text)
  return texts.filterMap id

end NoiseFilter.CommandLine

open NoiseFilter.CommandLine in
def main (args : List String) : IO UInt32 := do
  let (files, input) ←
    match Invocation.ofArguments args with
    | .error _ => pure ([], "")
    | .ok invocation => do
      let files ← fileTexts invocation.paths
      let input ← if invocation.request.readsInput then (← IO.getStdin).readToEnd else pure ""
      pure (files, input)
  let outcome := run (fun path => files.find? (·.1 == path) |>.map (·.2)) input args
  IO.print outcome.output
  IO.eprint outcome.notice
  return outcome.code.toUInt32
