import TraceWeave.Command.Run

/-! # The program

Reads the files and variables that a run needs, runs it, and prints what it reports.

`worldOf` reads the files, `execute` runs and prints, and `main` passes the arguments on.
-/

namespace TraceWeave.Command

/-- The text of a file that can be read. -/
def readText (path : String) : IO (Option (String × String)) := do
  try
    return some (path, ← IO.FS.readFile path)
  catch _ => return none

/-- The texts of those files that can be read. -/
def readTexts (paths : List String) : IO (List (String × String)) := do
  return (← paths.mapM readText).filterMap id

/-- The value of an environment variable that is set. -/
def readSetting (name : String) : IO (Option (String × String)) := do
  return (← IO.getEnv name).map fun value => (name, value)

/-- The world in which some files and variables can be seen. -/
def worldOf (files settings : List (String × String)) : World :=
  { file? := fun path => files.lookup path, setting? := fun name => settings.lookup name }

/-- Runs the program on its arguments and prints the report: what it answers goes to the standard
output, and why it failed to the standard error. -/
def execute (args : List String) : IO UInt32 := do
  let settings ← ["SPYGLASS_DISABLE_TRACING", "SPYGLASS_DISABLE_INTRINSICS"].mapM readSetting
  let settings := settings.filterMap id
  let mut files := []
  if let .ok job := readArguments args {} then
    files ← readTexts (inputFiles job)
    files := files ++ (← readTexts (sourceFiles (worldOf files settings) job))
  let report := run (worldOf files settings) args
  IO.print report.stdout
  if let some failure := report.failure then IO.eprintln failure.message
  for diagnostic in report.diagnostics do IO.eprintln s!"  {diagnostic.text}"
  return UInt32.ofNat report.exit

end TraceWeave.Command

def main (args : List String) : IO UInt32 := TraceWeave.Command.execute args
