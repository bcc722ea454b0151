import CastHub.Demo.Run
/-!
# The demonstration program

Takes the path of a configuration file, or uses the default configuration.
-/

open CastHub

/-- What is in a file; `none` if it cannot be read. -/
def readFile (path : String) : IO (Option ByteArray) := do
  try
    return some (← IO.FS.readBinFile path)
  catch _ =>
    return none

/-- Runs the demonstration. -/
def main (args : List String) : IO UInt32 := do
  let (name, config) ← match args with
    | path :: _ => pure (path, Config.load (← readFile path))
    | [] => pure ("defaults", Config.parse Demo.defaultConfig)
  let result := Demo.run name config
  for line in result.lines do
    IO.println line
  match result.failure with
  | none => return 0
  | some reason =>
    IO.eprintln ("Error: " ++ reason)
    return 1
