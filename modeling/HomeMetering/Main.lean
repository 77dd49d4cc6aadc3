import HomeMetering.Program

/-!
# Command line

Takes the path of a configuration, or looks for one in the usual places. Notes go to the error
stream. The program runs until it is interrupted.
-/

open HomeMetering

/-- Reads a file, and tells why it could not be read. -/
def readPath (path : String) : IO (Except IoFailure (List UInt8)) := do
  try
    let handle ← IO.FS.Handle.mk path .read
    let bytes ← handle.readBinToEnd
    return .ok bytes.toList
  catch e =>
    return .error (match e with
      | .noFileOrDirectory .. => .notFound
      | .inappropriateType .. => .isADirectory
      | e => .other (toString e))

/-- What is in the files that a configuration may stand in. -/
def readFolder (paths : List String) : IO Config.Folder := do
  let read ← paths.mapM fun p => return (p, ← readPath p)
  return fun path => (read.lookup path).getD (.error .notFound)

/-- Waits for the interrupt that ends the program. -/
partial def waitForInterrupt : IO Unit := do
  IO.sleep 1000
  waitForInterrupt

/-- Starts the program, and stays until it is interrupted. -/
def main (args : List String) : IO UInt32 := do
  let folder ← readFolder (args.head?.toList ++ Config.defaultPaths)
  let config := Config.find folder args.head?
  let (running, site) := (Program.start config).run (.new [] [] Program.nothingInstalled)
  for (severity, text) in site.notes.reverse do
    IO.eprintln (Program.severityName severity ++ " " ++ text)
  if running.isSome then waitForInterrupt
  return (Program.exitCode running).toUInt32
