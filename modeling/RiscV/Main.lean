import RiscV.Command.Run

/-!
# The program

The files a request names are read first; what they hold is handed to the run,
and what the run shows is printed.  An environment variable says how much of the
log is shown.
-/

namespace RiscV.Command

/-- The paths a request needs. -/
def Request.paths : Request → List String
  | words s _ => s.config.toList
  | file s path => s.config.toList ++ [path]
  | help | version => []

/-- The environment variable that holds the level of the log. -/
def logVariable : String := "RUST_LOG"

/-- Why the system could not read a file. -/
def failureOf (error : IO.Error) : ReadFailure :=
  match error with
  | .noFileOrDirectory .. => .notFound
  | .inappropriateType .. => .isDirectory
  | error => .other (toString error)

/-- Read a file. -/
def readBytes (path : String) : IO (Except ReadFailure (List UInt8)) := do
  try
    return .ok (← IO.FS.readBinFile path).toList
  catch error =>
    return .error (failureOf error)

/-- Read the files at some paths. -/
def readFiles (paths : List String) : IO Files := do
  let contents ← paths.mapM fun path => return (path, ← readBytes path)
  return fun path => (contents.lookup path).getD (.error .notFound)

/-- Show a transcript, and give its exit code. -/
def Transcript.print (t : Transcript) (least : Option Severity) : IO UInt32 := do
  for event in t.log do
    if event.isShown least then IO.eprintln event.line
  for line in t.output do
    IO.println line
  if let some message := t.message then
    IO.eprintln (if t.exitCode = 1 then "rvdis: " ++ message else message)
  return UInt32.ofNat t.exitCode

end RiscV.Command

open RiscV RiscV.Command in
/-- Run the program on its arguments. -/
def main (arguments : List String) : IO UInt32 := do
  let least := Severity.ofLevel ((← IO.getEnv logVariable).getD "warn")
  match Request.parse arguments with
  | .ok request => (request.run (← readFiles request.paths)).print least
  | .error _ => (run arguments fun _ => .error .notFound).print least
