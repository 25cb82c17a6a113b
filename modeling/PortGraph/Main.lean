import PortGraph.Command.Run

/-!
# The command line

Runs a graph file with the files of the system, writes the log to the standard output, and ends
with the exit code of the run.
-/

set_option autoImplicit false

namespace PortGraph

/-- What an error of the system says about a file. -/
def FileError.ofSystem : IO.Error → FileError
  | .noFileOrDirectory .. => .notFound
  | .inappropriateType _ 20 _ => .notDirectory
  | .inappropriateType _ 21 _ => .isDirectory
  | .invalidArgument _ 36 _ => .nameTooLong
  | .permissionDenied _ code details | .resourceExhausted _ code details =>
    .other s!"{details} (os error {code})"
  | e => .other (toString e)

/-- Read the text of a file of the system. -/
def readSystemFile (path : String) : IO (Except FileError String) := do
  if !Path.isValid path then return .error .invalidName
  try
    let handle ← IO.FS.Handle.mk path .read
    match String.fromUTF8? (← handle.readBinToEnd) with
    | some text => return .ok text
    | none => return .error .notText
  catch e => return .error (.ofSystem e)

/-- Write a text to a file of the system. -/
def writeSystemFile (path text : String) : IO (Except FileError Unit) := do
  if !Path.isValid path then return .error .invalidName
  try
    IO.FS.writeFile path text
    return .ok ()
  catch e => return .error (.ofSystem e)

/-- Whether there is something at a path of the system. -/
def isPresentInSystem (path : String) : IO Bool := do
  try
    let _ ← IO.FS.realPath path
    return true
  catch _ => return false

/-- The files of the system. -/
def systemFiles : FileAccess IO where
  read := readSystemFile
  write := writeSystemFile
  isPresent := isPresentInSystem

end PortGraph

/-- Run the command. -/
def main (args : List String) : IO UInt32 := do
  let report ← PortGraph.Command.run PortGraph.systemFiles args
  for line in report.lines do
    IO.println s!"{line.level.name} {line.topic.target}: {line.message}"
  return report.exitCode.toUInt32
