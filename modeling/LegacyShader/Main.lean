import LegacyShader.CommandLine.Run

/-!
# The command

The command on the files of the system.
-/

namespace LegacyShader.CommandLine

/-- What an error of the system means for a file.  Its code may be negated. -/
def fileErrorOf : IO.Error → FileError
  | .noFileOrDirectory .. => .notFound
  | .alreadyExists .. => .alreadyThere
  | .inappropriateType _ code _ =>
      if code = 20 ∨ 0 - code = 20 then .notDirectory else .isDirectory
  | .invalidArgument _ code details =>
      if code = 36 ∨ 0 - code = 36 then .nameTooLong else .other details
  | e => .other (toString e)

/-- Carries out an operation on a file. -/
def attempt {α : Type} (action : IO α) : IO (Except FileError α) := do
  try return .ok (← action)
  catch e => return .error (fileErrorOf e)

/-- The system as a host. -/
def systemHost : Host IO where
  workingDirectory := return (← IO.currentDir).toString.toList
  isThere p := do
    match ← attempt (IO.FS.readBinFile (String.ofList p)) with
    | .ok _ | .error .isDirectory => return true
    | .error _ => return false
  read p := attempt do return (← IO.FS.readBinFile (String.ofList p)).toList
  makeDirectories p := attempt (IO.FS.createDirAll (String.ofList p))
  write p bytes := attempt (IO.FS.writeBinFile (String.ofList p) ⟨bytes.toArray⟩)
  tell r := IO.eprintln r.line
  print text := IO.print text
  complain e := IO.eprintln ("error: " ++ e.message)

end LegacyShader.CommandLine

open LegacyShader LegacyShader.CommandLine in
/-- Runs the command. -/
def main (arguments : List String) : IO UInt32 := do
  return (← systemHost.run .standard .standard arguments).toUInt32
