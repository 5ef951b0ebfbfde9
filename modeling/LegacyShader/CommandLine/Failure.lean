import LegacyShader.CommandLine.FileTree
import LegacyShader.CommandLine.Log
import LegacyShader.Json.Error
import LegacyShader.Linker
import LegacyShader.Text.Blank

/-!
# Failures

Why a run of the command ends without a program.  A failure is told as a chain of
reasons, from what was wanted to what stood in the way.
-/

namespace LegacyShader.CommandLine

/-- What a file is written for. -/
inductive Purpose where
  /-- The reflection. -/
  | reflection
  /-- A stage in WGSL. -/
  | wgsl (stage : Stage)
  /-- The program file. -/
  | programFile
  deriving DecidableEq, Repr, Inhabited

/-- The words for a purpose. -/
def Purpose.words : Purpose → String
  | .reflection => "the reflection"
  | .wgsl stage => "the " ++ stage.word ++ " WGSL"
  | .programFile => "the program file"

/-- Why a file cannot be stored. -/
inductive StoreError where
  /-- The directory around it cannot be made. -/
  | directory (path : Path) (error : FileError)
  /-- The file itself cannot be written. -/
  | file (path : Path) (error : FileError)
  deriving DecidableEq, Repr, Inhabited

/-- Why there is no program. -/
inductive Failure where
  /-- The metadata cannot be understood. -/
  | metadata (path : Path) (error : Json.ReadError)
  /-- A shader cannot be read. -/
  | read (stage : Stage) (path : Path) (error : FileError)
  /-- A shader does not compile. -/
  | compile (stage : Stage) (path : Path) (log : String)
  /-- The shaders do not link. -/
  | link (vertex fragment : Path) (status : Option LinkStatus) (log : String)
  /-- A file cannot be stored. -/
  | store (purpose : Purpose) (error : StoreError)
  deriving DecidableEq, Repr, Inhabited

/-- A path between marks. -/
def marked (p : Path) : String := "`" ++ String.ofList p ++ "`"

/-- A log without the blanks at its end. -/
def trimmedLog (log : String) : String := String.ofList (Text.trimEnd log.toList)

/-- The text of a status, if there is one. -/
def statusText : Option LinkStatus → String
  | none => "None"
  | some status => "Some(" ++ status.name ++ ")"

/-- The reasons of a failed store. -/
def StoreError.reasons : StoreError → List String
  | .directory path e => ["failed to create the output directory " ++ marked path, e.message]
  | .file path e => ["failed to write to " ++ marked path, e.message]

/-- The reasons of a failure. -/
def Failure.reasons : Failure → List String
  | .metadata path e => ["parsing the metadata " ++ marked path, e.message]
  | .read stage path e =>
      ["failed to read the " ++ stage.word ++ " shader " ++ marked path, e.message]
  | .compile stage path log =>
      ["failed to compile the " ++ stage.word ++ " shader " ++ marked path, trimmedLog log]
  | .link vertex fragment status log =>
      ["failed to link " ++ marked vertex ++ " and " ++ marked fragment ++ " (" ++
        statusText status ++ ")", trimmedLog log]
  | .store purpose e => ("failed to write " ++ purpose.words) :: e.reasons

/-- The record about a failure. -/
def Failure.record (f : Failure) : Record :=
  ⟨.error, "failed to compile the program. error:\n" ++
    "\n".intercalate (f.reasons.map ("- " ++ ·))⟩

end LegacyShader.CommandLine
