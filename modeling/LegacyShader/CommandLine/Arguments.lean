import LegacyShader.CommandLine.Path

/-!
# Arguments

The command takes the paths of a vertex and a fragment shader and may take the path of
the output.  Options stand anywhere among them, until a lone `--` ends them.  The
arguments are read from left to right and the first that asks for help, asks for the
version or cannot be used decides; only then it matters whether a path is missing.
-/

namespace LegacyShader.CommandLine

/-- What shall be compiled, and where to. -/
structure CompileArguments where
  /-- The path of the vertex shader. -/
  vertex : Path
  /-- The path of the fragment shader. -/
  fragment : Path
  /-- The path of the program file. -/
  output : Option Path := none
  /-- The path of the reflection, if it shall be written. -/
  reflection : Option Path := none
  /-- Whether the stages shall be written in WGSL too. -/
  emitWgsl : Bool := false
  deriving DecidableEq, Repr, Inhabited

/-- What the arguments ask for. -/
inductive Command where
  /-- The text about the command. -/
  | help
  /-- The version of the command. -/
  | version
  /-- A program. -/
  | compile (arguments : CompileArguments)
  deriving DecidableEq, Repr, Inhabited

/-- Why arguments cannot be used. -/
inductive UsageError where
  /-- There are none. -/
  | nothing
  /-- An argument that is not expected. -/
  | unexpected (argument : String)
  /-- An option without its value. -/
  | valueMissing (option : String)
  /-- A path that is empty. -/
  | emptyPath
  /-- An option that occurs twice. -/
  | repeated (option : String)
  /-- A path that has to be given and is not. -/
  | pathMissing (name : String)
  deriving DecidableEq, Repr, Inhabited

/-- The text of an error. -/
def UsageError.message : UsageError → String
  | .nothing => "no arguments"
  | .unexpected argument => "unexpected argument '" ++ argument ++ "' found"
  | .valueMissing option => "a value is required for '" ++ option ++ "' but none was supplied"
  | .emptyPath => "a value is required but none was supplied"
  | .repeated option => "the argument '" ++ option ++ "' cannot be used multiple times"
  | .pathMissing name => "the required argument <" ++ name ++ "> was not provided"

/-! ## Texts -/

/-- The text about the command. -/
def helpText : String :=
  "compiles legacy GLSL vertex/fragment pairs into SPIR-V programs with reflection

Usage: shader-compat [OPTIONS] <vertex> <fragment> [output]

Arguments:
  <vertex>    legacy GLSL vertex shader
  <fragment>  legacy GLSL fragment shader
  [output]    program resource file to write

Options:
      --reflection <reflection>  also write the reflection as JSON to this path
      --wgsl                     also write each linked stage as WGSL next to the output
  -h, --help                     Print help
  -V, --version                  Print version
"

/-- The name and the version of the command. -/
def versionText : String := "shader-compat 0.1.0\n"

/-! ## Reading -/

/-- What has been read of the arguments. -/
structure Collected where
  /-- The paths without an option, in order. -/
  paths : List Path := []
  /-- The path of the reflection. -/
  reflection : Option Path := none
  /-- Whether WGSL has been asked for. -/
  emitWgsl : Bool := false
  deriving DecidableEq, Repr, Inhabited

namespace Collected

/-- Adds a path without an option. -/
def addPath (c : Collected) (argument : List Char) : Except UsageError Collected :=
  if 3 ≤ c.paths.length then .error (.unexpected (String.ofList argument))
  else if argument = [] then .error .emptyPath
  else .ok { c with paths := c.paths ++ [argument] }

/-- Sets the path of the reflection. -/
def setReflection (c : Collected) (value : List Char) : Except UsageError Collected :=
  if c.reflection.isSome then .error (.repeated "--reflection <reflection>")
  else if value = [] then .error .emptyPath
  else .ok { c with reflection := some value }

/-- Asks for WGSL. -/
def setWgsl (c : Collected) : Except UsageError Collected :=
  if c.emitWgsl then .error (.repeated "--wgsl") else .ok { c with emitWgsl := true }

/-- What the arguments ask for, once all have been read. -/
def command (c : Collected) : Except UsageError Command :=
  match c.paths with
  | [] => .error (.pathMissing "vertex")
  | [_] => .error (.pathMissing "fragment")
  | vertex :: fragment :: output =>
      .ok (.compile ⟨vertex, fragment, output.head?, c.reflection, c.emitWgsl⟩)

end Collected

/-- Whether an argument is read as an option.  A lone dash is a path. -/
def isOption : List Char → Bool
  | '-' :: _ :: _ => true
  | _ => false

/-- Reads arguments of which none is an option. -/
def readPaths : Collected → List (List Char) → Except UsageError Command
  | c, [] => c.command
  | c, argument :: rest => do readPaths (← c.addPath argument) rest

/-- Reads an option that has no value behind it. -/
def readOption (c : Collected) (argument : List Char) :
    Except UsageError (Collected ⊕ Command) :=
  let reflection := "--reflection=".toList
  if argument = "--help".toList then .ok (.inr .help)
  else if argument = "--version".toList then .ok (.inr .version)
  else if argument = "--wgsl".toList then c.setWgsl.map .inl
  else if reflection.isPrefixOf argument then
    (c.setReflection (argument.drop reflection.length)).map .inl
  else
    match argument with
    | '-' :: 'h' :: _ => .ok (.inr .help)
    | '-' :: 'V' :: _ => .ok (.inr .version)
    | _ => .error (.unexpected (String.ofList argument))

/-- Reads arguments. -/
def readArguments : Collected → List (List Char) → Except UsageError Command
  | c, [] => c.command
  | c, argument :: rest =>
      if argument = "--".toList then readPaths c rest
      else if argument = "--reflection".toList then
        match rest with
        | value :: rest =>
            if isOption value then .error (.valueMissing "--reflection <reflection>")
            else do readArguments (← c.setReflection value) rest
        | [] => .error (.valueMissing "--reflection <reflection>")
      else if isOption argument then do
        match ← readOption c argument with
        | .inl c => readArguments c rest
        | .inr command => return command
      else do readArguments (← c.addPath argument) rest

/-- What the arguments of the command ask for. -/
def parseArguments (arguments : List String) : Except UsageError Command :=
  match arguments with
  | [] => .error .nothing
  | _ => readArguments {} (arguments.map String.toList)

end LegacyShader.CommandLine
