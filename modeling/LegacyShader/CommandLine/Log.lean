/-!
# The log

A run tells what it does in the log, a record at a time.
-/

namespace LegacyShader.CommandLine

/-- How much a record matters. -/
inductive Level where
  | info
  | warn
  | error
  deriving DecidableEq, Repr, Inhabited

/-- The name of a level. -/
def Level.name : Level → String
  | .info => "INFO"
  | .warn => "WARN"
  | .error => "ERROR"

/-- A record of the log. -/
structure Record where
  /-- How much it matters. -/
  level : Level
  /-- What it says. -/
  message : String
  deriving DecidableEq, Repr, Inhabited

/-- A text whose lines but the first are indented. -/
def indentLines (cs : List Char) : List Char :=
  cs.flatMap fun c => if c = '\n' then "\n    ".toList else [c]

/-- What a record says, as it is shown. -/
def Record.text (r : Record) : String := String.ofList (indentLines r.message.toList)

/-- A record as a line of the log. -/
def Record.line (r : Record) : String := "[" ++ r.level.name ++ "] " ++ r.text

end LegacyShader.CommandLine
