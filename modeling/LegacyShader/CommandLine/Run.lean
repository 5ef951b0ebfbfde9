import LegacyShader.CommandLine.Compilation

/-!
# Runs of the command

A run does its reading, writing and telling through a *host*, in whatever way the host
does it.  A *world* is a host that is a value: a file tree, and what has been told.
-/

namespace LegacyShader.CommandLine

/-! ## Hosts -/

/-- What a run needs from its surroundings. -/
structure Host (m : Type → Type) where
  /-- The path of the working directory. -/
  workingDirectory : m Path
  /-- Whether anything is at a path. -/
  isThere : Path → m Bool
  /-- The bytes of a file. -/
  read : Path → m (Except FileError (List UInt8))
  /-- Makes a directory and those above it where they are missing. -/
  makeDirectories : Path → m (Except FileError Unit)
  /-- Writes a file in a directory that is there. -/
  write : Path → List UInt8 → m (Except FileError Unit)
  /-- Adds a record to the log. -/
  tell : Record → m Unit
  /-- Prints a text that was asked for. -/
  print : String → m Unit
  /-- Tells what is wrong with the arguments. -/
  complain : UsageError → m Unit

namespace Host

variable {m : Type → Type} [Monad m]

/-- The text of a file. -/
def readText (h : Host m) (p : Path) : m (Except FileError (List Char)) := do
  return (← h.read p) >>= textOf

/-- Stores a file, and makes the directories around it. -/
def store (h : Host m) (p : Path) (bytes : List UInt8) : m (Except StoreError Unit) := do
  match p.parent? with
  | some (c :: directory) =>
      match ← h.makeDirectories (c :: directory) with
      | .error e => return .error (.directory (c :: directory) e)
      | .ok () => return (← h.write p bytes).mapError (.file p)
  | _ => return (← h.write p bytes).mapError (.file p)

/-- Takes the steps of a delivery, until one fails. -/
def deliver (h : Host m) : List Step → m (Except Failure Unit)
  | [] => return .ok ()
  | .log r :: steps => do
      h.tell r
      deliver h steps
  | .store purpose path bytes :: steps => do
      match ← h.store path bytes with
      | .error e => return .error (.store purpose e)
      | .ok () => deliver h steps

/-- Looks where the arguments point to. -/
def findings (h : Host m) (a : CompileArguments) : m Findings := do
  let workingDirectory ← h.workingDirectory
  let outputIsThere ← h.isThere (a.outputPath workingDirectory)
  let metadata ← h.readText (metadataPath a.vertex)
  let vertex ← h.readText a.vertex
  let fragment ← h.readText a.fragment
  return ⟨workingDirectory, outputIsThere, metadata, vertex, fragment⟩

/-- Compiles a program, or tells why not. -/
def compile (h : Host m) (front : FrontEnd) (backend : Backend) (a : CompileArguments) :
    m (Except Failure Unit) := do
  let found ← h.findings a
  match (makeProduct front backend a found).run [] with
  | .ok product log => do
      log.forM h.tell
      h.deliver product.steps
  | .error failure log => do
      log.forM h.tell
      return .error failure

/-- Runs the command and gives its exit code: zero if it did what was asked for, one if
there is no program, two if the arguments cannot be used. -/
def run (h : Host m) (front : FrontEnd) (backend : Backend) (arguments : List String) :
    m Nat := do
  match parseArguments arguments with
  | .error e => do
      h.complain e
      return 2
  | .ok .help => do
      h.print helpText
      return 0
  | .ok .version => do
      h.print versionText
      return 0
  | .ok (.compile a) => do
      match ← h.compile front backend a with
      | .ok () => return 0
      | .error failure =>
          h.tell failure.record
          return 1

end Host

/-! ## Worlds -/

/-- A file tree, and what has been told. -/
structure World where
  /-- The files. -/
  files : FileTree
  /-- The log. -/
  log : List Record := []
  /-- What has been printed. -/
  printed : String := ""
  deriving Repr, Inhabited

namespace World

/-- Changes the files, unless that fails. -/
def change (f : FileTree → Except FileError FileTree) : StateM World (Except FileError Unit) :=
  fun w =>
    match f w.files with
    | .ok files => (.ok (), { w with files })
    | .error e => (.error e, w)

/-- A world as a host. -/
def host : Host (StateM World) where
  workingDirectory := return (← get).files.workingDirectory
  isThere p := return (← get).files.isThere p
  read p := return (← get).files.read p
  makeDirectories p := change (·.makeDirectories p)
  write p bytes := change (·.write p bytes)
  tell r := modify fun w => { w with log := w.log ++ [r] }
  print text := modify fun w => { w with printed := w.printed ++ text }
  complain _ := return ()

/-- Runs the command in a world. -/
def run (w : World) (front : FrontEnd) (backend : Backend) (arguments : List String) :
    Nat × World :=
  (host.run front backend arguments).run w

end World

end LegacyShader.CommandLine
