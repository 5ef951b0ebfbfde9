import LegacyShader.CommandLine.Path
import LegacyShader.Text.Utf8

/-!
# File trees

A file tree holds files and directories below a working directory.  A place in it is
the list of names that leads there.  The working directory itself, the directories
above it and the root are always there.

A path is followed name by name, and every name but the last has to be that of a
directory.
-/

namespace LegacyShader.CommandLine

/-- Why an operation on a file fails. -/
inductive FileError where
  /-- Nothing is there. -/
  | notFound
  /-- A file is where a directory shall be made. -/
  | alreadyThere
  /-- A file is where a directory is needed. -/
  | notDirectory
  /-- A directory is where a file is needed. -/
  | isDirectory
  /-- A name or a path is too long. -/
  | nameTooLong
  /-- The bytes of the file are not UTF-8. -/
  | notText
  /-- Another reason, in the words of the system. -/
  | other (message : String)
  deriving DecidableEq, Repr, Inhabited

/-- The text of an error. -/
def FileError.message : FileError → String
  | .notFound => "No such file or directory (os error 2)"
  | .alreadyThere => "File exists (os error 17)"
  | .notDirectory => "Not a directory (os error 20)"
  | .isDirectory => "Is a directory (os error 21)"
  | .nameTooLong => "File name too long (os error 36)"
  | .notText => "stream did not contain valid UTF-8"
  | .other message => message

/-- Reads the bytes of a file as text. -/
def textOf (bytes : List UInt8) : Except FileError (List Char) :=
  (Text.decodeUtf8 bytes).mapError fun _ => .notText

/-- What is at a place. -/
inductive Node where
  /-- A file with its bytes. -/
  | file (bytes : List UInt8)
  /-- A directory. -/
  | directory
  deriving DecidableEq, Repr, Inhabited

/-- A place, as the names that lead there from the working directory. -/
abbrev Place := List (List Char)

/-- A file tree. -/
structure FileTree where
  /-- The path of the working directory. -/
  workingDirectory : Path
  /-- What is at each place, the latest first. -/
  nodes : List (Place × Node) := []
  deriving Repr, Inhabited

namespace FileTree

/-! ## Places -/

/-- The name of the directory above. -/
def upName : List Char := ['.', '.']

/-- Whether a place is the working directory, a directory above it, or the root. -/
def isAlwaysThere (place : Place) : Bool :=
  place.all (· == upName) || place == [Path.rootName]

/-- What is at a place. -/
def node? (t : FileTree) (place : Place) : Option Node :=
  if isAlwaysThere place then some .directory else t.nodes.lookup place

/-- The tree with something at a place. -/
def put (t : FileTree) (place : Place) (node : Node) : FileTree :=
  { t with nodes := (place, node) :: t.nodes.filter (·.1 ≠ place) }

/-- The place above a place. -/
def above (place : Place) : Place :=
  if place = [Path.rootName] then place
  else if place.all (· == upName) then place ++ [upName]
  else place.dropLast

/-- Follows names from a place. -/
def walk (t : FileTree) : Place → List (List Char) → Except FileError Place
  | place, [] => .ok place
  | place, name :: names =>
      match t.node? place with
      | none => .error .notFound
      | some (.file _) => .error .notDirectory
      | some .directory =>
          if name = ['.'] then walk t place names
          else if name = upName then walk t (above place) names
          else if Path.isLongName name then .error .nameTooLong
          else walk t (place ++ [name]) names

/-- The names of a path behind those of the working directory, if it starts with
them. -/
def namesFrom (t : FileTree) (p : Path) : List (List Char) :=
  let own := Path.names t.workingDirectory
  if own.isPrefixOf p.names then p.names.drop own.length else p.names

/-- The place that names lead to.  Nothing need be there. -/
def place (t : FileTree) (names : List (List Char)) : Except FileError Place :=
  match names with
  | [] => .ok []
  | name :: rest => if name = Path.rootName then t.walk [name] rest else t.walk [] names

/-- What a path leads to.  A slash at its end asks for a directory. -/
def find (t : FileTree) (p : Path) : Except FileError Node := do
  if p.isLong then throw .nameTooLong
  let place ← t.place (t.namesFrom p ++ if p.endsInSlash then [['.']] else [])
  match t.node? place with
  | some node => return node
  | none => throw .notFound

/-! ## Operations -/

/-- Whether anything is at a path. -/
def isThere (t : FileTree) (p : Path) : Bool := (t.find p).isOk

/-- The bytes of a file. -/
def read (t : FileTree) (p : Path) : Except FileError (List UInt8) := do
  match ← t.find p with
  | .file bytes => return bytes
  | .directory => throw .isDirectory

/-- Makes a directory where none is, in a directory that is there. -/
def makeDirectory (t : FileTree) (names : List (List Char)) : Except FileError FileTree := do
  let place ← t.place names
  match t.node? place with
  | none => return t.put place .directory
  | some .directory => return t
  | some (.file _) => throw .alreadyThere

/-- Makes a directory and those above it where they are missing.  The names are given
backwards. -/
def makeDirectoriesReversed (t : FileTree) : List (List Char) → Except FileError FileTree
  | [] => .ok t
  | name :: names =>
      match t.makeDirectory (name :: names).reverse with
      | .error .notFound => do
          let t ← makeDirectoriesReversed t names
          t.makeDirectory (name :: names).reverse
      | outcome => outcome

/-- Makes a directory and those above it where they are missing. -/
def makeDirectories (t : FileTree) (p : Path) : Except FileError FileTree :=
  if p.isLong then .error .nameTooLong else t.makeDirectoriesReversed (t.namesFrom p).reverse

/-- Writes a file in a directory that is there. -/
def write (t : FileTree) (p : Path) (bytes : List UInt8) : Except FileError FileTree := do
  if p.isLong then throw .nameTooLong
  let place ← t.place (t.namesFrom p)
  if p.endsInSlash then throw .isDirectory
  match t.node? place with
  | some .directory => throw .isDirectory
  | _ => return t.put place (.file bytes)

/-! ## Trees of files -/

/-- The tree with a file at a path and the directories around it. -/
def addFile (t : FileTree) (p : Path) (bytes : List UInt8) : FileTree :=
  let place := p.names.filter (· ≠ ['.'])
  let directories := (List.range place.length).map (place.take ·)
  (directories.foldl (fun t d => t.put d .directory) t).put place (.file bytes)

/-- The tree that holds the given files. -/
def ofFiles (workingDirectory : Path) (files : List (Path × List UInt8)) : FileTree :=
  files.foldl (fun t (p, bytes) => t.addFile p bytes) { workingDirectory }

/-- The files at and below the working directory, each at its path from there. -/
def files (t : FileTree) : List (Path × List UInt8) :=
  t.nodes.filterMap fun (place, node) =>
    match node with
    | .file bytes =>
        if place.head? = some upName ∨ place.head? = some Path.rootName then none
        else some (['/'].intercalate place, bytes)
    | .directory => none

end FileTree

end LegacyShader.CommandLine
