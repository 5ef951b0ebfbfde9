import LegacyShader.Text.Utf8

/-!
# Paths

A path is a text in which slashes separate names.  Slashes and single dots at its end
do not count: `a/b`, `a/b/` and `a/b/.` have the same last name.  The last name is a
*file name* unless it is a dot or two.

The *extension* of a file name stands behind its last dot.  A dot at the start of a
file name starts no extension, and an extension may be empty.
-/

namespace LegacyShader.CommandLine

/-- A path. -/
abbrev Path := List Char

namespace Path

/-! ## The last name -/

/-- A path without slashes and single dots at its end, both backwards. -/
def trimReversed : List Char → List Char
  | '/' :: rest => trimReversed rest
  | '.' :: '/' :: rest => trimReversed rest
  | cs => cs

/-- A path without slashes and single dots at its end.  A dot that is the whole rest
stays. -/
def trimmed (p : Path) : Path := (trimReversed p.reverse).reverse

/-- The last name of a path, which is empty for an empty path and for the root. -/
def lastName (p : Path) : List Char := (p.trimmed.reverse.takeWhile (· ≠ '/')).reverse

/-- What stands in front of the last name of a path. -/
def front (p : Path) : Path := (p.trimmed.reverse.dropWhile (· ≠ '/')).reverse

/-- The file name of a path. -/
def fileName? (p : Path) : Option (List Char) :=
  let name := p.lastName
  if name = [] ∨ name = ['.'] ∨ name = ['.', '.'] then none else some name

/-- The directory around the last name of a path.  It is empty if the path is a single
name, and there is none around the root and for an empty path. -/
def parent? (p : Path) : Option Path :=
  if p.lastName = [] then none
  else
    match p.front, p.front.trimmed with
    | _ :: _, [] => some ['/']
    | _, parent => some parent

/-! ## Extensions -/

/-- A file name split at its last dot, if that starts an extension. -/
def splitExtension? (name : List Char) : Option (List Char × List Char) :=
  let extension := (name.reverse.takeWhile (· ≠ '.')).reverse
  match name.take (name.length - extension.length - 1) with
  | [] => none
  | stem => some (stem, extension)

/-- The extension of a path. -/
def extension? (p : Path) : Option (List Char) :=
  p.fileName? |>.bind splitExtension? |>.map (·.2)

/-- A file name without its extension. -/
def stem (name : List Char) : List Char :=
  match splitExtension? name with
  | some (stem, _) => stem
  | none => name

/-- A path with an extension behind its file name, which loses the one it has.  A path without a
file name stays. -/
def setExtension (p : Path) (extension : List Char) : Path :=
  match p.fileName? with
  | none => p
  | some name =>
      p.front ++ stem name ++ (match extension with
        | [] => []
        | extension => '.' :: extension)

/-- A path with another extension, or with one more name part if it has none.  The old extension
is cut off first, and what is left may have no file name: so `..a` becomes `..`. -/
def withExtension (p : Path) (extension : List Char) : Path :=
  match p.extension? with
  | some old => setExtension (p.take (p.length - old.length)) extension
  | none => setExtension p extension

/-! ## Names -/

/-- Whether a path ends in a slash. -/
def endsInSlash (p : Path) : Bool := p.getLast? == some '/'

/-- The parts of a text between slashes. -/
def slashParts : List Char → List (List Char)
  | [] => [[]]
  | c :: cs =>
      match slashParts cs with
      | [] => [[c]]
      | part :: parts => if c = '/' then [] :: part :: parts else (c :: part) :: parts

/-- The name of the root. -/
def rootName : List Char := ['/']

/-- The names of a path in order.  The root is a name of its own. -/
def names (p : Path) : List (List Char) :=
  (if p.head? = some '/' then [rootName] else []) ++ (slashParts p).filter (· ≠ [])

/-- Whether a name has more than the 255 bytes that a name can have. -/
def isLongName (name : List Char) : Bool := decide (255 < (Text.encodeUtf8 name).length)

/-- Whether a path has more than the 4095 bytes that a path can have. -/
def isLong (p : Path) : Bool := decide (4095 < (Text.encodeUtf8 p).length)

/-- A name below a directory. -/
def child (directory : Path) (name : List Char) : Path :=
  if directory.endsInSlash then directory ++ name else directory ++ '/' :: name

end Path

end LegacyShader.CommandLine
