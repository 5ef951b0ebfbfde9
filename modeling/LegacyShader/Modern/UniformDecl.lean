import LegacyShader.Text.Blank
import LegacyShader.Text.Identifier

/-!
# Uniform declarations

A legacy shader declares its uniforms one by one.  The scan finds every
declaration of the form

    uniform [precision] type name [array];

and every other use of the word `uniform`, which it reports as unrecognized.  The
grammar is narrow on purpose: lists of names, structures and blocks do not belong
to it.

Texts are lists of characters, and offsets and lengths count characters.
-/

namespace LegacyShader.Modern

/-- A declaration of one uniform. -/
structure UniformDecl where
  /-- Where the declaration starts. -/
  offset : Nat
  /-- The number of its characters, the semicolon included. -/
  length : Nat
  /-- The precision word. -/
  precision : Option (List Char)
  /-- The type word. -/
  type : List Char
  /-- The name. -/
  name : List Char
  /-- The brackets behind the name, or nothing. -/
  suffix : List Char
  deriving DecidableEq, Repr, Inhabited

namespace UniformDecl

/-- Whether the uniform is a texture with its sampler. -/
def isOpaque (d : UniformDecl) : Bool :=
  d.type == "sampler2D".toList || d.type == "samplerCube".toList

/-- Whether the uniform is a matrix of two columns and rows, or several. -/
def isMat2 (d : UniformDecl) : Bool := d.type == "mat2".toList

/-- Where the declaration ends. -/
def stop (d : UniformDecl) : Nat := d.offset + d.length

/-- Whether the uniform cannot stand behind one macro name: an array of textures
or of small matrices. -/
def isUnsupportedArray (d : UniformDecl) : Bool :=
  (d.isOpaque || d.isMat2) && !d.suffix.isEmpty

end UniformDecl

/-! ## Grammar -/

/-- Whether a character separates the words of a declaration. -/
def isSpace (c : Char) : Bool :=
  c == ' ' || c == '\t' || c == '\n' || c == '\r' || c == '\x0b' || c == '\x0c'

/-- The keyword of a declaration. -/
def keyword : List Char := "uniform".toList

/-- The text behind at least one space. -/
def afterSpaces? (cs : List Char) : Option (List Char) :=
  match cs with
  | c :: rest => if isSpace c then some (rest.dropWhile isSpace) else none
  | [] => none

/-- The word at the start of a text, and the text behind it. -/
def takeWord? (cs : List Char) : Option (List Char × List Char) :=
  match cs.takeWhile Text.isWordChar with
  | [] => none
  | word => some (word, cs.dropWhile Text.isWordChar)

/-- The text behind a semicolon, which spaces may precede. -/
def afterSemicolon? (cs : List Char) : Option (List Char) :=
  match cs.dropWhile isSpace with
  | ';' :: rest => some rest
  | _ => none

/-- The rest of an array suffix up to the first closing bracket that a semicolon
follows, on the same line.  The result is that part and the text behind the
semicolon. -/
def takeBrackets? : List Char → Option (List Char × List Char)
  | [] => none
  | c :: rest =>
      if c = '\n' then none
      else
        match (if c = ']' then afterSemicolon? rest else none) with
        | some behind => some ([c], behind)
        | none => (takeBrackets? rest).map fun (inner, behind) => (c :: inner, behind)

/-- The end of a declaration: an array suffix, if there is one, and a semicolon.
The result is the suffix and the text behind the semicolon. -/
def takeTail? (cs : List Char) : Option (List Char × List Char) :=
  match cs.dropWhile isSpace with
  | '[' :: rest => (takeBrackets? rest).map fun (inner, behind) => ('[' :: inner, behind)
  | ';' :: rest => some ([], rest)
  | _ => none

/-- The declaration at the start of a text, which starts with the keyword.  The
form with a precision word is tried first. -/
def parseDecl? (offset : Nat) (text : List Char) : Option UniformDecl := do
  let rest ← afterSpaces? (text.drop keyword.length)
  let (first, rest) ← takeWord? rest
  let rest ← afterSpaces? rest
  let (second, rest) ← takeWord? rest
  let long := do
    let (third, rest) ← takeWord? (← afterSpaces? rest)
    let (suffix, rest) ← takeTail? rest
    return (third, suffix, rest)
  match long with
  | some (third, suffix, rest) =>
      return ⟨offset, text.length - rest.length, some first, second, third, suffix⟩
  | none =>
      let (suffix, rest) ← takeTail? rest
      return ⟨offset, text.length - rest.length, none, first, second, suffix⟩

/-! ## Scan -/

/-- A use of the keyword that starts no declaration. -/
structure UnrecognizedUniform where
  /-- Where the keyword stands. -/
  offset : Nat
  /-- The statement it starts. -/
  text : List Char
  deriving DecidableEq, Repr, Inhabited

/-- What a scan finds, in the order of the text. -/
inductive UniformUse where
  /-- A declaration. -/
  | declared (decl : UniformDecl)
  /-- Another use of the keyword. -/
  | unrecognized (use : UnrecognizedUniform)
  deriving DecidableEq, Repr, Inhabited

/-- The statement at the start of a text: up to its semicolon, or up to a brace or
the end of the line. -/
def statementText (text : List Char) : List Char :=
  let ends (c : Char) : Bool := c == ';' || c == '\x7b' || c == '\n'
  let front := text.takeWhile fun c => !ends c
  match text.dropWhile fun c => !ends c with
  | ';' :: _ => Text.trim (front ++ [';'])
  | _ => Text.trim front

/-- Whether the keyword stands at the start of a text as a whole word, given the
character before it. -/
def startsKeyword (previous : Option Char) (text : List Char) : Bool :=
  keyword.isPrefixOf text && !previous.any Text.isWordChar &&
    !(text.drop keyword.length).head?.any Text.isWordChar

/-- The uses of the keyword in a text that starts at an offset. -/
def scanFrom (offset : Nat) (previous : Option Char) (text : List Char) : List UniformUse :=
  match text with
  | [] => []
  | c :: rest =>
      if startsKeyword previous (c :: rest) then
        match parseDecl? offset (c :: rest) with
        | some d =>
            .declared d :: scanFrom (offset + max 1 d.length) (some ';') (rest.drop (d.length - 1))
        | none =>
            .unrecognized ⟨offset, statementText (c :: rest)⟩ ::
              scanFrom (offset + 1) (some c) rest
      else scanFrom (offset + 1) (some c) rest
termination_by text.length
decreasing_by all_goals (simp only [List.length_cons, List.length_drop]; omega)

/-- What a scan of a text finds. -/
structure UniformScan where
  /-- The declarations. -/
  decls : List UniformDecl
  /-- The other uses of the keyword. -/
  unrecognized : List UnrecognizedUniform
  deriving DecidableEq, Repr, Inhabited

/-- Finds every declaration, and every other use of the keyword. -/
def scanUniforms (text : List Char) : UniformScan :=
  let uses := scanFrom 0 none text
  { decls := uses.filterMap fun | .declared d => some d | .unrecognized _ => none
    unrecognized := uses.filterMap fun | .declared _ => none | .unrecognized u => some u }

end LegacyShader.Modern
