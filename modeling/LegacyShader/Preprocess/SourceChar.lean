/-!
# Characters of the source

Before tokens are read, a text is brought into a plain form.  Each of the four
ways to end a line becomes one line feed.  A backslash at the end of a line joins
it with the next one: the backslash and the line end vanish.  A comment becomes
one blank.

Every character keeps the bytes it came from and its line.  A character behind
joined lines starts where the first of the vanished backslashes stood.
-/

namespace LegacyShader.Preprocess

/-- A character of the plain form. -/
structure SourceChar where
  /-- The character. -/
  char : Char
  /-- The byte offset where it starts. -/
  start : Nat
  /-- The byte offset where it ends. -/
  stop : Nat
  /-- The line it stands on, counted from one. -/
  line : Nat
  deriving DecidableEq, Repr, Inhabited

namespace SourceChar

/-- A character at a byte offset.  `joined` is the offset of the first backslash
that vanished right before it. -/
def place (c : Char) (offset line : Nat) (joined : Option Nat) : SourceChar :=
  let start := joined.getD offset
  ⟨c, start, start + c.utf8Size, line⟩

/-- The characters of a text from a byte offset on, with line ends unified and
lines joined. -/
def decodeFrom (offset line : Nat) (joined : Option Nat) : List Char → List SourceChar
  | [] => []
  | '\\' :: '\r' :: '\n' :: rest =>
      decodeFrom (offset + 3) (line + 1) (some (joined.getD offset)) rest
  | '\\' :: '\n' :: '\r' :: rest =>
      decodeFrom (offset + 3) (line + 1) (some (joined.getD offset)) rest
  | '\\' :: '\r' :: rest =>
      decodeFrom (offset + 2) (line + 1) (some (joined.getD offset)) rest
  | '\\' :: '\n' :: rest =>
      decodeFrom (offset + 2) (line + 1) (some (joined.getD offset)) rest
  | '\r' :: '\n' :: rest =>
      place '\n' offset line joined :: decodeFrom (offset + 2) (line + 1) none rest
  | '\n' :: '\r' :: rest =>
      place '\n' offset line joined :: decodeFrom (offset + 2) (line + 1) none rest
  | '\r' :: rest => place '\n' offset line joined :: decodeFrom (offset + 1) (line + 1) none rest
  | '\n' :: rest => place '\n' offset line joined :: decodeFrom (offset + 1) (line + 1) none rest
  | c :: rest => place c offset line joined :: decodeFrom (offset + c.utf8Size) line none rest

/-- The part of a text that a character belongs to. -/
inductive Region where
  /-- Outside of comments. -/
  | code
  /-- Behind `//`, up to the end of the line. -/
  | lineComment
  /-- Behind `/*`, up to `*/`. -/
  | blockComment
  deriving DecidableEq, Repr

/-- The characters with each comment replaced by one blank. -/
def withoutComments : Region → List SourceChar → List SourceChar
  | _, [] => []
  | .code, [c] => [c]
  | .code, a :: b :: rest =>
      if a.char = '/' ∧ b.char = '/' then
        { a with char := ' ' } :: withoutComments .lineComment rest
      else if a.char = '/' ∧ b.char = '*' then
        { a with char := ' ' } :: withoutComments .blockComment rest
      else a :: withoutComments .code (b :: rest)
  | .lineComment, c :: rest =>
      if c.char = '\n' then c :: withoutComments .code rest else withoutComments .lineComment rest
  | .blockComment, [_] => []
  | .blockComment, a :: b :: rest =>
      if a.char = '*' ∧ b.char = '/' then withoutComments .code rest
      else withoutComments .blockComment (b :: rest)

/-- The plain form of a text. -/
def ofText (text : List Char) : List SourceChar :=
  withoutComments .code (decodeFrom 0 1 none text)

end SourceChar

end LegacyShader.Preprocess
