import LegacyShader.Preprocess.NumberLiteral
import LegacyShader.Preprocess.SourceChar

/-!
# Lexemes

The plain form of a text is cut into words, numbers, punctuation, hashes and line
ends.  A lexeme is the longest one that fits.  Blanks only separate, but each
lexeme knows whether one stood before it, and whether it is the first of its
line: a hash there starts a directive.

Every line that holds something ends with a line end, also the last one.
-/

namespace LegacyShader.Preprocess

/-- What a lexeme is. -/
inductive LexemeValue where
  /-- A word, a number or a punctuation mark. -/
  | value (value : TokenValue)
  /-- A hash. -/
  | hash
  /-- The end of a line. -/
  | newline
  deriving DecidableEq, Repr, Inhabited

/-- A lexeme at its place. -/
structure Lexeme where
  /-- What the lexeme is. -/
  value : LexemeValue
  /-- The bytes it was read from. -/
  span : Span
  /-- The line of its first character. -/
  line : Nat
  /-- Whether a blank stood before it. -/
  spaced : Bool
  /-- Whether it is the first lexeme of its line. -/
  first : Bool
  deriving DecidableEq, Repr, Inhabited

/-- A lexeme, or the fault of one. -/
abbrev LexItem := Except Fault Lexeme

/-- Whether a character only separates lexemes. -/
def isSeparator (c : Char) : Bool :=
  c == ' ' || c == '\t' || c == '\x0b' || c == '\x0c'

/-- Whether a number starts here. -/
def startsNumber : List Char → Bool
  | '.' :: d :: _ => d.isDigit
  | c :: _ => c.isDigit
  | [] => false

/-- Reads the lexeme at the start of a text: its value or the fault in it, and the
number of its characters. -/
def readLexeme (cs : List Char) : Except Cause LexemeValue × Nat :=
  match cs with
  | [] => (.error .unexpectedCharacter, 0)
  | c :: rest =>
      if Text.isIdentStart c then
        let tail := rest.takeWhile Text.isIdentTail
        (.ok (.value (.ident (String.ofList (c :: tail)))), tail.length + 1)
      else if startsNumber cs then
        let (number, behind) := readNumber cs
        (number.map .value, cs.length - behind.length)
      else if c = '#' then (.ok .hash, 1)
      else
        match Punct.longest? cs with
        | some mark => (.ok (.value (.punct mark)), mark.text.length)
        | none => (.error .unexpectedCharacter, 1)

/-- Faults of single lexemes are reported at the start of the text. -/
def startOfText : Span := ⟨0, 0⟩

/-- The lexemes of a plain text.  `spaced` and `first` are those of the next
lexeme, and `stop` and `line` tell where the text before it ended. -/
def lexFrom (spaced first : Bool) (stop line : Nat) : List SourceChar → List LexItem
  | [] => if first then [] else [.ok ⟨.newline, ⟨stop, stop⟩, line, spaced, false⟩]
  | c :: rest =>
      if c.char = '\n' then
        .ok ⟨.newline, ⟨c.start, c.stop⟩, c.line, spaced, first⟩ ::
          lexFrom true true c.stop c.line rest
      else if isSeparator c.char then lexFrom true first c.stop c.line rest
      else
        let chars := c :: rest.takeWhile fun c => !isSeparator c.char && c.char != '\n'
        let (value, count) := readLexeme (chars.map (·.char))
        let final := chars.getD (count - 1) c
        let item : LexItem :=
          match value with
          | .ok value => .ok ⟨value, ⟨c.start, final.stop⟩, c.line, spaced, first⟩
          | .error cause => .error ⟨cause, startOfText⟩
        item :: lexFrom false false final.stop final.line (rest.drop (count - 1))
termination_by cs => cs.length
decreasing_by all_goals (simp; try omega)

/-- The lexemes of a text. -/
def lexemes (text : List Char) : List LexItem :=
  lexFrom true true 0 1 (SourceChar.ofText text)

end LegacyShader.Preprocess
