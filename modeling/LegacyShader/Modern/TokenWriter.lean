import LegacyShader.Preprocess.Reader
import LegacyShader.Stage
import LegacyShader.Text.Blank
import LegacyShader.Text.Offset

/-!
# Writing tokens back

The tokens that survive preprocessing are written out at the places they came
from.  The gap between two of them is kept when it is only white space.  Any other
gap held a comment, a directive or the name of a macro: its line breaks remain,
or one blank if it has none.  So the output follows the lines of the source, but
for the line breaks inside of a token or of an element that is written as one word.

A token of a macro comes from the place of the definition, which usually lies
before what is already written.  Such a token follows with one blank.

In a fragment shader the element `gl_FragData[0]` is the one color output, and is
written as such.
-/

namespace LegacyShader.Modern

open LegacyShader.Preprocess (Token TokenValue Span)

/-! ## Pieces of output -/

/-- A text to be written for a token. -/
structure Piece where
  /-- The place of the token. -/
  span : Span
  /-- The text. -/
  text : List Char
  /-- The end of the last token that the text also stands for. -/
  covers : Option Nat
  /-- Whether the text is an output array that has no counterpart. -/
  unmapped : Bool
  deriving DecidableEq, Repr, Inhabited

/-- The legacy array of color outputs. -/
def fragData : String := "gl_FragData"

/-- The legacy color output. -/
def fragColor : String := "gl_FragColor"

/-- The piece of a token that is written as it is. -/
def Piece.ofToken (t : Token) : Piece := ⟨t.span, t.value.text.toList, none, false⟩

/-- The closing bracket of the index `[0]` at the start of the tokens, and the
tokens behind it. -/
def firstElement? : List Token → Option (Token × List Token)
  | opening :: index :: closing :: rest =>
      if opening.value = .punct .leftBracket ∧ closing.value = .punct .rightBracket then
        match index.value with
        | .integer n => if n.value = 0 then some (closing, rest) else none
        | _ => none
      else none
  | _ => none

theorem length_of_firstElement? {ts rest : List Token} {closing : Token}
    (h : firstElement? ts = some (closing, rest)) : rest.length < ts.length := by
  unfold firstElement? at h
  split at h
  · split at h
    · split at h
      · split at h
        · simp only [Option.some.injEq, Prod.mk.injEq] at h
          obtain ⟨-, rfl⟩ := h
          simp only [List.length_cons]
          omega
        · simp at h
      · simp at h
    · simp at h
  · simp at h

/-- The pieces of the tokens of a stage. -/
def pieces (stage : Stage) : List Token → List Piece
  | [] => []
  | t :: rest =>
      if t.value = .directive then pieces stage rest
      else if t.value = .ident fragData ∧ stage = .fragment then
        match h : firstElement? rest with
        | some (closing, behind) =>
            have := length_of_firstElement? h
            ⟨t.span, fragColor.toList, some closing.span.stop, false⟩ :: pieces stage behind
        | none => { Piece.ofToken t with unmapped := true } :: pieces stage rest
      else .ofToken t :: pieces stage rest
termination_by ts => ts.length
decreasing_by all_goals (simp only [List.length_cons]; omega)

/-! ## Writing -/

/-- How far the output is. -/
structure Writer where
  /-- The end of the furthest source token written. -/
  cursor : Nat
  /-- Whether anything has been written. -/
  started : Bool
  deriving DecidableEq, Repr, Inhabited

/-- What is written in place of a gap. -/
def gapText (gap : List Char) : List Char :=
  if gap.all Text.isBlank then gap
  else
    match Text.lineFeeds gap with
    | 0 => [' ']
    | lines => List.replicate lines '\n'

/-- What is written in place of the source between two offsets. -/
def separation (source : List Char) (start stop : Nat) : List Char :=
  gapText ((Text.slice? source start stop).getD [])

/-- Writes a piece with what stands in front of it. -/
def Writer.write (source : List Char) (w : Writer) (p : Piece) : List Char × Writer :=
  let follows := decide (w.cursor ≤ p.span.start)
  let lead :=
    if follows then separation source w.cursor p.span.start
    else if w.started then [' '] else []
  let text := lead ++ p.text
  let cursor := if follows then max w.cursor p.span.stop else w.cursor
  (text, ⟨max cursor (p.covers.getD 0), w.started || !text.isEmpty⟩)

/-- Writes pieces and the end of the source. -/
def writeFrom (source : List Char) (w : Writer) : List Piece → List Char
  | [] => separation source w.cursor (Text.byteLength source)
  | p :: rest =>
      let (text, w) := w.write source p
      text ++ writeFrom source w rest

/-- Writes all pieces of a source. -/
def writePieces (source : List Char) (ps : List Piece) : List Char :=
  writeFrom source ⟨0, false⟩ ps

/-! ## Preprocessed source -/

/-- A source without directives, macros and comments. -/
structure Preprocessed where
  /-- The text. -/
  source : List Char
  /-- The lines of uses of the output array that have no counterpart. -/
  unmapped : List Nat
  deriving DecidableEq, Repr, Inhabited

/-- The macros that a legacy compiler defines before the first line. -/
def legacyMacros : Preprocess.MacroTable :=
  [("GL_ES", .ofText "1"), ("GL_FRAGMENT_PRECISION_HIGH", .ofText "1"),
    ("__VERSION__", .ofText "100")]

/-- Writes the tokens of a source back. -/
def writeTokens (source : List Char) (stage : Stage) (tokens : List Token) : Preprocessed :=
  let ps := pieces stage tokens
  { source := writePieces source ps
    unmapped := (ps.filter (·.unmapped)).map fun p => Text.lineAt source p.span.start }

/-- A source that cannot be preprocessed. -/
structure PreprocessError where
  /-- The line of the fault. -/
  line : Nat
  /-- What is wrong. -/
  cause : Preprocess.Cause
  deriving DecidableEq, Repr, Inhabited

/-- The text of an error. -/
def PreprocessError.message (e : PreprocessError) : String :=
  "line " ++ toString e.line ++ ": failed to preprocess legacy source: " ++ e.cause.message

/-- Preprocesses a legacy source. -/
def preprocess (source : List Char) (stage : Stage) : Except PreprocessError Preprocessed :=
  match Preprocess.tokens source legacyMacros with
  | .ok tokens => .ok (writeTokens source stage tokens)
  | .error fault => .error ⟨Text.lineAt source fault.span.start, fault.cause⟩

end LegacyShader.Modern
