import LegacyShader.Modern.Block
import LegacyShader.Modern.Preamble
import LegacyShader.Modern.TokenWriter

/-!
# Modernizing a shader

A legacy shader text becomes a modern one: it is preprocessed, its uniforms move
into a block or into the preamble, and the preamble is put in front.  What has no
modern counterpart is kept as written and reported as a limitation.
-/

namespace LegacyShader.Modern

/-- What kind of construct could not be carried over. -/
inductive LimitationKind where
  /-- A use of `uniform` that is kept as written. -/
  | uniformDeclaration
  /-- A use of the output array other than its first element. -/
  | fragDataIndex
  deriving DecidableEq, Repr, Inhabited

/-- A construct that could not be carried over. -/
structure Limitation where
  /-- Its kind. -/
  kind : LimitationKind
  /-- Its line. -/
  line : Nat
  /-- Its text. -/
  text : List Char
  deriving DecidableEq, Repr, Inhabited

/-- The text of a limitation. -/
def Limitation.message (l : Limitation) : String :=
  let text := String.ofList l.text
  "line " ++ toString l.line ++ ": `" ++ text ++
    match l.kind with
    | .uniformDeclaration => "` is not a recognized uniform declaration; it is kept as written"
    | .fragDataIndex => "` is only emulated as `" ++ text ++ "[0]`"

/-- A modernized shader text. -/
structure Modernized where
  /-- The modern text. -/
  source : List Char
  /-- What could not be carried over, by line. -/
  limitations : List Limitation
  deriving DecidableEq, Repr, Inhabited

/-- The line of a character offset. -/
def lineOf (text : List Char) (offset : Nat) : Nat := Text.lineFeeds (text.take offset) + 1

/-- The limitation of an unrecognized use of `uniform`. -/
def unrecognizedLimitation (source : List Char) (u : UnrecognizedUniform) : Limitation :=
  ⟨.uniformDeclaration, lineOf source u.offset, u.text⟩

/-- The limitation of an unmapped use of the output array. -/
def fragDataLimitation (line : Nat) : Limitation := ⟨.fragDataIndex, line, fragData.toList⟩

/-- The limitation of a declaration that is kept as written. -/
def keptLimitation (source : List Char) (d : UniformDecl) : Limitation :=
  ⟨.uniformDeclaration, lineOf source d.offset, (source.drop d.offset).take d.length⟩

/-- The limitations of a preprocessed text, by line. -/
def limitations (p : Preprocessed) (scan : UniformScan) : List Limitation :=
  (scan.unrecognized.map (unrecognizedLimitation p.source) ++
    p.unmapped.map fragDataLimitation ++
    (scan.decls.filter (·.isUnsupportedArray)).map (keptLimitation p.source)).mergeSort
      fun a b => decide (a.line ≤ b.line)

/-- The modern form of a preprocessed text. -/
def modernizePlain (p : Preprocessed) (stage : Stage) : Modernized :=
  let scan := scanUniforms p.source
  let decls := scan.decls.filter (!·.isUnsupportedArray)
  { source := preamble stage decls ++ spliceDecls p.source decls stage
    limitations := limitations p scan }

/-- The modern form of a legacy shader text. -/
def modernize (source : List Char) (stage : Stage) : Except PreprocessError Modernized :=
  (preprocess source stage).map fun p => modernizePlain p stage

end LegacyShader.Modern
