import LegacyShader.Code.Usage
import LegacyShader.Glsl.EntryCode
import LegacyShader.Glsl.Statement
import LegacyShader.Preprocess.Reader

/-!
# Modules of sources

Modern source is preprocessed, read declaration by declaration, and closed with an
entry point around the function `main`.
-/

namespace LegacyShader.Glsl

/-! ## Modules of drafts -/

/-- A function with the globals that it uses and the functions that it calls. -/
def summaryOf (name : String) (f : Code.Function) : ShaderFunction :=
  ⟨name, f.touched, f.asked, f.calls⟩

namespace Draft

/-- The function `main` of a draft: one without parameters that has a body. -/
def mainIndex? (d : Draft) : Option Nat :=
  (d.families.lookup "main").bind fun family =>
    family.overloads.findSome? fun o =>
      match o.target with
      | .function index => if o.defined && o.parameters.isEmpty then some index else none
      | .builtIn _ => none

/-- The module of a draft. -/
def toModule (d : Draft) (main : Nat) : ShaderModule :=
  let code := d.entryCode main
  let definitions := d.body.bench.definitions
  let functions := d.functions.toList
  { globals := d.globals.toList
    functions := functions.map fun f => summaryOf f.name f.code
    entry := some
      { stage := d.stage
        arguments := (d.varyings false).map (·.argument)
        result := resultOf (d.varyings true)
        body := summaryOf "main" code
        earlyTests := d.earlyTests
        groupSize := d.groupSize }
    code :=
      { definitions := (code.result.map definitions.withType).getD definitions
        initializers := d.initializers
        functions := functions.map (·.code)
        entry := some code } }

end Draft

/-! ## Whole sources -/

/-- Reads a declaration at global level. -/
def readExternal : Read Unit := do
  unless ← readDeclaration (some readFunctionBody) do
    unexpected (← bump) [.endOfFile]

/-- Reads declarations up to the end of the source. -/
def readExternals : Nat → Read Unit
  | 0 => return
  | n + 1 => do
      if (← peek?).isSome then
        readExternal
        readExternals n

/-- Reads a whole source into a module. -/
def readModule : Read ShaderModule := do
  readExternals ((← get).rest.length + 1)
  let d ← get
  match d.mainIndex? with
  | some main => return d.toModule main
  | none => fail .missingEntryPoint none

/-- The lexemes of a source, and the faults between them. -/
def lexemes (source : List Char) : List (Except Preprocess.Fault Located) :=
  (Preprocess.allTokens source []).filterMap fun
    | .error fault => some (.error fault)
    | .ok token =>
        (Lexeme.ofToken? token.value).map fun lexeme => .ok ⟨lexeme, .ofSpan token.span⟩

/-- An empty draft of a source. -/
def Draft.ofSource (stage : Stage) (source : List Char) : Draft :=
  let bench : Code.Workbench := {}
  { stage, rest := lexemes source, body := { bench := bench.startPending } }

/-- The module of a source, or all that is wrong with it. -/
def compile (stage : Stage) (source : List Char) : Except (List Diagnostic) ShaderModule :=
  match readModule (.ofSource stage source) with
  | .ok m d => if d.diagnostics.isEmpty then .ok m else .error d.diagnostics.reverse
  | .error e d => .error (e :: d.diagnostics).reverse

end LegacyShader.Glsl
