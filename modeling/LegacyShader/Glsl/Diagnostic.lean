import LegacyShader.Code.Typing
import LegacyShader.Glsl.Lexeme
import LegacyShader.Preprocess.Error
import LegacyShader.Text.Offset

/-!
# Diagnostics

Each way in which modern source can be wrong, with the place it is reported at.
Some causes end the reading of a source and others do not, so a source can have
several diagnostics.  They are reported one per line, with the line of the source
that they point at.
-/

namespace LegacyShader.Glsl

open Preprocess (Span)

/-! ## Places -/

/-- The bytes that something is read from, if they are known. -/
abbrev Place := Option Span

namespace Place

/-- The place of some bytes.  No bytes at the very start are no place. -/
def ofSpan (s : Span) : Place := if s.start = 0 ∧ s.stop = 0 then none else some s

/-- The least place around two places. -/
def join : Place → Place → Place
  | none, q => q
  | p, none => p
  | some a, some b => some ⟨min a.start b.start, max a.stop b.stop⟩

end Place

/-! ## Causes -/

/-- What the grammar allows at a place. -/
inductive Expected where
  /-- One lexeme. -/
  | lexeme (lexeme : Lexeme)
  /-- The name of a type. -/
  | typeName
  /-- A name. -/
  | identifier
  /-- A whole number. -/
  | integer
  /-- A number with a fraction or an exponent. -/
  | float
  /-- A truth value. -/
  | bool
  /-- The end of the source. -/
  | endOfFile
  deriving Repr, Inhabited

namespace Expected

/-- The expectation of a mark. -/
def punct (mark : Preprocess.Punct) : Expected := .lexeme (.punct mark)

/-- The expectation of a reserved word. -/
def keyword (word : Keyword) : Expected := .lexeme (.keyword word)

/-- An expectation as messages show it. -/
def shown : Expected → String
  | .lexeme l => l.shown
  | .typeName => "a type"
  | .identifier => "identifier"
  | .integer => "integer literal"
  | .float => "float literal"
  | .bool => "bool literal"
  | .endOfFile => "end of file"

/-- Several expectations as messages show them. -/
def shownAll : List Expected → String
  | [] => ""
  | [e] => e.shown
  | [e, f] => e.shown ++ " or " ++ f.shown
  | e :: es => e.shown ++ ", " ++ shownAll es

end Expected

/-- The kinds of qualifier that a declaration has at most once. -/
inductive QualifierKind where
  | invariant
  | interpolation
  | storage
  | sampling
  | precision
  deriving DecidableEq, Repr, Inhabited

/-- The name of a kind of qualifier. -/
def QualifierKind.word : QualifierKind → String
  | .invariant => "invariant"
  | .interpolation => "interpolation"
  | .storage => "storage"
  | .sampling => "sampling"
  | .precision => "precision"

/-- What is wrong with a source. -/
inductive Cause where
  /-- The source ends too early. -/
  | endOfFile
  /-- A lexeme where others are expected. -/
  | unexpected (found : Lexeme) (expected : List Expected)
  /-- A fault of preprocessing. -/
  | preprocessing (cause : Preprocess.Cause)
  /-- A declaration that only adds qualifiers to a name. -/
  | qualifierDeclaration
  /-- A name that nothing declares. -/
  | unknownVariable (name : String)
  /-- A name of no type. -/
  | unknownType (name : String)
  /-- A name of no member. -/
  | unknownField (name : String)
  /-- A name that is declared twice in one scope. -/
  | redeclared (name : String)
  /-- A matrix of two rows in a block or a struct. -/
  | narrowMatrix
  /-- A member of a type that blocks and structs cannot have. -/
  | memberType
  /-- A variable of type `void`. -/
  | voidDeclaration
  /-- `void` where a type of values is needed. -/
  | voidType
  /-- A call without a value where a value is needed. -/
  | voidExpression
  /-- A precision statement for another type than `float` and `int`. -/
  | precisionType
  /-- A second qualifier of one kind. -/
  | repeatedQualifier (kind : QualifierKind)
  /-- A second memory qualifier of one kind. -/
  | repeatedMemoryQualifier
  /-- A qualifier that only inputs and outputs can have. -/
  | interfaceQualifier (words : String)
  /-- A memory qualifier outside storage. -/
  | memoryQualifier
  /-- A layout entry that the declaration has no use for. -/
  | strayLayout
  /-- A layout entry whose value is missing. -/
  | layoutValue
  /-- A layout entry with a value that it does not take. -/
  | strayValue
  /-- A resource without a binding. -/
  | missingBinding
  /-- A constant without an initial value. -/
  | constantWithoutValue
  /-- A local variable with a storage qualifier. -/
  | localStorage
  /-- A write to a variable that cannot be written. -/
  | notWritable
  /-- A write to something that is no variable: the expression in the form of a
  message. -/
  | notAssignable (shown : String)
  /-- An array of length zero. -/
  | emptyArray
  /-- A negative number where an unsigned one is needed. -/
  | negativeConstant
  /-- Something else where an unsigned constant is needed. -/
  | notUnsignedConstant
  /-- A constant without a value. -/
  | folding (error : Code.FoldError)
  /-- An expression without a type. -/
  | typing (error : Code.TypeError)
  /-- An offset into a texture that is no constant. -/
  | offsetConstant
  /-- A case label that is no integer. -/
  | caseLabel
  /-- A switch that ends in a label. -/
  | lastCaseEmpty
  /-- A second body for one function. -/
  | functionRedefined
  /-- A second prototype for one function. -/
  | prototypeRedefined
  /-- A call that several functions fit equally well. -/
  | ambiguousCall (name : String)
  /-- A call that no function fits. -/
  | unknownFunction (name : String)
  /-- A texture that is sampled without a sampler. -/
  | unpairedTexture
  /-- A function of textures for something else. -/
  | notImage
  /-- Depths are compared in something that is no texture. -/
  | notTexture
  /-- Depths are compared in a texture that is neither a global nor an argument. -/
  | notTextureExpression
  /-- A function needs more access to an image than its declaration gives: loads, and stores. -/
  | imageAccess (name : String) (needed given : Bool × Bool)
  /-- An image that is accessed by texel without a format. -/
  | missingFormat
  /-- A swizzle of components that a vector does not have. -/
  | invalidSwizzle (name : String)
  /-- A written swizzle with a component twice. -/
  | repeatedComponent (name : String)
  /-- A swizzle of more than four components. -/
  | longSwizzle (name : String)
  /-- A member of something without members. -/
  | noFields (name : String)
  /-- A constructor of a type that has none. -/
  | noConstructor
  /-- A constructor with the wrong number of arguments. -/
  | constructorArguments
  /-- An array constructor without arguments. -/
  | emptyConstructor
  /-- A method that does not exist. -/
  | unknownMethod (name : String)
  /-- Arguments for `length`. -/
  | lengthArguments
  /-- A step of something that is no number. -/
  | stepOperand
  /-- Operands that do not go together. -/
  | operandMismatch (left right : ShaderType)
  /-- No function `main`. -/
  | missingEntryPoint
  deriving Repr, Inhabited

/-- The text of a cause. -/
def Cause.message : Cause → String
  | .endOfFile => "Unexpected end of file"
  | .unexpected found expected =>
      "Expected " ++ Expected.shownAll expected ++ ", found " ++ found.shown
  | .preprocessing cause => cause.message
  | .qualifierDeclaration => "Not implemented: variable qualifier"
  | .unknownVariable name => "Unknown variable: " ++ name
  | .unknownType name => "Unknown type: " ++ name
  | .unknownField name => "Unknown field: " ++ name
  | .redeclared name => "Variable already declared: " ++ name
  | .narrowMatrix => "unsupported matrix of the form matCx2 in std140 block layout"
  | .memberType => "Invalid struct member type"
  | .voidDeclaration => "Declaration cannot have void type"
  | .voidType => "Type can't be void"
  | .voidExpression => "Expression returns void"
  | .precisionType => "Precision statement can only work on floats and ints"
  | .repeatedQualifier kind =>
      "Cannot use more than one " ++ kind.word ++ " qualifier per declaration"
  | .repeatedMemoryQualifier => "The same memory qualifier can only be used once"
  | .interfaceQualifier words => words ++ " can only be used in in/out variables"
  | .memoryQualifier => "Memory qualifiers can only be used in storage variables"
  | .strayLayout => "Unexpected qualifier"
  | .layoutValue => "Qualifier expects a uint value"
  | .strayValue => "Qualifier doesn't expect a value"
  | .missingBinding => "uniform/buffer blocks require layout(binding=X)"
  | .constantWithoutValue => "const values must have an initializer"
  | .localStorage => "Locals cannot have a storage qualifier"
  | .notWritable => "Variable cannot be used in LHS position"
  | .notAssignable shown => shown ++ " cannot be in the left hand side"
  | .emptyArray => "Array size must be greater than zero"
  | .negativeConstant => "int constant overflows"
  | .notUnsignedConstant => "Expected a uint constant"
  | .folding error => error.message
  | .typing error => "Can't resolve type: " ++ error.shown
  | .offsetConstant => "Expression is not const-expression"
  | .caseLabel => "Case values can only be integers"
  | .lastCaseEmpty => "last case/default label must be followed by statements"
  | .functionRedefined => "Function already defined"
  | .prototypeRedefined => "Prototype already defined"
  | .ambiguousCall name => "Ambiguous best function for '" ++ name ++ "'"
  | .unknownFunction name => "Unknown function '" ++ name ++ "'"
  | .unpairedTexture => "Bad call"
  | .notImage => "Type is not an image"
  | .notTexture => "Not a texture"
  | .notTextureExpression => "Not a valid texture expression"
  | .imageAccess name needed given =>
      "'" ++ name ++ "': image needs " ++ AddressSpace.accessShown needed.1 needed.2 ++
        " access but only " ++ AddressSpace.accessShown given.1 given.2 ++ " was provided"
  | .missingFormat => "image types require a format layout qualifier"
  | .invalidSwizzle name => "Invalid swizzle for vector \"" ++ name ++ "\""
  | .repeatedComponent name =>
      "swizzle cannot have duplicate components in left-hand-side expression for \"" ++
        Text.quoted name ++ "\""
  | .longSwizzle name => "Bad swizzle size for \"" ++ Text.quoted name ++ "\""
  | .noFields name => "Can't lookup field on this type \"" ++ name ++ "\""
  | .noConstructor => "Bad type constructor"
  | .constructorArguments => "Constructor: Too many arguments"
  | .emptyConstructor => "There must be at least one argument"
  | .unknownMethod name => "unknown method '" ++ name ++ "'"
  | .lengthArguments => ".length() doesn't take any arguments"
  | .stepOperand => "Increment/decrement only works on scalar/vector/matrix"
  | .operandMismatch left right =>
      "Cannot apply operation to " ++ left.shown (fun _ => 0) ++ " and " ++ right.shown (fun _ => 0)
  | .missingEntryPoint => "Missing entry point"

/-! ## Diagnostics -/

/-- A cause and the place it is reported at. -/
structure Diagnostic where
  /-- What is wrong. -/
  cause : Cause
  /-- Where it is reported. -/
  place : Place
  deriving Repr, Inhabited

/-- The line of a diagnostic in a report on a source.  The number of a source line
stands in front if the place is one of the source. -/
def Diagnostic.line (source : List Char) (d : Diagnostic) : String :=
  match d.place.bind fun s => Text.takeBytes? s.start source with
  | some front => "line " ++ toString (Text.lineFeeds front + 1) ++ ": " ++ d.cause.message
  | none => d.cause.message

/-- The report on a source. -/
def report (source : List Char) (ds : List Diagnostic) : String :=
  "\n".intercalate (ds.map (·.line source))

end LegacyShader.Glsl
