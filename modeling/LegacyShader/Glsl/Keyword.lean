/-!
# Keywords

The reserved words of the shading language, other than the names of types.  Each
has its spelling, and a name by which messages speak of it.
-/

namespace LegacyShader.Glsl

/-- A reserved word. -/
inductive Keyword where
  | layout | input | output | inout | uniform | buffer | shared | invariant | flat
  | noperspective | smooth | centroid | sample | constant | precision | highp | mediump | lowp
  | restrict | readonly | writeonly | continueJump | breakJump | returnJump | discardJump
  | ifBranch | elseBranch | switchBranch | caseLabel | defaultLabel | whileLoop | doLoop | forLoop
  | void | struct
  deriving DecidableEq, Repr, Inhabited

namespace Keyword

/-- Every reserved word. -/
def all : List Keyword := [
  .layout, .input, .output, .inout, .uniform, .buffer, .shared, .invariant, .flat,
  .noperspective, .smooth, .centroid, .sample, .constant, .precision, .highp, .mediump, .lowp,
  .restrict, .readonly, .writeonly, .continueJump, .breakJump, .returnJump, .discardJump,
  .ifBranch, .elseBranch, .switchBranch, .caseLabel, .defaultLabel, .whileLoop, .doLoop,
  .forLoop, .void, .struct]

/-- The spelling of a reserved word. -/
def text : Keyword → String
  | .layout => "layout"
  | .input => "in"
  | .output => "out"
  | .inout => "inout"
  | .uniform => "uniform"
  | .buffer => "buffer"
  | .shared => "shared"
  | .invariant => "invariant"
  | .flat => "flat"
  | .noperspective => "noperspective"
  | .smooth => "smooth"
  | .centroid => "centroid"
  | .sample => "sample"
  | .constant => "const"
  | .precision => "precision"
  | .highp => "highp"
  | .mediump => "mediump"
  | .lowp => "lowp"
  | .restrict => "restrict"
  | .readonly => "readonly"
  | .writeonly => "writeonly"
  | .continueJump => "continue"
  | .breakJump => "break"
  | .returnJump => "return"
  | .discardJump => "discard"
  | .ifBranch => "if"
  | .elseBranch => "else"
  | .switchBranch => "switch"
  | .caseLabel => "case"
  | .defaultLabel => "default"
  | .whileLoop => "while"
  | .doLoop => "do"
  | .forLoop => "for"
  | .void => "void"
  | .struct => "struct"

/-- The name of a reserved word in messages. -/
def name : Keyword → String
  | .layout => "Layout"
  | .input => "In"
  | .output => "Out"
  | .inout => "InOut"
  | .uniform => "Uniform"
  | .buffer => "Buffer"
  | .shared => "Shared"
  | .invariant => "Invariant"
  | .flat => "Interpolation(Flat)"
  | .noperspective => "Interpolation(Linear)"
  | .smooth => "Interpolation(Perspective)"
  | .centroid => "Sampling(Centroid)"
  | .sample => "Sampling(Sample)"
  | .constant => "Const"
  | .precision => "Precision"
  | .highp => "PrecisionQualifier(High)"
  | .mediump => "PrecisionQualifier(Medium)"
  | .lowp => "PrecisionQualifier(Low)"
  | .restrict => "Restrict"
  | .readonly => "MemoryQualifier(StorageAccess(LOAD))"
  | .writeonly => "MemoryQualifier(StorageAccess(STORE))"
  | .continueJump => "Continue"
  | .breakJump => "Break"
  | .returnJump => "Return"
  | .discardJump => "Discard"
  | .ifBranch => "If"
  | .elseBranch => "Else"
  | .switchBranch => "Switch"
  | .caseLabel => "Case"
  | .defaultLabel => "Default"
  | .whileLoop => "While"
  | .doLoop => "Do"
  | .forLoop => "For"
  | .void => "Void"
  | .struct => "Struct"

/-- The reserved word of a spelling. -/
def ofText? (word : String) : Option Keyword := all.find? fun k => k.text == word

/-- Whether a reserved word can stand in front of the type of a declaration. -/
def isQualifier : Keyword → Bool
  | .invariant | .flat | .noperspective | .smooth | .centroid | .sample | .highp | .mediump | .lowp
  | .constant | .input | .output | .uniform | .shared | .buffer | .restrict | .readonly
  | .writeonly | .layout => true
  | _ => false

end Keyword

end LegacyShader.Glsl
