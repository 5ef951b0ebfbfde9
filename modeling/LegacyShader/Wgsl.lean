import LegacyShader.Code.Written
import LegacyShader.ShaderModule

/-!
# WGSL outlines

An outline of a module in WGSL: its resources with their numbers, and its entry
point with the inputs and outputs.  Some built-in values and functions do not exist there, and a
module with one of them has no outline.  Outputs are looked at first, then functions, then
inputs, and last the entry point itself.
-/

namespace LegacyShader.Wgsl

/-- The name of a built-in value, if WGSL has it. -/
def builtInName? : BuiltIn → Option String
  | .vertexIndex => some "vertex_index"
  | .instanceIndex => some "instance_index"
  | .position => some "position"
  | .frontFacing => some "front_facing"
  | .fragDepth => some "frag_depth"
  | .localInvocationId => some "local_invocation_id"
  | .localInvocationIndex => some "local_invocation_index"
  | .globalInvocationId => some "global_invocation_id"
  | .workGroupId => some "workgroup_id"
  | .numWorkGroups => some "num_workgroups"
  | .sampleIndex => some "sample_index"
  | .sampleMask => some "sample_mask"
  | .primitiveIndex => some "primitive_index"
  | .viewIndex => some "view_index"
  | .clipDistance | .cullDistance | .pointSize | .pointCoord | .workGroupSize | .baseInstance
  | .baseVertex => none

/-- The attribute of an input or output. -/
def attributeText : Decoration → Except String String
  | .location number => .ok ("@location(" ++ toString number ++ ")")
  | .builtIn value =>
      match builtInName? value with
      | some name => .ok ("@builtin(" ++ name ++ ")")
      | none => .error ("Unsupported builtin " ++ value.name)

/-- The name of a scalar type. -/
def scalarName (s : Scalar) : String :=
  match s.kind with
  | .bool => "bool"
  | .float => "f" ++ toString (8 * s.width)
  | .sint => "i" ++ toString (8 * s.width)
  | .uint => "u" ++ toString (8 * s.width)

/-- The name of a type. -/
def typeName : ShaderType → String
  | .scalar s => scalarName s
  | .vector size s => "vec" ++ toString size.count ++ "<" ++ scalarName s ++ ">"
  | .matrix columns rows s =>
      "mat" ++ toString columns.count ++ "x" ++ toString rows.count ++ "<" ++ scalarName s ++ ">"
  | .array base length _ =>
      "array<" ++ typeName base ++ (length.map fun n => ", " ++ toString n).getD "" ++ ">"
  | .struct name _ _ => name.getD "_"
  | .image dim arrayed _ =>
      let shape := match dim with
        | .d1 => "1d"
        | .d2 => "2d"
        | .d3 => "3d"
        | .cube => "cube"
      "texture_" ++ shape ++ (if arrayed then "_array" else "") ++ "<f32>"
  | .sampler comparison => if comparison then "sampler_comparison" else "sampler"
  | .atomic s => "atomic<" ++ scalarName s ++ ">"
  | .pointer base => "ptr<" ++ typeName base ++ ">"

/-- The line of a resource. -/
def resourceLine (g : GlobalVariable) : String :=
  match g.binding with
  | some b =>
      "@group(" ++ toString b.group ++ ") @binding(" ++ toString b.binding ++ ") var" ++
        (if g.space = .uniform then "<uniform> " else " ") ++ g.name.getD "_" ++ ": " ++
        typeName g.type ++ ";\n"
  | none => ""

/-- The text of an input or output. -/
def variableText (name : Option String) (type : ShaderType) (d : Decoration) :
    Except String String := do
  return (← attributeText d) ++ " " ++ name.getD "_" ++ ": " ++ typeName type

/-- The texts of the outputs of an entry point. -/
def outputTexts : EntryResult → Except String (List String)
  | .none => .ok []
  | .value type decoration => do return [← variableText none type decoration]
  | .struct members _ => members.mapM fun m => variableText m.name m.type m.decoration

/-! ## Functions -/

/-- Why WGSL has no form for a piece of the text of a function, if it has none. -/
def unsupported? : Code.Piece → Option String
  | .node (.math .outer _) => some ("Unsupported math function: " ++ Code.MathFunction.name .outer)
  | .node (.math .inverse _) =>
      some ("Unsupported math function: " ++ Code.MathFunction.name .inverse)
  | .node (.relational .isNan _) =>
      some ("Unsupported relational function: " ++ Code.RelationalFunction.name .isNan)
  | .node (.relational .isInf _) =>
      some ("Unsupported relational function: " ++ Code.RelationalFunction.name .isInf)
  | .fallThrough => some "fall-through switch case block"
  | .node _ => none

/-- Checks that WGSL has a form for the text of a function. -/
def checkFunction (f : Code.Function) : Except String Unit :=
  match f.text.findSome? unsupported? with
  | some message => .error message
  | none => .ok ()

/-! ## The outline -/

/-- The text of an entry point. -/
def entryText (code : ModuleCode) (e : EntryPoint) : Except String String := do
  let outputs ← outputTexts e.result
  code.functions.forM checkFunction
  let inputs ← e.arguments.mapM fun a => variableText a.name a.type a.decoration
  code.entry.forM checkFunction
  return "@" ++ e.stage.word ++ "\nfn main(" ++ ", ".intercalate inputs ++ ") -> (" ++
    ", ".intercalate outputs ++ ");\n"

/-- The outline of a module. -/
def outline (m : ShaderModule) : Except String String := do
  let entries ← m.entry.toList.mapM (entryText m.code)
  return String.join (m.globals.map resourceLine) ++ String.join entries

end LegacyShader.Wgsl
