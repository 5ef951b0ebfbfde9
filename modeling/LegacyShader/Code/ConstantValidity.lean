import LegacyShader.Code.BlockValidity

/-!
# Valid constants and references

The nodes of constants can only be literals, constants, and values put together from such.
A function can use its own local variables and the results of functions in front of it.
-/

namespace LegacyShader.Code

/-! ## Constants -/

/-- What the nodes of constants refer to. -/
def Definitions.surroundings (d : Definitions) : Surroundings := ⟨d, #[], #[], #[], #[]⟩

/-- The types of the nodes of constants behind those whose types are known, or the number of
the first node without a type. -/
def Definitions.extendNodeTypes (d : Definitions) (types : Array NodeType) :
    List Node → Except Ref (Array NodeType)
  | [] => .ok types
  | n :: rest =>
      match n.type d.surroundings types with
      | .ok t => d.extendNodeTypes (types.push t) rest
      | .error _ => .error types.size

/-- The types of the nodes of constants, or the number of the first node without a type. -/
def Definitions.nodeTypes (d : Definitions) : Except Ref (Array NodeType) :=
  d.extendNodeTypes #[] d.nodes.toList

/-- Whether a node can be one of a constant. -/
def Node.isConstant (types : Array NodeType) : Node → Bool
  | .literal value => value.check.isOk
  | .constant _ => true
  | .compose type components =>
      match components.mapM fun r => types[r]? with
      | some parts => validCompose type parts
      | none => false
  | .splat _ value =>
      match types[value]? with
      | some (.value (.scalar _)) => true
      | _ => false
  | _ => false

/-- Whether the value of a constant has its type. -/
def Constant.isValid (types : Array NodeType) (k : Constant) : Bool :=
  k.type.constructible && types[k.init]?.any fun t => t.equivalent (.ofType k.type)

/-! ## References -/

/-- A reference to something that is not there, or not there yet. -/
inductive BadReference where
  /-- A local variable that the function does not have. -/
  | missingLocal (index : Nat)
  /-- The result of a function that does not stand in front. -/
  | laterFunction (index callee : Nat)
  deriving DecidableEq, Repr, Inhabited

/-- The text of a bad reference. -/
def BadReference.message : BadReference → String
  | .missingLocal index =>
      "Handle " ++ toString index ++
        " of naga::LocalVariable is either not present, or inaccessible yet"
  | .laterFunction index callee =>
      numberShown index ++ " of kind \"naga::Function\" depends on " ++ numberShown callee ++
        " of kind naga::Function, which has not been processed yet"

/-- The first bad reference of a function.  The entry point has no index, and stands behind
all functions. -/
def Function.badReference? (f : Function) (index : Option Nat) : Option BadReference :=
  f.nodes.toList.findSome? fun
    | .localVariable i => if i < f.locals.length then none else some (.missingLocal i)
    | .callResult callee =>
        index.bind fun i => if callee < i then none else some (.laterFunction i callee)
    | _ => none

end LegacyShader.Code
