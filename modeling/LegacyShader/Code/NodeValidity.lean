import LegacyShader.Code.Check
import LegacyShader.StageSet

/-!
# Valid lists of nodes

The nodes of a function are valid if each one passes its check.  Together they also
decide in which stages the function can run: a texture that is sampled at a level
that follows from neighboring fragments, and a rate of change, ask for the fragment
stage.
-/

namespace LegacyShader.Code

/-- What the nodes of a function are checked against. -/
structure NodeContext where
  /-- What they refer to. -/
  surroundings : Surroundings
  /-- The nodes. -/
  nodes : Array Node
  /-- Their types. -/
  types : Array NodeType
  /-- The types of the nodes of constants. -/
  constants : Array NodeType
  /-- The stages in which the functions of the module can run. -/
  stages : Array StageSet
  deriving Inhabited

namespace NodeContext

/-- Whether the type of a node passes a test. -/
def typeIs (c : NodeContext) (r : Ref) (test : NodeType → Bool) : Bool := c.types[r]?.any test

/-- Whether the type of a node, if there is one, passes a test. -/
def optionIs (c : NodeContext) (r : Option Ref) (test : NodeType → Bool) : Bool :=
  r.all fun r => c.typeIs r test

/-- The value of a node that is a literal or a constant. -/
def literal? (c : NodeContext) (r : Ref) : Option Literal :=
  c.surroundings.definitions.literal? c.nodes r

/-- The type of a resource: a global or an argument. -/
def resource? (c : NodeContext) (r : Ref) : Option ShaderType :=
  match c.nodes[r]? with
  | some (.globalVariable index) => c.surroundings.globals[index]?.map (·.1)
  | some (.argument index) => c.surroundings.arguments[index]?
  | _ => none

/-! ## Textures -/

/-- The number of coordinates of an image. -/
def coordinateCount : ImageDim → Nat
  | .d1 => 1
  | .d2 => 2
  | .d3 | .cube => 3

/-- Whether the layer of a texture is given if and only if it has layers. -/
def validLayer (c : NodeContext) (arrayed : Bool) (layer : Option Ref) : Bool :=
  arrayed == layer.isSome && c.optionIs layer (·.isScalarOf wholeKinds)

/-- Whether a level of detail can be used, and the stages that it asks for. -/
def levelStages? (c : NodeContext) (count : Nat) : SampleLevel → Option StageSet
  | .auto => some .fragmentOnly
  | .zero => some .all
  | .exact level => if c.typeIs level (·.isScalarOf [.float]) then some .all else none
  | .bias bias => if c.typeIs bias (·.isScalarOf [.float]) then some .fragmentOnly else none
  | .gradient x y =>
      if c.typeIs x (·.isCoordinate count .float) && c.typeIs y (·.isCoordinate count .float) then
        some .all
      else none

/-- Whether a depth is compared just where texture and sampler are made for it. -/
def validDepth (c : NodeContext) (image : ImageClass) (comparison : Bool) (depth : Option Ref)
    (level : SampleLevel) : Bool :=
  let imageIsDepth := image == .depth false
  (imageIsDepth || image == .texels .float) && comparison == depth.isSome &&
    (!comparison || imageIsDepth) && c.optionIs depth (·.isScalarOf [.float]) &&
    (depth.isNone || level == .auto || level == .zero)

/-- The stages that sampling a texture asks for, if it is valid. -/
def sampleStages? (c : NodeContext) (image sampler coordinate : Ref) (layer offset : Option Ref)
    (level : SampleLevel) (depth : Option Ref) : Option StageSet :=
  match c.resource? image, c.resource? sampler with
  | some (.image dim arrayed texels), some (.sampler comparison) =>
      let count := coordinateCount dim
      if c.validLayer arrayed layer && c.validDepth texels comparison depth level &&
          c.typeIs coordinate (·.isCoordinate count .float) &&
          offset.all fun o => c.constants[o]?.any (·.isCoordinate count .sint) then
        c.levelStages? count level
      else none
  | _, _ => none

/-- Whether a coordinate leads to a texel of an image of a shape. -/
def isTexelCoordinate (dim : ImageDim) (t : NodeType) : Bool :=
  match dim with
  | .d1 => t.isScalarOf wholeKinds
  | .d2 => t.isCoordinate 2 .sint || t.isCoordinate 2 .uint
  | .d3 => t.isCoordinate 3 .sint || t.isCoordinate 3 .uint
  | .cube => false

/-- Whether images of a class have several levels. -/
def hasLevels : ImageClass → Bool
  | .sampled _ multi | .depth multi => !multi
  | .storage .. => false

/-- Whether a texel can be read. -/
def validFetch (c : NodeContext) (image coordinate : Ref) (layer index level : Option Ref) :
    Bool :=
  match c.resource? image with
  | some (.image dim arrayed texels) =>
      c.typeIs coordinate (isTexelCoordinate dim) && c.validLayer arrayed layer &&
        index.isSome == texels.isMulti && c.optionIs index (·.isScalarOf wholeKinds) &&
        level.isSome == hasLevels texels && c.optionIs level (·.isScalarOf wholeKinds)
  | _ => false

/-- Whether a texture can be asked something. -/
def validQuery (c : NodeContext) (image : Ref) (query : ImageQuery) : Bool :=
  match c.resource? image with
  | some (.image _ arrayed texels) =>
      match query with
      | .size level => level.isNone || hasLevels texels
      | .layers => arrayed
  | _ => false

/-! ## Parts -/

/-- Whether an element at an index exists. -/
def validAccess (c : NodeContext) (base index : Ref) : Bool :=
  c.typeIs index (·.isScalarOf wholeKinds) &&
    c.typeIs base fun t =>
      (!needsFixedIndex t || isFixed c.nodes[index]?) &&
        (elementCount? t).any fun bound => indexFits (c.literal? index) bound

/-- Whether something can be loaded from memory. -/
def validLoad : NodeType → Bool
  | .pointer base _ => base.isSized && base.isData
  | .component .. => true
  | .value _ => false

/-- Whether a pointer leads to an array of unknown length. -/
def isUnsizedArray : NodeType → Bool
  | .pointer (.array _ none _) _ => true
  | _ => false

/-! ## Nodes -/

/-- The types of some nodes. -/
def typesOf? (c : NodeContext) (rs : List Ref) : Option (List NodeType) :=
  rs.mapM fun r => c.types[r]?

/-- The stages that a node asks for, if it is valid. -/
def nodeStages? (c : NodeContext) (n : Node) : Option StageSet :=
  let ok (valid : Bool) : Option StageSet := if valid then some .all else none
  match n with
  | .literal _ | .constant _ | .argument _ | .globalVariable _ | .localVariable _ => some .all
  | .compose type components => ok ((c.typesOf? components).any fun ts => validCompose type ts)
  | .splat _ value => ok (c.typeIs value (·.isScalarOf [.float, .sint, .uint, .bool]))
  | .access base index => ok (c.validAccess base index)
  | .accessIndex base index =>
      ok (c.typeIs base fun t => (partCount? t).any fun count => decide (index < count))
  | .swizzle size vector pattern =>
      ok (c.typeIs vector fun t =>
        match t with
        | .value (.vector n _) => (pattern.take size.count).all fun i => decide (i < n.count)
        | _ => false)
  | .load pointer => ok (c.typeIs pointer validLoad)
  | .sample image sampler coordinate layer offset level depth =>
      c.sampleStages? image sampler coordinate layer offset level depth
  | .fetch image coordinate layer index level =>
      ok (c.validFetch image coordinate layer index level)
  | .query image query => ok (c.validQuery image query)
  | .unary op operand => ok (c.typeIs operand op.accepts)
  | .binary op left right => ok (c.typeIs left fun l => c.typeIs right fun r => op.accepts l r)
  | .select condition accept reject =>
      ok (c.typeIs condition fun t => c.typeIs accept fun a => c.typeIs reject fun r =>
        validSelect t a r)
  | .derivative operand =>
      if c.typeIs operand (·.isOf [.float]) then some .fragmentOnly else none
  | .relational f operand => ok (c.typeIs operand f.accepts)
  | .math f arguments => ok ((c.typesOf? arguments).any f.accepts)
  | .cast operand kind width => ok (c.typeIs operand (validCast kind width))
  | .callResult function => c.stages[function]?
  | .arrayLength array => ok (c.typeIs array isUnsizedArray)

/-- The stages that some nodes ask for, if all are valid. -/
def stagesOf? (c : NodeContext) : List Node → Option StageSet
  | [] => some .all
  | n :: ns => do
      let s ← c.nodeStages? n
      return s.meet (← c.stagesOf? ns)

end NodeContext

end LegacyShader.Code
