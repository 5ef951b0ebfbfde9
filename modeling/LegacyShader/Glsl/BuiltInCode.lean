import LegacyShader.Glsl.Constructor

/-!
# Code of built-in functions

What the call of a built-in function writes.  Most write one node.  The nodes come
from no place of the source, apart from the one that samples a texture.
-/

namespace LegacyShader.Glsl

open Code (ImageQuery MathFunction Node NodeType Ref SampleLevel)

/-! ## Textures of depths -/

/-- Gives a node its type anew, behind a change of what it refers to. -/
def renewType (r : Ref) (place : Place) : Read Unit := do
  let _ ← typeOf r place
  let d ← get
  let types := if d.body.bench.constant then d.body.constantTypes else d.body.types
  match ← nodeAt? r with
  | some n =>
      match n.type d.surroundings types with
      | .ok type =>
          modifyBody fun b =>
            if b.bench.constant then
              { b with constantTypes := b.constantTypes.setIfInBounds r type }
            else { b with types := b.types.setIfInBounds r type }
      | .error e => fail (.typing e) place
  | none => pure ()

/-- The type of a texture with depths in place of numbers. -/
def depthType (type : ShaderType) (place : Place) : Read ShaderType := do
  match type with
  | .image dim arrayed (.sampled _ multi) => do
      let type := ShaderType.image dim arrayed (.depth multi)
      intern type
      return type
  | .image _ _ (.depth _) => return type
  | _ => do
      note .notTexture place
      return type

/-- Makes a texture one of depths, where it is declared. -/
def makeDepth (image : Ref) (place : Place) : Read Unit := do
  match ← nodeAt? image with
  | some (.globalVariable index) =>
      match (← get).globals[index]? with
      | some g => do
          let type ← depthType g.type place
          modify fun d => { d with globals := d.globals.setIfInBounds index { g with type } }
      | none => pure ()
  | some (.argument index) =>
      match (← body).arguments[index]? with
      | some type => do
          let type ← depthType type place
          modifyBody fun b =>
            { b with
              arguments := b.arguments.setIfInBounds index type
              depthArguments := index :: b.depthArguments }
      | none => pure ()
  | _ => note .notTextureExpression place
  renewType image place

/-! ## Textures -/

/-- Where a texture is sampled. -/
structure Coordinates where
  /-- The coordinate inside a layer. -/
  coordinate : Ref
  /-- The layer. -/
  layer : Option Ref
  /-- The number that is compared with the depth. -/
  depth : Option Ref
  /-- The arguments behind the coordinates. -/
  rest : List Ref
  deriving Repr, Inhabited

/-- The size of the coordinates of an image. -/
def coordinateSize : ImageDim → Option VectorSize
  | .d1 => none
  | .d2 => some .two
  | .d3 | .cube => some .three

/-- The number that is compared with the depth of a texture: the coordinate behind the others, or
the next argument if four coordinates are taken up. -/
def comparedDepth (coordinates : Ref) (index : Nat) (rest : List Ref) :
    Read (Option Ref × List Ref) := do
  if index = 4 then return (rest.head?, rest.tail)
  else return (some (← add (.accessIndex coordinates index) none), rest)

/-- The parts of the coordinates of a texture, with the arguments behind them. -/
def splitCoordinates (image coordinates : Ref) (rest : List Ref) (place : Place) :
    Read Coordinates := do
  match ← typeOf image place with
  | .value (.image dim arrayed texels) => do
      let size := coordinateSize dim
      let coordinate ← match size, vectorSize? (← typeOf coordinates place) with
        | some n, some m => if n = m then pure coordinates else resize n coordinates none
        | none, some _ => add (.accessIndex coordinates 0) none
        | _, none => pure coordinates
      let index := (size.map (·.count)).getD 1
      let layer ←
        if arrayed then some <$> add (.accessIndex coordinates index) none else pure none
      let (depth, rest) ← match texels with
        | .depth _ => comparedDepth coordinates (if arrayed then index + 1 else index) rest
        | _ => pure (none, rest)
      return ⟨coordinate, layer, depth, rest⟩
  | _ => do
      note .notImage place
      return ⟨coordinates, none, none, rest⟩

/-- Coordinates divided by their last one. -/
def projected (coordinates : Ref) (place : Place) : Read Ref := do
  match vectorSize? (← typeOf coordinates place) with
  | none => return coordinates
  | some size => do
      let last ← add (.accessIndex coordinates (size.count - 1)) none
      match size with
      | .two => do
          let first ← add (.accessIndex coordinates 0) none
          add (.binary .divide first last) none
      | .three => do
          let divisor ← add (.splat .two last) none
          let first ← resize .two coordinates none
          add (.binary .divide first divisor) none
      | .four => do
          let divisor ← add (.splat .three last) none
          let first ← resize .three coordinates none
          add (.binary .divide first divisor) none

/-- Copies the offset of a sampling function into the constants.  One that is no
constant is noted. -/
def constantOffset (r : Ref) : Read (Option Ref) := do
  let b ← body
  let (lifted, w) := b.bench.lift r
  modifyBench fun _ => w
  match lifted with
  | .ok r => return some r
  | .error r => do
      note .offsetConstant ((b.places[r]?).getD none)
      return none

/-- The level of detail of a sampling function, and the arguments behind it.  Depths are compared
at the first level. -/
def levelOf (level : Level) (depth : Bool) (arguments : List Ref) : SampleLevel × List Ref :=
  match level, arguments with
  | .lod, l :: rest => (if depth then .zero else .exact l, rest)
  | .grad, x :: y :: rest => (if depth then .zero else .gradient x y, rest)
  | _, rest => (.auto, rest)

/-- The code of a sampling function, with the arguments behind the coordinates. -/
def sampleCode (proj offset depth : Bool) (level : Level) (image coordinates : Ref)
    (rest : List Ref) (place : Place) : Read Ref := do
  let coordinates ← if proj then projected coordinates place else pure coordinates
  let at_ ← splitCoordinates image coordinates rest place
  let (level, rest) := levelOf level depth at_.rest
  let (offset, rest) ← match offset, rest with
    | true, o :: rest => pure (← constantOffset o, rest)
    | _, rest => pure (none, rest)
  let level := match level, rest with
    | .auto, bias :: _ => SampleLevel.bias bias
    | level, _ => level
  match (← body).pairs.lookup image with
  | none => fail .unpairedTexture place
  | some sampler => do
      let layer ← at_.layer.mapM fun l => convert l place .i32
      add (.sample image sampler at_.coordinate layer offset level at_.depth) place

/-- The code of a texel that is read. -/
def fetchCode (multi : Bool) (image coordinates : Ref) (rest : List Ref) (place : Place) :
    Read Ref := do
  let at_ ← splitCoordinates image coordinates [] place
  let (index, level) := if multi then (rest.head?, none) else (none, rest.head?)
  add (.fetch image at_.coordinate at_.layer index level) none

/-- The code of a texel that is written. -/
def storeTexelCode (image coordinates value : Ref) (place : Place) : Read Unit := do
  let at_ ← splitCoordinates image coordinates [] place
  pushBehind (.storeTexel image at_.coordinate at_.layer value)

/-- The code of a question for the size of an image. -/
def sizeCode (arrayed : Bool) (image : Ref) (level : Option Ref) (place : Place) : Read Ref := do
  let extent ← add (.query image (.size level)) none
  let result ←
    if arrayed then do
      let (components, size) ← match vectorSize? (← typeOf extent place) with
        | some n => do
            let parts ← partsBelow extent n.count none
            pure (parts, if n = .two then VectorSize.three else .four)
        | none => pure ([extent], .two)
      let layers ← add (.query image .layers) none
      let type := ShaderType.vector size .u32
      intern type
      add (.compose type (components ++ [layers])) place
    else pure extent
  add (.cast result .sint (some 4)) none

/-! ## Numbers -/

/-- The arguments with some of them spread over a vector. -/
def spreadAt (indices : List Nat) (size : Option VectorSize) (arguments : List Ref)
    (place : Place) : Read (List Ref) :=
  arguments.zipIdx.mapM fun (r, i) =>
    if indices.contains i then spread r place size else pure r

/-- The code of a remainder that has the sign of the divisor. -/
def floorModCode (a b : Ref) : Read Ref := do
  let quotient ← add (.binary .divide a b) none
  let floor ← add (.math .floor [quotient]) none
  let product ← add (.binary .multiply floor b) none
  add (.binary .subtract a product) none

/-- The arguments with those behind the first ones converted to unsigned numbers. -/
def unsignedBehind (count : Nat) (arguments : List Ref) : Read (List Ref) :=
  arguments.zipIdx.mapM fun (r, i) =>
    if i < count then pure r else add (.cast r .uint (some 4)) none

/-! ## Calls -/

/-- The code of a call, and its value if it has one. -/
def BuiltInCall.code (call : BuiltInCall) (arguments : List Ref) (place : Place) :
    Read (Option Ref) := do
  match call, arguments with
  | .pair, [image, sampler] => do
      modifyBody fun b => { b with pairs := (image, sampler) :: b.pairs }
      return some image
  | .depthPair, [image, sampler] => do
      makeDepth image place
      modifyBody fun b => { b with pairs := (image, sampler) :: b.pairs }
      return some image
  | .sample proj offset depth level, image :: coordinates :: rest => do
      return some (← sampleCode proj offset depth level image coordinates rest place)
  | .imageSize arrayed, image :: rest => do
      return some (← sizeCode arrayed image rest.head? place)
  | .fetch multi, image :: coordinates :: rest => do
      return some (← fetchCode multi image coordinates rest place)
  | .storeTexel, [image, coordinates, value] => do
      storeTexelCode image coordinates value place
      return none
  | .math f, _ => return some (← add (.math f arguments) none)
  | .signedResult f, _ => do
      let result ← add (.math f arguments) none
      return some (← add (.cast result .sint (some 4)) none)
  | .extractBits, _ => do
      let arguments ← unsignedBehind 1 arguments
      return some (← add (.math .extractBits arguments) none)
  | .insertBits, _ => do
      let arguments ← unsignedBehind 2 arguments
      return some (← add (.math .insertBits arguments) none)
  | .relational f, [a] => return some (← add (.relational f a) none)
  | .unary op, [a] => return some (← add (.unary op a) none)
  | .binary op, [a, b] => return some (← add (.binary op a b) none)
  | .floorMod size, [a, b] => do
      let b ← spread b place size
      return some (← floorModCode a b)
  | .splatted f size index, _ => do
      let arguments ← spreadAt [index] size arguments place
      return some (← add (.math f arguments) none)
  | .choice, [reject, accept, condition] =>
      return some (← add (.select condition accept reject) none)
  | .clamp size, _ => do
      let arguments ← spreadAt [1, 2] size arguments place
      return some (← add (.math .clamp arguments) none)
  | .smoothStep size, _ => do
      let arguments ← spreadAt [0, 1] size arguments place
      return some (← add (.math .smoothStep arguments) none)
  | .bitCast kind, [a] => return some (← add (.cast a kind none) none)
  | .derivative, [a] => return some (← add (.derivative a) none)
  | .barrier, _ => do
      pushBehind .barrier
      return none
  | _, _ => return none

end LegacyShader.Glsl
