import LegacyShader.Glsl.Overload
import LegacyShader.Glsl.TypeWord

/-!
# Built-in functions

The functions that every shader can call, as lists of overloads.  Most exist for
scalars and for vectors of each size.  Those that have a version for doubles get
it only where an argument is a double, and those for some layered images only where an
argument is one.

The order of the overloads counts, since it decides between equally good ones.
-/

namespace LegacyShader.Glsl

open Code (BinaryOp MathFunction RelationalFunction UnaryOp sizedType)

/-! ## Families of types -/

/-- The sizes of vectors. -/
def vectorSizes : List VectorSize := [.two, .three, .four]

/-- The sizes of values: a scalar first, then the vectors. -/
def valueSizes : List (Option VectorSize) := none :: vectorSizes.map some

/-- The sizes of values: the vectors first, then a scalar. -/
def vectorFirstSizes : List (Option VectorSize) := vectorSizes.map some ++ [none]

/-- The sizes of two values, of which the second can be a scalar. -/
def pairedSizes : List (Option VectorSize × Option VectorSize) :=
  (none, none) :: (vectorSizes.map fun n => (some n, none)) ++
    vectorSizes.map fun n => (some n, some n)

/-- The scalars of numbers in single precision. -/
def numberScalars : List Scalar := [.f32, .i32, .u32]

/-- A built-in function. -/
def builtIn (call : BuiltInCall) (parameters : List ShaderType) : Overload :=
  { parameters := parameters.map fun type => { type }, target := .builtIn call }

/-- A function of some arguments of one type, for each size of values. -/
def perSize (call : BuiltInCall) (count : Nat) (s : Scalar) : List Overload :=
  valueSizes.map fun size => builtIn call (List.replicate count (sizedType size s))

/-! ## Names of functions -/

/-- The function of one float that a name stands for, in single precision only. -/
def singleFunction? : String → Option MathFunction
  | "sin" => some .sin
  | "exp" => some .exp
  | "exp2" => some .exp2
  | "sinh" => some .sinh
  | "cos" => some .cos
  | "cosh" => some .cosh
  | "tan" => some .tan
  | "tanh" => some .tanh
  | "acos" => some .acos
  | "asin" => some .asin
  | "log" => some .log
  | "log2" => some .log2
  | "radians" => some .radians
  | "degrees" => some .degrees
  | "asinh" => some .asinh
  | "acosh" => some .acosh
  | "atanh" => some .atanh
  | _ => none

/-- The function of one float that a name stands for, in any precision. -/
def floatFunction? : String → Option MathFunction
  | "ceil" => some .ceil
  | "round" | "roundEven" => some .round
  | "floor" => some .floor
  | "fract" => some .fract
  | "trunc" => some .trunc
  | "sqrt" => some .sqrt
  | "inversesqrt" => some .inverseSqrt
  | "normalize" => some .normalize
  | "length" => some .length
  | _ => none

/-- The function of packed numbers that a name stands for, with its parameter. -/
def packing? : String → Option (MathFunction × ShaderType)
  | "packSnorm4x8" => some (.pack4x8snorm, .vector .four .f32)
  | "packUnorm4x8" => some (.pack4x8unorm, .vector .four .f32)
  | "packSnorm2x16" => some (.pack2x16unorm, .vector .two .f32)
  | "packUnorm2x16" => some (.pack2x16snorm, .vector .two .f32)
  | "packHalf2x16" => some (.pack2x16float, .vector .two .f32)
  | "unpackSnorm4x8" => some (.unpack4x8snorm, .scalar .u32)
  | "unpackUnorm4x8" => some (.unpack4x8unorm, .scalar .u32)
  | "unpackSnorm2x16" => some (.unpack2x16snorm, .scalar .u32)
  | "unpackUnorm2x16" => some (.unpack2x16unorm, .scalar .u32)
  | "unpackHalf2x16" => some (.unpack2x16float, .scalar .u32)
  | _ => none

/-- The comparison by component that a name stands for. -/
def comparison? : String → Option BinaryOp
  | "lessThan" => some .less
  | "greaterThan" => some .greater
  | "lessThanEqual" => some .lessEqual
  | "greaterThanEqual" => some .greaterEqual
  | "equal" => some .equal
  | "notEqual" => some .notEqual
  | _ => none

/-- Whether a name stands for a rate of change. -/
def isDerivative (name : String) : Bool :=
  ["dFdx", "dFdxFine", "dFdxCoarse", "dFdy", "dFdyFine", "dFdyCoarse", "fwidth", "fwidthFine",
    "fwidthCoarse"].contains name

/-! ## Numbers -/

/-- The overloads of functions of whole numbers: for each size, signed and then
unsigned. -/
def bitFunctions (make : Option VectorSize → Scalar → Overload) : List Overload :=
  valueSizes.flatMap fun size => [Scalar.i32, .u32].map (make size)

/-- The overloads of a function that finds a bit.  The result is signed. -/
def findBit (f : MathFunction) : List Overload :=
  bitFunctions fun size s =>
    builtIn (if s = .u32 then .signedResult f else .math f) [sizedType size s]

/-- The overloads of `max` and `min`. -/
def extremes (f : MathFunction) (scalars : List Scalar) : List Overload :=
  pairedSizes.flatMap fun (size, second) =>
    scalars.map fun s => builtIn (.splatted f size 1) [sizedType size s, sizedType second s]

/-- The overloads of `clamp`: the limits can be scalars. -/
def clamps (scalars : List Scalar) : List Overload :=
  (vectorFirstSizes.flatMap fun size =>
      scalars.map fun s => builtIn (.clamp size) (List.replicate 3 (sizedType size s))) ++
    vectorSizes.flatMap fun n =>
      scalars.map fun s => builtIn (.clamp (some n)) [.vector n s, .scalar s, .scalar s]

/-- The overloads of `mix` with truth values. -/
def choices (sizes : List (Option VectorSize)) (s : Scalar) : List Overload :=
  sizes.map fun size =>
    builtIn .choice [sizedType size s, sizedType size s, sizedType size .bool]

/-- The overloads of `mix` with a number for all components. -/
def scalarMixes (sizes : List (Option VectorSize)) (s : Scalar) : List Overload :=
  sizes.map fun size =>
    builtIn (.splatted .mix size 2) [sizedType size s, sizedType size s, .scalar s]

/-- The overloads of `mix` with a number for each component. -/
def vectorMixes (sizes : List VectorSize) (s : Scalar) : List Overload :=
  sizes.map fun n => builtIn (.splatted .mix (some n) 2) (List.replicate 3 (.vector n s))

/-- The overloads of a comparison by component. -/
def comparisons (op : BinaryOp) (scalars : List Scalar) : List Overload :=
  scalars.flatMap fun s =>
    vectorSizes.map fun n => builtIn (.binary op) [.vector n s, .vector n s]

/-- What a comparison by component compares.  Truth values are equal or not. -/
def comparedScalars (op : BinaryOp) : List Scalar :=
  if op = .equal ∨ op = .notEqual then numberScalars ++ [.bool] else numberScalars

/-- The overloads of `smoothstep`: the edges can be scalars. -/
def smoothSteps (s : Scalar) : List Overload :=
  valueSizes.flatMap fun size =>
    builtIn (.smoothStep size) (List.replicate 3 (sizedType size s)) ::
      if size.isSome then
        [builtIn (.smoothStep size) [.scalar s, .scalar s, sizedType size s]]
      else []

/-- Pairs of sizes, the first one changing last. -/
def sizePairs : List (VectorSize × VectorSize) :=
  vectorSizes.flatMap fun a => vectorSizes.map fun b => (a, b)

/-- The functions that exist for floats and for doubles. -/
def floatFunctions (s : Scalar) (name : String) : List Overload :=
  match floatFunction? name with
  | some f => perSize (.math f) 1 s
  | none =>
      match name with
      | "isinf" => perSize (.relational .isInf) 1 s
      | "isnan" => perSize (.relational .isNan) 1 s
      | "dot" => perSize (.math .dot) 2 s
      | "reflect" => perSize (.math .reflect) 2 s
      | "distance" => perSize (.math .distance) 2 s
      | "ldexp" =>
          valueSizes.map fun n => builtIn (.math .ldexp) [sizedType n s, sizedType n .i32]
      | "refract" =>
          valueSizes.map fun n =>
            builtIn (.math .refract) [sizedType n s, sizedType n s, .scalar .f32]
      | "faceforward" => perSize (.math .faceForward) 3 s
      | "fma" => perSize (.math .fma) 3 s
      | "cross" => [builtIn (.math .cross) [.vector .three s, .vector .three s]]
      | "mod" =>
          pairedSizes.map fun (n, m) => builtIn (.floorMod n) [sizedType n s, sizedType m s]
      | "step" =>
          pairedSizes.map fun (n, m) =>
            builtIn (.splatted .step n 0) [sizedType m s, sizedType n s]
      | "smoothstep" => smoothSteps s
      | "outerProduct" =>
          sizePairs.map fun (a, b) => builtIn (.math .outer) [.vector a s, .vector b s]
      | "transpose" =>
          sizePairs.map fun (rows, columns) => builtIn (.math .transpose) [.matrix columns rows s]
      | "determinant" => vectorSizes.map fun n => builtIn (.math .determinant) [.matrix n n s]
      | "inverse" => vectorSizes.map fun n => builtIn (.math .inverse) [.matrix n n s]
      | _ => []

/-- The functions of a name without those for doubles and textures. -/
def plainFunctions (name : String) : List Overload :=
  match singleFunction? name, packing? name, comparison? name with
  | some f, _, _ => perSize (.math f) 1 .f32
  | none, some (f, parameter), _ => [builtIn (.math f) [parameter]]
  | none, none, some op => comparisons op (comparedScalars op)
  | none, none, none =>
      if isDerivative name then perSize .derivative 1 .f32
      else
        match name with
        | "floatBitsToInt" => perSize (.bitCast .sint) 1 .f32
        | "floatBitsToUint" => perSize (.bitCast .uint) 1 .f32
        | "intBitsToFloat" => perSize (.bitCast .float) 1 .i32
        | "uintBitsToFloat" => perSize (.bitCast .float) 1 .u32
        | "pow" => perSize (.math .pow) 2 .f32
        | "atan" =>
            valueSizes.flatMap fun n =>
              [builtIn (.math .atan) [sizedType n .f32],
                builtIn (.math .atan2) [sizedType n .f32, sizedType n .f32]]
        | "abs" => perSize (.math .abs) 1 .f32 ++ perSize (.math .abs) 1 .i32
        | "sign" => perSize (.math .sign) 1 .f32 ++ perSize (.math .sign) 1 .i32
        | "bitCount" => bitFunctions fun n s => builtIn (.math .countOneBits) [sizedType n s]
        | "bitfieldReverse" => bitFunctions fun n s => builtIn (.math .reverseBits) [sizedType n s]
        | "bitfieldExtract" =>
            bitFunctions fun n s => builtIn .extractBits [sizedType n s, .scalar .i32, .scalar .i32]
        | "bitfieldInsert" =>
            bitFunctions fun n s =>
              builtIn .insertBits [sizedType n s, sizedType n s, .scalar .i32, .scalar .i32]
        | "findLSB" => findBit .findLsb
        | "findMSB" => findBit .findMsb
        | "all" => vectorSizes.map fun n => builtIn (.relational .all) [.vector n .bool]
        | "any" => vectorSizes.map fun n => builtIn (.relational .any) [.vector n .bool]
        | "not" => vectorSizes.map fun n => builtIn (.unary .logicalNot) [.vector n .bool]
        | "max" => extremes .max numberScalars
        | "min" => extremes .min numberScalars
        | "clamp" => clamps numberScalars
        | "mix" =>
            choices vectorFirstSizes .i32 ++ choices vectorFirstSizes .u32 ++
              choices vectorFirstSizes .f32 ++ scalarMixes vectorFirstSizes .f32 ++
              vectorMixes vectorSizes .f32
        | "barrier" => [builtIn .barrier []]
        | _ => floatFunctions .f32 name

/-! ## Images -/

/-- Which built-in functions of a name there are. -/
structure Variations where
  /-- Those that every shader has. -/
  plain : Bool := false
  /-- Those of doubles. -/
  doubles : Bool := false
  /-- Those of layered cubes. -/
  cubeArrays : Bool := false
  /-- Those of layered textures whose texels have several samples. -/
  multiArrays : Bool := false
  deriving DecidableEq, Repr, Inhabited

namespace Variations

/-- The variations of both. -/
def join (a b : Variations) : Variations :=
  ⟨a.plain || b.plain, a.doubles || b.doubles, a.cubeArrays || b.cubeArrays,
    a.multiArrays || b.multiArrays⟩

/-- The variations of the first that the second does not have. -/
def without (a b : Variations) : Variations :=
  ⟨a.plain && !b.plain, a.doubles && !b.doubles, a.cubeArrays && !b.cubeArrays,
    a.multiArrays && !b.multiArrays⟩

/-- The variations that an argument of a type asks for. -/
def ofType (type : ShaderType) : Variations :=
  match type with
  | .image .cube true _ => { cubeArrays := true }
  | .image .d2 true texels => { multiArrays := texels.isMulti }
  | _ => { doubles := type.scalar? == some .f64 }

/-- The variations that arguments of some types ask for. -/
def ofTypes (types : List ShaderType) : Variations :=
  types.foldl (fun v type => v.join (ofType type)) {}

end Variations

/-- The number of coordinates of an image. -/
def coordinates : ImageDim → Nat
  | .d1 => 1
  | .d2 => 2
  | .d3 | .cube => 3

/-- The type of some coordinates. -/
def coordinateType (count : Nat) (s : Scalar) : ShaderType := sizedType (VectorSize.ofCount? count) s

/-- What an image holds, as far as functions tell images apart. -/
inductive Texels where
  /-- Numbers. -/
  | numbers
  /-- Numbers, several at each place. -/
  | samples
  /-- Depths. -/
  | depths
  deriving DecidableEq, Repr, Inhabited

/-- An image that functions take. -/
structure ImageShape where
  /-- The kind of the numbers. -/
  kind : ScalarKind
  /-- Its shape. -/
  dim : ImageDim
  /-- Whether it is layered. -/
  arrayed : Bool
  /-- What it holds. -/
  texels : Texels
  deriving DecidableEq, Repr, Inhabited

namespace ImageShape

/-- The texture of a shape. -/
def texture (i : ImageShape) : ShaderType :=
  .image i.dim i.arrayed (match i.texels with
    | .numbers => .texels i.kind
    | .samples => .sampled i.kind true
    | .depths => .depth false)

/-- The format that stands for all formats of a kind. -/
def formatOf : ScalarKind → TexelFormat
  | .sint => .equal .r .bits16 .sint
  | .uint => .equal .r .bits16 .uint
  | _ => .equal .r .bits16 .float

/-- The image of a shape that is accessed by texel. -/
def storage (i : ImageShape) (load store : Bool) : ShaderType :=
  .image i.dim i.arrayed (.storage (formatOf i.kind) load store)

/-- The coordinates of a texel. -/
def texelCoordinates (i : ImageShape) : ShaderType :=
  coordinateType (coordinates i.dim + if i.arrayed then 1 else 0) .i32

end ImageShape

/-- The images of a kind and a shape that a function takes.  Those with several samples and those
that hold depths come last, where the function takes them.  Depths are of one kind. -/
def imagesOf (v : Variations) (multi depths : Bool) (kind : ScalarKind) (dim : ImageDim)
    (arrayed : Bool) : List ImageShape :=
  let make (texels : Texels) : ImageShape := ⟨kind, dim, arrayed, texels⟩
  let layeredSamples := dim = .d2 ∧ arrayed ∧ multi ∧ v.multiArrays
  if (if dim = .cube ∧ arrayed then v.cubeArrays else v.plain || decide layeredSamples) then
    (if layeredSamples then [make .samples] else []) ++ [make .numbers] ++
      (if dim = .d2 ∧ !arrayed ∧ multi then [make .samples] else []) ++
      if depths ∧ dim ≠ .d3 ∧ kind = .float then [make .depths] else []
  else []

/-- The images that a function takes. -/
def imageShapes (v : Variations) (multi depths : Bool) : List ImageShape :=
  [ScalarKind.float, .uint, .sint].flatMap fun kind =>
    [(ImageDim.d1, false), (.d1, true), (.d2, false), (.d2, true), (.d3, false), (.cube, false),
        (.cube, true)].flatMap fun (dim, arrayed) =>
      imagesOf v multi depths kind dim arrayed

/-- A sampling function: whether the coordinates are divided by their last one,
whether there is an offset, and the level. -/
structure Sampling where
  /-- Whether the last coordinate divides the others. -/
  proj : Bool
  /-- Whether there is an offset. -/
  offset : Bool
  /-- How the level is found. -/
  level : Level
  deriving DecidableEq, Repr, Inhabited

/-- The sampling function of a name. -/
def sampling? : String → Option Sampling
  | "texture" => some ⟨false, false, .implicit⟩
  | "textureGrad" => some ⟨false, false, .grad⟩
  | "textureGradOffset" => some ⟨false, true, .grad⟩
  | "textureLod" => some ⟨false, false, .lod⟩
  | "textureLodOffset" => some ⟨false, true, .lod⟩
  | "textureOffset" => some ⟨false, true, .implicit⟩
  | "textureProj" => some ⟨true, false, .implicit⟩
  | "textureProjGrad" => some ⟨true, false, .grad⟩
  | "textureProjGradOffset" => some ⟨true, true, .grad⟩
  | "textureProjLod" => some ⟨true, false, .lod⟩
  | "textureProjLodOffset" => some ⟨true, true, .lod⟩
  | "textureProjOffset" => some ⟨true, true, .implicit⟩
  | _ => none

/-- The coordinates that a sampling function takes for an image of numbers. -/
def Sampling.counts (f : Sampling) (dim : ImageDim) (arrayed : Bool) : List Nat :=
  let count := coordinates dim
  if f.proj then [count + 1, 4] else [count + if arrayed then 1 else 0]

/-- The coordinates that a sampling function takes for an image of depths.  One more
is compared with the depth. -/
def Sampling.depthCount (f : Sampling) (dim : ImageDim) (arrayed : Bool) : Nat :=
  if f.proj then 4
  else if dim = .d1 then 3
  else coordinates dim + 1 + if arrayed then 1 else 0

/-- Whether a sampling function exists for an image. -/
def Sampling.takes (f : Sampling) (i : ImageShape) : Bool :=
  !((f.offset && i.dim = .cube) || (f.proj && (i.arrayed || i.dim = .cube)) ||
    (i.texels = .depths && i.arrayed &&
      ((f.level = .lod && i.dim = .d2) || (f.level != .implicit && i.dim = .cube))))

/-- The overloads of a sampling function for an image. -/
def Sampling.overloads (f : Sampling) (i : ImageShape) : List Overload :=
  if f.takes i then
    let depth := i.texels == .depths
    let along := coordinateType (coordinates i.dim) .f32
    let level := match f.level with
      | .implicit => []
      | .lod => [.scalar .f32]
      | .grad => [along, along]
    let offset := if f.offset then [coordinateType (coordinates i.dim) .i32] else []
    let bias := if f.level = .implicit ∧ !depth then [[], [.scalar .f32]] else [[]]
    let counts := if depth then [f.depthCount i.dim i.arrayed] else f.counts i.dim i.arrayed
    bias.flatMap fun b =>
      counts.map fun count =>
        let coordinate :=
          if count = 5 then [coordinateType 4 .f32, .scalar .f32] else [coordinateType count .f32]
        builtIn (.sample f.proj f.offset depth f.level)
          (i.texture :: coordinate ++ level ++ offset ++ b)
  else []

/-- The texture that a function joins with a sampler, by what stands behind the stem of its
name. -/
def pairedTexture? : String → Option ShaderType
  | "2DMS" => some (.image .d2 false (.sampled .float true))
  | "2DMSArray" => some (.image .d2 true (.sampled .float true))
  | size => (imageShape? size).map fun (dim, arrayed) => .image dim arrayed (.texels .float)

/-- The texture that a function joins with a sampler that compares depths. -/
def comparedTexture? : String → Option (ImageDim × Bool)
  | "1DShadow" => some (.d1, false)
  | "1DArrayShadow" => some (.d1, true)
  | "2DShadow" => some (.d2, false)
  | "2DArrayShadow" => some (.d2, true)
  | "CubeShadow" => some (.cube, false)
  | "CubeArrayShadow" => some (.cube, true)
  | _ => none

/-- The functions that join a texture with a sampler. -/
def pairings (name : String) : List Overload :=
  match cutAt "sampler".toList name.toList with
  | ([], some size) =>
      match pairedTexture? (String.ofList size), comparedTexture? (String.ofList size) with
      | some texture, _ => [builtIn .pair [texture, .sampler false]]
      | none, some (dim, arrayed) =>
          [ImageClass.texels .float, .depth false].map fun texels =>
            builtIn .depthPair [.image dim arrayed texels, .sampler true]
      | none, none => []
  | _ => []

/-- The functions that ask for the size of a texture. -/
def sizeQueries (v : Variations) : List Overload :=
  (imageShapes v true true).map fun i =>
    builtIn (.imageSize i.arrayed)
      (i.texture :: if i.texels = .samples then [] else [.scalar .i32])

/-- The functions that read a texel of a texture. -/
def fetches (v : Variations) (offset : Bool) : List Overload :=
  ((imageShapes v true false).filter fun i => i.dim != .cube).map fun i =>
    builtIn (.fetch (i.texels == .samples))
      ([i.texture, i.texelCoordinates, .scalar .i32] ++
        if offset then [coordinateType (coordinates i.dim) .i32] else [])

/-- The images that are accessed by texel.  There are no cubes among them. -/
def storageShapes (v : Variations) : List ImageShape :=
  (imageShapes v false false).filter fun i => i.dim != .cube

/-- The functions of a name that take images. -/
def imageFunctions (v : Variations) (name : String) : List Overload :=
  match sampling? name with
  | some f => (imageShapes v false true).flatMap f.overloads
  | none =>
      match name with
      | "textureSize" => sizeQueries v
      | "texelFetch" => fetches v false
      | "texelFetchOffset" => fetches v true
      | "imageSize" =>
          (storageShapes v).map fun i => builtIn (.imageSize i.arrayed) [i.storage false false]
      | "imageLoad" =>
          (storageShapes v).map fun i =>
            builtIn (.fetch false) [i.storage true false, i.texelCoordinates]
      | "imageStore" =>
          (storageShapes v).map fun i =>
            { builtIn .storeTexel
                [i.storage false true, i.texelCoordinates, .vector .four ⟨i.kind, 4⟩] with
              void := true }
      | _ => []

/-! ## The table -/

/-- The sizes of `mix` for doubles. -/
def doubleMixSizes : List VectorSize := [.four, .two, .three]

/-- The built-in functions of a name for doubles. -/
def doubleFunctions (name : String) : List Overload :=
  match comparison? name, name with
  | some op, _ => comparisons op [.f64]
  | none, "abs" => perSize (.math .abs) 1 .f64
  | none, "sign" => perSize (.math .sign) 1 .f64
  | none, "max" => extremes .max [.f64]
  | none, "min" => extremes .min [.f64]
  | none, "clamp" => clamps [.f64]
  | none, "mix" =>
      let sizes := doubleMixSizes.map some ++ [none]
      scalarMixes sizes .f64 ++ choices sizes .f64 ++ vectorMixes doubleMixSizes .f64
  | none, _ => floatFunctions .f64 name

/-- The built-in functions of a name. -/
def builtInFunctions (v : Variations) (name : String) : List Overload :=
  (if v.plain then plainFunctions name ++ pairings name else []) ++
    (if v.doubles then doubleFunctions name else []) ++ imageFunctions v name

end LegacyShader.Glsl
