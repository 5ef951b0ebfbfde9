import LegacyShader.Glsl.Declaration

/-!
# Declarations of functions

A function can be declared before its body is known.  The body then takes the place
that the declaration has in the module.  A function of a built-in name and of its
parameters replaces the built-in one, but only with a body.

A parameter that the function can change is a local variable, which starts with the value
of the argument.  A parameter that values pass out of is a pointer.
-/

namespace LegacyShader.Glsl

open Code (Ref)

/-! ## Parameters -/

/-- How values pass through a parameter, by the word in front of it. -/
def passingOf? : Lexeme → Option Passing
  | .keyword .input => some .input
  | .keyword .output => some .output
  | .keyword .inout => some .both
  | .keyword .constant => some .constant
  | _ => none

/-- Reads the word in front of a parameter, if there is one. -/
def readPassing : Read Passing := do
  match (← peek?).bind fun l => passingOf? l.lexeme with
  | some p => do
      let _ ← bump
      return p
  | none => return .input

/-- Adds an argument to the function, and gives its index. -/
def addArgument (p : Parameter) : Read Nat := do
  let type ← if p.passing.writes then do
      let pointer := ShaderType.pointer p.type
      intern pointer
      pure pointer
    else pure p.type
  let index := (← body).arguments.size
  modifyBody fun b => { b with arguments := b.arguments.push type }
  return index

/-- Declares a parameter as a name. -/
def declareParameter (name : String) (place : Place) (p : Parameter) : Read Unit := do
  let index ← addArgument p
  let node ← add (.argument index) place
  let writable := p.passing != .constant && !isHandle p.type
  let v : Variable ←
    if writable && !p.passing.writes then do
      let copy ← addLocal p.type none place
      pushBehind (.store copy node)
      pure { node := copy, stored := true, writable }
    else pure { node, stored := p.passing.writes, writable }
  modifyBody fun b => b.declare name v

/-- Reads parameters behind others.  A last one without a name does not count. -/
def readParameters : Nat → List Parameter → Read (List Parameter)
  | 0, done => return done
  | n + 1, done => do
      let qualified := (← peek?).any fun l => (passingOf? l.lexeme).isSome
      if (← peekType) || qualified then
        let passing ← readPassing
        let (type, _) ← readValueType
        match ← expectPeek with
        | .punct .comma => do
            let _ ← bump
            let _ ← addArgument { type, passing }
            readParameters n (done ++ [{ type, passing }])
        | .identifier _ => do
            let (name, place) ← expectName
            let p : Parameter := { type := ← readArray type, passing }
            declareParameter name place p
            let done := done ++ [p]
            if ← bumpIf .comma then readParameters n done else return done
        | _ => return done
      else return done

/-- Reads the parameters of a function. -/
def readParameterList : Read (List Parameter) := do
  if ← bumpIfKeyword .void then return []
  else readParameters ((← get).rest.length + 1) []

/-! ## Functions -/

/-- Adds a function to the module and gives its index. -/
def addFunction (f : NamedFunction) : Read Nat := do
  let d ← get
  set { d with functions := d.functions.push f }
  return d.functions.size

/-- Replaces a function of the module. -/
def setFunction (index : Nat) (f : NamedFunction) : Read Unit :=
  modify fun d => { d with functions := d.functions.setIfInBounds index f }

/-- The family of a function, and the index of the overload with its parameters. -/
def findOverload (name : String) (parameters : List Parameter) :
    Read (FunctionFamily × Option (Nat × Overload)) := do
  let types := parameters.map (·.type)
  let (family, new) ← familyFor name types
  for o in new do
    o.parameters.forM fun p => intern p.type
  let found := (family.overloads.zipIdx.find? fun (o, _) => o.accepts types).map fun (o, i) => (i, o)
  setFamily name family
  return (family, found)

/-- Declares a function without a body. -/
def addPrototype (name : String) (parameters : List Parameter) (f : Code.Function)
    (place : Place) : Read Unit := do
  let (family, found) ← findOverload name parameters
  match found with
  | some _ => note .prototypeRedefined place
  | none => do
      let index ← addFunction ⟨name, { arguments := f.arguments, result := f.result }⟩
      let o : Overload := ⟨parameters, .function index, f.result.isNone, false⟩
      setFamily name { family with overloads := family.overloads ++ [o] }

/-- Declares a function with its body. -/
def addDefinition (name : String) (parameters : List Parameter) (f : Code.Function)
    (place : Place) : Read Unit := do
  let (family, found) ← findOverload name parameters
  match found with
  | some (i, o) =>
      if o.defined then note .functionRedefined place
      else do
        let index ← match o.target with
          | .function index => do
              setFunction index ⟨name, f⟩
              pure index
          | .builtIn _ => addFunction ⟨name, f⟩
        let o := { o with parameters, target := .function index, defined := true }
        setFamily name { family with overloads := family.overloads.set i o }
  | none => do
      let index ← addFunction ⟨name, f⟩
      let o : Overload := ⟨parameters, .function index, f.result.isNone, true⟩
      setFamily name { family with overloads := family.overloads ++ [o] }

/-- The function of a body that has been read. -/
def Body.toFunction (b : Body) (result : Option ShaderType) : Code.Function :=
  { arguments := b.arguments.toList
    result
    locals := b.locals.toList
    nodes := b.bench.nodes
    body := Code.ensureReturns b.bench.finishPending.block.toList }

/-- Reads a function behind the opening parenthesis.  `define` reads a body, where
one is allowed. -/
def readFunction (define : Option (Read Unit)) (name : String) (result : Option ShaderType)
    (place : Place) : Read Unit := do
  let ((parameters, place, defined), inner) ← withNewBody false do
    let parameters ← readParameterList
    let close ← expect .rightParen
    let place := place.join close.place
    let l ← bump
    match l.lexeme, define with
    | .punct .semicolon, _ => return (parameters, place, false)
    | .punct .leftBrace, some read => do
        read
        return (parameters, place, true)
    | _, some _ => unexpected l [.punct .leftBrace, .punct .semicolon]
    | _, none => unexpected l [.punct .semicolon]
  let parameters := parameters.zipIdx.map fun (p, i) =>
    if inner.depthArguments.contains i then
      { p with type := (inner.arguments[i]?).getD p.type, depth := true }
    else p
  let f := inner.toFunction result
  if defined then addDefinition name parameters f place
  else addPrototype name parameters f place

/-! ## Declarations -/

/-- Reads a declaration behind its type: of a function, or of variables. -/
def readTyped (define : Option (Read Unit)) (q : Qualifiers) : Read Unit := do
  let (type, place) ← readType
  let l ← bump
  match l.lexeme with
  | .identifier name =>
      if (← expectPeek).isPunct .leftParen then
        let _ ← bump
        return ← readFunction define name type place
  | _ => pure ()
  match type with
  | some type => do
      putBack l
      readNames define.isSome q type
  | none => note .voidDeclaration place

/-- Reads a declaration, if one is next, and tells whether it was.  `define` reads
the body of a function, where one is allowed. -/
def readDeclaration (define : Option (Read Unit)) : Read Bool := do
  if (← peekQualifier) || (← peekType) then
    let q ← Qualifiers.read
    if ← peekType then readTyped define q else readUntyped q
    return true
  else if ← bumpIfKeyword .precision then
    readPrecision
    return true
  else return false

/-- Reads a declaration inside a function. -/
def readLocalDeclaration : Read Bool := readDeclaration none

end LegacyShader.Glsl
