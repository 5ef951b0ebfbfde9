import LegacyShader.Code.NodeValidity

/-!
# Valid statements

A statement can use the nodes that exist from the start and those that a statement
in front of it has computed, in its own block or in one around it.  Nothing stands
behind a jump, a jump stands only where there is something to leave, and what is
stored, returned or passed on has the type that is asked for.
-/

namespace LegacyShader.Code

/-- The jumps that are allowed. -/
structure Jumps where
  /-- Whether there is a function to return from. -/
  finish : Bool
  /-- Whether there is a loop or a switch to leave. -/
  leave : Bool
  /-- Whether there is a loop to go on with. -/
  next : Bool
  deriving DecidableEq, Repr, Inhabited

/-- What the statements of a function are checked against. -/
structure BlockContext extends NodeContext where
  /-- The type of the result of the function. -/
  result : Option ShaderType
  /-- The types of the arguments of the functions of the module. -/
  parameters : Array (List ShaderType)
  deriving Inhabited

/-- The nodes that have been computed: from a number up to another. -/
abbrev Computed := List (Ref × Ref)

/-- What a valid statement leaves behind. -/
structure Outcome where
  /-- The nodes that have been computed. -/
  computed : Computed
  /-- The stages in which it can run. -/
  stages : StageSet := .all
  /-- Whether it ends in a jump. -/
  finished : Bool := false
  deriving Repr, Inhabited

namespace BlockContext

/-! ## Uses of nodes -/

/-- The type of a node that can be used. -/
def usable? (c : BlockContext) (computed : Computed) (r : Ref) : Option NodeType := do
  let n ← c.nodes[r]?
  let t ← c.types[r]?
  if n.preexists || computed.any fun (start, stop) => decide (start ≤ r ∧ r < stop) then some t
  else none

/-- Whether a node can be used and its type passes a test. -/
def uses (c : BlockContext) (computed : Computed) (r : Ref) (test : NodeType → Bool) : Bool :=
  (c.usable? computed r).any test

/-- Computes nodes that have not been computed yet. -/
def compute? (computed : Computed) (start stop : Ref) : Option Computed :=
  if computed.any fun (a, b) => decide (a < stop ∧ start < b) then none
  else some ((start, stop) :: computed)

/-! ## Simple statements -/

/-- Whether a pointer leads through parts to a variable, in at most `fuel` steps. -/
def leadsToVariable (c : BlockContext) : Nat → Ref → Bool
  | 0, _ => false
  | fuel + 1, r =>
      match c.nodes[r]? with
      | some (.access base _) | some (.accessIndex base _) => c.leadsToVariable fuel base
      | some (.localVariable _) | some (.globalVariable _) | some (.argument _) => true
      | _ => false

/-- Whether a value can be stored. -/
def validStore (c : BlockContext) (computed : Computed) (pointer value : Ref) : Bool :=
  c.leadsToVariable (c.nodes.size + 1) pointer &&
    c.uses computed value fun v =>
      c.typeIs pointer fun p =>
        match p.pointee?, v with
        | some (.atomic s), .value t => t == .scalar s
        | some type, .value t => type.alike t && (p.space?.all (·.writable))
        | _, _ => false

/-- Whether a texel can be stored: a global image for texels holds four numbers of the kind of
its format at each place. -/
def validTexelStore (c : BlockContext) (computed : Computed) (image coordinate : Ref)
    (layer : Option Ref) (value : Ref) : Bool :=
  match c.nodes[image]? with
  | some (.globalVariable index) =>
      match c.surroundings.globals[index]? with
      | some (.image dim arrayed (.storage format _ _), _) =>
          c.uses computed coordinate (NodeContext.isTexelCoordinate dim) &&
            arrayed == layer.isSome &&
            layer.all (fun r => c.uses computed r (·.isScalarOf wholeKinds)) &&
            c.uses computed value (·.agrees (.value (.vector .four ⟨format.kind, 4⟩)))
      | _ => false
  | _ => false

/-- Whether a result is the one of the function. -/
def validResult (c : BlockContext) (computed : Computed) (value : Option Ref) : Bool :=
  match value, c.result with
  | none, none => true
  | some r, some type => c.uses computed r fun t => t.equivalent (.ofType type)
  | _, _ => false

/-- What a call leaves behind. -/
def callOutcome? (c : BlockContext) (computed : Computed) (function : Nat) (arguments : List Ref)
    (result : Option Ref) : Option Outcome := do
  let parameters ← c.parameters[function]?
  let fits := (parameters.zip arguments).all fun (p, a) =>
    c.uses computed a fun t => t.equivalent (.ofType p)
  if parameters.length ≠ arguments.length ∨ !fits then none
  else
    let stages ← c.stages[function]?
    match result, (c.surroundings.results[function]?).join with
    | some r, some _ => do return { computed := ← compute? computed r (r + 1), stages }
    | none, none => return { computed, stages }
    | _, _ => none

/-! ## Switches -/

/-- Whether the label of a case is one for a kind of selector. -/
def labelFits (kind : ScalarKind) : CaseValue → Bool
  | .sint _ => kind == .sint
  | .uint _ => kind == .uint
  | .otherwise => true

/-- Whether the cases of a switch have labels for its selector, each one once, one of
them for all other values, and the last one does not go on. -/
def validCases (kind : ScalarKind) (cases : List SwitchCase) : Bool :=
  let labels := cases.map (·.value)
  labels.all (labelFits kind) && decide labels.Nodup && labels.contains .otherwise &&
    cases.getLast?.all fun c => !c.fallsThrough

/-- The kind of a selector. -/
def selectorKind? (t : NodeType) : Option ScalarKind :=
  (t.scalar?.map (·.kind)).filter fun k => wholeKinds.contains k

/-! ## Blocks -/

mutual

/-- What a valid statement leaves behind. -/
def statement? (c : BlockContext) (jumps : Jumps) (computed : Computed) :
    Statement → Option Outcome
  | .emit start stop => (compute? computed start stop).map fun computed => { computed }
  | .block body => do
      let o ← c.block? jumps computed body
      return { o with computed }
  | .branch condition accept reject =>
      if c.uses computed condition (·.isScalarOf [.bool]) then do
        let a ← c.block? jumps computed accept
        let r ← c.block? jumps computed reject
        return { computed, stages := a.stages.meet r.stages }
      else none
  | .switch selector cases => do
      let kind ← (c.usable? computed selector).bind selectorKind?
      if validCases kind cases then
        return { computed, stages := ← c.cases? { jumps with leave := true } computed cases }
      else none
  | .loop body continuing => do
      let b ← c.block? ⟨jumps.finish, true, true⟩ computed body
      let n ← c.block? ⟨false, false, false⟩ b.computed continuing
      return { computed, stages := b.stages.meet n.stages }
  | .leave => if jumps.leave then some { computed, finished := true } else none
  | .next => if jumps.next then some { computed, finished := true } else none
  | .finish value =>
      if jumps.finish && c.validResult computed value then some { computed, finished := true }
      else none
  | .kill => some { computed, stages := .fragmentOnly, finished := true }
  | .barrier => some { computed, stages := .nowhere }
  | .store pointer value => if c.validStore computed pointer value then some { computed } else none
  | .storeTexel image coordinate layer value =>
      if c.validTexelStore computed image coordinate layer value then some { computed } else none
  | .call function arguments result => c.callOutcome? computed function arguments result

/-- What a valid block leaves behind. -/
def block? (c : BlockContext) (jumps : Jumps) (computed : Computed) :
    List Statement → Option Outcome
  | [] => some { computed }
  | s :: rest => do
      let o ← c.statement? jumps computed s
      if o.finished && !rest.isEmpty then none
      else
        let r ← c.block? jumps o.computed rest
        return ⟨r.computed, o.stages.meet r.stages, o.finished || r.finished⟩

/-- The stages in which a case can run. -/
def case? (c : BlockContext) (jumps : Jumps) (computed : Computed) : SwitchCase → Option StageSet
  | .mk _ body _ => (c.block? jumps computed body).map (·.stages)

/-- The stages in which some cases can run. -/
def cases? (c : BlockContext) (jumps : Jumps) (computed : Computed) :
    List SwitchCase → Option StageSet
  | [] => some .all
  | s :: rest => do
      let a ← c.case? jumps computed s
      return a.meet (← c.cases? jumps computed rest)

end

end BlockContext

/-! ## Functions -/

/-- Whether a node has a known value, by those of the nodes before it. -/
def Node.isKnown (known : Array Bool) : Node → Bool
  | .literal _ | .constant _ => true
  | .compose _ components => components.all fun r => known[r]? == some true
  | .splat _ value => known[value]? == some true
  | _ => false

/-- Which nodes of a list have known values. -/
def knownNodes (nodes : Array Node) : Array Bool :=
  nodes.foldl (fun known n => known.push (n.isKnown known)) #[]

/-- Whether a local variable is valid. -/
def LocalVariable.isValid (types : Array NodeType) (known : Array Bool) (v : LocalVariable) : Bool :=
  v.type.constructible &&
    v.init.all fun r =>
      (types[r]?.any fun t => t.equivalent (.ofType v.type)) && known[r]? == some true

/-- A module, as far as the check of one of its functions asks. -/
structure CheckedModule where
  /-- The types and constants. -/
  definitions : Definitions
  /-- The types of the nodes of constants. -/
  constants : Array NodeType
  /-- The global variables. -/
  globals : Array (ShaderType × AddressSpace)
  /-- The functions. -/
  functions : Array Function
  deriving Inhabited

/-- What the nodes of a function refer to. -/
def CheckedModule.surroundings (m : CheckedModule) (f : Function) : Surroundings :=
  ⟨m.definitions, m.globals, m.functions.map (·.result), f.arguments.toArray,
    (f.locals.map (·.type)).toArray⟩

/-- The stages in which a function can run, if it is valid.  The stages of the
functions before it are known. -/
def CheckedModule.functionStages? (m : CheckedModule) (stages : Array StageSet) (f : Function) :
    Option StageSet := do
  let s := m.surroundings f
  let types ← (typesOf s f.nodes).toOption
  let known := knownNodes f.nodes
  let nodes : NodeContext := ⟨s, f.nodes, types, m.constants, stages⟩
  let block : BlockContext :=
    { nodes with result := f.result, parameters := m.functions.map (·.arguments) }
  if (f.locals.all (·.isValid types known)) && (f.arguments.all (·.isArgument)) &&
      (f.result.all (·.constructible)) then
    let a ← nodes.stagesOf? f.nodes.toList
    let b ← block.block? ⟨true, false, false⟩ [] f.body
    return a.meet b.stages
  else none

end LegacyShader.Code
