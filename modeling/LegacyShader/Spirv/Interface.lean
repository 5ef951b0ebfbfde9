import LegacyShader.ShaderModule
import LegacyShader.Spirv.Words

/-!
# The interface of a module in SPIR-V

The words written here declare what a module shares with its surroundings: one
variable for each located input, each located output and each resource, with its
name and its numbers.  They can be read back, which shows the numbers that a
program was linked with.
-/

namespace LegacyShader.Spirv

/-- The version of the words. -/
structure Version where
  /-- The major number. -/
  major : Nat
  /-- The minor number. -/
  minor : Nat
  deriving DecidableEq, Repr, Inhabited

/-- The word of a version. -/
def Version.word (v : Version) : UInt32 := (v.major * 65536 + v.minor * 256).toUInt32

/-- Where a variable is stored. -/
inductive StorageClass where
  /-- Textures and samplers. -/
  | uniformConstant
  /-- Inputs. -/
  | input
  /-- Uniform blocks. -/
  | uniform
  /-- Outputs. -/
  | output
  deriving DecidableEq, Repr, Inhabited

/-- The code of a storage class. -/
def StorageClass.code : StorageClass → Nat
  | .uniformConstant => 0
  | .input => 1
  | .uniform => 2
  | .output => 3

/-- A number that a variable is decorated with. -/
inductive Mark where
  /-- The location of an input or output. -/
  | location (number : Nat)
  /-- The number of a resource in its group. -/
  | binding (number : Nat)
  /-- The group of a resource. -/
  | group (number : Nat)
  deriving DecidableEq, Repr, Inhabited

/-- The code and the number of a mark. -/
def Mark.operands : Mark → Nat × Nat
  | .location number => (30, number)
  | .binding number => (33, number)
  | .group number => (34, number)

/-- A variable that a module shares. -/
structure Variable where
  /-- Its name. -/
  name : String
  /-- Where it is stored. -/
  storage : StorageClass
  /-- Its numbers. -/
  marks : List Mark
  deriving DecidableEq, Repr, Inhabited

/-! ## Writing -/

/-- The code of a name. -/
def nameCode : Nat := 5

/-- The code of a variable. -/
def variableCode : Nat := 59

/-- The code of a decoration. -/
def decorateCode : Nat := 71

/-- The instructions of a variable under an identifier. -/
def Variable.instructions (v : Variable) (id : Nat) : List Instruction :=
  ⟨nameCode, id.toUInt32 :: packText v.name⟩ ::
    (v.marks.map fun mark =>
      let (code, number) := mark.operands
      ⟨decorateCode, [id.toUInt32, code.toUInt32, number.toUInt32]⟩) ++
    [⟨variableCode, [0, id.toUInt32, v.storage.code.toUInt32]⟩]

/-- The variable of a located input or output. -/
def locatedVariable (storage : StorageClass) (name : Option String) (d : Decoration) :
    Option Variable :=
  d.location?.map fun number => ⟨name.getD "", storage, [.location number]⟩

/-- The variables of the outputs of an entry point. -/
def outputVariables : EntryResult → List Variable
  | .none => []
  | .value _ decoration => (locatedVariable .output none decoration).toList
  | .struct members _ => members.filterMap fun m => locatedVariable .output m.name m.decoration

/-- The variable of a resource. -/
def resourceVariable (g : GlobalVariable) : Option Variable :=
  g.binding.map fun b =>
    ⟨g.name.getD "", if g.space = .uniform then .uniform else .uniformConstant,
      [.group b.group, .binding b.binding]⟩

/-- The variables that a module shares. -/
def interfaceVariables (m : ShaderModule) : List Variable :=
  (m.entry.toList.flatMap fun e =>
    (e.arguments.filterMap fun a => locatedVariable .input a.name a.decoration) ++
      outputVariables e.result) ++
    m.globals.filterMap resourceVariable

/-- The words of a module. -/
def words (version : Version) (m : ShaderModule) : List UInt32 :=
  let shared := interfaceVariables m
  [magic, version.word, 0, (shared.length + 1).toUInt32, 0] ++
    (shared.zipIdx.flatMap fun (v, i) => v.instructions (i + 1)).flatMap
      Instruction.words

/-- Writes a module in a version.  Only versions with the major number one
exist. -/
def write (v : Version) (m : ShaderModule) : Except String (List UInt32) :=
  if v.major = 1 then .ok (words v m)
  else
    .error ("target SPIRV-" ++ toString v.major ++ "." ++ toString v.minor ++ " is not supported")

/-! ## Reading back -/

/-- The numbers found in the words of a module. -/
structure Decorations where
  /-- The first word. -/
  magic : UInt32
  /-- The word of the version. -/
  version : UInt32
  /-- Locations and names of inputs. -/
  inputs : List (Nat × String)
  /-- Locations and names of outputs. -/
  outputs : List (Nat × String)
  /-- Groups, numbers and names of resources. -/
  resources : List (Nat × Nat × String)
  deriving DecidableEq, Repr, Inhabited

/-- The number that an identifier is decorated with. -/
def decorationOf? (is : List Instruction) (id : UInt32) (code : Nat) : Option Nat :=
  is.findSome? fun i =>
    match i.operands with
    | [target, kind, number] =>
        if i.code = decorateCode ∧ target = id ∧ kind.toNat = code then some number.toNat else none
    | _ => none

/-- The name of an identifier. -/
def nameOf (is : List Instruction) (id : UInt32) : String :=
  (is.findSome? fun i =>
    match i.operands with
    | target :: text => if i.code = nameCode ∧ target = id then some (unpackText text) else none
    | _ => none).getD ""

/-- The identifiers and storage classes of the variables. -/
def declared (is : List Instruction) : List (UInt32 × Nat) :=
  is.filterMap fun i =>
    match i.operands with
    | [_, id, storage] => if i.code = variableCode then some (id, storage.toNat) else none
    | _ => none

/-- The locations of the variables of a storage class. -/
def locations (is : List Instruction) (storage : StorageClass) : List (Nat × String) :=
  (declared is).filterMap fun (id, code) =>
    if code = storage.code then
      (decorationOf? is id 30).map fun number => (number, nameOf is id)
    else none

/-- The groups and numbers of the resources. -/
def bindings (is : List Instruction) : List (Nat × Nat × String) :=
  (declared is).filterMap fun (id, _) =>
    match decorationOf? is id 34, decorationOf? is id 33 with
    | some group, some number => some (group, number, nameOf is id)
    | _, _ => none

/-- Reads the numbers of a module back. -/
def decorations? (ws : List UInt32) : Option Decorations :=
  match ws with
  | first :: version :: _ :: _ :: _ :: body =>
      let is := instructions body
      some ⟨first, version, locations is .input, locations is .output, bindings is⟩
  | _ => none

end LegacyShader.Spirv
