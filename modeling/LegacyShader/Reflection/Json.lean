import LegacyShader.Json.Printer
import LegacyShader.Json.Reader
import LegacyShader.Reflection

/-!
# Reflections as JSON

A reflection is stored as an object with one list per kind of entry.  Reading one
back reports the first thing that does not fit.  The members of an object are
looked at in the order of their names, and after that a missing member is
reported.  Members of other names are passed over.
-/

namespace LegacyShader

open Json (Value Member Cause)

/-! ## Writing -/

/-- A number. -/
def wordValue (n : UInt32) : Value := .integer n.toNat

/-- A number that may be missing. -/
def optionValue (n : Option UInt32) : Value := n.elim .null wordValue

/-- An attribute as a value. -/
def AttribInfo.toJson (a : AttribInfo) : Value :=
  .object [.mk "name" (.string a.name), .mk "ty" (.string a.kind.name),
    .mk "location" (wordValue a.location)]

/-- A uniform block as a value. -/
def UniformBlockInfo.toJson (b : UniformBlockInfo) : Value :=
  .object [.mk "binding" (wordValue b.binding), .mk "size" (wordValue b.size),
    .mk "stage" (.string b.stage.name)]

/-- A uniform as a value. -/
def UniformInfo.toJson (u : UniformInfo) : Value :=
  .object [.mk "name" (.string u.name), .mk "ty" (.string u.kind.name),
    .mk "array_size" (wordValue u.arraySize), .mk "block_index" (optionValue u.blockIndex),
    .mk "block_offset" (wordValue u.blockOffset), .mk "binding" (optionValue u.binding),
    .mk "array_stride" (wordValue u.arrayStride), .mk "matrix_stride" (wordValue u.matrixStride),
    .mk "stage" (.string u.stage.name)]

/-- A reflection as a value. -/
def ProgramReflection.toJson (r : ProgramReflection) : Value :=
  .object [.mk "attribs" (.array (r.attribs.map AttribInfo.toJson)),
    .mk "uniform_blocks" (.array (r.uniformBlocks.map UniformBlockInfo.toJson)),
    .mk "uniforms" (.array (r.uniforms.map UniformInfo.toJson))]

/-- A reflection as a text. -/
def ProgramReflection.pretty (r : ProgramReflection) : List Char := Json.print r.toJson

/-! ## Reading -/

/-- A way to read a value. -/
abbrev FromJson (α : Type) := Value → Except Cause α

/-- Reads a number of 32 bits. -/
def readWord32 : FromJson UInt32
  | .integer n =>
      if 0 ≤ n ∧ n.toNat < Nat.pow 2 32 then .ok n.toNat.toUInt32
      else .error (.invalidValue (.integer n) "u32")
  | v => .error (.invalidType v.unexpected "u32")

/-- Reads a value that may be `null`. -/
def readOption {α : Type} (read : FromJson α) : FromJson (Option α)
  | .null => .ok none
  | v => (read v).map some

/-- Reads a text. -/
def readName : FromJson String
  | .string s => .ok s
  | v => .error (.invalidType v.unexpected "a string")

/-- Reads a list. -/
def readSequence {α : Type} (read : FromJson α) : FromJson (List α)
  | .array items => items.mapM read
  | v => .error (.invalidType v.unexpected "a sequence")

/-- The alternative of a name. -/
def alternative {α : Type} (all : List α) (name : α → String) (word : String) : Except Cause α :=
  match all.find? fun a => name a == word with
  | some a => .ok a
  | none => .error (.unknownVariant word (all.map name))

/-- Reads one of several alternatives.  It stands as a text, or as the one member of
an object, with the value `null`. -/
def readAlternative {α : Type} (all : List α) (name : α → String) : FromJson α
  | .string word => alternative all name word
  | .object [.mk word v] =>
      match alternative all name word with
      | .error e => .error e
      | .ok a =>
          match v with
          | .null => .ok a
          | v => .error (.invalidType v.unexpected "unit")
  | .object _ => .error (.invalidValue .object "map with a single key")
  | v => .error (.invalidType v.unexpected "string or map")

/-- Reads a kind of variable. -/
def readKind : FromJson VariableKind := readAlternative VariableKind.all VariableKind.name

/-- Reads a stage. -/
def readStage : FromJson Stage := readAlternative Stage.all Stage.name

/-- The members of an object in the order of their names, the last one of each
name. -/
def sortedMembers (members : List Member) : List Member :=
  (members.foldl (fun (kept : List Member) m => kept.filter (·.name != m.name) ++ [m])
    []).mergeSort fun a b => decide (a.name ≤ b.name)

/-- The members of a record, by name. -/
abbrev Fields := List Member

/-- The value of a member. -/
def Fields.get? (fields : Fields) (name : String) : Option Value :=
  (fields.find? fun m => m.name == name).map (·.value)

/-- Reads a member that has to be there. -/
def Fields.read {α : Type} (fields : Fields) (name : String) (read : FromJson α) :
    Except Cause α :=
  match fields.get? name with
  | some v => read v
  | none => .error (.missingField name)

/-- Reads a member that may be missing. -/
def Fields.readOptional {α : Type} (fields : Fields) (name : String) (read : FromJson α) :
    Except Cause (Option α) :=
  match fields.get? name with
  | some v => readOption read v
  | none => .ok none

/-- The shape of a record: its name, and for each member a check of its value. -/
structure Shape where
  /-- The name of the record. -/
  name : String
  /-- The members in order. -/
  fields : List (String × (Value → Except Cause Unit))

/-- Checks a member, if the record has one of that name. -/
def Shape.check (shape : Shape) (m : Member) : Except Cause Unit :=
  match shape.fields.lookup m.name with
  | some check => check m.value
  | none => .ok ()

/-- The members of a record that is written as an object, or as a list of its
values in order. -/
def Shape.fieldsOf (shape : Shape) : FromJson Fields
  | .object members => do
      let members := sortedMembers members
      members.forM shape.check
      return members
  | .array items => do
      let members := (shape.fields.zip items).map fun (field, v) => Member.mk field.1 v
      members.forM shape.check
      let count := shape.fields.length
      if items.length < count then
        throw (.invalidLength items.length
          ("struct " ++ shape.name ++ " with " ++ toString count ++ " elements"))
      if count < items.length then throw (.invalidLength items.length "fewer elements in array")
      return members
  | v => .error (.invalidType v.unexpected ("struct " ++ shape.name))

/-- The check that a value can be read. -/
def checks {α : Type} (read : FromJson α) (v : Value) : Except Cause Unit := (read v).map fun _ => ()

/-- The shape of an attribute. -/
def AttribInfo.shape : Shape :=
  ⟨"AttribInfo", [("name", checks readName), ("ty", checks readKind),
    ("location", checks readWord32)]⟩

/-- Reads an attribute. -/
def AttribInfo.ofJson : FromJson AttribInfo := fun v => do
  let fields ← shape.fieldsOf v
  return ⟨← fields.read "name" readName, ← fields.read "ty" readKind,
    ← fields.read "location" readWord32⟩

/-- The shape of a uniform block. -/
def UniformBlockInfo.shape : Shape :=
  ⟨"UniformBlockInfo", [("binding", checks readWord32), ("size", checks readWord32),
    ("stage", checks readStage)]⟩

/-- Reads a uniform block. -/
def UniformBlockInfo.ofJson : FromJson UniformBlockInfo := fun v => do
  let fields ← shape.fieldsOf v
  return ⟨← fields.read "binding" readWord32, ← fields.read "size" readWord32,
    ← fields.read "stage" readStage⟩

/-- The shape of a uniform. -/
def UniformInfo.shape : Shape :=
  ⟨"UniformInfo", [("name", checks readName), ("ty", checks readKind),
    ("array_size", checks readWord32), ("block_index", checks (readOption readWord32)),
    ("block_offset", checks readWord32), ("binding", checks (readOption readWord32)),
    ("array_stride", checks readWord32), ("matrix_stride", checks readWord32),
    ("stage", checks readStage)]⟩

/-- Reads a uniform. -/
def UniformInfo.ofJson : FromJson UniformInfo := fun v => do
  let fields ← shape.fieldsOf v
  return {
    name := ← fields.read "name" readName
    kind := ← fields.read "ty" readKind
    arraySize := ← fields.read "array_size" readWord32
    blockIndex := ← fields.readOptional "block_index" readWord32
    blockOffset := ← fields.read "block_offset" readWord32
    binding := ← fields.readOptional "binding" readWord32
    arrayStride := ← fields.read "array_stride" readWord32
    matrixStride := ← fields.read "matrix_stride" readWord32
    stage := ← fields.read "stage" readStage }

/-- The shape of a reflection. -/
def ProgramReflection.shape : Shape :=
  ⟨"ProgramReflection", [("attribs", checks (readSequence AttribInfo.ofJson)),
    ("uniform_blocks", checks (readSequence UniformBlockInfo.ofJson)),
    ("uniforms", checks (readSequence UniformInfo.ofJson))]⟩

/-- Reads a reflection. -/
def ProgramReflection.ofJson : FromJson ProgramReflection := fun v => do
  let fields ← shape.fieldsOf v
  return ⟨← fields.read "attribs" (readSequence AttribInfo.ofJson),
    ← fields.read "uniform_blocks" (readSequence UniformBlockInfo.ofJson),
    ← fields.read "uniforms" (readSequence UniformInfo.ofJson)⟩

/-- Reads a text as a reflection. -/
def ProgramReflection.ofText? (text : List Char) : Option ProgramReflection := do
  let v ← (Json.parse text).toOption
  (ProgramReflection.ofJson v).toOption

end LegacyShader
