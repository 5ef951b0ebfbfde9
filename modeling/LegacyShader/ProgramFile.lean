import LegacyShader.Reflection
import LegacyShader.Text.Utf8

/-!
# Program files

A linked program is stored as one file of bytes: a version, the words of both
stages, and the reflection.

Numbers are written in little endian order and in a fixed width: words in four
bytes, lengths in eight, the index of an alternative in four.  A value that may be
missing starts with a byte that is zero or one.  A text is its length in bytes and
its UTF-8 form.  Nothing stands between the parts, and a reader takes no more than
it needs.
-/

namespace LegacyShader

/-- The version of a program file. -/
inductive FileVersion where
  /-- The first version. -/
  | v1
  deriving DecidableEq, Repr, Inhabited

/-- The name of a version. -/
def FileVersion.name : FileVersion → String
  | .v1 => "v1"

/-- The versions in the order of their index. -/
def FileVersion.all : List FileVersion := [.v1]

/-- A stored program. -/
structure ProgramFile where
  /-- The version. -/
  version : FileVersion
  /-- The words of the vertex stage. -/
  vertexWords : List UInt32
  /-- The words of the fragment stage. -/
  fragmentWords : List UInt32
  /-- What the program takes. -/
  reflection : ProgramReflection
  deriving DecidableEq, Repr, Inhabited

namespace ProgramFile

/-! ## Writing -/

/-- The lowest `count` bytes of a number, the lowest first. -/
def littleEndian : Nat → Nat → List UInt8
  | 0, _ => []
  | count + 1, n => (n % 256).toUInt8 :: littleEndian count (n / 256)

/-- A word. -/
def putWord (w : UInt32) : List UInt8 := littleEndian 4 w.toNat

/-- A length. -/
def putLength (n : Nat) : List UInt8 := littleEndian 8 n

/-- The index of an alternative. -/
def putIndex {α : Type} [DecidableEq α] (all : List α) (a : α) : List UInt8 :=
  littleEndian 4 (all.idxOf a)

/-- A value that may be missing. -/
def putOption {α : Type} (put : α → List UInt8) : Option α → List UInt8
  | none => [0]
  | some a => 1 :: put a

/-- A text. -/
def putText (s : String) : List UInt8 :=
  let bytes := Text.encodeUtf8 s.toList
  putLength bytes.length ++ bytes

/-- A list. -/
def putList {α : Type} (put : α → List UInt8) (xs : List α) : List UInt8 :=
  putLength xs.length ++ xs.flatMap put

/-- A kind of variable. -/
def putKind (k : VariableKind) : List UInt8 := putIndex VariableKind.all k

/-- A stage. -/
def putStage (s : Stage) : List UInt8 := putIndex Stage.all s

/-- An attribute. -/
def putAttrib (a : AttribInfo) : List UInt8 := putText a.name ++ putKind a.kind ++ putWord a.location

/-- A uniform block. -/
def putBlock (b : UniformBlockInfo) : List UInt8 :=
  putWord b.binding ++ putWord b.size ++ putStage b.stage

/-- A uniform. -/
def putUniform (u : UniformInfo) : List UInt8 :=
  putText u.name ++ putKind u.kind ++ putWord u.arraySize ++ putOption putWord u.blockIndex ++
    putWord u.blockOffset ++ putOption putWord u.binding ++ putWord u.arrayStride ++
    putWord u.matrixStride ++ putStage u.stage

/-- A reflection. -/
def putReflection (r : ProgramReflection) : List UInt8 :=
  putList putAttrib r.attribs ++ putList putBlock r.uniformBlocks ++ putList putUniform r.uniforms

/-- The bytes of a program file. -/
def encode (f : ProgramFile) : List UInt8 :=
  putIndex FileVersion.all f.version ++ putList putWord f.vertexWords ++
    putList putWord f.fragmentWords ++ putReflection f.reflection

/-! ## Reading -/

/-- Why bytes are not a program file. -/
inductive DecodeError where
  /-- A number is cut short. -/
  | endOfFile
  /-- A text is cut short. -/
  | endOfText
  /-- No alternative has the index. -/
  | badIndex (index count : Nat)
  /-- The byte in front of a value that may be missing is neither zero nor one. -/
  | badTag (tag : Nat)
  /-- A text is not UTF-8. -/
  | badText (error : Text.Utf8Error)
  deriving DecidableEq, Repr, Inhabited

/-- The text of an error. -/
def DecodeError.message : DecodeError → String
  | .endOfFile => "io error: unexpected end of file"
  | .endOfText => "io error: "
  | .badIndex index count =>
      "invalid value: integer `" ++ toString index ++ "`, expected variant index 0 <= i < " ++
        toString count
  | .badTag tag => "tag for enum is not valid, found " ++ toString tag
  | .badText error => "string is not valid utf8: " ++ error.message

/-- A reader of bytes, which gives what it has read and the bytes behind it. -/
abbrev Decoder (α : Type) := List UInt8 → Except DecodeError (α × List UInt8)

/-- A reader that takes no bytes. -/
def Decoder.pure {α : Type} (a : α) : Decoder α := fun bytes => .ok (a, bytes)

/-- One reader after the other. -/
def Decoder.bind {α β : Type} (d : Decoder α) (f : α → Decoder β) : Decoder β := fun bytes =>
  match d bytes with
  | .error e => .error e
  | .ok (a, rest) => f a rest

instance : Monad Decoder where
  pure := Decoder.pure
  bind := Decoder.bind

/-- A number of `count` bytes, the lowest first. -/
def getLittleEndian : Nat → Decoder Nat
  | 0 => pure 0
  | count + 1 => fun bytes =>
      match bytes with
      | [] => .error .endOfFile
      | b :: rest =>
          match getLittleEndian count rest with
          | .error e => .error e
          | .ok (n, rest) => .ok (b.toNat + 256 * n, rest)

/-- A word. -/
def getWord : Decoder UInt32 := do
  let n ← getLittleEndian 4
  return n.toUInt32

/-- A length. -/
def getLength : Decoder Nat := getLittleEndian 8

/-- One of several alternatives by its index. -/
def getIndex {α : Type} (all : List α) : Decoder α := do
  let index ← getLittleEndian 4
  match all[index]? with
  | some a => pure a
  | none => fun _ => .error (.badIndex index all.length)

/-- A value that may be missing. -/
def getOption {α : Type} (get : Decoder α) : Decoder (Option α) := fun bytes =>
  match bytes with
  | [] => .error .endOfFile
  | b :: rest =>
      if b = 0 then .ok (none, rest)
      else if b = 1 then
        match get rest with
        | .error e => .error e
        | .ok (a, rest) => .ok (some a, rest)
      else .error (.badTag b.toNat)

/-- A text. -/
def getText : Decoder String := do
  let length ← getLength
  fun bytes =>
    if bytes.length < length then .error .endOfText
    else
      match Text.decodeUtf8 (bytes.take length) with
      | .error e => .error (.badText e)
      | .ok cs => .ok (String.ofList cs, bytes.drop length)

/-- So many values. -/
def getMany {α : Type} (get : Decoder α) : Nat → Decoder (List α)
  | 0 => pure []
  | count + 1 => do
      let a ← get
      let rest ← getMany get count
      return a :: rest

/-- A list. -/
def getList {α : Type} (get : Decoder α) : Decoder (List α) := do
  let length ← getLength
  getMany get length

/-- A kind of variable. -/
def getKind : Decoder VariableKind := getIndex VariableKind.all

/-- A stage. -/
def getStage : Decoder Stage := getIndex Stage.all

/-- An attribute. -/
def getAttrib : Decoder AttribInfo := do
  let name ← getText
  let kind ← getKind
  let location ← getWord
  return { name, kind, location }

/-- A uniform block. -/
def getBlock : Decoder UniformBlockInfo := do
  let binding ← getWord
  let size ← getWord
  let stage ← getStage
  return { binding, size, stage }

/-- A uniform. -/
def getUniform : Decoder UniformInfo := do
  let name ← getText
  let kind ← getKind
  let arraySize ← getWord
  let blockIndex ← getOption getWord
  let blockOffset ← getWord
  let binding ← getOption getWord
  let arrayStride ← getWord
  let matrixStride ← getWord
  let stage ← getStage
  return { name, kind, arraySize, blockIndex, blockOffset, binding, arrayStride, matrixStride,
           stage }

/-- A reflection. -/
def getReflection : Decoder ProgramReflection := do
  let attribs ← getList getAttrib
  let uniformBlocks ← getList getBlock
  let uniforms ← getList getUniform
  return { attribs, uniformBlocks, uniforms }

/-- A program file. -/
def getFile : Decoder ProgramFile := do
  let version ← getIndex FileVersion.all
  let vertexWords ← getList getWord
  let fragmentWords ← getList getWord
  let reflection ← getReflection
  return { version, vertexWords, fragmentWords, reflection }

/-- Reads a program file.  Bytes behind it are ignored. -/
def decode (bytes : List UInt8) : Except DecodeError ProgramFile :=
  (getFile bytes).map (·.1)

end ProgramFile

end LegacyShader
