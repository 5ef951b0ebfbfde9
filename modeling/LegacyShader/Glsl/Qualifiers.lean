import LegacyShader.Glsl.ExprReader

/-!
# Qualifiers

The words in front of the type of a declaration.  A declaration takes what it has
a use for, and what is left over is reported.
-/

namespace LegacyShader.Glsl

/-- Where a variable is stored, as its declaration says. -/
inductive Storage where
  /-- Nothing is said. -/
  | unspecified
  /-- A constant. -/
  | constant
  /-- An input of the stage. -/
  | input
  /-- An output of the stage. -/
  | output
  /-- A uniform. -/
  | uniform
  /-- Memory that a group of invocations shares. -/
  | workGroup
  /-- A buffer. -/
  | buffer
  deriving DecidableEq, Repr, Inhabited

/-- What an entry of a layout is about. -/
inductive LayoutKey where
  /-- Where the members of a block lie. -/
  | packing
  /-- How the texels of an image lie in memory. -/
  | format
  /-- Anything else that has a name. -/
  | named (name : String)
  deriving DecidableEq, Repr, Inhabited

/-- What an entry of a layout says. -/
inductive LayoutValue where
  /-- Nothing but its name. -/
  | bare
  /-- A number. -/
  | number (value : Nat)
  /-- Whether members are packed. -/
  | packed (packed : Bool)
  /-- The format of texels. -/
  | format (format : TexelFormat)
  deriving DecidableEq, Repr, Inhabited

/-- An entry of a layout. -/
structure LayoutEntry where
  /-- What it is about. -/
  key : LayoutKey
  /-- What it says. -/
  value : LayoutValue
  /-- Its place. -/
  place : Place
  deriving Repr, Inhabited

/-- The qualifiers of a declaration. -/
structure Qualifiers where
  /-- The place of all of them. -/
  place : Place := none
  /-- Where the variable is stored. -/
  storage : Storage := .unspecified
  /-- The place of the word that says so. -/
  storagePlace : Place := none
  /-- The place of `invariant`, if it is there. -/
  invariant : Option Place := none
  /-- The interpolation and its place, if there is one. -/
  interpolation : Option (Interpolation × Place) := none
  /-- The place of the sampling, if there is one. -/
  sampling : Option Place := none
  /-- The place of the precision, if there is one. -/
  precision : Option Place := none
  /-- The memory words and their joint place, if there are any. -/
  memory : Option (List Keyword × Place) := none
  /-- The entries of the layout. -/
  layout : List LayoutEntry := []
  deriving Repr, Inhabited

namespace Qualifiers

/-! ## Taking out -/

/-- Takes out a layout entry. -/
def takeEntry (q : Qualifiers) (key : LayoutKey) : Option LayoutEntry × Qualifiers :=
  (q.layout.find? fun e => e.key == key,
    { q with layout := q.layout.filter fun e => e.key != key })

/-- Takes out a layout entry that has a number. -/
def takeNumber (q : Qualifiers) (name : String) : Read (Option Nat × Qualifiers) := do
  match q.takeEntry (.named name) with
  | (none, q) => return (none, q)
  | (some e, q) =>
      match e.value with
      | .number n => return (some n, q)
      | _ => do
          note .layoutValue e.place
          return (some 0, q)

/-- Takes out a layout entry that has no number, and tells whether it was there. -/
def takeFlag (q : Qualifiers) (name : String) : Read (Bool × Qualifiers) := do
  match q.takeEntry (.named name) with
  | (none, q) => return (false, q)
  | (some e, q) => do
      unless e.value = .bare do note .strayValue e.place
      return (true, q)

/-- Takes out where the members of a block lie.  Those of buffers are packed if nothing is
said. -/
def takePacking (q : Qualifiers) : Bool × Qualifiers :=
  match q.takeEntry .packing with
  | (some ⟨_, .packed packed, _⟩, q) => (packed, q)
  | (_, q) => (q.storage == .buffer, q)

/-- Takes out the format of texels. -/
def takeFormat (q : Qualifiers) : Option TexelFormat × Qualifiers :=
  match q.takeEntry .format with
  | (some ⟨_, .format format, _⟩, q) => (some format, q)
  | (_, q) => (none, q)

/-- Takes out what may be done to memory: loads, and stores. -/
def takeAccess (q : Qualifiers) : Option (Bool × Bool) × Qualifiers :=
  (q.memory.map fun (words, _) => (!words.contains .writeonly, !words.contains .readonly),
    { q with memory := none })

/-- Takes out the interpolation and the sampling of an input or output. -/
def takeInterpolation (q : Qualifiers) : Interpolation × Qualifiers :=
  ((q.interpolation.map (·.1)).getD .byType, { q with interpolation := none, sampling := none })

/-- Reports a qualifier that only inputs and outputs have. -/
def noteInterface (words : String) (place : Option Place) : Read Unit :=
  place.forM fun p => note (.interfaceQualifier words) p

/-- Reports what is left over. -/
def noteUnused (q : Qualifiers) : Read Unit := do
  noteInterface "Invariant qualifier" q.invariant
  noteInterface "Interpolation qualifiers" (q.interpolation.map (·.2))
  noteInterface "Sampling qualifiers" q.sampling
  q.memory.forM fun (_, p) => note .memoryQualifier p
  q.layout.forM fun e => note .strayLayout e.place

/-! ## Reading -/

/-- The storage of a reserved word. -/
def storageOf? : Keyword → Option Storage
  | .constant => some .constant
  | .input => some .input
  | .output => some .output
  | .uniform => some .uniform
  | .shared => some .workGroup
  | .buffer => some .buffer
  | _ => none

/-- Reports a second qualifier of a kind. -/
def noteRepeated (kind : QualifierKind) (place : Place) (repeated : Bool) : Read Unit := do
  if repeated then note (.repeatedQualifier kind) place

/-- Takes in a memory word. -/
def addMemory (q : Qualifiers) (word : Keyword) (place : Place) : Read Qualifiers := do
  let (words, before) := q.memory.getD ([], none)
  if words.contains word then note .repeatedMemoryQualifier place
  return { q with memory := some (words ++ [word], before.join place) }

/-- Takes in a reserved word. -/
def add (q : Qualifiers) (word : Keyword) (place : Place) : Read Qualifiers := do
  let q := { q with place := q.place.join place }
  match word with
  | .invariant => do
      noteRepeated .invariant place q.invariant.isSome
      return { q with invariant := some place }
  | .flat | .noperspective | .smooth => do
      noteRepeated .interpolation place q.interpolation.isSome
      let interpolation := if word = .flat then Interpolation.flat else .smooth
      return { q with interpolation := some (interpolation, place) }
  | .centroid | .sample => do
      noteRepeated .sampling place q.sampling.isSome
      return { q with sampling := some place }
  | .highp | .mediump | .lowp => do
      noteRepeated .precision place q.precision.isSome
      return { q with precision := some place }
  | .readonly | .writeonly => q.addMemory word place
  | _ =>
      match storageOf? word with
      | some storage => do
          noteRepeated .storage place (q.storage != .unspecified)
          return { q with storage, storagePlace := place }
      | none => return q

/-- Puts in a layout entry in place of one of the same name. -/
def setEntry (q : Qualifiers) (e : LayoutEntry) : Qualifiers :=
  { q with layout := (q.layout.filter fun f => f.key != e.key) ++ [e] }

/-- Reads the value of a layout entry.  One that cannot be read is reported and
counts as zero. -/
def readEntryValue : Read (Nat × Place) := do
  let outer ← body
  tryCatch readUnsigned fun d => do
    note d.cause d.place
    modifyBody fun inner =>
      { outer with bench := { outer.bench with definitions := inner.bench.definitions } }
    return (0, none)

/-- Reads a layout entry. -/
def readEntry (q : Qualifiers) : Read Qualifiers := do
  let l ← bump
  match l.lexeme with
  | .identifier "std140" => return q.setEntry ⟨.packing, .packed false, l.place⟩
  | .identifier "std430" => return q.setEntry ⟨.packing, .packed true, l.place⟩
  | .identifier name =>
      match TexelFormat.ofWord? name with
      | some format => return q.setEntry ⟨.format, .format format, l.place⟩
      | none =>
          if ← bumpIf .equal then
            let (value, place) ← readEntryValue
            return q.setEntry ⟨.named name, .number value, l.place.join place⟩
          else return q.setEntry ⟨.named name, .bare, l.place⟩
  | _ =>
      note (.unexpected l.lexeme [.identifier]) l.place
      return q

/-- Reads layout entries with commas between them. -/
def readEntries : Nat → Qualifiers → Read Qualifiers
  | 0, q => return q
  | n + 1, q => do
      let q ← q.readEntry
      if ← bumpIf .comma then readEntries n q else return q

/-- Reads a layout behind its word. -/
def readLayout (q : Qualifiers) : Read Qualifiers := do
  let _ ← expect .leftParen
  let q ← readEntries ((← get).rest.length + 1) q
  let close ← expect .rightParen
  return { q with place := q.place.join close.place }

/-- Reads qualifiers behind others. -/
def readMore : Nat → Qualifiers → Read Qualifiers
  | 0, q => return q
  | n + 1, q => do
      if ← peekQualifier then
        let l ← bump
        match l.lexeme with
        | .keyword .layout => readMore n (← q.readLayout)
        | .keyword word => readMore n (← q.add word l.place)
        | _ => return q
      else return q

/-- Reads the qualifiers of a declaration. -/
def read : Read Qualifiers := do readMore ((← get).rest.length + 1) {}

end Qualifiers

end LegacyShader.Glsl
