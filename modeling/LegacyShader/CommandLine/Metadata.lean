import LegacyShader.CommandLine.Path
import LegacyShader.Json.Skip
import LegacyShader.Linker.Placement

/-!
# Metadata

A file beside the vertex shader may hold what its text cannot say: to which locations
attributes are bound, and whether the program is also wanted in WGSL.  It is JSON,
either an object, whose unknown members are passed over, or a list of the two values
in that order.  What is missing has its default.
-/

namespace LegacyShader.CommandLine

/-- What is known of a program beside its shaders. -/
structure Metadata where
  /-- The locations that attributes are bound to. -/
  attribLocations : Pins := []
  /-- Whether the stages shall be written in WGSL too. -/
  emitWgsl : Bool := false
  deriving DecidableEq, Repr, Inhabited

/-- The path of the metadata of a vertex shader: its own with `.meta` behind it. -/
def metadataPath (vertex : Path) : Path :=
  vertex.withExtension (match vertex.extension? with
    | some extension => extension ++ ".meta".toList
    | none => "meta".toList)

namespace Metadata

open Json

/-! ## Locations -/

/-- Reads the members of an object of locations.  The last of several members of one
name counts.  Each step takes a member, so as many steps as characters suffice. -/
def readLocationMembers : Nat → Bool → Pins → Read Pins
  | 0, _, _, cs => fail .recursionLimit cs
  | steps + 1, first, pins, cs => do
      match ← readName? first cs with
      | (none, rest) => return (pins, ← readObjectEnd rest)
      | (some name, rest) =>
          let (location, rest) ← readWord32 (← readColon rest)
          readLocationMembers steps false (pins.insert name location) rest

/-- Reads an object of locations. -/
def readLocations : Read Pins := fun cs =>
  match skipSpace cs with
  | '\x7b' :: rest => readLocationMembers (stepsFor rest) true [] rest
  | cs => wrongType "a map" cs

/-! ## Members -/

/-- What has been read of the members. -/
structure Members where
  /-- The locations. -/
  attribLocations : Option Pins := none
  /-- Whether WGSL is wanted. -/
  emitWgsl : Option Bool := none
  deriving DecidableEq, Repr, Inhabited

/-- The metadata with the given members. -/
def ofMembers (m : Members) : Metadata := ⟨m.attribLocations.getD [], m.emitWgsl.getD false⟩

/-- The fault of a member that occurs twice, reported behind its name and, if the
object ends there, behind its end. -/
def duplicate {α : Type} (name : String) (cs : List Char) : Except Fault α :=
  match skipSpace cs with
  | '\x7d' :: rest => fail (.duplicateField name) rest
  | cs => fail (.duplicateField name) cs

/-- Reads the value of a member behind its name. -/
def readMemberValue (m : Members) (name : String) : Read Members := fun cs => do
  match name with
  | "attrib_locations" =>
      if m.attribLocations.isSome then duplicate name cs
      else
        let (pins, rest) ← readLocations (← readColon cs)
        return ({ m with attribLocations := some pins }, rest)
  | "emit_wgsl" =>
      if m.emitWgsl.isSome then duplicate name cs
      else
        let (b, rest) ← readBool (← readColon cs)
        return ({ m with emitWgsl := some b }, rest)
  | _ =>
      let rest ← readColon cs
      return (m, ← skipValue (stepsFor rest) [] rest)

/-- Reads the members of an object.  Each step takes a member, so as many steps as
characters suffice. -/
def readMembers : Nat → Bool → Members → Read Members
  | 0, _, _, cs => fail .recursionLimit cs
  | steps + 1, first, m, cs => do
      match ← readName? first cs with
      | (none, rest) => return (m, ← readObjectEnd rest)
      | (some name, rest) =>
          let (m, rest) ← readMemberValue m name rest
          readMembers steps false m rest

/-! ## Lists -/

/-- Reads the items of a list behind its opening bracket. -/
def readItems : Read Members := fun cs => do
  let (more, rest) ← readNextItem true cs
  if more then
    let (pins, rest) ← readLocations rest
    let (more, rest) ← readNextItem false rest
    if more then
      let (b, rest) ← readBool rest
      return (⟨some pins, some b⟩, ← readListEnd rest)
    else return (⟨some pins, none⟩, ← readListEnd rest)
  else return ({}, ← readListEnd rest)

/-! ## Metadata -/

/-- Reads metadata. -/
def read : Read Metadata := fun cs =>
  match skipSpace cs with
  | '\x7b' :: rest =>
      (readMembers (stepsFor rest) true {} rest).map fun (m, rest) => (ofMembers m, rest)
  | '[' :: rest => (readItems rest).map fun (m, rest) => (ofMembers m, rest)
  | cs => wrongType "struct ProgramMetadata" cs

/-- The metadata of a text. -/
def parse (text : List Char) : Except ReadError Metadata := runRead read text

end Metadata

end LegacyShader.CommandLine
