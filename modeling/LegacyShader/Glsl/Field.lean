import LegacyShader.Glsl.Builder

/-!
# Members and components

The part of a value behind a period: a member of a struct, or some components of a
vector.  Components of components are components of the first vector.

An expression stands in one of three *positions*.  It is read, it is written, or it is
the base of an index.  Something written is not loaded from memory, and a base is loaded
only when its index has been applied.
-/

namespace LegacyShader.Glsl

open Code (Node NodeType Ref)

/-- What an expression is used for. -/
inductive Position where
  /-- Its value is used. -/
  | read
  /-- It is written. -/
  | write
  /-- It is the base of an index, which can be known. -/
  | base (known : Bool)
  deriving DecidableEq, Repr, Inhabited

/-- The position of the base of an index. -/
def Position.ofBase (pos : Position) (known : Bool) : Position :=
  match pos with
  | .write => .write
  | .base false => .base false
  | .read | .base true => .base known

/-- What memory holds, and whether the type is one of memory. -/
def heldType : NodeType → NodeType × Bool
  | .pointer base _ => (.ofType base, true)
  | type => (type, false)

/-! ## Components -/

/-- The letters that name the components of a vector. -/
def componentSets : List (List Char) := ["xyzw".toList, "rgba".toList, "stpq".toList]

/-- The components that a field names, if a vector has them all. -/
def swizzle? (size : VectorSize) (field : String) : Option (List Nat) :=
  componentSets.findSome? fun letters =>
    field.toList.mapM fun c =>
      (letters.findIdx? (· == c)).filter fun i => decide (i < size.count)

/-- A vector and a choice of four of its components, through a choice that has been made
before. -/
def flattened (vector : Ref) (pattern : List Nat) : Option Node → Ref × List Nat
  | some (.swizzle _ inner before) => (inner, pattern.map fun i => before.getD i 0)
  | _ => (vector, pattern)

/-- Some components of a vector. -/
def componentsAt (vector : Ref) (held : Bool) (pos : Position) (indices : List Nat) (field : String)
    (place : Place) : Read Ref := do
  if pos = .write ∧ ¬indices.Nodup then note (.repeatedComponent field) place
  let pattern := (indices ++ [0, 0, 0, 0]).take 4
  let (vector, pattern) := flattened vector pattern (← nodeAt? vector)
  match indices with
  | [_] => do
      let vector ← if pos = .read ∧ held then add (.load vector) place else pure vector
      add (.accessIndex vector (pattern.headD 0)) place
  | _ => do
      let size ← match VectorSize.ofCount? indices.length with
        | some size => pure size
        | none => do
            note (.longSwizzle field) place
            pure .four
      let vector ← if held then add (.load vector) place else pure vector
      add (.swizzle size vector pattern) place

/-! ## Fields -/

/-- A member or some components of a value. -/
def fieldOf (pos : Position) (base : Ref) (field : String) (place : Place) : Read Ref := do
  let (type, held) := heldType (← typeOf base place)
  match type with
  | .value (.struct _ members _) =>
      match members.findIdx? fun m => m.name == some field with
      | some index => do
          let part ← add (.accessIndex base index) place
          if pos = .read ∧ held then add (.load part) place else return part
      | none => fail (.unknownField field) place
  | .value (.vector size _) =>
      match swizzle? size field with
      | some indices => componentsAt base held pos indices field place
      | none => fail (.invalidSwizzle field) place
  | _ => fail (.noFields field) place

end LegacyShader.Glsl
