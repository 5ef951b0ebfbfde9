import LegacyShader.Glsl.Draft

/-!
# The cursor

Steps of reading one lexeme.  Faults of preprocessing that lie in front of a
lexeme become diagnostics when the lexeme is looked at.
-/

namespace LegacyShader.Glsl

open Preprocess (Punct)

namespace Draft

/-- Takes the faults in front of the next lexeme into the diagnostics. -/
def settleFrom (d : Draft) : List (Except Preprocess.Fault Located) → Draft
  | .error fault :: rest =>
      { d with
        diagnostics := ⟨.preprocessing fault.cause, .ofSpan fault.span⟩ :: d.diagnostics }.settleFrom
          rest
  | rest => { d with rest }

/-- Takes the faults in front of the next lexeme into the diagnostics. -/
def settle (d : Draft) : Draft := d.settleFrom d.rest

end Draft

/-- The next lexeme, which stays to be read. -/
def peek? : Read (Option Located) := do
  let d := (← get).settle
  set d
  match d.rest with
  | .ok l :: _ => return some l
  | _ => return none

/-- The next lexeme, which is read. -/
def next? : Read (Option Located) := do
  let d := (← get).settle
  match d.rest with
  | .ok l :: rest =>
      set { d with rest, last := l.place }
      return some l
  | _ =>
      set d
      return none

/-- The next lexeme, which is read.  There has to be one. -/
def bump : Read Located := do
  match ← next? with
  | some l => return l
  | none => fail .endOfFile (← get).last

/-- The next lexeme, which stays to be read.  There has to be one. -/
def expectPeek : Read Lexeme := do
  let last := (← get).last
  match ← peek? with
  | some l => return l.lexeme
  | none => fail .endOfFile last

/-- Puts a lexeme back. -/
def putBack (l : Located) : Read Unit := modify fun d => { d with rest := .ok l :: d.rest }

/-- Ends the reading at a lexeme that is not expected. -/
def unexpected {α : Type} (l : Located) (expected : List Expected) : Read α :=
  fail (.unexpected l.lexeme expected) l.place

/-- Whether the next lexeme satisfies a test. -/
def peekIs (test : Lexeme → Bool) : Read Bool := return (← peek?).any fun l => test l.lexeme

/-- Reads a mark if it is next. -/
def bumpIf? (mark : Punct) : Read (Option Located) := do
  if ← peekIs (·.isPunct mark) then next? else return none

/-- Reads a mark if it is next, and tells whether it was. -/
def bumpIf (mark : Punct) : Read Bool := return (← bumpIf? mark).isSome

/-- Reads a reserved word if it is next, and tells whether it was. -/
def bumpIfKeyword (word : Keyword) : Read Bool := do
  if ← peekIs (·.isKeyword word) then return (← next?).isSome else return false

/-- Reads a mark, which has to be next. -/
def expect (mark : Punct) : Read Located := do
  let l ← bump
  if l.lexeme.isPunct mark then return l else unexpected l [.punct mark]

/-- Reads a reserved word, which has to be next. -/
def expectKeyword (word : Keyword) : Read Located := do
  let l ← bump
  if l.lexeme.isKeyword word then return l else unexpected l [.keyword word]

/-- Reads a name, which has to be next. -/
def expectName : Read (String × Place) := do
  let l ← bump
  match l.lexeme with
  | .identifier name => return (name, l.place)
  | _ => unexpected l [.identifier]

/-- Whether a lexeme starts a type. -/
def Draft.startsType (d : Draft) : Lexeme → Bool
  | .typeName _ => true
  | .keyword .void | .keyword .struct => true
  | .identifier name => (d.types.lookup name).isSome
  | _ => false

/-- Whether a type is next. -/
def peekType : Read Bool := do
  let next ← peek?
  let d ← get
  return next.any fun l => d.startsType l.lexeme

/-- Whether a qualifier is next. -/
def peekQualifier : Read Bool :=
  peekIs fun
    | .keyword word => word.isQualifier
    | _ => false

end LegacyShader.Glsl
