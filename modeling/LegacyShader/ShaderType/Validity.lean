import LegacyShader.ShaderType.Alignment

/-!
# Valid types

What values of a type can be used for, and when a type can exist at all.  An array
has elements of a known size.  The members of a struct follow each other without
overlap, and only the last one can be an array whose length is not known.
-/

namespace LegacyShader

mutual

/-- Whether values of a type can lie in memory. -/
def ShaderType.isData : ShaderType → Bool
  | .scalar _ | .vector .. | .matrix .. | .atomic _ => true
  | .array base _ _ => base.isData
  | .struct _ members _ => StructMember.allData members
  | _ => false

/-- Whether values of a member can lie in memory. -/
def StructMember.isData : StructMember → Bool
  | .mk _ type _ => type.isData

/-- Whether values of all members can lie in memory. -/
def StructMember.allData : List StructMember → Bool
  | [] => true
  | m :: ms => m.isData && StructMember.allData ms

end

mutual

/-- Whether the size of a type is known. -/
def ShaderType.isSized : ShaderType → Bool
  | .array base length _ => length.isSome && base.isSized
  | .struct _ members _ => StructMember.allSized members
  | .image .. | .sampler _ => false
  | _ => true

/-- Whether the size of a member is known. -/
def StructMember.isSized : StructMember → Bool
  | .mk _ type _ => type.isSized

/-- Whether the sizes of all members are known. -/
def StructMember.allSized : List StructMember → Bool
  | [] => true
  | m :: ms => m.isSized && StructMember.allSized ms

end

/-- Whether values of a type can be passed to a function. -/
def ShaderType.isArgument : ShaderType → Bool
  | .image .. | .sampler _ | .pointer _ => true
  | type => type.constructible

/-- Whether a type is an array. -/
def ShaderType.isArray : ShaderType → Bool
  | .array .. => true
  | _ => false

/-- Whether members fit into a struct of a size, from the end of the last one on.  A
member at the start is let through, since a struct that the host never sees has no
need for offsets. -/
def StructMember.fit (span : Nat) : Nat → List StructMember → Bool
  | _, [] => true
  | stop, m :: ms =>
      m.type.isData && (decide (stop ≤ m.offset) || decide (m.offset = 0)) &&
        decide (m.offset + m.type.byteSize ≤ span) &&
        (m.type.isSized || (m.type.isArray && ms.isEmpty)) &&
        StructMember.fit span (m.offset + m.type.byteSize) ms

/-- Whether a type can exist, if the types it is made of can. -/
def ShaderType.isValid : ShaderType → Bool
  | .matrix _ _ s => s.kind == .float
  | .array base _ _ => base.isData && base.isSized
  | .struct _ members span => !members.isEmpty && StructMember.fit span 0 members
  | .pointer base => base.isData && base.isSized
  | .image dim arrayed _ => !(arrayed && dim == .d3)
  | _ => true

/-- Equality of types apart from the name of a struct. -/
def ShaderType.alike : ShaderType → ShaderType → Bool
  | .struct _ members span, .struct _ members' span' =>
      StructMember.sameAll members members' && decide (span = span')
  | a, b => a == b

end LegacyShader
