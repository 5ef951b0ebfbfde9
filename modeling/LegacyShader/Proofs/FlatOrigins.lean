import LegacyShader.Proofs.FlatExtents
import LegacyShader.ShaderType.Validity

/-!
# Where flattened members come from

An entry of a block comes from a variable in it that has no parts, or from an array of
anything but structs.  The variables on the way there are members of structs and elements
of arrays.  So a property that passes from structs to their members and from arrays to
their elements holds of the variable that an entry comes from (`stems_ofMembers`).
-/

namespace LegacyShader

namespace FlatMember

/-- The entries of members are those of one member. -/
theorem mem_ofMembers_iff {outer : String} {base : Nat} {members : List StructMember}
    {f : FlatMember} :
    f ∈ ofMembers outer base members ↔ ∃ m ∈ members, f ∈ ofMember outer base m := by
  induction members with
  | nil => simp [ofMembers]
  | cons m ms ih => simp [ofMembers, ih]

theorem mem_ofMembers {outer : String} {base : Nat} {name : Option String}
    {type : ShaderType} {offset : Nat} {members : List StructMember}
    (h : StructMember.mk name type offset ∈ members) {f : FlatMember}
    (hf : f ∈ ofType (memberName outer name) (base + offset) type) :
    f ∈ ofMembers outer base members :=
  mem_ofMembers_iff.mpr ⟨_, h, by rwa [ofMember]⟩

/-- A property of a variable, given by its name and its type, passes to the members of
structs and to the elements of arrays. -/
structure Inherited (P : String → ShaderType → Prop) : Prop where
  /-- It passes to the members of a struct. -/
  member : ∀ {outer tag members span}, P outer (.struct tag members span) →
    ∀ m ∈ members, P (memberName outer m.name) m.type
  /-- It passes to the elements of an array. -/
  element : ∀ {name base length stride}, P name (.array base length stride) →
    ∀ i, P (elementName name i) base

/-- An entry comes from a variable with a property. -/
inductive Stems (P : String → ShaderType → Prop) : FlatMember → Prop
  | single {name type offset} : type.isStruct = false → type.isArray = false → P name type →
      Stems P ⟨name, type, offset, 1, 0⟩
  | array {name base length stride offset} : base.isStruct = false →
      P name (.array base length stride) →
      Stems P ⟨elementName name 0, base, offset, length.getD 0, stride⟩

section

variable {P : String → ShaderType → Prop}

theorem Stems.isStruct {e : FlatMember} (h : Stems P e) : e.type.isStruct = false := by
  cases h with
  | single hstruct => exact hstruct
  | array hstruct => exact hstruct

mutual

/-- Whatever passes to members and elements holds of each entry of a type. -/
theorem stems_ofType (hP : Inherited P) {name : String} {offset : Nat} {e : FlatMember} :
    ∀ {type : ShaderType}, P name type → e ∈ ofType name offset type → Stems P e
  | .struct _ members _, h, he => by
      rw [ofType] at he
      exact stems_ofMembers hP (hP.member h) he
  | .array base length stride, h, he => by
      rw [ofType] at he
      exact stems_ofArray hP h he
  | .scalar _, h, he | .vector .., h, he | .matrix .., h, he | .image .., h, he
  | .sampler _, h, he | .atomic _, h, he | .pointer _, h, he => by
      simp only [ofType, List.mem_singleton] at he
      subst he
      exact .single rfl rfl h

/-- It holds of the entries of an array, where only structs are expanded. -/
theorem stems_ofArray (hP : Inherited P) {name : String} {offset stride : Nat}
    {length : Option Nat} {e : FlatMember} :
    ∀ {type : ShaderType}, P name (.array type length stride) →
      e ∈ ofArray name offset (length.getD 0) stride type → Stems P e
  | .struct _ members _, h, he => by
      rw [ofArray] at he
      obtain ⟨i, -, hi⟩ := List.mem_flatMap.mp he
      exact stems_ofMembers hP (hP.member (hP.element h i)) hi
  | .scalar _, h, he | .vector .., h, he | .matrix .., h, he | .image .., h, he
  | .sampler _, h, he | .atomic _, h, he | .pointer _, h, he | .array .., h, he => by
      simp only [ofArray, List.mem_singleton] at he
      subst he
      exact .array rfl h

theorem stems_ofMembers (hP : Inherited P) {outer : String} {base : Nat} {e : FlatMember} :
    ∀ {members : List StructMember}, (∀ m ∈ members, P (memberName outer m.name) m.type) →
      e ∈ ofMembers outer base members → Stems P e
  | [], _, he => by cases he
  | .mk name type offset :: ms, h, he => by
      obtain ⟨hm, hms⟩ := List.forall_mem_cons.mp h
      rw [ofMembers, ofMember] at he
      rcases List.mem_append.mp he with he | he
      · exact stems_ofType hP hm he
      · exact stems_ofMembers hP hms he

end

end

end FlatMember

end LegacyShader
