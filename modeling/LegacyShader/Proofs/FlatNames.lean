import LegacyShader.Proofs.BindingPlacement
import LegacyShader.Proofs.FlatOrigins
import LegacyShader.Proofs.UniformGrammar

/-!
# Names of flattened members

The entries of a variable are named after it: behind its own name there is a point or a
bracket, or nothing (`under_ofType`).  None of these is a character of a word, so the mark
of a stored matrix stands in front of an entry exactly if it stands in front of the
variable (`mark_prefix_iff`).
-/

namespace LegacyShader

namespace FlatMember

open Modern (Stops stops_cons stops_nil)

/-- A name goes on behind another one, and not with a character of a word. -/
def Under (outer name : String) : Prop :=
  ∃ rest, name = outer ++ rest ∧ Stops Text.isWordChar rest.toList

theorem Under.refl (name : String) : Under name name := ⟨"", by simp, stops_nil⟩

theorem Under.trans {outer middle name : String} (h : Under outer middle)
    (h' : Under middle name) : Under outer name := by
  obtain ⟨rest, rfl, hrest⟩ := h
  obtain ⟨rest', rfl, hrest'⟩ := h'
  refine ⟨rest ++ rest', by rw [String.append_assoc], ?_⟩
  rw [String.toList_append]
  cases hcs : rest.toList with
  | nil => exact hrest'
  | cons c cs =>
      rw [hcs] at hrest
      exact stops_cons.mpr (stops_cons.mp hrest)

/-- The name of a member is under that of the struct. -/
theorem under_memberName {outer : String} (houter : outer ≠ "") (name : Option String) :
    Under outer (memberName outer name) := by
  rw [memberName, if_neg houter, String.append_assoc]
  exact ⟨_, rfl, by rw [String.toList_append]; exact stops_cons.mpr rfl⟩

/-- The name of an element is under that of the array. -/
theorem under_elementName (name : String) (index : Nat) : Under name (elementName name index) := by
  rw [elementName, String.append_assoc, String.append_assoc]
  exact ⟨_, rfl, by rw [String.toList_append]; exact stops_cons.mpr rfl⟩

theorem Under.ne_empty {outer name : String} (h : Under outer name) (houter : outer ≠ "") :
    name ≠ "" := by
  obtain ⟨rest, rfl, -⟩ := h
  intro hempty
  exact houter (String.append_eq_empty_iff.mp hempty).1

/-- Names stay under a name, whatever is expanded. -/
theorem inherited_under {root : String} (hroot : root ≠ "") :
    Inherited fun name _ => Under root name where
  member h m _ := h.trans (under_memberName (h.ne_empty hroot) m.name)
  element h i := h.trans (under_elementName _ i)

theorem Stems.under {root : String} {e : FlatMember} (h : Stems (fun name _ => Under root name) e) :
    Under root e.name := by
  cases h with
  | single _ _ hname => exact hname
  | array _ hname => exact hname.trans (under_elementName _ 0)

/-- All entries of a variable are named after it. -/
theorem under_ofType {name : String} (hname : name ≠ "") {offset : Nat} {type : ShaderType}
    {f : FlatMember} (hf : f ∈ ofType name offset type) : Under name f.name :=
  (stems_ofType (inherited_under hname) (.refl name) hf).under

theorem under_ofMembers {outer : String} (houter : outer ≠ "") {base : Nat}
    {members : List StructMember} {f : FlatMember} (hf : f ∈ ofMembers outer base members) :
    Under outer f.name :=
  (stems_ofMembers (inherited_under houter) (fun m _ => under_memberName houter m.name) hf).under

/-- The mark of a matrix stands in front of an entry if it stands in front of the variable,
since the mark is a word. -/
theorem mark_prefix_iff {outer name : String} (h : Under outer name) :
    Modern.mat2Mark.toList <+: name.toList ↔ Modern.mat2Mark.toList <+: outer.toList := by
  obtain ⟨rest, rfl, hrest⟩ := h
  rw [String.toList_append]
  refine ⟨fun hmark => ?_, fun hmark => hmark.trans (List.prefix_append _ _)⟩
  rcases List.prefix_or_prefix_of_prefix hmark (List.prefix_append outer.toList rest.toList) with
    hshort | ⟨more, hmore⟩
  · exact hshort
  · rw [← hmore, List.prefix_append_right_inj] at hmark
    cases more with
    | nil => simp [← hmore]
    | cons c more =>
        obtain ⟨tail, htail⟩ := hmark
        rw [← htail, List.cons_append, stops_cons] at hrest
        have hword : ∀ c ∈ Modern.mat2Mark.toList, Text.isWordChar c = true :=
          List.all_eq_true.mp (by decide +kernel)
        rw [hword c (by simp [← hmore])] at hrest
        cases hrest

section

variable {f : FlatMember} (stage : Stage) (index : Nat)

/-- A stored matrix is reported without the mark, as the small matrix it stands for. -/
theorem toUniform_of_mark {rest : String} (h : f.name = Modern.mat2Mark ++ rest) :
    (f.toUniform stage index).name = rest ∧ (f.toUniform stage index).kind = .floatMat2 := by
  simp [toUniform, StageInterface.afterMark?_eq_some_iff.mpr h]

/-- Any other entry is reported as it is. -/
theorem toUniform_of_not_mark (h : ¬ Modern.mat2Mark.toList <+: f.name.toList) :
    (f.toUniform stage index).name = f.name ∧
      (f.toUniform stage index).kind = .ofType f.type := by
  have hnone : StageInterface.afterMark? Modern.mat2Mark f.name = none := by
    rw [StageInterface.afterMark?, if_neg (mt List.isPrefixOf_iff_prefix.mp h)]
  simp [toUniform, hnone]

end

end FlatMember

end LegacyShader
