import LegacyShader.Proofs.FlatNames
import Mathlib

/-!
# Names that identify members

A reflection names the entries of a block by paths such as `lights[12].place`.  A path is a
text, so it has to be read in one way only.  Behind a word there is never a further
character of a word.  So two paths that go on behind the same text go on with the same word
(`eq_of_under`), be it the name of a member or the index of an element.

If the members of each struct have different words as names, the entries of a type have
different names (`nodup_ofType`), by induction on the type.  In a block the word for stored
matrices is taken off the front of a path.  That shortens only the first word of a path, so
the names stay different if those of the members of the block do
(`reflected_names_identify`).
-/

namespace LegacyShader

open Modern (IsWord Stops stops_cons takeWhile_run)

/-! ## Well named types -/

/-- The name of a member, which is empty if it has none. -/
def StructMember.label (m : StructMember) : String := m.name.getD ""

mutual

/-- In each struct of a type, the names of the members are words, no two of them the
same. -/
def ShaderType.WellNamed : ShaderType → Prop
  | .struct _ members _ =>
      (members.map StructMember.label).Nodup ∧ StructMember.AllWellNamed members
  | .array base _ _ => base.WellNamed
  | _ => True

/-- The name of a member is a word, and its type is well named. -/
def StructMember.WellNamed : StructMember → Prop
  | .mk name type _ => IsWord (name.getD "").toList ∧ type.WellNamed

/-- All members are well named. -/
def StructMember.AllWellNamed : List StructMember → Prop
  | [] => True
  | m :: ms => m.WellNamed ∧ StructMember.AllWellNamed ms

end

theorem StructMember.WellNamed.isWord {m : StructMember} (h : m.WellNamed) :
    IsWord m.label.toList := by
  cases m with
  | mk name type offset =>
      rw [StructMember.WellNamed] at h
      exact h.1

theorem StructMember.AllWellNamed.of_mem {members : List StructMember}
    (h : StructMember.AllWellNamed members) {m : StructMember} (hm : m ∈ members) :
    m.WellNamed := by
  induction members with
  | nil => cases hm
  | cons x xs ih =>
      rw [StructMember.AllWellNamed] at h
      rcases List.mem_cons.mp hm with rfl | hm
      · exact h.1
      · exact ih h.2 hm

namespace FlatMember

/-! ## One reading of a name -/

/-- A text goes on behind another one with one word. -/
theorem eq_of_under {stem a b name : String} (ha : ∀ c ∈ a.toList, Text.isWordChar c = true)
    (hb : ∀ c ∈ b.toList, Text.isWordChar c = true) (h : Under (stem ++ a) name)
    (h' : Under (stem ++ b) name) : a = b := by
  obtain ⟨rest, rfl, hrest⟩ := h
  obtain ⟨rest', heq, hrest'⟩ := h'
  rw [String.append_assoc, String.append_assoc, String.append_right_inj, ← String.toList_inj,
    String.toList_append, String.toList_append] at heq
  have hwords := congrArg (List.takeWhile Text.isWordChar) heq
  rw [takeWhile_run ha hrest, takeWhile_run hb hrest'] at hwords
  exact String.toList_inj.mp hwords

/-- What stands in front of the name of a member. -/
def stem (outer : String) : String := if outer = "" then "" else outer ++ "."

theorem memberName_eq (outer : String) (name : Option String) :
    memberName outer name = stem outer ++ name.getD "" := by
  unfold memberName stem
  split <;> simp

theorem memberName_ne_empty {outer : String} {m : StructMember} (h : IsWord m.label.toList) :
    memberName outer m.name ≠ "" := by
  rw [memberName_eq]
  intro hempty
  have hlabel : m.label = "" := (String.append_eq_empty_iff.mp hempty).2
  rw [hlabel] at h
  exact h.1 rfl

/-- A name is under the name of one member only. -/
theorem label_eq_of_under {outer name : String} {m n : StructMember}
    (hm : IsWord m.label.toList) (hn : IsWord n.label.toList)
    (h : Under (memberName outer m.name) name) (h' : Under (memberName outer n.name) name) :
    m.label = n.label := by
  rw [memberName_eq] at h h'
  exact eq_of_under hm.2 hn.2 h h'

theorem isWordChar_of_mem_repr {n : Nat} {c : Char} (hc : c ∈ n.repr.toList) :
    Text.isWordChar c = true := by
  rw [Nat.toList_repr] at hc
  have hdigit := Nat.isDigit_of_mem_toDigits (by decide) (by decide) hc
  simp [Text.isWordChar, Char.isAlphanum, hdigit]

/-- A name is under the name of one element only. -/
theorem index_eq_of_under {outer name : String} {i j : Nat} (h : Under (elementName outer i) name)
    (h' : Under (elementName outer j) name) : i = j := by
  have hclose : ∀ k, Under (outer ++ "[" ++ k.repr) (elementName outer k) := fun k =>
    ⟨"]", rfl, stops_cons.mpr rfl⟩
  apply Nat.repr_injective
  exact eq_of_under (fun _ => isWordChar_of_mem_repr) (fun _ => isWordChar_of_mem_repr)
    ((hclose i).trans h) ((hclose j).trans h')

/-! ## Different names for different entries -/

/-- The entries of a member are under its name. -/
theorem under_of_mem_ofMember {outer : String} {base : Nat} {m : StructMember} {f : FlatMember}
    (hm : IsWord m.label.toList) (hf : f ∈ ofMember outer base m) :
    Under (memberName outer m.name) f.name := by
  have hne : memberName outer m.name ≠ "" := memberName_ne_empty hm
  cases m with
  | mk name type offset =>
      rw [ofMember] at hf
      exact under_ofType hne hf

mutual

/-- The entries of a type have different names. -/
theorem nodup_ofType {name : String} (hname : name ≠ "") {offset : Nat} :
    ∀ {type : ShaderType}, type.WellNamed →
      ((ofType name offset type).map FlatMember.name).Nodup
  | .struct _ members _, h => by
      rw [ShaderType.WellNamed] at h
      rw [ofType]
      exact nodup_ofMembers h.2 h.1
  | .array base _ _, h => by
      rw [ShaderType.WellNamed] at h
      rw [ofType]
      exact nodup_ofArray hname h
  | .scalar _, _ | .vector .., _ | .matrix .., _ | .image .., _ | .sampler _, _ | .atomic _, _
  | .pointer _, _ => by
      simp [ofType]

/-- The entries of different elements go on behind different indices. -/
theorem nodup_ofArray {name : String} (hname : name ≠ "") {offset count stride : Nat} :
    ∀ {type : ShaderType}, type.WellNamed →
      ((ofArray name offset count stride type).map FlatMember.name).Nodup
  | .struct _ members _, h => by
      rw [ShaderType.WellNamed] at h
      rw [ofArray, List.map_flatMap, List.nodup_flatMap]
      refine ⟨fun i _ => nodup_ofMembers h.2 h.1, ?_⟩
      refine List.nodup_range.imp fun {i j} hne => ?_
      intro text hi hj
      obtain ⟨f, hf, rfl⟩ := List.mem_map.mp hi
      obtain ⟨g, hg, hsame⟩ := List.mem_map.mp hj
      have helement : ∀ k, elementName name k ≠ "" := fun k =>
        (under_elementName name k).ne_empty hname
      apply hne
      exact index_eq_of_under (under_ofMembers (helement i) hf)
        (hsame ▸ under_ofMembers (helement j) hg)
  | .scalar _, _ | .vector .., _ | .matrix .., _ | .image .., _ | .sampler _, _ | .atomic _, _
  | .pointer _, _ | .array .., _ => by
      simp [ofArray]

/-- The entries of different members go on behind different words. -/
theorem nodup_ofMembers {outer : String} {base : Nat} :
    ∀ {members : List StructMember}, StructMember.AllWellNamed members →
      (members.map StructMember.label).Nodup →
      ((ofMembers outer base members).map FlatMember.name).Nodup
  | [], _, _ => by simp [ofMembers]
  | m :: ms, h, hlabels => by
      rw [StructMember.AllWellNamed] at h
      obtain ⟨hm, hms⟩ := h
      obtain ⟨hfresh, hrest⟩ := List.nodup_cons.mp hlabels
      rw [ofMembers, List.map_append, List.nodup_append]
      refine ⟨nodup_ofMember hm, nodup_ofMembers hms hrest, ?_⟩
      intro a ha b hb hab
      obtain ⟨f, hf, rfl⟩ := List.mem_map.mp ha
      obtain ⟨g, hg, rfl⟩ := List.mem_map.mp hb
      obtain ⟨n, hn, hgn⟩ := mem_ofMembers_iff.mp hg
      have hword := (hms.of_mem hn).isWord
      have hunder := under_of_mem_ofMember hm.isWord hf
      rw [hab] at hunder
      have hlabel := label_eq_of_under hm.isWord hword hunder (under_of_mem_ofMember hword hgn)
      exact hfresh (hlabel ▸ List.mem_map_of_mem hn)

theorem nodup_ofMember {outer : String} {base : Nat} :
    ∀ {m : StructMember}, m.WellNamed →
      ((ofMember outer base m).map FlatMember.name).Nodup
  | .mk name type offset, h => by
      have hne : memberName outer name ≠ "" := memberName_ne_empty h.isWord
      rw [StructMember.WellNamed] at h
      rw [ofMember]
      exact nodup_ofType hne h.2

end

/-! ## Names in reflections -/

/-- A name without the word for stored matrices. -/
def legacyName (name : String) : String :=
  (StageInterface.afterMark? Modern.mat2Mark name).getD name

theorem name_toUniform (f : FlatMember) (stage : Stage) (index : Nat) :
    (f.toUniform stage index).name = legacyName f.name := by
  unfold toUniform legacyName
  cases StageInterface.afterMark? Modern.mat2Mark f.name <;> rfl

/-- A name with the mark of a stored matrix loses it, and others stay. -/
theorem legacyName_cases (name : String) :
    (∃ rest, name = Modern.mat2Mark ++ rest ∧ legacyName name = rest) ∨
      ¬ Modern.mat2Mark.toList <+: name.toList ∧ legacyName name = name := by
  unfold legacyName
  cases h : StageInterface.afterMark? Modern.mat2Mark name with
  | some rest => exact .inl ⟨rest, StageInterface.afterMark?_eq_some_iff.mp h, rfl⟩
  | none =>
      refine .inr ⟨fun hmark => ?_, rfl⟩
      simp [StageInterface.afterMark?, List.isPrefixOf_iff_prefix.mpr hmark] at h

/-- The mark is taken off the first word of a path, and the rest of the path stays. -/
theorem legacyName_append {outer rest : String} (hrest : Stops Text.isWordChar rest.toList) :
    legacyName (outer ++ rest) = legacyName outer ++ rest := by
  have hunder : Under outer (outer ++ rest) := ⟨rest, rfl, hrest⟩
  rcases legacyName_cases outer with ⟨tail, rfl, htail⟩ | ⟨hmark, houter⟩
  · rw [htail, String.append_assoc, legacyName, StageInterface.afterMark?_eq_some_iff.mpr rfl,
      Option.getD_some]
  · rcases legacyName_cases (outer ++ rest) with ⟨tail, hfront, -⟩ | ⟨-, hall⟩
    · refine absurd ((mark_prefix_iff hunder).mp ?_) hmark
      rw [hfront, String.toList_append]
      exact List.prefix_append _ _
    · rw [houter, hall]

theorem isWordChar_of_mem_legacyName {name : String} (h : IsWord name.toList) {c : Char}
    (hc : c ∈ (legacyName name).toList) : Text.isWordChar c = true := by
  apply h.2
  rcases legacyName_cases name with ⟨rest, hname, hrest⟩ | ⟨-, hname⟩
  · rw [hrest] at hc
    rw [hname, String.toList_append]
    exact List.mem_append_right _ hc
  · rwa [hname] at hc

theorem under_legacyName {outer name : String} (h : Under outer name) :
    Under (legacyName outer) (legacyName name) := by
  obtain ⟨rest, rfl, hrest⟩ := h
  exact ⟨rest, legacyName_append hrest, hrest⟩

/-- Behind one word, a path is determined by what is left of it. -/
theorem eq_of_legacyName_eq {outer a b : String} (ha : Under outer a) (hb : Under outer b)
    (h : legacyName a = legacyName b) : a = b := by
  obtain ⟨rest, rfl, hrest⟩ := ha
  obtain ⟨rest', rfl, hrest'⟩ := hb
  rw [legacyName_append hrest, legacyName_append hrest', String.append_right_inj] at h
  rw [h]

theorem under_label {base : Nat} {m : StructMember} {f : FlatMember} (hm : IsWord m.label.toList)
    (hf : f ∈ ofMember "" base m) : Under m.label f.name := under_of_mem_ofMember hm hf

/-- The names of a block stay different without the mark if those of its members do. -/
theorem nodup_legacyNames {base : Nat} {members : List StructMember}
    (hnamed : StructMember.AllWellNamed members)
    (hlabels : (members.map fun m => legacyName m.label).Nodup) :
    ((ofMembers "" base members).map fun f => legacyName f.name).Nodup := by
  induction members with
  | nil => simp [ofMembers]
  | cons m ms ih =>
      rw [StructMember.AllWellNamed] at hnamed
      obtain ⟨hm, hms⟩ := hnamed
      obtain ⟨hfresh, hrest⟩ := List.nodup_cons.mp hlabels
      rw [ofMembers, List.map_append, List.nodup_append]
      refine ⟨?_, ih hms hrest, ?_⟩
      · have hnames : ((ofMember "" base m).map FlatMember.name).Nodup := nodup_ofMember hm
        have hinj := hnames.map_on (f := legacyName) fun a ha b hb => by
          obtain ⟨f, hf, rfl⟩ := List.mem_map.mp ha
          obtain ⟨g, hg, rfl⟩ := List.mem_map.mp hb
          exact eq_of_legacyName_eq (under_label hm.isWord hf) (under_label hm.isWord hg)
        rwa [List.map_map] at hinj
      · intro a ha b hb hab
        obtain ⟨f, hf, rfl⟩ := List.mem_map.mp ha
        obtain ⟨g, hg, rfl⟩ := List.mem_map.mp hb
        obtain ⟨n, hn, hgn⟩ := mem_ofMembers_iff.mp hg
        have hword := (hms.of_mem hn).isWord
        have hunder := under_legacyName (under_label hm.isWord hf)
        have hunder' := under_legacyName (under_label hword hgn)
        rw [← hab] at hunder'
        have hlabel : legacyName m.label = legacyName n.label := by
          refine @eq_of_under "" _ _ (legacyName f.name)
            (fun _ => isWordChar_of_mem_legacyName hm.isWord)
            (fun _ => isWordChar_of_mem_legacyName hword) ?_ ?_
          · simpa using hunder
          · simpa using hunder'
        exact hfresh (List.mem_map.mpr ⟨n, hn, hlabel.symm⟩)

end FlatMember

/-! ## Looking entries up -/

/-- Among entries with different names, each is found by its own. -/
theorem find?_name_of_nodup {us : List UniformInfo} (h : (us.map UniformInfo.name).Nodup)
    {u : UniformInfo} (hu : u ∈ us) : us.find? (fun x => x.name == u.name) = some u := by
  induction us with
  | nil => cases hu
  | cons x xs ih =>
      obtain ⟨hfresh, hrest⟩ := List.nodup_cons.mp h
      rcases List.mem_cons.mp hu with rfl | hu
      · simp
      · have hne : ¬ x.name = u.name := fun heq => hfresh (heq ▸ List.mem_map_of_mem hu)
        rw [List.find?_cons_of_neg (by simpa using hne)]
        exact ih hrest hu

/-- The uniforms of a block are its entries, wherever these stand among the others. -/
theorem blockUniforms_of_append {r : ProgramReflection} {before entries after : List UniformInfo}
    {index : UInt32} (huniforms : r.uniforms = before ++ entries ++ after)
    (hentries : ∀ u ∈ entries, u.blockIndex = some index)
    (hothers : ∀ u ∈ before ++ after, u.blockIndex ≠ some index) :
    r.blockUniforms index = entries := by
  have hbefore : before.filter (fun u => u.blockIndex == some index) = [] := by
    simp only [List.filter_eq_nil_iff, beq_iff_eq]
    intro u hu
    exact hothers u (List.mem_append_left _ hu)
  have hafter : after.filter (fun u => u.blockIndex == some index) = [] := by
    simp only [List.filter_eq_nil_iff, beq_iff_eq]
    intro u hu
    exact hothers u (List.mem_append_right _ hu)
  have hall : entries.filter (fun u => u.blockIndex == some index) = entries := by
    simp only [List.filter_eq_self, beq_iff_eq]
    exact hentries
  rw [ProgramReflection.blockUniforms, huniforms, List.filter_append, List.filter_append, hbefore,
    hafter, hall, List.nil_append, List.append_nil]

/-- Let the names in each struct of a block be different words, and let those of the block
stay different without the mark of stored matrices.  Then all entries of the block have
different names.  So in a reflection, looking up the name of an entry among the uniforms of
the block gives that entry. -/
theorem reflected_names_identify {members : List StructMember}
    (hnamed : StructMember.AllWellNamed members)
    (hlabels : (members.map fun m => FlatMember.legacyName m.label).Nodup) (stage : Stage)
    (index : Nat) :
    let entries := (FlatMember.ofMembers "" 0 members).map fun f => f.toUniform stage index
    (entries.map UniformInfo.name).Nodup ∧
      ∀ (r : ProgramReflection) (before after : List UniformInfo),
        r.uniforms = before ++ entries ++ after →
        (∀ u ∈ before ++ after, u.blockIndex ≠ some index.toUInt32) →
        ∀ u ∈ entries,
          ProgramReflection.findUniform? { r with uniforms := r.blockUniforms index.toUInt32 }
            u.name = some u := by
  intro entries
  have hnodup : (entries.map UniformInfo.name).Nodup := by
    have hnames := @FlatMember.nodup_legacyNames 0 members hnamed hlabels
    simp only [entries, List.map_map, Function.comp_def, FlatMember.name_toUniform]
    exact hnames
  refine ⟨hnodup, fun r before after huniforms hothers u hu => ?_⟩
  have hentries : ∀ u ∈ entries, u.blockIndex = some index.toUInt32 := by
    intro u hu
    obtain ⟨f, -, rfl⟩ := List.mem_map.mp hu
    rfl
  rw [blockUniforms_of_append huniforms hentries hothers]
  exact find?_name_of_nodup hnodup hu

/-- A stored matrix, whose name without the mark is that of a member of a struct, and an
array of structs with indices of one and two digits.  The reflection has another uniform of
the same name, which is in no block. -/
theorem reflected_names_identify_of_lights :
    let light : ShaderType :=
      .struct none [.mk "place" (.vector .three .f32) 0, .mk "range" (.scalar .f32) 12] 16
    let members : List StructMember := [.mk "compat_mat2_place" (.matrix .two .four .f32) 0,
      .mk "lights" (.array light (some 12) 16) 32]
    let entries := (FlatMember.ofMembers "" 0 members).map fun f => f.toUniform .fragment 0
    let map : UniformInfo := ⟨"place", .sampler2D, 1, none, 0, some 1, 0, 0, .fragment⟩
    let r : ProgramReflection := ⟨[], [], map :: entries⟩
    StructMember.AllWellNamed members ∧
      (members.map fun m => FlatMember.legacyName m.label).Nodup ∧
      (entries.map UniformInfo.name).Nodup ∧
      (["place", "lights[1].place", "lights[11].place"] ⊆ entries.map UniformInfo.name) ∧
      ∀ u ∈ entries,
        ProgramReflection.findUniform? { r with uniforms := r.blockUniforms 0 } u.name = some u := by
  intro light members entries map r
  have hnamed : StructMember.AllWellNamed members := by
    simp only [members, light, StructMember.AllWellNamed, StructMember.WellNamed,
      ShaderType.WellNamed]
    decide +kernel
  have hlabels : (members.map fun m => FlatMember.legacyName m.label).Nodup := by decide +kernel
  obtain ⟨hnodup, hfind⟩ := reflected_names_identify hnamed hlabels .fragment 0
  refine ⟨hnamed, hlabels, hnodup, by decide +kernel, ?_⟩
  exact hfind r [map] [] (by simp [r, entries]) (by simp [map])

end LegacyShader
