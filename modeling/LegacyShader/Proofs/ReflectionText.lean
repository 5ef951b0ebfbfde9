import LegacyShader.Proofs.PrintedValues
import LegacyShader.Reflection.Json

/-!
# Stored reflections are read back

A reflection stored as a text is read as the same reflection.  `Json.parse_print` takes the
text back to its value.  The value is taken back part by part (`ReadsBack`), and a record in two
steps.  Its members are put in the order of their names first, which loses none of them because
their names differ (`sortedMembers_perm`).  After that each member is looked up by its name, so
the order does not matter (`Fields.get?_of_perm`).
-/

namespace LegacyShader

open Json (Value Member Cause)

/-! ## Parts -/

/-- What was written is read as it was. -/
def ReadsBack {α : Type} (read : FromJson α) (write : α → Value) : Prop :=
  ∀ a, read (write a) = .ok a

theorem readsBack_name : ReadsBack readName .string := fun _ => rfl

/-- A word of 32 bits is read back as a number. -/
theorem readsBack_word : ReadsBack readWord32 wordValue := by
  intro n
  have hword : (0 : Int) ≤ n.toNat ∧ (n.toNat : Int).toNat < Nat.pow 2 32 :=
    ⟨Int.natCast_nonneg _, n.toNat_lt⟩
  rw [wordValue, readWord32, if_pos hword]
  exact congrArg Except.ok UInt32.ofNat_toNat

/-- A value that may be missing is read back, since a number is not null. -/
theorem readsBack_option : ReadsBack (readOption readWord32) optionValue := by
  intro n
  cases n with
  | none => rfl
  | some n => exact congrArg (Except.map some) (readsBack_word n)

/-- A kind is read back from its name. -/
theorem readsBack_kind : ReadsBack readKind fun k => .string k.name := by
  intro k
  cases k <;> rfl

theorem readsBack_stage : ReadsBack readStage fun s => .string s.name := by
  intro s
  cases s <;> rfl

/-- A list is read back item by item. -/
theorem ReadsBack.sequence {α : Type} {read : FromJson α} {write : α → Value}
    (h : ReadsBack read write) : ReadsBack (readSequence read) fun as => .array (as.map write) := by
  intro as
  show (as.map write).mapM read = .ok as
  induction as with
  | nil => rfl
  | cons a as ih =>
      rw [List.map_cons, List.mapM_cons, h a, ih]
      rfl

/-- What is read back passes the check. -/
theorem ReadsBack.checks {α : Type} {read : FromJson α} {write : α → Value}
    (h : ReadsBack read write) (a : α) : checks read (write a) = .ok () :=
  congrArg (Except.map fun _ => ()) (h a)

/-! ## Records -/

/-- Members of distinct names are all kept. -/
theorem foldl_kept {kept members : List Member}
    (h : ((kept ++ members).map Member.name).Nodup) :
    members.foldl (fun (kept : List Member) m => kept.filter (·.name != m.name) ++ [m]) kept =
      kept ++ members := by
  induction members generalizing kept with
  | nil => rw [List.append_nil, List.foldl_nil]
  | cons m members ih =>
      have hother : ∀ k ∈ kept, (k.name != m.name) = true := by
        intro k hk
        rw [List.map_append, List.nodup_append] at h
        exact bne_iff_ne.mpr (h.2.2 _ (List.mem_map_of_mem hk) _ List.mem_cons_self)
      rw [List.append_cons] at h ⊢
      rw [List.foldl_cons, List.filter_eq_self.mpr hother, ih h]

/-- Members of different names are sorted and none is lost. -/
theorem sortedMembers_perm {members : List Member} (h : (members.map Member.name).Nodup) :
    (sortedMembers members).Perm members := by
  rw [sortedMembers, foldl_kept (show ((([] : List Member) ++ members).map _).Nodup from h)]
  exact List.mergeSort_perm _ _

/-- Of members with distinct names, each is found under its name. -/
theorem Fields.get?_eq_some_iff {fields : Fields} (h : (fields.map Member.name).Nodup)
    {name : String} {v : Value} : fields.get? name = some v ↔ .mk name v ∈ fields := by
  induction fields with
  | nil => simp [get?]
  | cons m fields ih =>
      obtain ⟨hfirst, hrest⟩ := List.nodup_cons.mp h
      cases m with
      | mk first w =>
          by_cases hname : first = name
          · subst hname
            have habsent : Member.mk first v ∉ fields := fun hmem =>
              hfirst (List.mem_map.mpr ⟨_, hmem, rfl⟩)
            simp [get?, Member.name, Member.value, habsent, eq_comm]
          · have hfind : Fields.get? (.mk first w :: fields) name = Fields.get? fields name := by
              simp [get?, Member.name, hname]
            rw [hfind, ih hrest, List.mem_cons]
            simp [Ne.symm hname]

/-- Members of different names are found in any order. -/
theorem Fields.get?_of_perm {fields members : Fields} (h : fields.Perm members)
    (hnames : (members.map Member.name).Nodup) (name : String) :
    fields.get? name = members.get? name := by
  refine Option.ext fun v => ?_
  rw [get?_eq_some_iff ((h.map _).nodup_iff.mpr hnames), get?_eq_some_iff hnames, h.mem_iff]

theorem forM_eq_ok {ε α : Type} {check : α → Except ε Unit} {as : List α}
    (h : ∀ a ∈ as, check a = .ok ()) : as.forM check = .ok () := by
  induction as with
  | nil => rfl
  | cons a as ih =>
      obtain ⟨ha, has⟩ := List.forall_mem_cons.mp h
      show (check a >>= fun _ => as.forM check) = .ok ()
      rw [ha]
      exact ih has

/-- Members of distinct names with values that can be read. -/
structure Shape.FilledBy (shape : Shape) (members : Fields) : Prop where
  /-- No name stands twice. -/
  names : (members.map Member.name).Nodup
  /-- Each value passes the check of its name. -/
  checks : ∀ m ∈ members, shape.check m = .ok ()

namespace Shape.FilledBy

variable {shape : Shape} {members : Fields} (h : shape.FilledBy members)

include h

/-- An object with all the members of a shape, and no others, has them as its fields. -/
theorem fieldsOf : shape.fieldsOf (.object members) = .ok (sortedMembers members) := by
  have hsorted : (sortedMembers members).forM shape.check = .ok () :=
    forM_eq_ok fun m hm => h.checks m ((sortedMembers_perm h.names).mem_iff.mp hm)
  simp only [Shape.fieldsOf, hsorted]
  rfl

theorem read {α : Type} (name : String) (read : FromJson α) :
    Fields.read (sortedMembers members) name read = members.read name read := by
  rw [Fields.read, Fields.read, Fields.get?_of_perm (sortedMembers_perm h.names) h.names]

theorem readOptional {α : Type} (name : String) (read : FromJson α) :
    Fields.readOptional (sortedMembers members) name read = members.readOptional name read := by
  rw [Fields.readOptional, Fields.readOptional,
    Fields.get?_of_perm (sortedMembers_perm h.names) h.names]

end Shape.FilledBy

/-- The members of an object. -/
def membersOf : Value → Fields
  | .object members => members
  | _ => []

theorem AttribInfo.filledBy (a : AttribInfo) : shape.FilledBy (membersOf a.toJson) where
  names := show ["name", "ty", "location"].Nodup by decide
  checks := by
    simp only [membersOf, toJson, List.forall_mem_cons]
    exact ⟨readsBack_name.checks a.name, readsBack_kind.checks a.kind,
      readsBack_word.checks a.location, List.forall_mem_nil _⟩

/-- An attribute is read back from its object. -/
theorem AttribInfo.readsBack : ReadsBack ofJson toJson := by
  intro a
  have hfields : shape.fieldsOf a.toJson = .ok _ := a.filledBy.fieldsOf
  have hname := (a.filledBy.read "name" readName).trans (readsBack_name a.name)
  have hkind := (a.filledBy.read "ty" readKind).trans (readsBack_kind a.kind)
  have hlocation := (a.filledBy.read "location" readWord32).trans (readsBack_word a.location)
  simp only [ofJson, hfields, bind, Except.bind, hname, hkind, hlocation]
  rfl

theorem UniformBlockInfo.filledBy (b : UniformBlockInfo) :
    shape.FilledBy (membersOf b.toJson) where
  names := show ["binding", "size", "stage"].Nodup by decide
  checks := by
    simp only [membersOf, toJson, List.forall_mem_cons]
    exact ⟨readsBack_word.checks b.binding, readsBack_word.checks b.size,
      readsBack_stage.checks b.stage, List.forall_mem_nil _⟩

/-- A block is read back from its object. -/
theorem UniformBlockInfo.readsBack : ReadsBack ofJson toJson := by
  intro b
  have hfields : shape.fieldsOf b.toJson = .ok _ := b.filledBy.fieldsOf
  have hbinding := (b.filledBy.read "binding" readWord32).trans (readsBack_word b.binding)
  have hsize := (b.filledBy.read "size" readWord32).trans (readsBack_word b.size)
  have hstage := (b.filledBy.read "stage" readStage).trans (readsBack_stage b.stage)
  simp only [ofJson, hfields, bind, Except.bind, hbinding, hsize, hstage]
  rfl

theorem UniformInfo.filledBy (u : UniformInfo) : shape.FilledBy (membersOf u.toJson) where
  names :=
    show ["name", "ty", "array_size", "block_index", "block_offset", "binding", "array_stride",
      "matrix_stride", "stage"].Nodup by decide
  checks := by
    simp only [membersOf, toJson, List.forall_mem_cons]
    exact ⟨readsBack_name.checks u.name, readsBack_kind.checks u.kind,
      readsBack_word.checks u.arraySize, readsBack_option.checks u.blockIndex,
      readsBack_word.checks u.blockOffset, readsBack_option.checks u.binding,
      readsBack_word.checks u.arrayStride, readsBack_word.checks u.matrixStride,
      readsBack_stage.checks u.stage, List.forall_mem_nil _⟩

/-- A uniform is read back from its object. -/
theorem UniformInfo.readsBack : ReadsBack ofJson toJson := by
  intro u
  have hfields : shape.fieldsOf u.toJson = .ok _ := u.filledBy.fieldsOf
  have hname := (u.filledBy.read "name" readName).trans (readsBack_name u.name)
  have hkind := (u.filledBy.read "ty" readKind).trans (readsBack_kind u.kind)
  have hcount := (u.filledBy.read "array_size" readWord32).trans (readsBack_word u.arraySize)
  have hblock := (u.filledBy.readOptional "block_index" readWord32).trans
    (readsBack_option u.blockIndex)
  have hoffset := (u.filledBy.read "block_offset" readWord32).trans (readsBack_word u.blockOffset)
  have hbinding := (u.filledBy.readOptional "binding" readWord32).trans
    (readsBack_option u.binding)
  have hstride := (u.filledBy.read "array_stride" readWord32).trans (readsBack_word u.arrayStride)
  have hmatrix := (u.filledBy.read "matrix_stride" readWord32).trans
    (readsBack_word u.matrixStride)
  have hstage := (u.filledBy.read "stage" readStage).trans (readsBack_stage u.stage)
  simp only [ofJson, hfields, bind, Except.bind, hname, hkind, hcount, hblock, hoffset, hbinding,
    hstride, hmatrix, hstage]
  rfl

theorem ProgramReflection.filledBy (r : ProgramReflection) :
    shape.FilledBy (membersOf r.toJson) where
  names := show ["attribs", "uniform_blocks", "uniforms"].Nodup by decide
  checks := by
    simp only [membersOf, toJson, List.forall_mem_cons]
    exact ⟨AttribInfo.readsBack.sequence.checks r.attribs,
      UniformBlockInfo.readsBack.sequence.checks r.uniformBlocks,
      UniformInfo.readsBack.sequence.checks r.uniforms, List.forall_mem_nil _⟩

/-- A reflection is read back from its object. -/
theorem ProgramReflection.readsBack : ReadsBack ofJson toJson := by
  intro r
  have hfields : shape.fieldsOf r.toJson = .ok _ := r.filledBy.fieldsOf
  have hattribs := (r.filledBy.read "attribs" (readSequence AttribInfo.ofJson)).trans
    (AttribInfo.readsBack.sequence r.attribs)
  have hblocks := (r.filledBy.read "uniform_blocks" (readSequence UniformBlockInfo.ofJson)).trans
    (UniformBlockInfo.readsBack.sequence r.uniformBlocks)
  have huniforms := (r.filledBy.read "uniforms" (readSequence UniformInfo.ofJson)).trans
    (UniformInfo.readsBack.sequence r.uniforms)
  simp only [ofJson, hfields, bind, Except.bind, hattribs, hblocks, huniforms]
  rfl

/-! ## Texts -/

theorem fits_wordValue (n : UInt32) (depth : Nat) : (wordValue n).Fits depth := by
  have hlt : n.toNat < Nat.pow 2 64 := Nat.lt_trans n.toNat_lt (by decide)
  rw [wordValue, Value.Fits]
  exact ⟨Int.natCast_nonneg _, hlt⟩

theorem fits_optionValue (n : Option UInt32) (depth : Nat) : (optionValue n).Fits depth := by
  cases n with
  | none => trivial
  | some n => exact fits_wordValue n depth

/-- The values of a list fit if each way to write one does. -/
theorem allFit_map {α : Type} {write : α → Value} {depth : Nat} (h : ∀ a, (write a).Fits depth)
    (as : List α) : Value.AllFit depth (as.map write) := by
  induction as with
  | nil => trivial
  | cons a as ih => exact ⟨h a, ih⟩

theorem AttribInfo.fits_toJson (a : AttribInfo) (depth : Nat) : a.toJson.Fits (depth + 1) :=
  ⟨trivial, trivial, fits_wordValue a.location depth, trivial⟩

theorem UniformBlockInfo.fits_toJson (b : UniformBlockInfo) (depth : Nat) :
    b.toJson.Fits (depth + 1) :=
  ⟨fits_wordValue b.binding depth, fits_wordValue b.size depth, trivial, trivial⟩

theorem UniformInfo.fits_toJson (u : UniformInfo) (depth : Nat) : u.toJson.Fits (depth + 1) :=
  ⟨trivial, trivial, fits_wordValue u.arraySize depth, fits_optionValue u.blockIndex depth,
    fits_wordValue u.blockOffset depth, fits_optionValue u.binding depth,
    fits_wordValue u.arrayStride depth, fits_wordValue u.matrixStride depth, trivial, trivial⟩

/-- A reflection is three levels deep. -/
theorem ProgramReflection.fits_toJson (r : ProgramReflection) (depth : Nat) :
    r.toJson.Fits (depth + 3) :=
  ⟨allFit_map (fun a => a.fits_toJson depth) r.attribs,
    allFit_map (fun b => b.fits_toJson depth) r.uniformBlocks,
    allFit_map (fun u => u.fits_toJson depth) r.uniforms, trivial⟩

/-- Every reflection is read back from its text, as its value and from there as itself. -/
theorem ProgramReflection.pretty_reads_back (r : ProgramReflection) :
    Json.parse r.pretty = .ok r.toJson ∧ ofJson r.toJson = .ok r ∧ ofText? r.pretty = some r := by
  have hparse : Json.parse r.pretty = .ok r.toJson := Json.parse_print (r.fits_toJson 124)
  have hread : ofJson r.toJson = .ok r := ProgramReflection.readsBack r
  refine ⟨hparse, hread, ?_⟩
  rw [ofText?, hparse]
  show (ofJson r.toJson).toOption = some r
  rw [hread]
  rfl

end LegacyShader
