import LegacyShader.Proofs.FlatNames

/-!
# Values in a block and the entries that describe them

A block consists of values without parts, such as scalars, vectors and matrices, at some
offsets (`ShaderType.instances`).  A reflection describes such a value by an element of an
entry.  The values of a block are those in the elements of its entries, in the same order
(`instancesOf_eq_flatMap`).  An element of an array of structs is split up, but an array
of arrays is one entry, and its elements are arrays.

So the values are the elements as long as no array has arrays as elements
(`instancesOf_eq_cells`).  In an array of arrays an element is described as if it were a
single value at its start, and without the distance of columns.  Whatever else is in it is
described by nothing, because no two elements share a byte (`cell_unique`).
-/

namespace LegacyShader

/-! ## Values of a block -/

/-- A value in a block. -/
structure BlockValue where
  /-- The byte offset in the block. -/
  offset : Nat
  /-- The type. -/
  type : ShaderType

mutual

/-- The values without parts in one of a type at an offset, all members of structs and
all elements of arrays counted. -/
def ShaderType.instances (offset : Nat) : ShaderType → List BlockValue
  | .struct _ members _ => StructMember.instancesOf offset members
  | .array base length stride =>
      (List.range (length.getD 0)).flatMap fun i => base.instances (offset + i * stride)
  | type => [⟨offset, type⟩]

/-- The same of a member of a struct at an offset. -/
def StructMember.instances (base : Nat) : StructMember → List BlockValue
  | .mk _ type offset => type.instances (base + offset)

/-- The same of all members of a struct at an offset. -/
def StructMember.instancesOf (base : Nat) : List StructMember → List BlockValue
  | [] => []
  | m :: ms => m.instances base ++ StructMember.instancesOf base ms

end

mutual

/-- Whether no array in a type has arrays as elements. -/
def ShaderType.singleArrays : ShaderType → Bool
  | .struct _ members _ => StructMember.allSingleArrays members
  | .array base _ _ => !base.isArray && base.singleArrays
  | _ => true

/-- The same of the type of a member. -/
def StructMember.singleArrays : StructMember → Bool
  | .mk _ type _ => type.singleArrays

/-- The same of the types of all members. -/
def StructMember.allSingleArrays : List StructMember → Bool
  | [] => true
  | m :: ms => m.singleArrays && StructMember.allSingleArrays ms

end

mutual

/-- Whether the mark of a stored matrix is in front of no member of a type. -/
def ShaderType.unmarked : ShaderType → Bool
  | .struct _ members _ => StructMember.allUnmarked members
  | .array base _ _ => base.unmarked
  | _ => true

/-- The same of a member and its type. -/
def StructMember.unmarked : StructMember → Bool
  | .mk name type _ =>
      !Modern.mat2Mark.toList.isPrefixOf (name.getD "").toList && type.unmarked

/-- The same of all members. -/
def StructMember.allUnmarked : List StructMember → Bool
  | [] => true
  | m :: ms => m.unmarked && StructMember.allUnmarked ms

end

theorem StructMember.allSingleArrays_iff {members : List StructMember} :
    StructMember.allSingleArrays members = true ↔ ∀ m ∈ members, m.type.singleArrays = true := by
  induction members with
  | nil => simp [StructMember.allSingleArrays]
  | cons m ms ih =>
      cases m with
      | mk name type offset =>
          simp [StructMember.allSingleArrays, StructMember.singleArrays, StructMember.type, ih]

theorem StructMember.allUnmarked_iff {members : List StructMember} :
    StructMember.allUnmarked members = true ↔ ∀ m ∈ members, m.unmarked = true := by
  induction members with
  | nil => simp [StructMember.allUnmarked]
  | cons m ms ih => simp [StructMember.allUnmarked, ih]

/-- Members that follow each other are each laid out. -/
theorem StructMember.LaidFrom.of_mem {start stop : Nat} {members : List StructMember}
    (h : StructMember.LaidFrom start stop members) {m : StructMember} (hm : m ∈ members) :
    m.type.Laid := by
  induction members generalizing start with
  | nil => cases hm
  | cons x xs ih =>
      obtain ⟨-, hx, hxs⟩ := h
      rcases List.mem_cons.mp hm with rfl | hm
      · cases m with
        | mk name type offset => exact hx
      · exact ih hxs hm

/-- If the elements of all arrays have a size, those in the type of each member have. -/
theorem StructMember.AllSized.of_mem {members : List StructMember}
    (h : StructMember.AllSized members) {m : StructMember} (hm : m ∈ members) : m.type.Sized := by
  induction members with
  | nil => cases hm
  | cons x xs ih =>
      obtain ⟨hx, hxs⟩ := h
      rcases List.mem_cons.mp hm with rfl | hm
      · cases m with
        | mk name type offset => exact hx
      · exact ih hxs hm

/-- What is neither a struct nor an array has no parts. -/
theorem ShaderType.instances_single {type : ShaderType} (hstruct : type.isStruct = false)
    (harray : type.isArray = false) (offset : Nat) : type.instances offset = [⟨offset, type⟩] := by
  cases type with
  | struct => cases hstruct
  | array => cases harray
  | _ => rw [ShaderType.instances] <;> simp

mutual

/-- The values in one of a type start within its bytes. -/
theorem ShaderType.Laid.bounds {offset : Nat} {x : BlockValue} :
    ∀ {type : ShaderType}, type.Laid → x ∈ type.instances offset →
      offset ≤ x.offset ∧ x.offset < offset + type.byteSize
  | .struct _ members span, h, hx => by
      rw [ShaderType.Laid] at h
      rw [ShaderType.instances] at hx
      rw [ShaderType.byteSize]
      exact StructMember.LaidFrom.bounds h hx
  | .array base length stride, h, hx => by
      rw [ShaderType.Laid] at h
      obtain ⟨⟨n, rfl, -⟩, hstride, hbase⟩ := h
      rw [ShaderType.instances] at hx
      obtain ⟨i, hi, hx⟩ := List.mem_flatMap.mp hx
      obtain ⟨hge, hlt⟩ := hbase.bounds hx
      have hnext : (i + 1) * stride ≤ n * stride :=
        Nat.mul_le_mul_right stride (List.mem_range.mp hi)
      rw [Nat.add_mul] at hnext
      rw [ShaderType.byteSize, Option.getD_some]
      omega
  | .scalar _, h, hx | .vector .., h, hx | .matrix .., h, hx | .image .., h, hx
  | .sampler _, h, hx | .atomic _, h, hx | .pointer _, h, hx => by
      rw [ShaderType.Laid] at h
      · rw [ShaderType.instances_single rfl rfl, List.mem_singleton] at hx
        subst hx
        exact ⟨Nat.le_refl _, Nat.lt_add_of_pos_right h⟩
      all_goals simp

theorem StructMember.LaidFrom.bounds {base start stop : Nat} {x : BlockValue} :
    ∀ {members : List StructMember}, StructMember.LaidFrom start stop members →
      x ∈ StructMember.instancesOf base members →
      base + start ≤ x.offset ∧ x.offset < base + stop
  | [], _, hx => by cases hx
  | m :: ms, h, hx => by
      rw [StructMember.LaidFrom] at h
      obtain ⟨hstart, hm, hms⟩ := h
      have hle := hms.le
      rw [StructMember.instancesOf] at hx
      rcases List.mem_append.mp hx with hx | hx
      · have := StructMember.Laid.bounds hm hx
        omega
      · have := StructMember.LaidFrom.bounds hms hx
        omega

theorem StructMember.Laid.bounds {base : Nat} {x : BlockValue} :
    ∀ {m : StructMember}, m.Laid → x ∈ m.instances base →
      base + m.offset ≤ x.offset ∧ x.offset < base + m.offset + m.type.byteSize
  | .mk name type offset, h, hx => by
      rw [StructMember.Laid] at h
      rw [StructMember.instances] at hx
      exact h.bounds hx

end

namespace FlatMember

/-! ## Elements of entries -/

/-- An element of an entry. -/
def cell (e : FlatMember) (k : Nat) : BlockValue := ⟨e.offset + k * e.arrayStride, e.type⟩

/-- The elements of an entry. -/
def cells (e : FlatMember) : List BlockValue := (List.range e.arraySize).map e.cell

/-- The values in the elements of an entry. -/
def instances (e : FlatMember) : List BlockValue :=
  e.cells.flatMap fun c => c.type.instances c.offset

theorem mem_instances_iff {e : FlatMember} {x : BlockValue} :
    x ∈ e.instances ↔ ∃ k < e.arraySize, x ∈ e.type.instances (e.cell k).offset := by
  simp [instances, cells, cell]

theorem flatMap_instances_single {name : String} {type : ShaderType} {offset : Nat} :
    [FlatMember.mk name type offset 1 0].flatMap instances = type.instances offset := by
  simp [instances, cells, cell]

mutual

/-- The values in one of a type are those of its entries. -/
theorem instances_eq_flatMap (name : String) (offset : Nat) :
    ∀ type : ShaderType, type.instances offset = (ofType name offset type).flatMap instances
  | .struct _ members _ => by
      rw [ShaderType.instances, ofType]
      exact instancesOf_eq_flatMap name offset members
  | .array base length stride => by
      rw [ShaderType.instances, ofType]
      exact elements_eq_flatMap name offset (length.getD 0) stride base
  | .scalar _ | .vector .. | .matrix .. | .image .. | .sampler _ | .atomic _ | .pointer _ => by
      simp only [ofType, flatMap_instances_single]

/-- The elements of an array of structs are split up, those of any other array are the
elements of one entry. -/
theorem elements_eq_flatMap (name : String) (offset count stride : Nat) :
    ∀ type : ShaderType,
      ((List.range count).flatMap fun i => type.instances (offset + i * stride)) =
        (ofArray name offset count stride type).flatMap instances
  | .struct _ members _ => by
      rw [ofArray, List.flatMap_assoc]
      refine List.flatMap_congr fun i _ => ?_
      rw [ShaderType.instances]
      exact instancesOf_eq_flatMap (elementName name i) (offset + i * stride) members
  | .scalar _ | .vector .. | .matrix .. | .image .. | .sampler _ | .atomic _ | .pointer _
  | .array .. => by
      simp only [ofArray, List.flatMap_singleton, instances, cells, cell, List.flatMap_map]

theorem instancesOf_eq_flatMap (outer : String) (base : Nat) :
    ∀ members : List StructMember,
      StructMember.instancesOf base members = (ofMembers outer base members).flatMap instances
  | [] => by rw [StructMember.instancesOf, ofMembers, List.flatMap_nil]
  | .mk name type offset :: ms => by
      rw [StructMember.instancesOf, StructMember.instances, ofMembers, ofMember,
        List.flatMap_append, instances_eq_flatMap (memberName outer name) (base + offset) type,
        instancesOf_eq_flatMap outer base ms]

end

/-! ## What entries inherit -/

theorem inherited_singleArrays : Inherited fun _ type => type.singleArrays = true where
  member h := by
    rw [ShaderType.singleArrays] at h
    exact StructMember.allSingleArrays_iff.mp h
  element h _ := by
    rw [ShaderType.singleArrays, Bool.and_eq_true] at h
    exact h.2

theorem inherited_laid : Inherited fun _ type => type.Laid ∧ type.Sized where
  member h _ hm := by
    rw [ShaderType.Laid, ShaderType.Sized] at h
    exact ⟨h.1.of_mem hm, h.2.of_mem hm⟩
  element h _ := by
    rw [ShaderType.Laid, ShaderType.Sized] at h
    exact ⟨h.1.2.2, h.2.2⟩

/-- Behind a point or a bracket there is no mark of a stored matrix, so only the names of
members of the block itself, in front of which there is no other name, can bring it in. -/
theorem inherited_unmarked : Inherited fun name type =>
    ¬ Modern.mat2Mark.toList <+: name.toList ∧ type.unmarked = true where
  member := by
    intro outer tag members span h m hm
    rw [ShaderType.unmarked, StructMember.allUnmarked_iff] at h
    obtain ⟨houter, hmembers⟩ := h
    have hmember := hmembers m hm
    cases m with
    | mk name type offset =>
        rw [StructMember.unmarked, Bool.and_eq_true, Bool.not_eq_true',
          ← Bool.not_eq_true, List.isPrefixOf_iff_prefix] at hmember
        refine ⟨?_, hmember.2⟩
        by_cases hempty : outer = ""
        · rw [memberName, if_pos hempty]
          exact hmember.1
        · exact fun hmark => houter ((mark_prefix_iff (under_memberName hempty name)).mp hmark)
  element h i := by
    obtain ⟨hname, hbase⟩ := h
    rw [ShaderType.unmarked] at hbase
    exact ⟨fun hmark => hname ((mark_prefix_iff (under_elementName _ i)).mp hmark), hbase⟩

theorem Stems.isArray {e : FlatMember}
    (h : Stems (fun _ type => type.singleArrays = true) e) : e.type.isArray = false := by
  cases h with
  | single _ harray => exact harray
  | array _ hsingle =>
      rw [ShaderType.singleArrays, Bool.and_eq_true, Bool.not_eq_true'] at hsingle
      exact hsingle.1

theorem Stems.not_mark {e : FlatMember}
    (h : Stems (fun name type => ¬ Modern.mat2Mark.toList <+: name.toList ∧
      type.unmarked = true) e) : ¬ Modern.mat2Mark.toList <+: e.name.toList := by
  cases h with
  | single _ _ hname => exact hname.1
  | array _ hname => exact fun hmark => hname.1 ((mark_prefix_iff (under_elementName _ 0)).mp hmark)

/-- The elements of an entry are laid out, are not empty, and have room within its stride,
which only a single one does without. -/
structure Roomy (e : FlatMember) : Prop where
  /-- An element is laid out. -/
  laid : e.type.Laid
  /-- An element has bytes. -/
  pos : 0 < e.type.byteSize
  /-- The entry is single, or an element has room within the stride. -/
  stride : e.arraySize = 1 ∧ e.arrayStride = 0 ∨ e.type.byteSize ≤ e.arrayStride

theorem Stems.roomy {e : FlatMember} (h : Stems (fun _ type => type.Laid ∧ type.Sized) e) :
    e.Roomy := by
  cases h with
  | @single _ type _ hstruct harray hlaid =>
      have hself : (⟨0, type⟩ : BlockValue) ∈ type.instances 0 := by
        rw [ShaderType.instances_single hstruct harray]
        exact List.mem_singleton_self _
      have hbounds := hlaid.1.bounds hself
      exact ⟨hlaid.1, by simpa using hbounds, .inl ⟨rfl, rfl⟩⟩
  | array hstruct hlaid =>
      rw [ShaderType.Laid, ShaderType.Sized, hstruct] at hlaid
      obtain ⟨⟨-, hstride, hbase⟩, hsize, -⟩ := hlaid
      exact ⟨hbase, by simpa using hsize, .inr hstride⟩

/-- An element that is not an array has no values but itself. -/
theorem Stems.eq_cell {P : String → ShaderType → Prop} {e : FlatMember} (h : Stems P e)
    (harray : e.type.isArray = false) {k : Nat} {x : BlockValue}
    (hx : x ∈ e.type.instances (e.cell k).offset) : x = e.cell k := by
  rw [ShaderType.instances_single h.isStruct harray] at hx
  exact List.mem_singleton.mp hx

/-- Without arrays of arrays, the values of a block are the elements of its entries. -/
theorem instancesOf_eq_cells {members : List StructMember}
    (h : StructMember.allSingleArrays members = true) :
    StructMember.instancesOf 0 members = (ofMembers "" 0 members).flatMap cells := by
  rw [instancesOf_eq_flatMap "" 0 members]
  refine List.flatMap_congr fun e he => ?_
  have hstems := stems_ofMembers inherited_singleArrays (StructMember.allSingleArrays_iff.mp h) he
  have hcell : ∀ c ∈ e.cells, c.type.instances c.offset = [c] := by
    intro c hc
    obtain ⟨k, -, rfl⟩ := List.mem_map.mp hc
    exact ShaderType.instances_single hstems.isStruct hstems.isArray _
  rw [instances, List.flatMap_congr hcell, List.flatMap_singleton']

/-! ## Elements and their bytes -/

/-- The bytes of an element of an entry. -/
def cellBytes (e : FlatMember) (k : Nat) : Set Nat :=
  Set.Ico (e.cell k).offset ((e.cell k).offset + e.type.byteSize)

namespace Roomy

variable {e : FlatMember} {k l byte : Nat}

theorem mem_cellBytes_self (h : e.Roomy) (k : Nat) : (e.cell k).offset ∈ e.cellBytes k :=
  ⟨Nat.le_refl _, Nat.lt_add_of_pos_right h.pos⟩

theorem cellBytes_subset (h : e.Roomy) (hk : k < e.arraySize) : e.cellBytes k ⊆ e.bytes := by
  intro byte hbyte
  simp only [cellBytes, cell, Set.mem_Ico] at hbyte
  simp only [bytes, FlatMember.stop, byteLength, Set.mem_Ico]
  have hpos := h.pos
  rcases h.stride with ⟨-, hzero⟩ | hstride
  · rw [hzero, Nat.mul_zero, Nat.add_zero] at hbyte
    rwa [if_pos hzero]
  · have hnext : (k + 1) * e.arrayStride ≤ e.arraySize * e.arrayStride :=
      Nat.mul_le_mul_right e.arrayStride hk
    rw [Nat.add_mul] at hnext
    rw [if_neg (by omega)]
    omega

theorem byteSize_le (h : e.Roomy) (hlength : 0 < e.byteLength) :
    e.type.byteSize ≤ e.byteLength := by
  unfold byteLength at hlength ⊢
  split at hlength
  case isTrue hzero => rw [if_pos hzero]
  case isFalse hstride =>
    rw [if_neg hstride]
    rcases h.stride with ⟨-, hzero⟩ | hroom
    · exact absurd hzero hstride
    · exact hroom.trans (Nat.le_mul_of_pos_left _ (Nat.pos_of_mul_pos_right hlength))

/-- Two elements of an entry that share a byte are the same. -/
theorem index_eq (h : e.Roomy) (hk : k < e.arraySize) (hl : l < e.arraySize)
    (hbyte : byte ∈ e.cellBytes k) (hbyte' : byte ∈ e.cellBytes l) : k = l := by
  simp only [cellBytes, cell, Set.mem_Ico] at hbyte hbyte'
  rcases h.stride with ⟨hone, -⟩ | hstride
  · omega
  · have hlt : k * e.arrayStride < (l + 1) * e.arrayStride := by
      rw [Nat.add_mul]
      omega
    have hgt : l * e.arrayStride < (k + 1) * e.arrayStride := by
      rw [Nat.add_mul]
      omega
    have hkl := Nat.lt_of_mul_lt_mul_right hlt
    have hlk := Nat.lt_of_mul_lt_mul_right hgt
    omega

/-- A value in an element starts at one of its bytes. -/
theorem mem_cellBytes (h : e.Roomy) {x : BlockValue}
    (hx : x ∈ e.type.instances (e.cell k).offset) : x.offset ∈ e.cellBytes k :=
  h.laid.bounds hx

end Roomy

/-- No two elements of entries that follow each other share a byte. -/
theorem Follow.cell_unique {start stop : Nat} {es : List FlatMember} (h : Follow start stop es)
    (hroomy : ∀ e ∈ es, e.Roomy) {i j k l byte : Nat} {d e : FlatMember} (hd : es[i]? = some d)
    (he : es[j]? = some e) (hk : k < d.arraySize) (hl : l < e.arraySize)
    (hbyte : byte ∈ d.cellBytes k) (hbyte' : byte ∈ e.cellBytes l) : (i, k) = (j, l) := by
  obtain ⟨hi, rfl⟩ := List.getElem?_eq_some_iff.mp hd
  obtain ⟨hj, rfl⟩ := List.getElem?_eq_some_iff.mp he
  have hd := (hroomy _ (List.getElem_mem hi)).cellBytes_subset hk hbyte
  have he := (hroomy _ (List.getElem_mem hj)).cellBytes_subset hl hbyte'
  have hapart := List.pairwise_iff_getElem.mp h.pairwise_disjoint
  rcases Nat.lt_trichotomy i j with hlt | rfl | hgt
  · exact absurd he (Set.disjoint_left.mp (hapart i j hi hj hlt) hd)
  · rw [(hroomy _ (List.getElem_mem hi)).index_eq hk hl hbyte hbyte']
  · exact absurd hd (Set.disjoint_left.mp (hapart j i hj hi hgt) he)

/-! ## Descriptions -/

/-- An element of a reflected entry describes a value: it lies where the value does, and the
entry has the kind of the value and the distance of its columns. -/
structure Describes (u : UniformInfo) (k : Nat) (x : BlockValue) : Prop where
  /-- It is an element of the entry. -/
  index : k < u.arraySize.toNat
  /-- It is in place. -/
  offset : x.offset = u.blockOffset.toNat + k * u.arrayStride.toNat
  /-- The entry has the kind of the value. -/
  kind : u.kind = .ofType x.type
  /-- Columns are as far apart as those of the value. -/
  matrixStride : u.matrixStride.toNat = FlatMember.matrixStride x.type

/-- The element with an index of the entry with an index describes a value. -/
def Described (us : List UniformInfo) (p : Nat × Nat) (x : BlockValue) : Prop :=
  ∃ u, us[p.1]? = some u ∧ Describes u p.2 x

theorem matrixStride_le (type : ShaderType) : matrixStride type ≤ type.byteSize := by
  cases type with
  | matrix columns rows s =>
      rw [matrixStride, ShaderType.byteSize]
      exact Nat.le_mul_of_pos_left _ (by cases columns <;> decide)
  | _ => exact Nat.zero_le _

theorem matrixStride_of_isArray {type : ShaderType} (h : type.isArray = true) :
    matrixStride type = 0 := by
  cases type with
  | array => rfl
  | _ => cases h

/-- Entries of a block whose size is a 32-bit number, with room for their elements and no
mark of a stored matrix. -/
structure Plain (span : Nat) (es : List FlatMember) : Prop where
  /-- The entries follow one another in the block. -/
  follow : Follow 0 span es
  /-- The size of the block is a 32-bit number. -/
  span_le : span ≤ wordMax
  /-- Each entry has room for its elements. -/
  roomy : ∀ e ∈ es, e.Roomy
  /-- No entry is a stored matrix. -/
  unmarked : ∀ e ∈ es, ¬ Modern.mat2Mark.toList <+: e.name.toList

theorem plain_ofMembers {members : List StructMember} {span : Nat}
    (hlaid : StructMember.LaidFrom 0 span members) (hsized : StructMember.AllSized members)
    (hspan : span ≤ wordMax) (hunmarked : StructMember.allUnmarked members = true) :
    Plain span (ofMembers "" 0 members) := by
  refine ⟨?_, hspan, fun e he => ?_, fun e he => ?_⟩
  · simpa only [Nat.zero_add] using follow_ofMembers "" 0 hlaid hsized
  · exact (stems_ofMembers inherited_laid (fun m hm => ⟨hlaid.of_mem hm, hsized.of_mem hm⟩)
      he).roomy
  · have hroot : ¬ Modern.mat2Mark.toList <+: "".toList := by decide +kernel
    have hblock : ShaderType.unmarked (.struct none members span) = true := by
      rwa [ShaderType.unmarked]
    have hmembers := inherited_unmarked.member ⟨hroot, hblock⟩
    exact (stems_ofMembers inherited_unmarked hmembers he).not_mark

/-- A value in entries is in an element of one of them. -/
theorem exists_cell_of_mem {es : List FlatMember} {x : BlockValue}
    (hx : x ∈ es.flatMap instances) :
    ∃ (i k : Nat) (e : FlatMember), es[i]? = some e ∧ k < e.arraySize ∧
      x ∈ e.type.instances (e.cell k).offset := by
  obtain ⟨e, he, hx⟩ := List.mem_flatMap.mp hx
  obtain ⟨i, hi⟩ := List.mem_iff_getElem?.mp he
  obtain ⟨k, hk, hx⟩ := mem_instances_iff.mp hx
  exact ⟨i, k, e, hi, hk, hx⟩

namespace Plain

variable {span : Nat} {es : List FlatMember} {e : FlatMember} {x : BlockValue} {i k : Nat}

theorem reported_matrixStride (h : Plain span es) (he : e ∈ es) (stage : Stage) (index : Nat) :
    (e.toUniform stage index).matrixStride.toNat = matrixStride e.type := by
  obtain ⟨-, hlength, -, hend⟩ := h.follow.bounds he
  unfold FlatMember.stop at hend
  have hspan := h.span_le
  exact toNat_toUInt32 (calc
    matrixStride e.type ≤ e.type.byteSize := matrixStride_le e.type
    _ ≤ e.byteLength := (h.roomy e he).byteSize_le hlength
    _ ≤ wordMax := by omega)

variable (stage : Stage) (index : Nat)

/-- An element of an entry describes the values at its start that are like its type. -/
theorem described_iff (h : Plain span es) (hi : es[i]? = some e) :
    Described (es.map fun e => e.toUniform stage index) (i, k) x ↔
      k < e.arraySize ∧ x.offset = (e.cell k).offset ∧
        VariableKind.ofType x.type = .ofType e.type ∧
        matrixStride x.type = matrixStride e.type := by
  have he := List.mem_of_getElem? hi
  have hreported := h.follow.reported h.span_le he stage index
  have hkind := (toUniform_of_not_mark stage index (h.unmarked e he)).2
  have hcolumns := h.reported_matrixStride he stage index
  constructor
  · rintro ⟨u, hu, hindex, hoffset, hkind', hcolumns'⟩
    rw [List.getElem?_map, hi, Option.map_some, Option.some_inj] at hu
    subst hu
    rw [hreported.arraySize] at hindex
    rw [hreported.offset, hreported.arrayStride] at hoffset
    exact ⟨hindex, hoffset, hkind'.symm.trans hkind, hcolumns'.symm.trans hcolumns⟩
  · rintro ⟨hindex, hoffset, hkind', hcolumns'⟩
    refine ⟨e.toUniform stage index, by rw [List.getElem?_map, hi, Option.map_some], ?_, ?_,
      hkind.trans hkind'.symm, hcolumns.trans hcolumns'.symm⟩
    · rwa [hreported.arraySize]
    · rwa [hreported.offset, hreported.arrayStride]

/-- Only the element that a value is in can describe it.  The value starts where the element
that describes it does, and elements do not meet. -/
theorem eq_of_described (h : Plain span es) (hi : es[i]? = some e) (hk : k < e.arraySize)
    (hx : x ∈ e.type.instances (e.cell k).offset) {p : Nat × Nat}
    (hp : Described (es.map fun e => e.toUniform stage index) p x) : p = (i, k) := by
  obtain ⟨j, l⟩ := p
  obtain ⟨u, hu, -⟩ := id hp
  rw [List.getElem?_map] at hu
  obtain ⟨d, hj, -⟩ := Option.map_eq_some_iff.mp hu
  obtain ⟨hl, hoffset, -⟩ := (h.described_iff stage index hj).mp hp
  have hstart := (h.roomy d (List.mem_of_getElem? hj)).mem_cellBytes_self l
  rw [← hoffset] at hstart
  have hinside := (h.roomy e (List.mem_of_getElem? hi)).mem_cellBytes hx
  exact h.follow.cell_unique h.roomy hj hi hl hk hstart hinside

end Plain

/-- Let the members of a block be laid out within a size of 32 bits, no struct in them be
empty, or at least no array be one of elements without bytes, and none of them be marked as a
stored matrix.  If no array has arrays as elements, the values of the block
are, one by one, the elements of the entries, and exactly one of these describes each
value.  In any case a value lies in one element and is described by no other one.  If that
element is an array, it describes only what is at its start, of its kind, and without
columns. -/
theorem instances_described {members : List StructMember} {span : Nat}
    (hlaid : StructMember.LaidFrom 0 span members)
    (hbytes : StructMember.allFilled members = true ∨ StructMember.AllSized members)
    (hspan : span ≤ wordMax) (hunmarked : StructMember.allUnmarked members = true)
    (stage : Stage) (index : Nat) :
    let entries := ofMembers "" 0 members
    let uniforms := entries.map fun e => e.toUniform stage index
    (StructMember.allSingleArrays members = true →
        StructMember.instancesOf 0 members = entries.flatMap cells ∧
          ∀ x ∈ StructMember.instancesOf 0 members, ∃! p, Described uniforms p x) ∧
      ∀ x ∈ StructMember.instancesOf 0 members, ∃ (i k : Nat) (e : FlatMember),
        entries[i]? = some e ∧ k < e.arraySize ∧ x ∈ e.type.instances (e.cell k).offset ∧
        (∀ p, Described uniforms p x → p = (i, k)) ∧
        (e.type.isArray = false → x = e.cell k ∧ Described uniforms (i, k) x) ∧
        (e.type.isArray = true →
          (Described uniforms (i, k) x ↔ x.offset = (e.cell k).offset ∧
            VariableKind.ofType x.type = .ofType e.type ∧ matrixStride x.type = 0)) := by
  intro entries uniforms
  have hsized : StructMember.AllSized members := hbytes.elim hlaid.sized id
  have hplain : Plain span entries := plain_ofMembers hlaid hsized hspan hunmarked
  have hcell : ∀ {i k : Nat} {e : FlatMember} {x : BlockValue}, entries[i]? = some e →
      k < e.arraySize → e.type.isArray = false → x ∈ e.type.instances (e.cell k).offset →
      x = e.cell k ∧ Described uniforms (i, k) x := by
    intro i k e x hi hk harray hx
    have hstems := stems_ofMembers inherited_laid
      (fun m hm => ⟨hlaid.of_mem hm, hsized.of_mem hm⟩) (List.mem_of_getElem? hi)
    obtain rfl := hstems.eq_cell harray hx
    exact ⟨rfl, (hplain.described_iff stage index hi).mpr ⟨hk, rfl, rfl, rfl⟩⟩
  have hexists : ∀ x ∈ StructMember.instancesOf 0 members, ∃ (i k : Nat) (e : FlatMember),
      entries[i]? = some e ∧ k < e.arraySize ∧ x ∈ e.type.instances (e.cell k).offset := by
    intro x hx
    rw [instancesOf_eq_flatMap "" 0 members] at hx
    exact exists_cell_of_mem hx
  constructor
  · intro hsingle
    refine ⟨instancesOf_eq_cells hsingle, fun x hx => ?_⟩
    obtain ⟨i, k, e, hi, hk, hx⟩ := hexists x hx
    have hstems := stems_ofMembers inherited_singleArrays
      (StructMember.allSingleArrays_iff.mp hsingle) (List.mem_of_getElem? hi)
    refine ⟨(i, k), (hcell hi hk hstems.isArray hx).2, fun p hp => ?_⟩
    exact hplain.eq_of_described stage index hi hk hx hp
  · intro x hx
    obtain ⟨i, k, e, hi, hk, hx⟩ := hexists x hx
    refine ⟨i, k, e, hi, hk, hx, fun p hp => hplain.eq_of_described stage index hi hk hx hp,
      fun harray => hcell hi hk harray hx, fun harray => ?_⟩
    rw [hplain.described_iff stage index hi, matrixStride_of_isArray harray]
    exact and_iff_right hk

/-- A block with an array of structs, a matrix and an array of scalars. -/
theorem instances_described_of_lights :
    let light : ShaderType :=
      .struct none [.mk "place" (.vector .three .f32) 0, .mk "range" (.scalar .f32) 12] 16
    let members : List StructMember := [.mk "lights" (.array light (some 2) 16) 0,
      .mk "view" (.matrix .four .four .f32) 32,
      .mk "weights" (.array (.scalar .f32) (some 4) 16) 96]
    let uniforms := (ofMembers "" 0 members).map fun e => e.toUniform .fragment 0
    StructMember.LaidFrom 0 160 members ∧ StructMember.allFilled members = true ∧
      StructMember.allUnmarked members = true ∧
      StructMember.allSingleArrays members = true ∧
      (StructMember.instancesOf 0 members).map BlockValue.offset =
        [0, 12, 16, 28, 32, 96, 112, 128, 144] ∧
      ∀ x ∈ StructMember.instancesOf 0 members, ∃! p, Described uniforms p x := by
  intro light members uniforms
  have hlaid : StructMember.LaidFrom 0 160 members := by
    simp [members, light, StructMember.LaidFrom, StructMember.Laid, ShaderType.Laid,
      ShaderType.byteSize, StructMember.offset, StructMember.type, VectorSize.count,
      VectorSize.padded, Scalar.f32]
  have hfilled : StructMember.allFilled members = true := by decide
  have hunmarked : StructMember.allUnmarked members = true := by decide +kernel
  have hsingle : StructMember.allSingleArrays members = true := by decide
  refine ⟨hlaid, hfilled, hunmarked, hsingle, by decide, ?_⟩
  exact ((instances_described hlaid (.inl hfilled) (by decide) hunmarked .fragment 0).1 hsingle).2

/-- Of an array of arrays of matrices no value is described, since the one entry is
reported without a distance of columns. -/
theorem not_described_of_matrices :
    let members : List StructMember :=
      [.mk "m" (.array (.array (.matrix .four .four .f32) (some 2) 64) (some 2) 128) 0]
    let uniforms := (ofMembers "" 0 members).map fun e => e.toUniform .vertex 0
    StructMember.LaidFrom 0 256 members ∧ StructMember.allFilled members = true ∧
      StructMember.allUnmarked members = true ∧
      (StructMember.instancesOf 0 members).map BlockValue.offset = [0, 64, 128, 192] ∧
      uniforms.map (fun u => (u.name, u.kind, u.arraySize, u.arrayStride, u.matrixStride)) =
        [("m[0]", .floatMat4, 2, 128, 0)] ∧
      ∀ x ∈ StructMember.instancesOf 0 members, matrixStride x.type = 16 ∧
        ∀ p, ¬ Described uniforms p x := by
  intro members uniforms
  have hcolumns : ∀ x ∈ StructMember.instancesOf 0 members, matrixStride x.type = 16 := by
    decide
  refine ⟨?_, by decide, by decide +kernel, by decide, by decide +kernel, fun x hx => ?_⟩
  · simp [members, StructMember.LaidFrom, StructMember.Laid, ShaderType.Laid,
      ShaderType.byteSize, StructMember.offset, StructMember.type, VectorSize.count,
      VectorSize.padded, Scalar.f32]
  refine ⟨hcolumns x hx, fun p hp => ?_⟩
  obtain ⟨u, hu, -, -, -, hstride⟩ := hp
  have huniforms : ∀ u ∈ uniforms, u.matrixStride.toNat = 0 := by
    simp [uniforms, members, ofMembers, ofMember, ofType, ofArray, toUniform, matrixStride]
  rw [huniforms u (List.mem_of_getElem? hu), hcolumns x hx] at hstride
  cases hstride

end FlatMember

end LegacyShader
