import LegacyShader.Proofs.Extents
import LegacyShader.Reflection.Flatten
import LegacyShader.ShaderType.Alignment

/-!
# Flattened members and their bytes

The entries that a reflection lists for a uniform block each cover some bytes of it.
`ShaderType.Laid` says how a block is laid out: members follow each other and end within
their struct, and the elements of an array are at least their size apart.  An entry for an
array has bytes if its elements have (`ShaderType.Sized`), and they have if no struct is empty
(`StructMember.LaidFrom.sized`).  Then the entries of a type follow each other too, between
its first byte and its last one (`follow_ofType`).  The induction goes through structs and
arrays of structs, and each of its cases joins runs of entries that touch at most
(`Follow.append`).

Offsets are sums and products of 32-bit numbers.  `ofMembers?` is the flattening that
gives up as soon as one of them is no such number.  In a block whose size is one it never
does (`ofMembers?_eq_some`), because no offset lies behind the end of the block.
-/

namespace LegacyShader

/-! ## Layouts -/

/-- Whether a type is a struct. -/
def ShaderType.isStruct : ShaderType → Bool
  | .struct .. => true
  | _ => false

mutual

/-- A type is laid out as in a uniform block.  Whatever is neither an array nor a struct has
a size. -/
def ShaderType.Laid : ShaderType → Prop
  | .struct _ members span => StructMember.LaidFrom 0 span members
  | .array base length stride =>
      (∃ n, length = some n ∧ 0 < n) ∧ base.byteSize ≤ stride ∧ base.Laid
  | type => 0 < type.byteSize

/-- The type of a member is laid out as in a uniform block. -/
def StructMember.Laid : StructMember → Prop
  | .mk _ type _ => type.Laid

/-- Members follow each other between two offsets, and their types are laid out as in a
uniform block. -/
def StructMember.LaidFrom (start stop : Nat) : List StructMember → Prop
  | [] => start ≤ stop
  | m :: ms =>
      start ≤ m.offset ∧ m.Laid ∧ StructMember.LaidFrom (m.offset + m.type.byteSize) stop ms

end

mutual

/-- Whether no struct in a type is empty. -/
def ShaderType.filled : ShaderType → Bool
  | .struct _ members _ => !members.isEmpty && StructMember.allFilled members
  | .array base _ _ => base.filled
  | _ => true

/-- Whether no struct in the type of a member is empty. -/
def StructMember.filled : StructMember → Bool
  | .mk _ type _ => type.filled

/-- Whether no struct in the types of members is empty. -/
def StructMember.allFilled : List StructMember → Bool
  | [] => true
  | m :: ms => m.filled && StructMember.allFilled ms

end

mutual

/-- The elements of arrays in a type have a size, unless they are structs. -/
def ShaderType.Sized : ShaderType → Prop
  | .struct _ members _ => StructMember.AllSized members
  | .array base _ _ => (base.isStruct = true ∨ 0 < base.byteSize) ∧ base.Sized
  | _ => True

/-- So have those in the type of a member. -/
def StructMember.Sized : StructMember → Prop
  | .mk _ type _ => type.Sized

/-- So have those in the types of members. -/
def StructMember.AllSized : List StructMember → Prop
  | [] => True
  | m :: ms => m.Sized ∧ StructMember.AllSized ms

end

theorem StructMember.LaidFrom.le {start stop : Nat} {members : List StructMember}
    (h : StructMember.LaidFrom start stop members) : start ≤ stop := by
  induction members generalizing start with
  | nil => exact h
  | cons m ms ih =>
      obtain ⟨hstart, -, hrest⟩ := h
      have := ih hrest
      omega

mutual

/-- A type without empty structs has a size: its first member or its elements have. -/
theorem ShaderType.Laid.byteSize_pos :
    ∀ {type : ShaderType}, type.Laid → type.filled = true → 0 < type.byteSize
  | .struct _ [] _, _, hfilled => by cases hfilled
  | .struct _ (m :: ms) span, h, hfilled => by
      rw [ShaderType.Laid, StructMember.LaidFrom] at h
      obtain ⟨-, hm, hms⟩ := h
      rw [ShaderType.filled, StructMember.allFilled, Bool.and_eq_true, Bool.and_eq_true] at hfilled
      have hpos := StructMember.Laid.byteSize_pos hm hfilled.2.1
      have hle := hms.le
      rw [ShaderType.byteSize]
      omega
  | .array base length stride, h, hfilled => by
      rw [ShaderType.Laid] at h
      obtain ⟨⟨n, rfl, hn⟩, hstride, hbase⟩ := h
      rw [ShaderType.filled] at hfilled
      rw [ShaderType.byteSize]
      exact Nat.mul_pos hn ((ShaderType.Laid.byteSize_pos hbase hfilled).trans_le hstride)
  | .scalar _, h, _ | .vector .., h, _ | .matrix .., h, _ | .image .., h, _ | .sampler _, h, _
  | .atomic _, h, _ | .pointer _, h, _ => by
      rwa [ShaderType.Laid] at h
      all_goals simp

theorem StructMember.Laid.byteSize_pos :
    ∀ {m : StructMember}, m.Laid → m.filled = true → 0 < m.type.byteSize
  | .mk _ type _, h, hfilled => by
      rw [StructMember.Laid] at h
      rw [StructMember.filled] at hfilled
      exact ShaderType.Laid.byteSize_pos h hfilled

end

mutual

/-- Without empty structs, the elements of every array have a size. -/
theorem ShaderType.Laid.sized :
    ∀ {type : ShaderType}, type.Laid → type.filled = true → type.Sized
  | .struct _ members span, h, hfilled => by
      rw [ShaderType.Laid] at h
      rw [ShaderType.filled, Bool.and_eq_true] at hfilled
      rw [ShaderType.Sized]
      exact StructMember.LaidFrom.sized h hfilled.2
  | .array base length stride, h, hfilled => by
      rw [ShaderType.Laid] at h
      rw [ShaderType.filled] at hfilled
      rw [ShaderType.Sized]
      exact ⟨.inr (h.2.2.byteSize_pos hfilled), ShaderType.Laid.sized h.2.2 hfilled⟩
  | .scalar _, _, _ | .vector .., _, _ | .matrix .., _, _ | .image .., _, _ | .sampler _, _, _
  | .atomic _, _, _ | .pointer _, _, _ => trivial

/-- If no struct is empty, all members that are laid out have a size. -/
theorem StructMember.LaidFrom.sized {start stop : Nat} :
    ∀ {members : List StructMember}, StructMember.LaidFrom start stop members →
      StructMember.allFilled members = true → StructMember.AllSized members
  | [], _, _ => trivial
  | m :: ms, h, hfilled => by
      rw [StructMember.LaidFrom] at h
      obtain ⟨-, hm, hms⟩ := h
      rw [StructMember.allFilled, Bool.and_eq_true] at hfilled
      exact ⟨StructMember.Laid.sized hm hfilled.1, StructMember.LaidFrom.sized hms hfilled.2⟩

theorem StructMember.Laid.sized : ∀ {m : StructMember}, m.Laid → m.filled = true → m.Sized
  | .mk _ type _, h, hfilled => by
      rw [StructMember.Laid] at h
      rw [StructMember.filled] at hfilled
      rw [StructMember.Sized]
      exact ShaderType.Laid.sized h hfilled

end

namespace FlatMember

/-! ## Entries that follow each other -/

/-- The number of bytes from the first of an entry to its last.  Only an array has a
stride. -/
def byteLength (e : FlatMember) : Nat :=
  if e.arrayStride = 0 then e.type.byteSize else e.arraySize * e.arrayStride

/-- The first byte behind an entry. -/
def stop (e : FlatMember) : Nat := e.offset + e.byteLength

/-- The bytes of an entry. -/
def bytes (e : FlatMember) : Set Nat := Set.Ico e.offset e.stop

/-- Entries that are not empty follow each other between two offsets.  One without a
stride is single. -/
def Follow (start stop : Nat) : List FlatMember → Prop
  | [] => start ≤ stop
  | e :: es =>
      start ≤ e.offset ∧ 0 < e.byteLength ∧ (e.arrayStride = 0 → e.arraySize = 1) ∧
        Follow e.stop stop es

namespace Follow

variable {start mid stop : Nat} {ds es : List FlatMember}

theorem le (h : Follow start stop es) : start ≤ stop := by
  induction es generalizing start with
  | nil => exact h
  | cons e es ih =>
      obtain ⟨hstart, -, -, hrest⟩ := h
      have := ih hrest
      unfold FlatMember.stop at this
      omega

theorem mono_start {start' : Nat} (hle : start' ≤ start) (h : Follow start stop es) :
    Follow start' stop es := by
  cases es with
  | nil => exact hle.trans h
  | cons e es => exact ⟨hle.trans h.1, h.2⟩

/-- Entries that follow each other up to where others start. -/
theorem append (hd : Follow start mid ds) (he : Follow mid stop es) :
    Follow start stop (ds ++ es) := by
  induction ds generalizing start with
  | nil => exact he.mono_start hd
  | cons d ds ih =>
      obtain ⟨hstart, hpos, hsingle, hrest⟩ := hd
      exact ⟨hstart, hpos, hsingle, ih hrest⟩

theorem mono_stop {stop' : Nat} (hle : stop ≤ stop') (h : Follow start stop es) :
    Follow start stop' es := by
  have hend : Follow stop stop' [] := hle
  simpa using h.append hend

/-- Runs of entries that are a stride apart follow each other. -/
theorem flatMap_range {offset stride count : Nat} {f : Nat → List FlatMember}
    (h : ∀ i < count, Follow (offset + i * stride) (offset + (i + 1) * stride) (f i)) :
    Follow offset (offset + count * stride) ((List.range count).flatMap f) := by
  induction count with
  | zero => exact Nat.le_add_right _ _
  | succ count ih =>
      rw [List.range_succ, List.flatMap_append, List.flatMap_singleton]
      exact (ih fun i hi => h i (by omega)).append (h count (by omega))

/-- Each of the entries lies between the two places. -/
theorem bounds (h : Follow start stop es) {e : FlatMember} (he : e ∈ es) :
    start ≤ e.offset ∧ 0 < e.byteLength ∧ (e.arrayStride = 0 → e.arraySize = 1) ∧
      e.stop ≤ stop := by
  induction es generalizing start with
  | nil => cases he
  | cons d es ih =>
      obtain ⟨hstart, hpos, hsingle, hrest⟩ := h
      rcases List.mem_cons.mp he with rfl | he
      · exact ⟨hstart, hpos, hsingle, hrest.le⟩
      · obtain ⟨hd, hrest⟩ := ih hrest he
        unfold FlatMember.stop at hd
        exact ⟨by omega, hrest⟩

/-- Each entry ends before any later one starts. -/
theorem pairwise (h : Follow start stop es) :
    es.Pairwise fun d e => d.stop ≤ e.offset ∧ 0 < d.byteLength := by
  induction es generalizing start with
  | nil => exact .nil
  | cons d es ih =>
      obtain ⟨-, hpos, -, hrest⟩ := h
      refine .cons (fun e he => ?_) (ih hrest)
      exact ⟨(hrest.bounds he).1, hpos⟩

theorem pairwise_lt (h : Follow start stop es) :
    es.Pairwise fun d e => d.offset < e.offset := by
  refine h.pairwise.imp fun {d e} hde => ?_
  unfold FlatMember.stop at hde
  omega

/-- No two entries share a byte. -/
theorem pairwise_disjoint (h : Follow start stop es) :
    es.Pairwise fun d e => Disjoint d.bytes e.bytes := by
  refine h.pairwise.imp fun {d e} hde => ?_
  refine Set.disjoint_left.mpr fun byte hd he => ?_
  simp only [bytes, Set.mem_Ico] at hd he
  omega

end Follow

/-! ## Entries of a type -/

mutual

/-- The entries of a type follow each other within its bytes. -/
theorem follow_ofType (name : String) (offset : Nat) :
    ∀ {type : ShaderType}, type.Laid → type.Sized →
      Follow offset (offset + type.byteSize) (ofType name offset type)
  | .struct _ members span, h, hsized => by
      rw [ShaderType.Laid] at h
      rw [ShaderType.Sized] at hsized
      rw [ofType, ShaderType.byteSize]
      exact follow_ofMembers name offset h hsized
  | .array base length stride, h, hsized => by
      rw [ShaderType.Laid] at h
      obtain ⟨⟨n, rfl, hn⟩, hstride, hbase⟩ := h
      rw [ShaderType.Sized] at hsized
      rw [ofType, ShaderType.byteSize]
      exact follow_ofArray name offset hn hstride hsized.1 hbase hsized.2
  | .scalar _, h, _ | .vector .., h, _ | .matrix .., h, _ | .image .., h, _ | .sampler _, h, _
  | .atomic _, h, _ | .pointer _, h, _ => by
      rw [ShaderType.Laid] at h
      · simp [ofType, Follow, byteLength, FlatMember.stop, h]
      all_goals simp

/-- The elements of an array of structs are runs of entries a stride apart.  Any other
array is one entry. -/
theorem follow_ofArray (name : String) (offset : Nat) {count stride : Nat} (hcount : 0 < count) :
    ∀ {type : ShaderType}, type.byteSize ≤ stride →
      (type.isStruct = true ∨ 0 < type.byteSize) → type.Laid → type.Sized →
      Follow offset (offset + count * stride) (ofArray name offset count stride type)
  | .struct _ members span, hstride, _, h, hsized => by
      rw [ShaderType.byteSize] at hstride
      rw [ShaderType.Laid] at h
      rw [ShaderType.Sized] at hsized
      rw [ofArray]
      refine Follow.flatMap_range fun i _ => ?_
      have hrun := follow_ofMembers (elementName name i) (offset + i * stride) h hsized
      refine hrun.mono_stop ?_
      rw [Nat.add_mul]
      omega
  | .scalar _, hstride, hsize, _, _ | .vector .., hstride, hsize, _, _
  | .matrix .., hstride, hsize, _, _ | .image .., hstride, hsize, _, _
  | .sampler _, hstride, hsize, _, _ | .atomic _, hstride, hsize, _, _
  | .pointer _, hstride, hsize, _, _ | .array .., hstride, hsize, _, _ => by
      have hpos : 0 < stride := by
        simp only [ShaderType.isStruct, Bool.false_eq_true, false_or] at hsize
        omega
      have hne : stride ≠ 0 := by omega
      have hlength : 0 < count * stride := Nat.mul_pos hcount hpos
      simp [ofArray, Follow, byteLength, FlatMember.stop, hne, hlength]

/-- The entries of members follow each other in the order of the members. -/
theorem follow_ofMembers (outer : String) (base : Nat) {start stop : Nat} :
    ∀ {members : List StructMember}, StructMember.LaidFrom start stop members →
      StructMember.AllSized members →
      Follow (base + start) (base + stop) (ofMembers outer base members)
  | [], h, _ => by
      rw [StructMember.LaidFrom] at h
      exact Nat.add_le_add_left h base
  | m :: ms, h, hsized => by
      rw [StructMember.LaidFrom] at h
      obtain ⟨hstart, hm, hms⟩ := h
      rw [StructMember.AllSized] at hsized
      rw [ofMembers]
      have hfirst := (follow_ofMember outer base hm hsized.1).mono_start
        (Nat.add_le_add_left hstart base)
      exact hfirst.append (follow_ofMembers outer base hms hsized.2)

theorem follow_ofMember (outer : String) (base : Nat) :
    ∀ {m : StructMember}, m.Laid → m.Sized →
      Follow (base + m.offset) (base + (m.offset + m.type.byteSize)) (ofMember outer base m)
  | .mk name type offset, h, hsized => by
      rw [StructMember.Laid] at h
      rw [StructMember.Sized] at hsized
      rw [ofMember, ← Nat.add_assoc]
      exact follow_ofType (memberName outer name) (base + offset) h hsized

end

/-! ## Offsets in 32 bits -/

/-- The sum of two 32-bit numbers, if it is one. -/
def addWord? (a b : Nat) : Option Nat := if a + b ≤ wordMax then some (a + b) else none

/-- The product of two 32-bit numbers, if it is one. -/
def mulWord? (a b : Nat) : Option Nat := if a * b ≤ wordMax then some (a * b) else none

theorem addWord?_of_le {a b : Nat} (h : a + b ≤ wordMax) : addWord? a b = some (a + b) := if_pos h

theorem mulWord?_of_le {a b : Nat} (h : a * b ≤ wordMax) : mulWord? a b = some (a * b) := if_pos h

mutual

/-- The entries of a variable of a type at an offset, if all offsets in it are 32-bit
numbers. -/
def ofType? (name : String) (offset : Nat) : ShaderType → Option (List FlatMember)
  | .struct _ members _ => ofMembers? name offset members
  | .array base length stride => ofArray? name offset (length.getD 0) stride base
  | type => some [⟨name, type, offset, 1, 0⟩]

/-- The same of an array with elements of a type. -/
def ofArray? (name : String) (offset count stride : Nat) : ShaderType → Option (List FlatMember)
  | .struct _ members _ => do
      let runs ← (List.range count).mapM fun i => do
        let start ← addWord? offset (← mulWord? i stride)
        ofMembers? (elementName name i) start members
      return runs.flatten
  | type => some [⟨elementName name 0, type, offset, count, stride⟩]

/-- The same of the members of a struct at an offset. -/
def ofMembers? (outer : String) (base : Nat) : List StructMember → Option (List FlatMember)
  | [] => some []
  | m :: ms => do
      let first ← ofMember? outer base m
      let rest ← ofMembers? outer base ms
      return first ++ rest

/-- The same of one member of a struct at an offset. -/
def ofMember? (outer : String) (base : Nat) : StructMember → Option (List FlatMember)
  | .mk name type offset => do
      let start ← addWord? base offset
      ofType? (memberName outer name) start type

end

theorem mapM_eq_some_map {α β : Type} {f : α → Option β} {g : α → β} {as : List α}
    (h : ∀ a ∈ as, f a = some (g a)) : as.mapM f = some (as.map g) := by
  induction as with
  | nil => rfl
  | cons a as ih =>
      obtain ⟨ha, has⟩ := List.forall_mem_cons.mp h
      simp [List.mapM_cons, ha, ih has]

mutual

/-- No offset in a type that ends within 32 bits overflows. -/
theorem ofType?_eq_some (name : String) {offset : Nat} :
    ∀ {type : ShaderType}, type.Laid → offset + type.byteSize ≤ wordMax →
      ofType? name offset type = some (ofType name offset type)
  | .struct _ members span, h, hfits => by
      rw [ShaderType.Laid] at h
      rw [ofType?, ofType]
      exact ofMembers?_eq_some name h hfits
  | .array base length stride, h, hfits => by
      rw [ShaderType.Laid] at h
      obtain ⟨⟨n, rfl, -⟩, hstride, hbase⟩ := h
      rw [ofType?, ofType]
      exact ofArray?_eq_some name hstride hbase hfits
  | .scalar _, _, _ | .vector .., _, _ | .matrix .., _, _ | .image .., _, _ | .sampler _, _, _
  | .atomic _, _, _ | .pointer _, _, _ => by
      simp only [ofType?, ofType]

/-- No element of an array starts behind its end. -/
theorem ofArray?_eq_some (name : String) {offset count stride : Nat} :
    ∀ {type : ShaderType}, type.byteSize ≤ stride → type.Laid →
      offset + count * stride ≤ wordMax →
      ofArray? name offset count stride type = some (ofArray name offset count stride type)
  | .struct _ members span, hstride, h, hfits => by
      rw [ShaderType.byteSize] at hstride
      rw [ShaderType.Laid] at h
      have hrun : ∀ i ∈ List.range count,
          (do let start ← addWord? offset (← mulWord? i stride)
              ofMembers? (elementName name i) start members) =
            some (ofMembers (elementName name i) (offset + i * stride) members) := by
        intro i hi
        have hnext : (i + 1) * stride ≤ count * stride :=
          Nat.mul_le_mul_right stride (List.mem_range.mp hi)
        rw [Nat.add_mul] at hnext
        rw [mulWord?_of_le (by omega), Option.bind_eq_bind, Option.bind_some,
          addWord?_of_le (by omega), Option.bind_some]
        exact ofMembers?_eq_some (elementName name i) h (by omega)
      rw [ofArray?, ofArray, mapM_eq_some_map hrun]
      simp [List.flatMap_def]
  | .scalar _, _, _, _ | .vector .., _, _, _ | .matrix .., _, _, _ | .image .., _, _, _
  | .sampler _, _, _, _ | .atomic _, _, _, _ | .pointer _, _, _, _ | .array .., _, _, _ => by
      simp only [ofArray?, ofArray]

theorem ofMembers?_eq_some (outer : String) {base start stop : Nat} :
    ∀ {members : List StructMember}, StructMember.LaidFrom start stop members →
      base + stop ≤ wordMax →
      ofMembers? outer base members = some (ofMembers outer base members)
  | [], _, _ => by rw [ofMembers?, ofMembers]
  | m :: ms, h, hfits => by
      rw [StructMember.LaidFrom] at h
      obtain ⟨-, hm, hms⟩ := h
      have hle := hms.le
      rw [ofMembers?, ofMembers, ofMember?_eq_some outer hm (by omega),
        ofMembers?_eq_some outer hms hfits]
      rfl

theorem ofMember?_eq_some (outer : String) {base : Nat} :
    ∀ {m : StructMember}, m.Laid → base + (m.offset + m.type.byteSize) ≤ wordMax →
      ofMember? outer base m = some (ofMember outer base m)
  | .mk name type offset, h, hfits => by
      rw [StructMember.Laid] at h
      have hstart : base + offset + type.byteSize ≤ wordMax := by
        rw [Nat.add_assoc]
        exact hfits
      rw [ofMember?, ofMember, addWord?_of_le (by omega), Option.bind_eq_bind, Option.bind_some]
      exact ofType?_eq_some (memberName outer name) h hstart

end

/-! ## Blocks -/

/-- The words of a reflected entry are the numbers of a flattened member. -/
structure Reported (e : FlatMember) (u : UniformInfo) : Prop where
  /-- The offset. -/
  offset : u.blockOffset.toNat = e.offset
  /-- The number of elements. -/
  arraySize : u.arraySize.toNat = e.arraySize
  /-- The byte distance of elements. -/
  arrayStride : u.arrayStride.toNat = e.arrayStride

theorem toNat_toUInt32 {n : Nat} (h : n ≤ wordMax) : n.toUInt32.toNat = n :=
  UInt32.toNat_ofNat_of_lt' (Nat.lt_succ_of_le h)

/-- Entries that end within 32 bits are reported as they are. -/
theorem Follow.reported {start stop : Nat} {es : List FlatMember} (h : Follow start stop es)
    (hstop : stop ≤ wordMax) {e : FlatMember} (he : e ∈ es) (stage : Stage) (index : Nat) :
    e.Reported (e.toUniform stage index) := by
  obtain ⟨-, hpos, hsingle, hend⟩ := h.bounds he
  unfold FlatMember.stop at hend
  have hsize : e.arraySize ≤ wordMax ∧ e.arrayStride ≤ wordMax := by
    unfold byteLength at hpos hend
    by_cases hstride : e.arrayStride = 0
    · rw [hsingle hstride, hstride]
      exact ⟨by decide, by decide⟩
    · rw [if_neg hstride] at hpos hend
      have hsizeLe := Nat.le_mul_of_pos_right e.arraySize (Nat.pos_of_ne_zero hstride)
      have hstrideLe := Nat.le_mul_of_pos_left e.arrayStride (Nat.pos_of_mul_pos_right hpos)
      exact ⟨by omega, by omega⟩
  exact ⟨toNat_toUInt32 (by omega), toNat_toUInt32 hsize.1, toNat_toUInt32 hsize.2⟩

/-- Let the members of a block be laid out within a size of 32 bits, and let no struct in
them be empty, or at least no array be one of elements without bytes.  No offset that is
computed for an entry exceeds 32 bits.  The entries are reported at strictly ascending
offsets, no two of them share a byte, and none reaches beyond the block. -/
theorem flattened_within_block {members : List StructMember} {span : Nat}
    (hlaid : StructMember.LaidFrom 0 span members)
    (hbytes : StructMember.allFilled members = true ∨ StructMember.AllSized members)
    (hspan : span ≤ wordMax) (stage : Stage) (index : Nat) :
    let entries := ofMembers "" 0 members
    ofMembers? "" 0 members = some entries ∧
      (∀ e ∈ entries, e.Reported (e.toUniform stage index)) ∧
      (entries.map fun e => e.toUniform stage index).Pairwise
        (fun u v => u.blockOffset < v.blockOffset) ∧
      (entries.Pairwise fun d e => Disjoint d.bytes e.bytes) ∧
      ∀ e ∈ entries, e.bytes ⊆ Set.Ico 0 span := by
  intro entries
  have hsized : StructMember.AllSized members := hbytes.elim hlaid.sized id
  have hfollow : Follow 0 span entries := by
    simpa only [Nat.zero_add] using follow_ofMembers "" 0 hlaid hsized
  have hreported : ∀ e ∈ entries, e.Reported (e.toUniform stage index) :=
    fun e he => hfollow.reported hspan he stage index
  refine ⟨?_, hreported, ?_, hfollow.pairwise_disjoint, ?_⟩
  · exact ofMembers?_eq_some "" hlaid (by omega)
  · rw [List.pairwise_map]
    refine hfollow.pairwise_lt.imp_of_mem fun {d e} hd he hlt => ?_
    rw [UInt32.lt_iff_toNat_lt, (hreported d hd).offset, (hreported e he).offset]
    exact hlt
  · intro e he byte hbyte
    exact ⟨Nat.zero_le _, hbyte.2.trans_le (hfollow.bounds he).2.2.2⟩

/-- A block with an array of structs, a matrix, an array of arrays of structs and an array
of scalars. -/
theorem flattened_within_block_of_lights :
    let light : ShaderType :=
      .struct none [.mk "place" (.vector .three .f32) 0, .mk "range" (.scalar .f32) 12] 16
    let members : List StructMember := [.mk "lights" (.array light (some 2) 16) 0,
      .mk "view" (.matrix .four .four .f32) 32,
      .mk "grid" (.array (.array light (some 3) 16) (some 2) 48) 96,
      .mk "weights" (.array (.scalar .f32) (some 4) 16) 192]
    let entries := ofMembers "" 0 members
    StructMember.LaidFrom 0 256 members ∧ StructMember.allFilled members = true ∧
      entries.map (fun e => (e.name, e.offset)) = [("lights[0].place", 0), ("lights[0].range", 12),
        ("lights[1].place", 16), ("lights[1].range", 28), ("view", 32), ("grid[0]", 96),
        ("weights[0]", 192)] ∧
      ofMembers? "" 0 members = some entries ∧
      (entries.Pairwise fun d e => Disjoint d.bytes e.bytes) ∧
      ∀ e ∈ entries, e.bytes ⊆ Set.Ico 0 256 := by
  intro light members entries
  have hlaid : StructMember.LaidFrom 0 256 members := by
    simp [members, light, StructMember.LaidFrom, StructMember.Laid, ShaderType.Laid,
      ShaderType.byteSize, StructMember.offset, StructMember.type, VectorSize.count,
      VectorSize.padded, Scalar.f32]
  have hfilled : StructMember.allFilled members = true := by decide
  obtain ⟨hchecked, -, -, hdisjoint, hwithin⟩ :=
    flattened_within_block hlaid (.inl hfilled) (by decide) .fragment 0
  exact ⟨hlaid, hfilled, by decide, hchecked, hdisjoint, hwithin⟩

end FlatMember

end LegacyShader
