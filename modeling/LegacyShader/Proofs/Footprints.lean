import LegacyShader.Proofs.CheckedWords
import Mathlib.Algebra.Order.Floor.Div
import Mathlib.GroupTheory.GroupAction.Ring

/-!
# Exact footprints

The footprint of a type is found with sums and products that stop at the largest word, at
every level of nesting.  `ShaderType.exactFootprint` says how many locations there really are.
Stopping early loses nothing: a sum or product of numbers that have been cut off, cut off
itself, is the exact one cut off (`cappedAdd_min_min`, `cappedMul_min`).  So the footprint is
the exact one, cut off once (`ShaderType.footprint_eq_min`).

The other operations do not stop at the largest word and must not need to.
`ShaderType.checkedFootprint` finds the footprint on words and faults where one of them
overflows.  It never does, because a vector of the widest scalars fits into 64 locations.
-/

namespace LegacyShader

/-! ## Exact footprints -/

mutual

/-- The locations of sixteen bytes that a value of a type occupies, without an upper limit. -/
def ShaderType.exactFootprint : ShaderType → Nat
  | .scalar s => s.interfaceWidth ⌈/⌉ 16
  | .vector size s => (s.interfaceWidth * size.count) ⌈/⌉ 16
  | .matrix columns rows s => columns.count * ((s.width * rows.count) ⌈/⌉ 16)
  | .array base length _ => length.getD 1 * base.exactFootprint
  | .struct _ members _ => StructMember.exactFootprintSum members
  | .image .. | .sampler _ | .atomic _ | .pointer _ => 0

/-- The same of a single member. -/
def StructMember.exactFootprint : StructMember → Nat
  | .mk _ type _ => type.exactFootprint

/-- The same of all members together. -/
def StructMember.exactFootprintSum : List StructMember → Nat
  | [] => 0
  | m :: ms => m.exactFootprint + StructMember.exactFootprintSum ms

end

mutual

/-- Whether the widths of scalars in a type are bytes, and the lengths of arrays words. -/
def ShaderType.wordSized : ShaderType → Bool
  | .scalar s | .vector _ s | .matrix _ _ s => decide (s.width < UInt8.size)
  | .array base length _ => decide (length.getD 1 < UInt32.size) && base.wordSized
  | .struct _ members _ => StructMember.allWordSized members
  | .image .. | .sampler _ | .atomic _ | .pointer _ => true

/-- The same of the type of a member. -/
def StructMember.wordSized : StructMember → Bool
  | .mk _ type _ => type.wordSized

/-- The same of the types of all members. -/
def StructMember.allWordSized : List StructMember → Bool
  | [] => true
  | m :: ms => m.wordSized && StructMember.allWordSized ms

end

/-! ## Cutting off early -/

/-- A product does not depend on where its second factor was capped, since a product with a
capped factor is capped or zero. -/
theorem cappedMul_min (n a : Nat) : cappedMul n (min a wordMax) = min (n * a) wordMax := by
  unfold cappedMul
  rcases Nat.le_total a wordMax with hle | hge
  · rw [Nat.min_eq_left hle]
  · rw [Nat.min_eq_right hge]
    rcases Nat.eq_zero_or_pos n with rfl | hpos
    · rw [Nat.zero_mul, Nat.zero_mul]
    · have hcut : wordMax ≤ n * wordMax := Nat.le_mul_of_pos_left _ hpos
      rw [Nat.min_eq_right hcut, Nat.min_eq_right (hcut.trans (Nat.mul_le_mul_left n hge))]

theorem cappedAdd_min_min (a b : Nat) :
    cappedAdd (min a wordMax) (min b wordMax) = min (a + b) wordMax := by
  unfold cappedAdd
  omega

/-- Components take the locations of 16 bytes that they fill or start. -/
theorem locationsFor_eq_ceilDiv (width components : Nat) :
    locationsFor width components = (width * components) ⌈/⌉ 16 :=
  (Nat.ceilDiv_eq_add_pred_div _ _).symm

theorem VectorSize.count_le (size : VectorSize) : size.count ≤ 4 := by
  cases size <;> decide

theorem Scalar.interfaceWidth_lt {s : Scalar} (h : s.width < UInt8.size) :
    s.interfaceWidth < UInt8.size := by
  unfold interfaceWidth
  split
  · decide
  · exact h

/-- The components of a vector are at most so many bytes. -/
theorem bytes_lt {width components : Nat} (hwidth : width < UInt8.size)
    (hcomponents : components ≤ 4) : width * components < 1024 :=
  (Nat.mul_le_mul_left width hcomponents).trans_lt (Nat.mul_lt_mul_of_pos_right hwidth (by decide))

/-- A vector takes at most 64 locations. -/
theorem locationsFor_le {width components : Nat} (hwidth : width < UInt8.size)
    (hcomponents : components ≤ 4) : locationsFor width components ≤ 64 := by
  have hbytes := bytes_lt hwidth hcomponents
  simp only [locationsFor, bytesPerLocation]
  omega

mutual

/-- A footprint is the exact one, cut off at the largest word. -/
theorem ShaderType.footprint_eq_min :
    ∀ {t : ShaderType}, t.wordSized = true → t.footprint = min t.exactFootprint wordMax
  | .scalar s, h => by
      have hle := locationsFor_le (Scalar.interfaceWidth_lt (of_decide_eq_true h))
        (show 1 ≤ 4 by decide)
      rw [ShaderType.footprint, ShaderType.exactFootprint, ← Nat.mul_one s.interfaceWidth,
        ← locationsFor_eq_ceilDiv, Nat.mul_one, Nat.min_eq_left (hle.trans (by decide))]
  | .vector size s, h => by
      have hle := locationsFor_le (Scalar.interfaceWidth_lt (of_decide_eq_true h)) size.count_le
      rw [ShaderType.footprint, ShaderType.exactFootprint, ← locationsFor_eq_ceilDiv,
        Nat.min_eq_left (hle.trans (by decide))]
  | .matrix columns rows s, h => by
      have hle := locationsFor_le (of_decide_eq_true h) rows.count_le
      have hcolumns := Nat.mul_le_mul columns.count_le hle
      rw [ShaderType.footprint, ShaderType.exactFootprint, ← locationsFor_eq_ceilDiv,
        Nat.min_eq_left (hcolumns.trans (by decide))]
  | .array base length _, h => by
      rw [ShaderType.wordSized, Bool.and_eq_true] at h
      rw [ShaderType.footprint, ShaderType.exactFootprint, ShaderType.footprint_eq_min h.2,
        cappedMul_min]
  | .struct _ members _, h => by
      rw [ShaderType.wordSized] at h
      rw [ShaderType.footprint, ShaderType.exactFootprint, ← Nat.zero_min wordMax,
        StructMember.footprintFrom_eq_min h, Nat.zero_add]
  | .image .., _ | .sampler _, _ | .atomic _, _ | .pointer _, _ => rfl

theorem StructMember.footprint_eq_min :
    ∀ {m : StructMember}, m.wordSized = true → m.footprint = min m.exactFootprint wordMax
  | .mk _ _ _, h => by
      rw [StructMember.wordSized] at h
      rw [StructMember.footprint, StructMember.exactFootprint, ShaderType.footprint_eq_min h]

/-- Members are added on top of what has been cut off before. -/
theorem StructMember.footprintFrom_eq_min {sum : Nat} :
    ∀ {ms : List StructMember}, StructMember.allWordSized ms = true →
      StructMember.footprintFrom (min sum wordMax) ms =
        min (sum + StructMember.exactFootprintSum ms) wordMax
  | [], _ => rfl
  | m :: ms, h => by
      rw [StructMember.allWordSized, Bool.and_eq_true] at h
      rw [StructMember.footprintFrom, StructMember.exactFootprintSum,
        StructMember.footprint_eq_min h.1, cappedAdd_min_min,
        StructMember.footprintFrom_eq_min h.2, Nat.add_assoc]

end

/-! ## Footprints on words -/

/-- The width of a scalar at a stage interface, as a word. -/
def Scalar.interfaceWord (s : Scalar) : UInt32 :=
  match s.kind with
  | .bool => 4
  | _ => .ofNat s.width

/-- The locations that `components` scalars of `width` bytes occupy, on words. -/
def checkedLocationsFor (width components : UInt32) : Checked UInt32 := do
  let bytes ← Checked.mul32 width components
  let padded ← Checked.add32 bytes (.ofNat bytesPerLocation)
  let last ← Checked.sub32 padded 1
  return last / .ofNat bytesPerLocation

mutual

/-- The footprint of a type, found on words. -/
def ShaderType.checkedFootprint : ShaderType → Checked UInt32
  | .scalar s => checkedLocationsFor s.interfaceWord 1
  | .vector size s => checkedLocationsFor s.interfaceWord (.ofNat size.count)
  | .matrix columns rows s => do
      let column ← checkedLocationsFor (.ofNat s.width) (.ofNat rows.count)
      Checked.mul32 (.ofNat columns.count) column
  | .array base length _ => do
      let element ← base.checkedFootprint
      return saturatingMul (.ofNat (length.getD 1)) element
  | .struct _ members _ => StructMember.checkedFootprintFrom 0 members
  | .image .. | .sampler _ | .atomic _ | .pointer _ => return 0

/-- The same of a single member. -/
def StructMember.checkedFootprint : StructMember → Checked UInt32
  | .mk _ type _ => type.checkedFootprint

/-- The same of members, added on top of a word. -/
def StructMember.checkedFootprintFrom (sum : UInt32) : List StructMember → Checked UInt32
  | [] => return sum
  | m :: ms => do
      let member ← m.checkedFootprint
      StructMember.checkedFootprintFrom (saturatingAdd sum member) ms

end

theorem toNat_ofNat_count (size : VectorSize) : (UInt32.ofNat size.count).toNat = size.count := by
  cases size <;> rfl

theorem Scalar.toNat_ofNat_width {s : Scalar} (h : s.width < UInt8.size) :
    (UInt32.ofNat s.width).toNat = s.width :=
  UInt32.toNat_ofNat_of_lt' (h.trans (by decide))

theorem Scalar.toNat_interfaceWord {s : Scalar} (h : s.width < UInt8.size) :
    s.interfaceWord.toNat = s.interfaceWidth := by
  unfold interfaceWord interfaceWidth
  cases s.kind with
  | bool => rfl
  | float | sint | uint => exact toNat_ofNat_width h

/-- The components of a vector are counted without an overflow. -/
theorem exists_checkedLocationsFor {w c : UInt32} {width components : Nat} (hw : w.toNat = width)
    (hc : c.toNat = components) (hwidth : width < UInt8.size) (hcomponents : components ≤ 4) :
    ∃ n, checkedLocationsFor w c = .ok n ∧ n.toNat = locationsFor width components := by
  have hsmall := bytes_lt hwidth hcomponents
  rw [← hw, ← hc] at hsmall
  have hlocation : (UInt32.ofNat bytesPerLocation).toNat = bytesPerLocation := rfl
  obtain ⟨bytes, hmul, hbytes⟩ := Checked.exists_mul32 (hsmall.trans (by decide))
  have hroom : bytes.toNat + (UInt32.ofNat bytesPerLocation).toNat < UInt32.size := by
    rw [hbytes, hlocation]
    exact (Nat.add_lt_add_right hsmall _).trans (by decide)
  obtain ⟨padded, hadd, hpadded⟩ := Checked.exists_add32 hroom
  have hpositive : (1 : UInt32).toNat ≤ padded.toNat := by
    rw [hpadded, hlocation]
    exact Nat.le_add_left 1 _
  obtain ⟨last, hsub, hlast⟩ := Checked.exists_sub32 hpositive
  refine ⟨last / .ofNat bytesPerLocation, ?_, ?_⟩
  · simp only [checkedLocationsFor, hmul, hadd, hsub, bind, Except.bind]
    rfl
  · rw [UInt32.toNat_div, hlast, hpadded, hbytes, hlocation, hw, hc]
    rfl

mutual

/-- The footprint of a type is found on words without an overflow. -/
theorem ShaderType.exists_checkedFootprint :
    ∀ {t : ShaderType}, t.wordSized = true →
      ∃ w, t.checkedFootprint = .ok w ∧ w.toNat = t.footprint
  | .scalar s, h => by
      have hwidth : s.width < UInt8.size := of_decide_eq_true h
      rw [ShaderType.checkedFootprint, ShaderType.footprint]
      exact exists_checkedLocationsFor (Scalar.toNat_interfaceWord hwidth) rfl
        (Scalar.interfaceWidth_lt hwidth) (by decide)
  | .vector size s, h => by
      have hwidth : s.width < UInt8.size := of_decide_eq_true h
      rw [ShaderType.checkedFootprint, ShaderType.footprint]
      exact exists_checkedLocationsFor (Scalar.toNat_interfaceWord hwidth) (toNat_ofNat_count size)
        (Scalar.interfaceWidth_lt hwidth) size.count_le
  | .matrix columns rows s, h => by
      have hwidth : s.width < UInt8.size := of_decide_eq_true h
      obtain ⟨column, hcolumn, hcount⟩ := exists_checkedLocationsFor
        (Scalar.toNat_ofNat_width hwidth) (toNat_ofNat_count rows) hwidth rows.count_le
      have hfits : (UInt32.ofNat columns.count).toNat * column.toNat < UInt32.size := by
        rw [toNat_ofNat_count, hcount]
        exact (Nat.mul_le_mul columns.count_le (locationsFor_le hwidth rows.count_le)).trans_lt
          (by decide)
      obtain ⟨w, hmul, hw⟩ := Checked.exists_mul32 hfits
      refine ⟨w, ?_, ?_⟩
      · rw [ShaderType.checkedFootprint, hcolumn]
        exact hmul
      · rw [hw, toNat_ofNat_count, hcount, ShaderType.footprint]
  | .array base length _, h => by
      rw [ShaderType.wordSized, Bool.and_eq_true] at h
      have hlength : length.getD 1 < UInt32.size := of_decide_eq_true h.1
      obtain ⟨element, hbase, helement⟩ := ShaderType.exists_checkedFootprint h.2
      refine ⟨saturatingMul (.ofNat (length.getD 1)) element, ?_, ?_⟩
      · rw [ShaderType.checkedFootprint, hbase]
        rfl
      · rw [toNat_saturatingMul, UInt32.toNat_ofNat_of_lt' hlength, helement,
          ShaderType.footprint]
  | .struct _ members _, h => by
      rw [ShaderType.wordSized] at h
      rw [ShaderType.checkedFootprint, ShaderType.footprint]
      exact StructMember.exists_checkedFootprintFrom h
  | .image .., _ | .sampler _, _ | .atomic _, _ | .pointer _, _ => ⟨0, rfl, rfl⟩

theorem StructMember.exists_checkedFootprint :
    ∀ {m : StructMember}, m.wordSized = true →
      ∃ w, m.checkedFootprint = .ok w ∧ w.toNat = m.footprint
  | .mk _ _ _, h => by
      rw [StructMember.wordSized] at h
      rw [StructMember.checkedFootprint, StructMember.footprint]
      exact ShaderType.exists_checkedFootprint h

/-- A sum over members does not fault either, since it stops at the largest word. -/
theorem StructMember.exists_checkedFootprintFrom {sum : UInt32} :
    ∀ {ms : List StructMember}, StructMember.allWordSized ms = true →
      ∃ w, StructMember.checkedFootprintFrom sum ms = .ok w ∧
        w.toNat = StructMember.footprintFrom sum.toNat ms
  | [], _ => ⟨sum, rfl, rfl⟩
  | m :: ms, h => by
      rw [StructMember.allWordSized, Bool.and_eq_true] at h
      obtain ⟨member, hm, hmember⟩ := StructMember.exists_checkedFootprint h.1
      rw [StructMember.checkedFootprintFrom, StructMember.footprintFrom, hm, ← hmember,
        ← toNat_saturatingAdd]
      exact StructMember.exists_checkedFootprintFrom h.2

end

/-- The footprint of a type is the exact number of its locations, cut off once at the largest
word, whatever is cut off within it.  On words it is found without an overflow. -/
theorem footprint_saturates (t : ShaderType) (h : t.wordSized = true) :
    t.footprint = min t.exactFootprint (2 ^ 32 - 1) ∧
      ∃ w, t.checkedFootprint = .ok w ∧ w.toNat = min t.exactFootprint (2 ^ 32 - 1) := by
  have hfootprint : t.footprint = min t.exactFootprint (2 ^ 32 - 1) :=
    ShaderType.footprint_eq_min h
  refine ⟨hfootprint, ?_⟩
  rw [← hfootprint]
  exact ShaderType.exists_checkedFootprint h

/-- A table that is cut off within a struct, with more behind it, next to an array of as many
samplers as there can be. -/
theorem footprint_saturates_within_struct :
    let row : ShaderType := .array (.matrix .four .three .f64) (some 65536) 128
    let table : ShaderType := .array row (some 65536) 8388608
    let samplers : ShaderType := .array (.sampler false) (some 4294967295) 0
    let flags : ShaderType := .array (.vector .two .bool) none 16
    let t : ShaderType := .struct none
      [.mk none row 0, .mk none samplers 0, .mk none table 0, .mk none flags 0] 0
    t.wordSized = true ∧ table.exactFootprint = 34359738368 ∧ t.exactFootprint = 34360262657 ∧
      row.footprint = 524288 ∧ samplers.footprint = 0 ∧ t.footprint = 4294967295 ∧
      ∃ w, t.checkedFootprint = .ok w ∧ w.toNat = 4294967295 := by
  intro row table samplers flags t
  have hsized : t.wordSized = true := by decide
  have hexact : t.exactFootprint = 34360262657 := by decide
  obtain ⟨hfootprint, hchecked⟩ := footprint_saturates t hsized
  rw [hexact] at hfootprint hchecked
  exact ⟨hsized, by decide, hexact, by decide, by decide, hfootprint, hchecked⟩

end LegacyShader
