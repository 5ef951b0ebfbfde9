import LegacyShader.ShaderType.Footprint

/-!
# Checked arithmetic on words

Numbers of slots and locations are natural numbers everywhere else.  A machine counts them
with words of 32 bits, and with words of 64 bits where a sum of two can be larger.

Each operation here works on words and *faults* where its exact result is not a word.  So a
computation that does not fault has overflowed nowhere, not even on the way to a result that
is a word again.  For each operation there is one lemma that says when it does not fault, and
that the result then is the exact one.
-/

namespace LegacyShader

/-- Why an operation on words has no result. -/
inductive WordFault where
  /-- The result is too large. -/
  | overflow
  /-- The result is below zero. -/
  | underflow
  /-- A word of 64 bits does not fit into one of 32. -/
  | truncation
  deriving DecidableEq, Repr

/-- A computation on words that can fault. -/
abbrev Checked (α : Type) := Except WordFault α

namespace Checked

/-! ## Words of 32 bits -/

/-- The sum of two words. -/
def add32 (a b : UInt32) : Checked UInt32 :=
  if a.toNat + b.toNat < UInt32.size then .ok (a + b) else .error .overflow

/-- The product of two words. -/
def mul32 (a b : UInt32) : Checked UInt32 :=
  if a.toNat * b.toNat < UInt32.size then .ok (a * b) else .error .overflow

/-- The difference of two words. -/
def sub32 (a b : UInt32) : Checked UInt32 :=
  if b ≤ a then .ok (a - b) else .error .underflow

section

variable {a b : UInt32}

/-- A sum that is a word does not fault. -/
theorem exists_add32 (h : a.toNat + b.toNat < UInt32.size) :
    ∃ c, add32 a b = .ok c ∧ c.toNat = a.toNat + b.toNat :=
  ⟨a + b, if_pos h, by rw [UInt32.toNat_add, Nat.mod_eq_of_lt h]⟩

/-- A product that is a word does not fault. -/
theorem exists_mul32 (h : a.toNat * b.toNat < UInt32.size) :
    ∃ c, mul32 a b = .ok c ∧ c.toNat = a.toNat * b.toNat :=
  ⟨a * b, if_pos h, by rw [UInt32.toNat_mul, Nat.mod_eq_of_lt h]⟩

/-- A difference that is not negative does not fault. -/
theorem exists_sub32 (h : b.toNat ≤ a.toNat) :
    ∃ c, sub32 a b = .ok c ∧ c.toNat = a.toNat - b.toNat :=
  have hle : b ≤ a := UInt32.le_iff_toNat_le.mpr h
  ⟨a - b, if_pos hle, UInt32.toNat_sub_of_le _ _ hle⟩

end

/-! ## Words of 64 bits -/

/-- The sum of two words of 64 bits. -/
def add64 (a b : UInt64) : Checked UInt64 :=
  if a.toNat + b.toNat < UInt64.size then .ok (a + b) else .error .overflow

/-- The difference of two words of 64 bits. -/
def sub64 (a b : UInt64) : Checked UInt64 :=
  if b ≤ a then .ok (a - b) else .error .underflow

/-- A word of 64 bits as one of 32. -/
def narrow (a : UInt64) : Checked UInt32 :=
  if a.toNat < UInt32.size then .ok a.toUInt32 else .error .truncation

section

variable {a b : UInt64}

theorem exists_add64 (h : a.toNat + b.toNat < UInt64.size) :
    ∃ c, add64 a b = .ok c ∧ c.toNat = a.toNat + b.toNat :=
  ⟨a + b, if_pos h, by rw [UInt64.toNat_add, Nat.mod_eq_of_lt h]⟩

theorem exists_sub64 (h : b.toNat ≤ a.toNat) :
    ∃ c, sub64 a b = .ok c ∧ c.toNat = a.toNat - b.toNat :=
  have hle : b ≤ a := UInt64.le_iff_toNat_le.mpr h
  ⟨a - b, if_pos hle, UInt64.toNat_sub_of_le _ _ hle⟩

/-- A number that is a word of 32 bits is not cut off. -/
theorem exists_narrow (h : a.toNat < UInt32.size) :
    ∃ c, narrow a = .ok c ∧ c.toNat = a.toNat :=
  ⟨a.toUInt32, if_pos h, by rw [UInt64.toNat_toUInt32, Nat.mod_eq_of_lt h]⟩

end

end Checked

/-! ## Words that stop at the largest one -/

/-- A sum of words that stops at the largest one. -/
def saturatingAdd (a b : UInt32) : UInt32 :=
  if a.toNat + b.toNat < UInt32.size then a + b else .ofNat wordMax

/-- A product of words that stops at the largest one. -/
def saturatingMul (a b : UInt32) : UInt32 :=
  if a.toNat * b.toNat < UInt32.size then a * b else .ofNat wordMax

/-- A sum that stops at the largest word is the capped sum of the numbers. -/
theorem toNat_saturatingAdd (a b : UInt32) :
    (saturatingAdd a b).toNat = cappedAdd a.toNat b.toNat := by
  unfold saturatingAdd cappedAdd
  split
  next hfits =>
    have hle : a.toNat + b.toNat ≤ wordMax := Nat.le_of_lt_succ hfits
    rw [UInt32.toNat_add, Nat.mod_eq_of_lt hfits, Nat.min_eq_left hle]
  next hlarge => exact (Nat.min_eq_right (Nat.le_of_lt (Nat.not_lt.mp hlarge))).symm

/-- A product that stops at the largest word is the capped product of the numbers. -/
theorem toNat_saturatingMul (a b : UInt32) :
    (saturatingMul a b).toNat = cappedMul a.toNat b.toNat := by
  unfold saturatingMul cappedMul
  split
  next hfits =>
    have hle : a.toNat * b.toNat ≤ wordMax := Nat.le_of_lt_succ hfits
    rw [UInt32.toNat_mul, Nat.mod_eq_of_lt hfits, Nat.min_eq_left hle]
  next hlarge => exact (Nat.min_eq_right (Nat.le_of_lt (Nat.not_lt.mp hlarge))).symm

end LegacyShader
