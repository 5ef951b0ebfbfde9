import Mathlib.Data.List.Pairwise
import Mathlib.Data.Set.BooleanAlgebra
import Mathlib.Order.Bounds.Basic
import Mathlib.Order.CompletePartialOrder
import Mathlib.Order.Interval.Set.Basic

/-!
# Extents

An *extent* is a run of slots at its place.  Extents are taken out of a set of
free slots one after the other, each by a rule that looks at what is still free
(`InTurn`).  Two rules occur.  Under `Extent.Within` an extent only has to be
free.  Under `Extent.Lowest` it is also as low as any extent of its size that is
free.

Whatever the rule, extents that are free when they are taken do not meet
(`InTurn.pairwise_disjoint`).  Under the first rule nothing else matters, so they can be
taken in any order (`inTurn_within_perm`).
-/

namespace LegacyShader

/-- A run of slots at its place. -/
structure Extent where
  /-- The first slot. -/
  location : Nat
  /-- The number of slots. -/
  size : Nat
  deriving DecidableEq, Repr

namespace Extent

/-- The slots of an extent. -/
def slots (e : Extent) : Set Nat := Set.Ico e.location (e.location + e.size)

/-- All of an extent is free. -/
def Within (free : Set Nat) (e : Extent) : Prop := e.slots ⊆ free

/-- An extent is the lowest one of its size that is free. -/
def Lowest (free : Set Nat) (e : Extent) : Prop :=
  IsLeast {l | Set.Ico l (l + e.size) ⊆ free} e.location

theorem Lowest.within {free : Set Nat} {e : Extent} (h : e.Lowest free) : e.Within free := h.1

/-- The lowest extent of a size is the only one. -/
theorem Lowest.location_eq {free : Set Nat} {d e : Extent} (hd : d.Lowest free)
    (he : e.Lowest free) (hsize : d.size = e.size) : d.location = e.location := by
  unfold Lowest at hd
  rw [hsize] at hd
  exact hd.unique he

end Extent

/-- The slots of some extents. -/
def occupied (es : List Extent) : Set Nat := {slot | ∃ e ∈ es, slot ∈ e.slots}

@[simp] theorem occupied_nil : occupied [] = ∅ := by
  ext slot
  simp [occupied]

@[simp] theorem occupied_cons (e : Extent) (es : List Extent) :
    occupied (e :: es) = e.slots ∪ occupied es := by
  ext slot
  simp [occupied]

@[simp] theorem occupied_append (ds es : List Extent) :
    occupied (ds ++ es) = occupied ds ∪ occupied es := by
  induction ds with
  | nil => simp
  | cons d ds ih => simp [ih, Set.union_assoc]

/-- The order of extents does not matter for what they occupy. -/
theorem occupied_perm {es es' : List Extent} (h : es.Perm es') : occupied es = occupied es' := by
  ext slot
  simp only [occupied, Set.mem_ofPred_eq, h.mem_iff]

theorem disjoint_occupied_iff {s : Set Nat} {es : List Extent} :
    Disjoint s (occupied es) ↔ ∀ e ∈ es, Disjoint s e.slots := by
  induction es with
  | nil => simp
  | cons e es ih => simp [Set.disjoint_union_right, ih]

/-- What is free fits below some extents exactly if it is free without them and
meets none of them. -/
theorem subset_sdiff_occupied_iff {s free : Set Nat} {es : List Extent} :
    s ⊆ free \ occupied es ↔ s ⊆ free ∧ ∀ e ∈ es, Disjoint s e.slots := by
  rw [Set.subset_sdiff, disjoint_occupied_iff]

/-- Each extent satisfies a rule on what the extents before it have left free. -/
def InTurn (rule : Set Nat → Extent → Prop) (free : Set Nat) : List Extent → Prop
  | [] => True
  | e :: es => rule free e ∧ InTurn rule (free \ e.slots) es

namespace InTurn

variable {rule : Set Nat → Extent → Prop} {free : Set Nat} {ds es : List Extent}

theorem mono {rule' : Set Nat → Extent → Prop} (hrule : ∀ free e, rule free e → rule' free e)
    (h : InTurn rule free es) : InTurn rule' free es := by
  induction es generalizing free with
  | nil => trivial
  | cons e es ih => exact ⟨hrule free e h.1, ih h.2⟩

/-- Extents in turn are some of them in turn and then the others, out of what is left. -/
theorem append_iff :
    InTurn rule free (ds ++ es) ↔ InTurn rule free ds ∧ InTurn rule (free \ occupied ds) es := by
  induction ds generalizing free with
  | nil => simp [InTurn]
  | cons d ds ih =>
      simp only [List.cons_append, InTurn, ih, occupied_cons, and_assoc, Set.sdiff_sdiff]

/-- Extents taken out of a set lie within it. -/
theorem occupied_subset (h : InTurn Extent.Within free es) : occupied es ⊆ free := by
  induction es generalizing free with
  | nil => simp
  | cons e es ih =>
      rw [occupied_cons]
      exact Set.union_subset h.1 ((ih h.2).trans Set.sdiff_subset)

/-- Extents taken out of a set do not meet. -/
theorem pairwise_disjoint (h : InTurn Extent.Within free es) :
    es.Pairwise fun d e => Disjoint d.slots e.slots := by
  induction es generalizing free with
  | nil => exact .nil
  | cons e es ih =>
      have hrest : Disjoint e.slots (occupied es) :=
        Set.disjoint_of_subset_right h.2.occupied_subset Set.disjoint_sdiff_right
      exact .cons (disjoint_occupied_iff.mp hrest) (ih h.2)

end InTurn

/-- Extents that only have to be free can be taken in turn exactly if each one is free
and no two of them meet. -/
theorem inTurn_within_iff {free : Set Nat} {es : List Extent} :
    InTurn Extent.Within free es ↔
      (∀ e ∈ es, e.slots ⊆ free) ∧ es.Pairwise fun d e => Disjoint d.slots e.slots := by
  constructor
  · intro h
    refine ⟨fun e he slot hslot => h.occupied_subset ⟨e, he, hslot⟩, h.pairwise_disjoint⟩
  · rintro ⟨hsub, hdisjoint⟩
    induction es generalizing free with
    | nil => trivial
    | cons e es ih =>
        obtain ⟨he, hes⟩ := List.forall_mem_cons.mp hsub
        obtain ⟨hapart, hrest⟩ := List.pairwise_cons.mp hdisjoint
        refine ⟨he, ih (fun d hd => ?_) hrest⟩
        exact Set.subset_sdiff.mpr ⟨hes d hd, (hapart d hd).symm⟩

theorem inTurn_within_perm {free : Set Nat} {es es' : List Extent} (h : es.Perm es') :
    InTurn Extent.Within free es ↔ InTurn Extent.Within free es' := by
  rw [inTurn_within_iff, inTurn_within_iff]
  refine and_congr ?_ (h.pairwise_iff fun hde => hde.symm)
  simp only [h.mem_iff]

end LegacyShader
