import LegacyShader.LocationPool
import Mathlib.Data.List.Pairwise
import Mathlib.Order.Bounds.Basic
import Mathlib.Order.Interval.Set.Basic

/-!
# Pools as sets of free slots

A pool is read as a set: `LocationPool.Holds` says that its ranges are *separated*
and that a slot is free exactly if it is in the set.  Ranges are separated if none
is empty and each one stops before the next one starts, with at least one taken
slot between them.

Both operations of a pool look at one range at a time.  That is enough, because a
run of free slots never reaches from one separated range into another
(`Separated.exists_contains`).  So `reserve?` succeeds exactly if all of the run is
free, and `allocate?` finds the least location at which a run is free.  Either way
the run is cut out of the one range that contains it (`CutFrom`), which keeps the
ranges separated and takes exactly the run out of the set.
-/

namespace LegacyShader

/-! ## Ranges -/

namespace FreeRange

/-- The slots of a range. -/
def slots (r : FreeRange) : Set Nat := Set.Ico r.location r.stop

/-- A range contains the run `[location, location + size)`. -/
def Contains (r : FreeRange) (location size : Nat) : Prop :=
  r.location ≤ location ∧ location + size ≤ r.stop

/-- A range stops before another one starts, and does not touch it. -/
def Before (a b : FreeRange) : Prop := a.stop < b.location

@[simp] theorem mem_slots {r : FreeRange} {slot : Nat} :
    slot ∈ r.slots ↔ r.location ≤ slot ∧ slot < r.stop := Iff.rfl

/-- What is left of a range lies within it and is not empty. -/
theorem bounds_of_mem_cut {r q : FreeRange} {location size : Nat} (h : r.Contains location size)
    (hq : q ∈ r.cut location size) : r.location ≤ q.location ∧ q.stop ≤ r.stop ∧ 0 < q.size := by
  obtain ⟨hlocation, hstop⟩ := h
  simp only [cut, List.mem_append] at hq
  rcases hq with hq | hq
  · split at hq
    next hfront =>
      obtain rfl := List.mem_singleton.mp hq
      simp only [stop] at hstop ⊢
      omega
    next => simp at hq
  · split at hq
    next hback =>
      obtain rfl := List.mem_singleton.mp hq
      simp only [stop] at hstop hback ⊢
      omega
    next => simp at hq

/-- The front and the back of a range do not touch once something is cut out. -/
theorem cut_pairwise_before (r : FreeRange) {location size : Nat} (hsize : 0 < size) :
    (r.cut location size).Pairwise Before := by
  unfold cut
  split <;> split <;> simp [Before, stop]
  omega

end FreeRange

/-- The slots of a list of ranges. -/
def rangeSlots (ranges : List FreeRange) : Set Nat := {slot | ∃ r ∈ ranges, slot ∈ r.slots}

theorem mem_rangeSlots {ranges : List FreeRange} {slot : Nat} :
    slot ∈ rangeSlots ranges ↔ ∃ r ∈ ranges, slot ∈ r.slots := Iff.rfl

@[simp] theorem rangeSlots_nil : rangeSlots [] = ∅ := by
  ext slot
  simp [mem_rangeSlots]

@[simp] theorem rangeSlots_cons (r : FreeRange) (ranges : List FreeRange) :
    rangeSlots (r :: ranges) = r.slots ∪ rangeSlots ranges := by
  ext slot
  simp only [mem_rangeSlots, List.mem_cons, exists_eq_or_imp, Set.mem_union]

@[simp] theorem rangeSlots_append (as bs : List FreeRange) :
    rangeSlots (as ++ bs) = rangeSlots as ∪ rangeSlots bs := by
  induction as with
  | nil => simp
  | cons a as ih => simp [ih, Set.union_assoc]

/-- A cut takes exactly the run out of a range. -/
theorem FreeRange.rangeSlots_cut {r : FreeRange} {location size : Nat}
    (h : r.Contains location size) :
    rangeSlots (r.cut location size) = r.slots \ Set.Ico location (location + size) := by
  obtain ⟨hlocation, hstop⟩ := h
  ext slot
  unfold FreeRange.cut
  split <;> split <;> simp [FreeRange.stop] at * <;> omega

/-! ## Separated ranges -/

/-- Ranges in ascending order, none of them empty and no two of them touching. -/
structure Separated (ranges : List FreeRange) : Prop where
  /-- No range is empty. -/
  nonempty : ∀ r ∈ ranges, 0 < r.size
  /-- Each range stops before the later ones start. -/
  ordered : ranges.Pairwise FreeRange.Before

theorem separated_append {as bs : List FreeRange} :
    Separated (as ++ bs) ↔ Separated as ∧ Separated bs ∧ ∀ a ∈ as, ∀ b ∈ bs, a.Before b := by
  constructor
  · rintro ⟨hne, hord⟩
    obtain ⟨has, hbs, hcross⟩ := List.pairwise_append.mp hord
    exact ⟨⟨fun r hr => hne r (List.mem_append_left _ hr), has⟩,
      ⟨fun r hr => hne r (List.mem_append_right _ hr), hbs⟩, hcross⟩
  · rintro ⟨⟨hneA, hordA⟩, ⟨hneB, hordB⟩, hcross⟩
    refine ⟨fun r hr => ?_, List.pairwise_append.mpr ⟨hordA, hordB, hcross⟩⟩
    rcases List.mem_append.mp hr with hr | hr
    · exact hneA r hr
    · exact hneB r hr

theorem separated_cons {r : FreeRange} {ranges : List FreeRange} :
    Separated (r :: ranges) ↔ 0 < r.size ∧ (∀ b ∈ ranges, r.Before b) ∧ Separated ranges := by
  constructor
  · rintro ⟨hne, hord⟩
    obtain ⟨hbefore, htail⟩ := List.pairwise_cons.mp hord
    exact ⟨hne r (by simp), hbefore, fun b hb => hne b (by simp [hb]), htail⟩
  · rintro ⟨hr, hbefore, hne, hord⟩
    refine ⟨fun b hb => ?_, List.pairwise_cons.mpr ⟨hbefore, hord⟩⟩
    rcases List.mem_cons.mp hb with rfl | hb
    · exact hr
    · exact hne b hb

namespace Separated

/-- Two separated ranges are the same, or one of them is before the other. -/
theorem eq_or_before {ranges : List FreeRange} (h : Separated ranges) :
    ∀ a ∈ ranges, ∀ b ∈ ranges, a = b ∨ a.Before b ∨ b.Before a := by
  have hsymm : Std.Symm fun a b : FreeRange => a = b ∨ a.Before b ∨ b.Before a := by
    constructor
    rintro a b (hab | hab | hab)
    · exact .inl hab.symm
    · exact .inr (.inr hab)
    · exact .inr (.inl hab)
  have hpair : ranges.Pairwise fun a b => a = b ∨ a.Before b ∨ b.Before a :=
    h.ordered.imp fun hab => .inr (.inl hab)
  intro a ha b hb
  exact hpair.forall_of_forall (fun _ _ => .inl rfl) ha hb

/-- A run of free slots lies within one range.  The slot at which the range of its
first slot stops is not free, since no range touches another. -/
theorem exists_contains {ranges : List FreeRange} (h : Separated ranges) {location size : Nat}
    (hsize : 0 < size) (hsub : Set.Ico location (location + size) ⊆ rangeSlots ranges) :
    ∃ r ∈ ranges, r.Contains location size := by
  obtain ⟨r, hr, hlocation, hlt⟩ := hsub (show location ∈ Set.Ico _ _ from ⟨le_rfl, by omega⟩)
  refine ⟨r, hr, hlocation, ?_⟩
  by_contra hstop
  obtain ⟨q, hq, hqlocation, hqlt⟩ :=
    hsub (show r.stop ∈ Set.Ico _ _ from ⟨by omega, by omega⟩)
  rcases h.eq_or_before r hr q hq with rfl | hbefore | hbefore
  · exact absurd hqlt (lt_irrefl _)
  · unfold FreeRange.Before at hbefore
    omega
  · unfold FreeRange.Before at hbefore
    omega

end Separated

theorem FreeRange.Contains.subset_rangeSlots {ranges : List FreeRange} {r : FreeRange}
    {location size : Nat} (h : r.Contains location size) (hr : r ∈ ranges) :
    Set.Ico location (location + size) ⊆ rangeSlots ranges := by
  rintro slot ⟨hle, hlt⟩
  exact ⟨r, hr, le_trans h.1 hle, lt_of_lt_of_le hlt h.2⟩

/-! ## Cuts -/

/-- The ranges `left` are `ranges` with a run cut out of the one range that contains it. -/
def CutFrom (location size : Nat) (ranges left : List FreeRange) : Prop :=
  ∃ front r back, ranges = front ++ r :: back ∧ r.Contains location size ∧
    left = front ++ (r.cut location size ++ back)

namespace CutFrom

variable {location size : Nat} {ranges left : List FreeRange}

theorem cons (h : CutFrom location size ranges left) (r : FreeRange) :
    CutFrom location size (r :: ranges) (r :: left) := by
  obtain ⟨front, q, back, rfl, hq, rfl⟩ := h
  exact ⟨r :: front, q, back, rfl, hq, rfl⟩

/-- Only free slots are cut out. -/
theorem subset (h : CutFrom location size ranges left) :
    Set.Ico location (location + size) ⊆ rangeSlots ranges := by
  obtain ⟨front, r, back, rfl, hr, rfl⟩ := h
  exact hr.subset_rangeSlots (by simp)

/-- A cut leaves separated ranges. -/
theorem separated (h : CutFrom location size ranges left) (hsize : 0 < size)
    (hsep : Separated ranges) : Separated left := by
  obtain ⟨front, r, back, rfl, hr, rfl⟩ := h
  obtain ⟨hfront, hrest, hcross⟩ := separated_append.mp hsep
  obtain ⟨-, hafter, hback⟩ := separated_cons.mp hrest
  have hcut : Separated (r.cut location size) :=
    ⟨fun q hq => (FreeRange.bounds_of_mem_cut hr hq).2.2, r.cut_pairwise_before hsize⟩
  have hcutBack : Separated (r.cut location size ++ back) := by
    refine separated_append.mpr ⟨hcut, hback, fun q hq b hb => ?_⟩
    exact lt_of_le_of_lt (FreeRange.bounds_of_mem_cut hr hq).2.1 (hafter b hb)
  refine separated_append.mpr ⟨hfront, hcutBack, fun a ha q hq => ?_⟩
  rcases List.mem_append.mp hq with hq | hq
  · exact lt_of_lt_of_le (hcross a ha r (by simp)) (FreeRange.bounds_of_mem_cut hr hq).1
  · exact hcross a ha q (by simp [hq])

/-- A cut takes exactly the run out of the free slots.  The other ranges do not
meet the run, since it lies within a range that is apart from them. -/
theorem rangeSlots_eq (h : CutFrom location size ranges left) (hsep : Separated ranges) :
    rangeSlots left = rangeSlots ranges \ Set.Ico location (location + size) := by
  obtain ⟨front, r, back, rfl, hr, rfl⟩ := h
  obtain ⟨-, hrest, hcross⟩ := separated_append.mp hsep
  obtain ⟨-, hafter, -⟩ := separated_cons.mp hrest
  have hfront : rangeSlots front \ Set.Ico location (location + size) = rangeSlots front := by
    refine sdiff_eq_left.mpr (Set.disjoint_left.mpr ?_)
    rintro slot ⟨a, ha, -, hlt⟩ ⟨hle, -⟩
    have hbefore : a.stop < r.location := hcross a ha r (by simp)
    have := hr.1
    omega
  have hback : rangeSlots back \ Set.Ico location (location + size) = rangeSlots back := by
    refine sdiff_eq_left.mpr (Set.disjoint_left.mpr ?_)
    rintro slot ⟨b, hb, hle, -⟩ ⟨-, hlt⟩
    have hbefore : r.stop < b.location := hafter b hb
    have := hr.2
    omega
  simp only [rangeSlots_append, rangeSlots_cons, Set.union_sdiff_distrib, hfront, hback,
    FreeRange.rangeSlots_cut hr]

end CutFrom

namespace LocationPool

variable {location size : Nat} {ranges left : List FreeRange}

/-- Carving cuts the run out. -/
theorem cutFrom_of_carve (h : carve location size ranges = some left) :
    CutFrom location size ranges left := by
  induction ranges generalizing left with
  | nil => simp [carve] at h
  | cons r rest ih =>
      simp only [carve] at h
      split at h
      next hcontains =>
        obtain rfl := Option.some.inj h
        exact ⟨[], r, rest, rfl, hcontains, rfl⟩
      next =>
        obtain ⟨left', hleft', rfl⟩ := Option.map_eq_some_iff.mp h
        exact (ih hleft').cons r

/-- Carving fails if no range contains the run. -/
theorem carve_eq_none_iff :
    carve location size ranges = none ↔ ∀ r ∈ ranges, ¬ r.Contains location size := by
  induction ranges with
  | nil => simp [carve]
  | cons r rest ih =>
      simp only [carve, List.forall_mem_cons]
      split
      next hcontains => simp [FreeRange.Contains, hcontains]
      next hnot => simp [ih, FreeRange.Contains, hnot]

/-- Taking from the front cuts the run out at the start of the first range that is
large enough. -/
theorem takeFront_cases (h : takeFront size ranges = some (location, left)) :
    ∃ front r back, ranges = front ++ r :: back ∧ (∀ a ∈ front, a.size < size) ∧
      size ≤ r.size ∧ location = r.location ∧
      left = front ++ (r.cut location size ++ back) := by
  induction ranges generalizing left with
  | nil => simp [takeFront] at h
  | cons r rest ih =>
      simp only [takeFront] at h
      split at h
      next hfits =>
        obtain ⟨rfl, rfl⟩ := Prod.mk.inj (Option.some.inj h)
        refine ⟨[], r, rest, rfl, by simp, hfits, rfl, ?_⟩
        have hlt : r.location + size < r.stop ↔ size < r.size := by
          simp only [FreeRange.stop]
          omega
        have hsize : r.stop - (r.location + size) = r.size - size := by
          simp only [FreeRange.stop]
          omega
        simp only [FreeRange.cut, lt_irrefl, hlt, hsize]
        split <;> simp
      next hsmall =>
        obtain ⟨⟨l, left'⟩, hleft', heq⟩ := Option.map_eq_some_iff.mp h
        simp only [Prod.mk.injEq] at heq
        obtain ⟨rfl, rfl⟩ := heq
        obtain ⟨front, q, back, rfl, hfront, hq, hl, rfl⟩ := ih hleft'
        refine ⟨r :: front, q, back, rfl, ?_, hq, hl, rfl⟩
        exact List.forall_mem_cons.mpr ⟨by omega, hfront⟩

theorem takeFront_eq_none_iff :
    takeFront size ranges = none ↔ ∀ r ∈ ranges, r.size < size := by
  induction ranges with
  | nil => simp [takeFront]
  | cons r rest ih =>
      simp only [takeFront, List.forall_mem_cons]
      split
      next hfits => simp [Nat.not_lt.mpr hfits]
      next hsmall => simp [ih, Nat.lt_of_not_le hsmall]

end LocationPool

/-! ## Pools -/

namespace LocationPool

/-- The pool has exactly the slots of a set, in separated ranges. -/
structure Holds (pool : LocationPool) (free : Set Nat) : Prop where
  /-- The ranges are separated. -/
  separated : Separated pool.ranges
  /-- The free slots are those of the set. -/
  free_eq : {slot | pool.Free slot} = free

variable {pool left : LocationPool} {free : Set Nat} {location size : Nat}

theorem Holds.rangeSlots_eq (h : pool.Holds free) : rangeSlots pool.ranges = free := h.free_eq

/-- A new pool has all slots below its capacity. -/
theorem ofCapacity_holds (capacity : Nat) : (ofCapacity capacity).Holds (Set.Ico 0 capacity) := by
  unfold ofCapacity
  split
  next hzero =>
    refine ⟨⟨by simp, .nil⟩, ?_⟩
    ext slot
    simp [Free, hzero]
  next hpos =>
    refine ⟨⟨by simp; omega, List.pairwise_singleton _ _⟩, ?_⟩
    ext slot
    simp [Free, FreeRange.stop]

/-- What a cut leaves of a pool. -/
theorem Holds.of_cutFrom (h : pool.Holds free) (hsize : 0 < size)
    (hcut : CutFrom location size pool.ranges left.ranges) :
    Set.Ico location (location + size) ⊆ free ∧
      left.Holds (free \ Set.Ico location (location + size)) := by
  refine ⟨h.rangeSlots_eq ▸ hcut.subset, hcut.separated hsize h.separated, ?_⟩
  rw [← h.rangeSlots_eq]
  exact hcut.rangeSlots_eq h.separated

/-- A reservation is granted out of the free slots and takes exactly its run. -/
theorem Holds.of_reserve? (h : pool.Holds free) (hsize : 0 < size)
    (hleft : pool.reserve? location size = some left) :
    Set.Ico location (location + size) ⊆ free ∧
      left.Holds (free \ Set.Ico location (location + size)) := by
  obtain ⟨ranges, hranges, rfl⟩ := Option.map_eq_some_iff.mp hleft
  exact h.of_cutFrom hsize (cutFrom_of_carve hranges)

/-- A reservation is refused exactly if some slot of its run is not free. -/
theorem Holds.reserve?_eq_none_iff (h : pool.Holds free) (hsize : 0 < size) :
    pool.reserve? location size = none ↔ ¬ Set.Ico location (location + size) ⊆ free := by
  rw [reserve?, Option.map_eq_none_iff, carve_eq_none_iff, ← h.rangeSlots_eq]
  constructor
  · intro hnone hsub
    obtain ⟨r, hr, hcontains⟩ := h.separated.exists_contains hsize hsub
    exact hnone r hr hcontains
  · intro hsub r hr hcontains
    exact hsub (hcontains.subset_rangeSlots hr)

/-- An allocation takes the lowest run that is free, and exactly that.  The ranges in front
of the one that it takes from are too small for any run. -/
theorem Holds.of_allocate? (h : pool.Holds free) (hsize : 0 < size)
    (hleft : pool.allocate? size = some (location, left)) :
    IsLeast {l | Set.Ico l (l + size) ⊆ free} location ∧
      left.Holds (free \ Set.Ico location (location + size)) := by
  obtain ⟨⟨l, ranges⟩, hranges, heq⟩ := Option.map_eq_some_iff.mp hleft
  simp only [Prod.mk.injEq] at heq
  obtain ⟨rfl, rfl⟩ := heq
  obtain ⟨front, r, back, hsplit, hsmall, hfits, rfl, hcut⟩ := takeFront_cases hranges
  have hcontains : r.Contains r.location size := ⟨le_rfl, Nat.add_le_add_left hfits _⟩
  obtain ⟨hsub, hholds⟩ := h.of_cutFrom hsize ⟨front, r, back, hsplit, hcontains, hcut⟩
  refine ⟨⟨hsub, fun m hm => ?_⟩, hholds⟩
  obtain ⟨q, hq, hqm, hqstop⟩ := h.separated.exists_contains hsize (h.rangeSlots_eq.symm ▸ hm)
  have hsep := h.separated
  rw [hsplit] at hq hsep
  obtain ⟨-, hrest, -⟩ := separated_append.mp hsep
  obtain ⟨-, hafter, -⟩ := separated_cons.mp hrest
  rcases List.mem_append.mp hq with hq | hq
  · have := hsmall q hq
    simp only [FreeRange.stop] at hqstop
    omega
  · rcases List.mem_cons.mp hq with rfl | hq
    · exact hqm
    · have hbefore : r.stop < q.location := hafter q hq
      simp only [FreeRange.stop] at hbefore
      omega

/-- An allocation is refused exactly if there is no such run. -/
theorem Holds.allocate?_eq_none_iff (h : pool.Holds free) (hsize : 0 < size) :
    pool.allocate? size = none ↔ ∀ l, ¬ Set.Ico l (l + size) ⊆ free := by
  rw [allocate?, Option.map_eq_none_iff, takeFront_eq_none_iff, ← h.rangeSlots_eq]
  constructor
  · intro hsmall l hsub
    obtain ⟨r, hr, hle, hstop⟩ := h.separated.exists_contains hsize hsub
    have := hsmall r hr
    simp only [FreeRange.stop] at hstop
    omega
  · intro hnone r hr
    by_contra hfits
    have hcontains : r.Contains r.location size :=
      ⟨le_rfl, Nat.add_le_add_left (Nat.le_of_not_lt hfits) _⟩
    exact hnone r.location (hcontains.subset_rangeSlots hr)

end LocationPool

end LegacyShader
