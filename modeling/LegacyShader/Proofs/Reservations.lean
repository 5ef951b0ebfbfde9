import LegacyShader.Proofs.AttribPlacement
import LegacyShader.Proofs.PoolRuns

/-!
# Reservations in any order

Reservations cut ranges at different places when they come in different orders.  Still
the ranges that are left in the end are the same, one by one.  Separated ranges are the
only ones with their slots (`Separated.eq_of_rangeSlots_eq`), so a pool is determined by
what is free in it (`LocationPool.Holds.unique`).

Some extents can all be reserved exactly if each one is free and no two of them meet, and
then the pool has what they leave (`Holds.reserveAll?_eq_some_iff`).  Neither side of this
knows an order.  Reserving the pins of vertex inputs is reserving the extents at their
pins (`reservePins_eq_ok_iff`), so it does not depend on the order of the inputs either
(`reservations_of_perm`).
-/

namespace LegacyShader

/-! ## One list of ranges for a set -/

namespace Separated

variable {r q : FreeRange} {ranges others : List FreeRange}

theorem location_le (h : Separated (r :: ranges)) {slot : Nat}
    (hslot : slot ∈ rangeSlots (r :: ranges)) : r.location ≤ slot := by
  obtain ⟨hsize, hbefore, -⟩ := separated_cons.mp h
  obtain ⟨a, ha, hle, -⟩ := hslot
  rcases List.mem_cons.mp ha with rfl | ha
  · exact hle
  · have hlt : r.stop < a.location := hbefore a ha
    simp only [FreeRange.stop] at hlt
    omega

theorem location_mem (h : Separated (r :: ranges)) : r.location ∈ rangeSlots (r :: ranges) := by
  obtain ⟨hsize, -, -⟩ := separated_cons.mp h
  refine ⟨r, by simp, le_rfl, ?_⟩
  simp only [FreeRange.stop]
  omega

/-- The slot at which the first range stops is taken, since the next one does not touch
it. -/
theorem stop_not_mem (h : Separated (r :: ranges)) : r.stop ∉ rangeSlots (r :: ranges) := by
  obtain ⟨-, hbefore, -⟩ := separated_cons.mp h
  rintro ⟨a, ha, hle, hlt⟩
  rcases List.mem_cons.mp ha with rfl | ha
  · exact lt_irrefl _ hlt
  · have : r.stop < a.location := hbefore a ha
    omega

theorem rangeSlots_tail (h : Separated (r :: ranges)) :
    rangeSlots ranges = rangeSlots (r :: ranges) \ r.slots := by
  obtain ⟨-, hbefore, -⟩ := separated_cons.mp h
  have hdisjoint : Disjoint (rangeSlots ranges) r.slots := by
    refine Set.disjoint_left.mpr ?_
    rintro slot ⟨a, ha, hle, -⟩ ⟨-, hlt⟩
    have : r.stop < a.location := hbefore a ha
    omega
  rw [rangeSlots_cons, Set.union_sdiff_left, hdisjoint.sdiff_eq_left]

/-- If the first range stopped earlier than the other one, its stop would be free. -/
theorem stop_le (h : Separated (r :: ranges)) (hlocation : r.location = q.location)
    (hslots : rangeSlots (r :: ranges) = rangeSlots (q :: others)) : q.stop ≤ r.stop := by
  by_contra hlt
  apply h.stop_not_mem
  rw [hslots]
  have hle : q.location ≤ r.stop := by
    rw [← hlocation]
    exact Nat.le_add_right _ _
  exact ⟨q, by simp, hle, by omega⟩

theorem head_eq (h : Separated (r :: ranges)) (h' : Separated (q :: others))
    (hslots : rangeSlots (r :: ranges) = rangeSlots (q :: others)) : r = q := by
  have hlocation : r.location = q.location := by
    apply le_antisymm
    · exact h.location_le (hslots ▸ h'.location_mem)
    · exact h'.location_le (hslots ▸ h.location_mem)
  have hstop : r.stop = q.stop :=
    le_antisymm (h'.stop_le hlocation.symm hslots.symm) (h.stop_le hlocation hslots)
  cases r
  cases q
  simp only [FreeRange.stop] at hlocation hstop
  simp only [FreeRange.mk.injEq]
  omega

/-- Separated ranges with the same slots are the same. -/
theorem eq_of_rangeSlots_eq (h : Separated ranges) (h' : Separated others)
    (hslots : rangeSlots ranges = rangeSlots others) : ranges = others := by
  induction ranges generalizing others with
  | nil =>
      cases others with
      | nil => rfl
      | cons q others =>
          have hmem := h'.location_mem
          rw [← hslots, rangeSlots_nil] at hmem
          cases hmem
  | cons r ranges ih =>
      cases others with
      | nil =>
          have hmem := h.location_mem
          rw [hslots, rangeSlots_nil] at hmem
          cases hmem
      | cons q others =>
          obtain rfl := h.head_eq h' hslots
          have htail : rangeSlots ranges = rangeSlots others := by
            rw [h.rangeSlots_tail, h'.rangeSlots_tail, hslots]
          obtain ⟨-, -, hranges⟩ := separated_cons.mp h
          obtain ⟨-, -, hothers⟩ := separated_cons.mp h'
          rw [ih hranges hothers htail]

end Separated

/-- A pool is determined by its free slots. -/
theorem LocationPool.Holds.unique {pool pool' : LocationPool} {free : Set Nat}
    (h : pool.Holds free) (h' : pool'.Holds free) : pool = pool' := by
  have hranges : pool.ranges = pool'.ranges :=
    h.separated.eq_of_rangeSlots_eq h'.separated (h.rangeSlots_eq.trans h'.rangeSlots_eq.symm)
  cases pool
  cases pool'
  simpa using hranges

/-! ## Reservations one after the other -/

namespace LocationPool

variable {pool left : LocationPool} {free : Set Nat} {es es' : List Extent}

/-- Reserves one extent after the other. -/
def reserveAll? (pool : LocationPool) (es : List Extent) : Option LocationPool :=
  es.foldlM (fun pool e => pool.reserve? e.location e.size) pool

/-- The answers to requests that are made one after the other. -/
def answers (pool : LocationPool) : List PoolRequest → List (Option Nat)
  | [] => []
  | q :: qs => (pool.serve q).1 :: (pool.serve q).2.answers qs

@[simp] theorem reserveAll?_nil : pool.reserveAll? [] = some pool := rfl

theorem reserveAll?_cons_eq_some_iff {e : Extent} :
    pool.reserveAll? (e :: es) = some left ↔
      ∃ next, pool.reserve? e.location e.size = some next ∧ next.reserveAll? es = some left := by
  simp only [reserveAll?, List.foldlM_cons, Option.bind_eq_bind, Option.bind_eq_some_iff]

/-- A reservation of what is free is granted. -/
theorem Holds.exists_reserve? (h : pool.Holds free) {e : Extent} (hpos : 0 < e.size)
    (he : e.slots ⊆ free) :
    ∃ next, pool.reserve? e.location e.size = some next ∧ next.Holds (free \ e.slots) := by
  cases hnext : pool.reserve? e.location e.size with
  | none => exact absurd he ((h.reserve?_eq_none_iff hpos).mp hnext)
  | some next => exact ⟨next, rfl, (h.of_reserve? hpos hnext).2⟩

/-- Extents are all reserved exactly if they can be taken in turn.  What is left is then
the one pool without them. -/
theorem Holds.reserveAll?_eq_some_iff (h : pool.Holds free) (hpos : ∀ e ∈ es, 0 < e.size) :
    pool.reserveAll? es = some left ↔
      InTurn Extent.Within free es ∧ left.Holds (free \ occupied es) := by
  induction es generalizing pool free with
  | nil =>
      simp only [reserveAll?_nil, Option.some.injEq, InTurn, true_and, occupied_nil, Set.sdiff_empty]
      constructor
      · rintro rfl
        exact h
      · intro hleft
        exact h.unique hleft
  | cons e es ih =>
      obtain ⟨he, hes⟩ := List.forall_mem_cons.mp hpos
      rw [reserveAll?_cons_eq_some_iff, occupied_cons, ← Set.sdiff_sdiff]
      constructor
      · rintro ⟨next, hnext, hleft⟩
        obtain ⟨hsub, hholds⟩ := h.of_reserve? he hnext
        obtain ⟨hturn, hrest⟩ := (ih hholds hes).mp hleft
        exact ⟨⟨hsub, hturn⟩, hrest⟩
      · rintro ⟨⟨hsub, hturn⟩, hleft⟩
        obtain ⟨next, hnext, hholds⟩ := h.exists_reserve? he hsub
        exact ⟨next, hnext, (ih hholds hes).mpr ⟨hturn, hleft⟩⟩

theorem Holds.reserveAll?_perm (h : pool.Holds free) (hpos : ∀ e ∈ es, 0 < e.size)
    (hperm : es.Perm es') : pool.reserveAll? es = pool.reserveAll? es' := by
  have hpos' : ∀ e ∈ es', 0 < e.size := fun e he => hpos e (hperm.mem_iff.mpr he)
  ext left
  rw [h.reserveAll?_eq_some_iff hpos, h.reserveAll?_eq_some_iff hpos', inTurn_within_perm hperm,
    occupied_perm hperm]

end LocationPool

/-! ## Pinned inputs -/

namespace Pins

variable {pins : Pins} {v : InterfaceVar} {inputs : List InterfaceVar}

/-- The extent of a variable at its pin. -/
def extent? (pins : Pins) (v : InterfaceVar) : Option Extent :=
  (pins.get? v.name).map fun location => ⟨location, v.footprint⟩

/-- The extents of the pinned variables of a list. -/
def pinnedExtents (pins : Pins) (inputs : List InterfaceVar) : List Extent :=
  inputs.filterMap pins.extent?

theorem size_pos_of_extent? {e : Extent} (h : pins.extent? v = some e) : 0 < e.size := by
  obtain ⟨location, -, rfl⟩ := Option.map_eq_some_iff.mp h
  exact v.footprint_pos

theorem size_pos_of_mem {e : Extent} (h : e ∈ pins.pinnedExtents inputs) : 0 < e.size := by
  obtain ⟨v, -, hv⟩ := List.mem_filterMap.mp h
  exact size_pos_of_extent? hv

theorem pinnedExtents_filter (pins : Pins) (inputs : List InterfaceVar) :
    pins.pinnedExtents (inputs.filter pins.pinned) = pins.pinnedExtents inputs := by
  unfold pinnedExtents
  rw [List.filterMap_filter]
  refine List.filterMap_congr fun v _ => ?_
  cases hpin : pins.get? v.name with
  | none => simp [pinned, extent?, hpin]
  | some location => simp [pinned, hpin]

end Pins

/-- The pins of inputs fit exactly if their extents can all be reserved, and they leave
the same pool. -/
theorem reservePins_eq_ok_iff {pins : Pins} {pool left : LocationPool}
    {inputs : List InterfaceVar} :
    (∃ vs, reservePins pins pool inputs = .ok (left, vs)) ↔
      pool.reserveAll? (pins.pinnedExtents inputs) = some left := by
  rw [reservePins_eq_placeEach]
  induction inputs generalizing pool with
  | nil => simp [placeEach, Pins.pinnedExtents]
  | cons v vs ih =>
      simp only [placeEach_cons_eq_ok_iff]
      cases hpin : pins.get? v.name with
      | none =>
          have hextents : pins.pinnedExtents (v :: vs) = pins.pinnedExtents vs := by
            simp [Pins.pinnedExtents, Pins.extent?, hpin]
          rw [hextents, ← ih, pinStep_of_unpinned hpin]
          constructor
          · rintro ⟨_, next, w, ws, hstep, hrest, rfl⟩
            cases hstep
            exact ⟨ws, hrest⟩
          · rintro ⟨ws, hrest⟩
            exact ⟨v :: ws, pool, v, ws, rfl, hrest, rfl⟩
      | some location =>
          have hextents : pins.pinnedExtents (v :: vs) =
              ⟨location, v.footprint⟩ :: pins.pinnedExtents vs := by
            simp [Pins.pinnedExtents, Pins.extent?, hpin]
          rw [hextents, LocationPool.reserveAll?_cons_eq_some_iff]
          constructor
          · rintro ⟨_, next, w, ws, hstep, hrest, rfl⟩
            obtain ⟨hnone, -, -⟩ | ⟨l, hl, hreserve, -⟩ := pinStep_cases hstep
            · rw [hpin] at hnone
              cases hnone
            · obtain rfl := Option.some.inj (hpin.symm.trans hl)
              exact ⟨next, hreserve, ih.mp ⟨ws, hrest⟩⟩
          · rintro ⟨next, hreserve, hleft⟩
            obtain ⟨ws, hrest⟩ := ih.mpr hleft
            exact ⟨_, next, _, ws, pinStep_of_reserved hpin hreserve, hrest, rfl⟩

/-- Let some extents be reserved in a new pool, in two orders.  In both orders they all
fit or not, and the ranges that are left are the same, so later requests have the same
answers.  Hence the order of pinned inputs changes neither whether their pins fit nor the
pool that is left to the others. -/
theorem reservations_of_perm {es es' : List Extent} (hperm : es.Perm es')
    (hpos : ∀ e ∈ es, 0 < e.size) (capacity : Nat) :
    let pool := LocationPool.ofCapacity capacity
    ((pool.reserveAll? es).isSome ↔ (pool.reserveAll? es').isSome) ∧
      (∀ left left', pool.reserveAll? es = some left → pool.reserveAll? es' = some left' →
        left.ranges = left'.ranges ∧ ∀ requests, left.answers requests = left'.answers requests) ∧
      ∀ (pins : Pins) (inputs inputs' : List InterfaceVar),
        (inputs.filter pins.pinned).Perm (inputs'.filter pins.pinned) →
        ∀ left, (∃ vs, reservePins pins pool inputs = .ok (left, vs)) ↔
          ∃ vs', reservePins pins pool inputs' = .ok (left, vs') := by
  intro pool
  have hpool : pool.Holds (Set.Ico 0 capacity) := LocationPool.ofCapacity_holds capacity
  have hsame := hpool.reserveAll?_perm hpos hperm
  refine ⟨by rw [hsame], ?_, ?_⟩
  · intro left left' hleft hleft'
    obtain rfl : left = left' := Option.some.inj (hleft.symm.trans (hsame.trans hleft'))
    exact ⟨rfl, fun _ => rfl⟩
  · intro pins inputs inputs' hinputs left
    have hextents : (pins.pinnedExtents inputs).Perm (pins.pinnedExtents inputs') := by
      rw [← pins.pinnedExtents_filter inputs, ← pins.pinnedExtents_filter inputs']
      exact hinputs.filterMap _
    rw [reservePins_eq_ok_iff, reservePins_eq_ok_iff,
      hpool.reserveAll?_perm (fun e => Pins.size_pos_of_mem) hextents]

/-- Three reservations leave two ranges, whether the one in the middle comes first or
last.  The same three extents are those of pinned inputs, with an input between them that
has no pin. -/
theorem reservations_of_perm_around_middle :
    let es : List Extent := [⟨3, 2⟩, ⟨0, 1⟩, ⟨7, 1⟩]
    let es' : List Extent := [⟨7, 1⟩, ⟨0, 1⟩, ⟨3, 2⟩]
    let pool := LocationPool.ofCapacity 8
    let left : LocationPool := ⟨[⟨1, 2⟩, ⟨5, 2⟩]⟩
    let input (name : String) (type : ShaderType) (index : Nat) : InterfaceVar :=
      ⟨name, type, .argument index, 0, true⟩
    let model := input "model" (.matrix .two .two .f32) 0
    let place := input "place" (.vector .four .f32) 1
    let weight := input "weight" (.scalar .f32) 2
    let other := input "other" (.scalar .f32) 3
    let pins : Pins := [("model", 3), ("place", 0), ("weight", 7)]
    es.Perm es' ∧ (∀ e ∈ es, 0 < e.size) ∧
      ((pool.reserveAll? es).isSome ↔ (pool.reserveAll? es').isSome) ∧
      pool.reserveAll? es = some left ∧
      (∃ left', pool.reserveAll? es' = some left' ∧ left.ranges = left'.ranges) ∧
      ∃ vs, reservePins pins pool [weight, other, place, model] = .ok (left, vs) := by
  intro es es' pool left input model place weight other pins
  have hperm : es.Perm es' := by decide
  have hpos : ∀ e ∈ es, 0 < e.size := by decide
  obtain ⟨hiff, hranges, hpins⟩ := reservations_of_perm hperm hpos 8
  have hleft : pool.reserveAll? es = some left := by decide
  have hleft' : pool.reserveAll? es' = some left := by decide
  refine ⟨hperm, hpos, hiff, hleft, ⟨left, hleft', (hranges _ _ hleft hleft').1⟩, ?_⟩
  have horder : ([model, place, other, weight].filter pins.pinned).Perm
      ([weight, other, place, model].filter pins.pinned) :=
    (List.Perm.swap _ _ _).trans ((List.Perm.swap _ _ _).cons _ |>.trans (List.Perm.swap _ _ _))
  exact (hpins pins _ _ horder left).mp ⟨_, rfl⟩

end LegacyShader
