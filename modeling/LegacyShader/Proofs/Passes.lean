import LegacyShader.Linker.Placement
import LegacyShader.Proofs.Extents
import LegacyShader.Proofs.FreeSlots
import Mathlib.Data.List.Perm.Basic

/-!
# Passes over variables

Variables are placed in passes.  A pass goes through a list once and hands a pool
on from variable to variable.  Each variable takes an extent out of the pool, or
the pass leaves the pool alone and goes on.  The first variable that cannot be
placed ends the pass.

`placeEach` is the pass with its step as an argument.  Reserving pins, finding
places and resolving fragment inputs are passes in this sense
(`reservePins_eq_placeEach`, `placeWhere_eq_placeEach`,
`resolveInputs_eq_placeEach`), so what holds of a pass is proved once, here.

* A pass changes nothing but locations (`unplaced_of_placeEach`).
* The variables that take extents take them in turn, by the rule of the step
  (`inTurn_of_placeEach`).
* A pass fails exactly if a step fails behind steps that do not
  (`placeEach_eq_error_iff`).
-/

namespace LegacyShader

/-- A computation with a first step succeeds exactly if both parts do. -/
theorem bind_eq_ok_iff {ε α β : Type} {x : Except ε α} {f : α → Except ε β} {b : β} :
    (x >>= f) = .ok b ↔ ∃ a, x = .ok a ∧ f a = .ok b := by
  cases x with
  | error e => simp [bind, Except.bind]
  | ok a => simp [bind, Except.bind]

/-- A computation with a first step fails exactly if one of the parts does. -/
theorem bind_eq_error_iff {ε α β : Type} {x : Except ε α} {f : α → Except ε β} {e : ε} :
    (x >>= f) = .error e ↔ x = .error e ∨ ∃ a, x = .ok a ∧ f a = .error e := by
  cases x with
  | error e' => simp [bind, Except.bind]
  | ok a => simp [bind, Except.bind]

/-- Computations with the same first step agree if they agree on what it gives. -/
theorem bind_congr_of_ok {ε α β : Type} {x : Except ε α} {f g : α → Except ε β}
    (h : ∀ a, x = .ok a → f a = g a) : (x >>= f) = (x >>= g) := by
  cases x with
  | error e => rfl
  | ok a => exact h a rfl

/-! ## Variables at their places -/

namespace InterfaceVar

/-- The extent that a variable occupies. -/
def extent (v : InterfaceVar) : Extent := ⟨v.location, v.footprint⟩

/-- The slots that a variable occupies. -/
def slots (v : InterfaceVar) : Set Nat := Set.Ico v.location (v.location + v.footprint)

/-- A variable apart from its location. -/
def unplaced (v : InterfaceVar) : InterfaceVar := { v with location := 0 }

theorem footprint_pos (v : InterfaceVar) : 0 < v.footprint := by
  unfold footprint
  omega

theorem location_mem_slots (v : InterfaceVar) : v.location ∈ v.slots := by
  have := v.footprint_pos
  exact ⟨le_rfl, by omega⟩

/-- Variables do not meet exactly if neither starts within the other. -/
theorem disjoint_slots_iff {v w : InterfaceVar} :
    Disjoint v.slots w.slots ↔ w.location ∉ v.slots ∧ v.location ∉ w.slots := by
  constructor
  · intro h
    exact ⟨fun hw => Set.disjoint_left.mp h hw w.location_mem_slots,
      Set.disjoint_left.mp h v.location_mem_slots⟩
  · rintro ⟨hw, hv⟩
    refine Set.disjoint_left.mpr fun slot hslotV hslotW => ?_
    simp only [slots, Set.mem_Ico] at hw hv hslotV hslotW
    omega

/-- In a list of variables that do not meet, two different ones do not. -/
theorem disjoint_of_pairwise {vars : List InterfaceVar}
    (h : vars.Pairwise fun v w => Disjoint v.slots w.slots) {v w : InterfaceVar} (hv : v ∈ vars)
    (hw : w ∈ vars) (hne : v ≠ w) : Disjoint v.slots w.slots := by
  have hsymm : Std.Symm fun v w : InterfaceVar => Disjoint v.slots w.slots :=
    ⟨fun _ _ hvw => hvw.symm⟩
  exact h.forall hv hw hne

theorem location_ne_of_disjoint {v w : InterfaceVar} (h : Disjoint v.slots w.slots) :
    v.location ≠ w.location := fun heq =>
  Set.disjoint_left.mp h v.location_mem_slots (heq ▸ w.location_mem_slots)

/-- The order of variables does not matter for whether they meet. -/
theorem pairwise_disjoint_perm {vs ws : List InterfaceVar} (h : vs.Perm ws) :
    (vs.Pairwise fun v w => Disjoint v.slots w.slots) ↔
      ws.Pairwise fun v w => Disjoint v.slots w.slots :=
  h.pairwise_iff fun hvw => hvw.symm

/-- Variables that differ in nothing but their locations agree in what placing them
looks at. -/
theorem agree_of_unplaced {v w : InterfaceVar} (h : w.unplaced = v.unplaced) :
    w.name = v.name ∧ w.footprint = v.footprint ∧ w.active = v.active := by
  have hname := congrArg name h
  have hfootprint := congrArg footprint h
  have hactive := congrArg active h
  exact ⟨hname, hfootprint, hactive⟩

/-- A variable is given by what it is and where it is. -/
theorem eq_of_unplaced {v w : InterfaceVar} (h : w.unplaced = v.unplaced)
    (hlocation : w.location = v.location) : w = v := by
  cases v
  cases w
  simp_all [unplaced]

/-- In lists of the same variables, each variable of one has a place in the other. -/
theorem exists_of_map_unplaced {vs ws : List InterfaceVar}
    (h : ws.map unplaced = vs.map unplaced) {w : InterfaceVar} (hw : w ∈ ws) :
    ∃ v ∈ vs, w.unplaced = v.unplaced := by
  have hmem : w.unplaced ∈ vs.map unplaced := h ▸ List.mem_map_of_mem hw
  obtain ⟨v, hv, heq⟩ := List.mem_map.mp hmem
  exact ⟨v, hv, heq.symm⟩

/-- Lists of the same variables have the same names. -/
theorem map_name_of_map_unplaced {vs ws : List InterfaceVar}
    (h : ws.map unplaced = vs.map unplaced) : ws.map name = vs.map name := by
  have hnames := congrArg (List.map name) h
  rw [List.map_map, List.map_map] at hnames
  exact hnames

end InterfaceVar

/-- The extents of variables. -/
def extents (vars : List InterfaceVar) : List Extent := vars.map InterfaceVar.extent

@[simp] theorem extents_nil : extents [] = [] := rfl

@[simp] theorem extents_cons (v : InterfaceVar) (vs : List InterfaceVar) :
    extents (v :: vs) = v.extent :: extents vs := rfl

@[simp] theorem extents_append (vs ws : List InterfaceVar) :
    extents (vs ++ ws) = extents vs ++ extents ws := List.map_append

theorem occupied_extents_perm {vs ws : List InterfaceVar} (h : vs.Perm ws) :
    occupied (extents vs) = occupied (extents ws) :=
  occupied_perm (h.map InterfaceVar.extent)

theorem subset_sdiff_extents_iff {s free : Set Nat} {vars : List InterfaceVar} :
    s ⊆ free \ occupied (extents vars) ↔ s ⊆ free ∧ ∀ v ∈ vars, Disjoint s v.slots := by
  rw [subset_sdiff_occupied_iff, extents, List.forall_mem_map]
  rfl

/-- Variables that take their extents in turn do not meet. -/
theorem pairwise_disjoint_of_inTurn {free : Set Nat} {vars : List InterfaceVar}
    (h : InTurn Extent.Within free (extents vars)) :
    vars.Pairwise fun v w => Disjoint v.slots w.slots := by
  have hpairs := h.pairwise_disjoint
  rw [extents, List.pairwise_map] at hpairs
  exact hpairs

/-- Variables that take their extents out of a set lie within it. -/
theorem slots_subset_of_inTurn {free : Set Nat} {vars : List InterfaceVar}
    (h : InTurn Extent.Within free (extents vars)) {v : InterfaceVar} (hv : v ∈ vars) :
    v.slots ⊆ free := by
  intro slot hslot
  exact h.occupied_subset ⟨v.extent, List.mem_map_of_mem hv, hslot⟩

/-- Variables take the lowest extents in turn exactly if each one is at the least
location at which it is free and meets none of those before it. -/
theorem inTurn_lowest_iff {free : Set Nat} {vars : List InterfaceVar} :
    InTurn Extent.Lowest free (extents vars) ↔
      ∀ before v after, vars = before ++ v :: after →
        IsLeast {l | Set.Ico l (l + v.footprint) ⊆ free ∧
          ∀ w ∈ before, Disjoint (Set.Ico l (l + v.footprint)) w.slots} v.location := by
  constructor
  · rintro h before v after rfl
    rw [extents_append, InTurn.append_iff, extents_cons] at h
    have hlowest : v.extent.Lowest (free \ occupied (extents before)) := h.2.1
    simp only [Extent.Lowest, subset_sdiff_extents_iff] at hlowest
    exact hlowest
  · intro h
    induction vars generalizing free with
    | nil => trivial
    | cons v vs ih =>
        have hv : v.extent.Lowest free := by
          have hleast := h [] v vs rfl
          simp only [List.not_mem_nil, false_implies, implies_true, and_true] at hleast
          exact hleast
        refine ⟨hv, ih fun before u after hsplit => ?_⟩
        have hleast := h (v :: before) u after (by rw [hsplit, List.cons_append])
        simp only [List.forall_mem_cons, ← and_assoc, ← Set.subset_sdiff] at hleast
        exact hleast

/-- The order of placement only reorders. -/
theorem placementOrder_perm (vars : List InterfaceVar) : (placementOrder vars).Perm vars :=
  List.filter_append_perm InterfaceVar.active vars

/-- A test of variables that does not look at locations. -/
def IgnoresLocation (test : InterfaceVar → Bool) : Prop := ∀ v, test v.unplaced = test v

theorem IgnoresLocation.eq {test : InterfaceVar → Bool} (h : IgnoresLocation test)
    {v w : InterfaceVar} (hw : w.unplaced = v.unplaced) : test w = test v := by
  rw [← h w, hw, h v]

theorem IgnoresLocation.and {p q : InterfaceVar → Bool} (hp : IgnoresLocation p)
    (hq : IgnoresLocation q) : IgnoresLocation fun v => p v && q v :=
  fun v => congrArg₂ (· && ·) (hp v) (hq v)

/-! ## Passes -/

/-- What a pass does with one variable. -/
abbrev PlacementStep :=
  LocationPool → InterfaceVar → Except PlacementError (LocationPool × InterfaceVar)

/-- A pass over variables. -/
def placeEach (step : PlacementStep) :
    LocationPool → List InterfaceVar → Except PlacementError (LocationPool × List InterfaceVar)
  | pool, [] => .ok (pool, [])
  | pool, v :: vs => do
      let (pool, w) ← step pool v
      let (pool, ws) ← placeEach step pool vs
      return (pool, w :: ws)

section

variable {step : PlacementStep} {pool left : LocationPool} {v : InterfaceVar}
variable {vs ws : List InterfaceVar} {e : PlacementError}

theorem placeEach_cons_eq_ok_iff :
    placeEach step pool (v :: vs) = .ok (left, ws) ↔
      ∃ next w ws', step pool v = .ok (next, w) ∧ placeEach step next vs = .ok (left, ws') ∧
        ws = w :: ws' := by
  simp only [placeEach, bind_eq_ok_iff, Prod.exists]
  constructor
  · rintro ⟨next, w, hstep, left', ws', hrest, heq⟩
    cases heq
    exact ⟨next, w, ws', hstep, hrest, rfl⟩
  · rintro ⟨next, w, ws', hstep, hrest, rfl⟩
    exact ⟨next, w, hstep, left, ws', hrest, rfl⟩

theorem placeEach_cons_eq_error_iff :
    placeEach step pool (v :: vs) = .error e ↔
      step pool v = .error e ∨
        ∃ next w, step pool v = .ok (next, w) ∧ placeEach step next vs = .error e := by
  simp only [placeEach, bind_eq_error_iff, Prod.exists]
  constructor
  · rintro (hstep | ⟨next, w, hstep, hrest | ⟨left, ws, -, hpure⟩⟩)
    · exact .inl hstep
    · exact .inr ⟨next, w, hstep, hrest⟩
    · cases hpure
  · rintro (hstep | ⟨next, w, hstep, hrest⟩)
    · exact .inl hstep
    · exact .inr ⟨next, w, hstep, .inl hrest⟩

/-- Behind a step that succeeds, a pass goes on with what the step has left. -/
theorem placeEach_cons_of_ok {next : LocationPool} {w : InterfaceVar}
    (h : step pool v = .ok (next, w)) :
    placeEach step pool (v :: vs) =
      (placeEach step next vs).map fun rest => (rest.1, w :: rest.2) := by
  rw [placeEach, h]
  change (placeEach step next vs >>= _) = _
  cases placeEach step next vs <;> rfl

theorem placeEach_cons_of_error (h : step pool v = .error e) :
    placeEach step pool (v :: vs) = .error e :=
  placeEach_cons_eq_error_iff.mpr (.inl h)

/-- A pass fails exactly if a step fails behind steps that do not. -/
theorem placeEach_eq_error_iff :
    placeEach step pool vs = .error e ↔
      ∃ before v after next ws, vs = before ++ v :: after ∧
        placeEach step pool before = .ok (next, ws) ∧ step next v = .error e := by
  induction vs generalizing pool with
  | nil => simp [placeEach]
  | cons u us ih =>
      rw [placeEach_cons_eq_error_iff]
      constructor
      · rintro (hstep | ⟨next, w, hstep, hrest⟩)
        · exact ⟨[], u, us, pool, [], rfl, rfl, hstep⟩
        · obtain ⟨before, v, after, last, ws, rfl, hbefore, hv⟩ := ih.mp hrest
          refine ⟨u :: before, v, after, last, w :: ws, rfl, ?_, hv⟩
          exact placeEach_cons_eq_ok_iff.mpr ⟨next, w, ws, hstep, hbefore, rfl⟩
      · rintro ⟨before, v, after, last, ws, hsplit, hbefore, hv⟩
        cases before with
        | nil =>
            obtain ⟨rfl, rfl⟩ := List.cons.inj hsplit
            obtain ⟨rfl, -⟩ := Prod.mk.inj (Except.ok.inj hbefore)
            exact .inl hv
        | cons b before =>
            obtain ⟨rfl, rfl⟩ := List.cons.inj hsplit
            obtain ⟨next, w, ws', hstep, hrest, -⟩ := placeEach_cons_eq_ok_iff.mp hbefore
            exact .inr ⟨next, w, hstep, ih.mpr ⟨before, v, after, last, ws', rfl, hrest, hv⟩⟩

/-- A pass over two lists fails exactly if it fails on the first, or on the second with
the pool that the first leaves. -/
theorem placeEach_append_eq_error_iff {us : List InterfaceVar} :
    placeEach step pool (us ++ vs) = .error e ↔
      placeEach step pool us = .error e ∨
        ∃ next ws, placeEach step pool us = .ok (next, ws) ∧ placeEach step next vs = .error e := by
  induction us generalizing pool with
  | nil => simp [placeEach]
  | cons u us ih =>
      simp only [List.cons_append, placeEach_cons_eq_error_iff, placeEach_cons_eq_ok_iff, ih]
      constructor
      · rintro (hstep | ⟨next, w, hstep, hus | ⟨last, ws, hus, hvs⟩⟩)
        · exact .inl (.inl hstep)
        · exact .inl (.inr ⟨next, w, hstep, hus⟩)
        · exact .inr ⟨last, w :: ws, ⟨next, w, ws, hstep, hus, rfl⟩, hvs⟩
      · rintro ((hstep | ⟨next, w, hstep, hus⟩) | ⟨last, _, ⟨next, w, ws, hstep, hus, -⟩, hvs⟩)
        · exact .inl hstep
        · exact .inr ⟨next, w, hstep, .inl hus⟩
        · exact .inr ⟨next, w, hstep, .inr ⟨last, ws, hus, hvs⟩⟩

/-- Steps that agree on the variables of a list make the same pass over it. -/
theorem placeEach_congr {step' : PlacementStep}
    (hstep : ∀ v ∈ vs, ∀ pool, step' pool v = step pool v) :
    placeEach step' pool vs = placeEach step pool vs := by
  induction vs generalizing pool with
  | nil => rfl
  | cons v vs ih =>
      obtain ⟨hv, hrest⟩ := List.forall_mem_cons.mp hstep
      simp only [placeEach, hv, ih hrest]

/-- A fact about each step holds of each variable of a pass. -/
theorem forall₂_of_placeEach {R : InterfaceVar → InterfaceVar → Prop}
    (hstep : ∀ ⦃pool v left w⦄, step pool v = .ok (left, w) → R v w)
    (h : placeEach step pool vs = .ok (left, ws)) : List.Forall₂ R vs ws := by
  induction vs generalizing pool ws with
  | nil =>
      obtain ⟨-, rfl⟩ := Prod.mk.inj (Except.ok.inj h)
      exact .nil
  | cons v vs ih =>
      obtain ⟨next, w, ws', hv, hrest, rfl⟩ := placeEach_cons_eq_ok_iff.mp h
      exact .cons (hstep hv) (ih hrest)

theorem forall_of_placeEach {P : InterfaceVar → Prop}
    (hstep : ∀ ⦃pool v left w⦄, step pool v = .ok (left, w) → P w)
    (h : placeEach step pool vs = .ok (left, ws)) : ∀ w ∈ ws, P w := by
  have hall : List.Forall₂ (fun _ w => P w) vs ws := forall₂_of_placeEach hstep h
  clear h
  induction hall with
  | nil => simp
  | cons hw _ ih => exact List.forall_mem_cons.mpr ⟨hw, ih⟩

end

/-! ## What a pass takes -/

/-- The variables of a test take extents by a rule, and all others none. -/
structure PlacementStep.Follows (step : PlacementStep) (test : InterfaceVar → Bool)
    (rule : Set Nat → Extent → Prop) : Prop where
  /-- Nothing but the location changes. -/
  unplaced : ∀ ⦃pool v left w⦄, step pool v = .ok (left, w) → w.unplaced = v.unplaced
  /-- A variable of the test takes its extent by the rule. -/
  takes : ∀ ⦃pool v left w free⦄, pool.Holds free → step pool v = .ok (left, w) →
    test w = true → rule free w.extent ∧ left.Holds (free \ w.slots)
  /-- Any other variable leaves the pool alone. -/
  leaves : ∀ ⦃pool v left w⦄, step pool v = .ok (left, w) → test w = false → left = pool

section

variable {step : PlacementStep} {test keep : InterfaceVar → Bool}
variable {rule : Set Nat → Extent → Prop} {pool left : LocationPool} {free : Set Nat}
variable {vs ws : List InterfaceVar}

/-- A pass changes nothing but locations. -/
theorem unplaced_of_placeEach (hstep : step.Follows test rule)
    (h : placeEach step pool vs = .ok (left, ws)) :
    ws.map InterfaceVar.unplaced = vs.map InterfaceVar.unplaced := by
  have hall := forall₂_of_placeEach hstep.unplaced h
  clear h
  induction hall with
  | nil => rfl
  | cons hw _ ih => rw [List.map_cons, List.map_cons, hw, ih]

/-- A pass takes extents in turn, by the rule of its step. -/
theorem inTurn_of_placeEach (hstep : step.Follows test rule) (hpool : pool.Holds free)
    (h : placeEach step pool vs = .ok (left, ws)) :
    InTurn rule free (extents (ws.filter test)) ∧
      left.Holds (free \ occupied (extents (ws.filter test))) := by
  induction vs generalizing pool ws free with
  | nil =>
      obtain ⟨rfl, rfl⟩ := Prod.mk.inj (Except.ok.inj h)
      exact ⟨trivial, by simpa using hpool⟩
  | cons v vs ih =>
      obtain ⟨next, w, ws', hv, hrest, rfl⟩ := placeEach_cons_eq_ok_iff.mp h
      cases hw : test w with
      | true =>
          obtain ⟨hrule, hnext⟩ := hstep.takes hpool hv hw
          obtain ⟨hturn, hleft⟩ := ih hnext hrest
          rw [List.filter_cons_of_pos hw, extents_cons, occupied_cons, ← Set.sdiff_sdiff]
          exact ⟨⟨hrule, hturn⟩, hleft⟩
      | false =>
          obtain rfl := hstep.leaves hv hw
          rw [List.filter_cons_of_neg (by simp [hw])]
          exact ih hpool hrest

/-- A pass that does not move the variables of a test leaves them as they are. -/
theorem filter_eq_of_placeEach (hkeep : IgnoresLocation keep)
    (hmoved : ∀ ⦃pool v left w⦄, step pool v = .ok (left, w) →
      w.unplaced = v.unplaced ∧ (keep v = true → w = v))
    (h : placeEach step pool vs = .ok (left, ws)) : ws.filter keep = vs.filter keep := by
  have hall := forall₂_of_placeEach hmoved h
  clear h
  induction hall with
  | nil => rfl
  | @cons v w _ _ hw _ ih =>
      obtain ⟨hunplaced, hsame⟩ := hw
      simp only [List.filter_cons, hkeep.eq hunplaced]
      split
      next hv => rw [hsame hv, ih]
      next => exact ih

end

/-! ## The passes of the linker -/

/-- Takes the place of a variable that is pinned. -/
def pinStep (pins : Pins) : PlacementStep := fun pool v =>
  match pins.get? v.name with
  | none => .ok (pool, v)
  | some location =>
      match pool.reserve? location v.footprint with
      | none => .error (.attribUnavailable v.name location)
      | some left => .ok (left, { v with location })

/-- Finds a place for a variable. -/
def fitStep (space : Namespace) : PlacementStep := fun pool v =>
  match pool.allocate? v.footprint with
  | none => .error (.exhausted space v.name)
  | some (location, left) => .ok (left, { v with location })

/-- Finds a place for a variable of a test. -/
def fitWhereStep (space : Namespace) (test : InterfaceVar → Bool) : PlacementStep := fun pool v =>
  if test v then fitStep space pool v else .ok (pool, v)

/-- Gives a fragment input the location of the vertex output of its name, or finds
a place for it. -/
def resolveStep (outputs : List InterfaceVar) : PlacementStep := fun pool v =>
  match varyingLocation? outputs v.name with
  | some location => .ok (pool, { v with location })
  | none =>
      if v.active then .error (.unresolvedVarying v.name) else fitStep .varyings pool v

section

variable {pool left : LocationPool} {v : InterfaceVar} {location : Nat}

theorem pinStep_of_unpinned {pins : Pins} (h : pins.get? v.name = none) :
    pinStep pins pool v = .ok (pool, v) := by
  simp only [pinStep, h]

theorem pinStep_of_reserved {pins : Pins} (h : pins.get? v.name = some location)
    (hsome : pool.reserve? location v.footprint = some left) :
    pinStep pins pool v = .ok (left, { v with location }) := by
  simp only [pinStep, h, hsome]

theorem pinStep_of_taken {pins : Pins} (h : pins.get? v.name = some location)
    (hnone : pool.reserve? location v.footprint = none) :
    pinStep pins pool v = .error (.attribUnavailable v.name location) := by
  simp only [pinStep, h, hnone]

theorem fitStep_of_some {space : Namespace}
    (hsome : pool.allocate? v.footprint = some (location, left)) :
    fitStep space pool v = .ok (left, { v with location }) := by
  simp only [fitStep, hsome]

theorem fitStep_of_none {space : Namespace} (hnone : pool.allocate? v.footprint = none) :
    fitStep space pool v = .error (.exhausted space v.name) := by
  simp only [fitStep, hnone]

theorem fitWhereStep_of_pos {space : Namespace} {test : InterfaceVar → Bool} (h : test v = true) :
    fitWhereStep space test pool v = fitStep space pool v := if_pos h

theorem fitWhereStep_of_neg {space : Namespace} {test : InterfaceVar → Bool}
    (h : ¬ test v = true) : fitWhereStep space test pool v = .ok (pool, v) := if_neg h

theorem resolveStep_of_matched {outputs : List InterfaceVar}
    (h : varyingLocation? outputs v.name = some location) :
    resolveStep outputs pool v = .ok (pool, { v with location }) := by
  simp only [resolveStep, h]

theorem resolveStep_of_active {outputs : List InterfaceVar}
    (h : varyingLocation? outputs v.name = none) (hactive : v.active = true) :
    resolveStep outputs pool v = .error (.unresolvedVarying v.name) := by
  simp only [resolveStep, h, if_pos hactive]

theorem resolveStep_of_inactive {outputs : List InterfaceVar}
    (h : varyingLocation? outputs v.name = none) (hactive : ¬ v.active = true) :
    resolveStep outputs pool v = fitStep .varyings pool v := by
  simp only [resolveStep, h, if_neg hactive]

end

theorem reservePins_eq_placeEach (pins : Pins) (pool : LocationPool) (vars : List InterfaceVar) :
    reservePins pins pool vars = placeEach (pinStep pins) pool vars := by
  induction vars generalizing pool with
  | nil => rfl
  | cons v vs ih =>
      simp only [reservePins]
      split
      next hpin =>
        rw [placeEach_cons_of_ok (pinStep_of_unpinned hpin), ih]
        cases placeEach (pinStep pins) pool vs <;> rfl
      next location hpin =>
        split
        next hnone => rw [placeEach_cons_of_error (pinStep_of_taken hpin hnone)]
        next left hsome =>
          rw [placeEach_cons_of_ok (pinStep_of_reserved hpin hsome), ih]
          cases placeEach (pinStep pins) left vs <;> rfl

theorem placeWhere_eq_placeEach (space : Namespace) (test : InterfaceVar → Bool)
    (pool : LocationPool) (vars : List InterfaceVar) :
    placeWhere space test pool vars = placeEach (fitWhereStep space test) pool vars := by
  induction vars generalizing pool with
  | nil => rfl
  | cons v vs ih =>
      simp only [placeWhere]
      split
      next htest =>
        split
        next hnone =>
          rw [placeEach_cons_of_error ((fitWhereStep_of_pos htest).trans (fitStep_of_none hnone))]
        next location left hsome =>
          rw [placeEach_cons_of_ok ((fitWhereStep_of_pos htest).trans (fitStep_of_some hsome)), ih]
          cases placeEach (fitWhereStep space test) left vs <;> rfl
      next htest =>
        rw [placeEach_cons_of_ok (fitWhereStep_of_neg htest), ih]
        cases placeEach (fitWhereStep space test) pool vs <;> rfl

/-- Resolving inputs is a pass that forgets its pool. -/
theorem resolveInputs_eq_placeEach (outputs : List InterfaceVar) (pool : LocationPool)
    (vars : List InterfaceVar) :
    resolveInputs outputs pool vars =
      (placeEach (resolveStep outputs) pool vars).map Prod.snd := by
  induction vars generalizing pool with
  | nil => rfl
  | cons v vs ih =>
      simp only [resolveInputs]
      split
      next location hmatch =>
        rw [placeEach_cons_of_ok (resolveStep_of_matched hmatch), ih]
        cases placeEach (resolveStep outputs) pool vs <;> rfl
      next hmatch =>
        split
        next hactive =>
          rw [placeEach_cons_of_error (resolveStep_of_active hmatch hactive)]
          rfl
        next hactive =>
          have hstep := @resolveStep_of_inactive pool v outputs hmatch hactive
          split
          next hnone =>
            rw [placeEach_cons_of_error (hstep.trans (fitStep_of_none hnone))]
            rfl
          next location left hsome =>
            rw [placeEach_cons_of_ok (hstep.trans (fitStep_of_some hsome)), ih]
            cases placeEach (resolveStep outputs) left vs <;> rfl

/-! ## What the steps do -/

section

variable {pool left : LocationPool} {free : Set Nat} {v w : InterfaceVar} {e : PlacementError}

theorem pinStep_cases {pins : Pins} (h : pinStep pins pool v = .ok (left, w)) :
    (pins.get? v.name = none ∧ left = pool ∧ w = v) ∨
      ∃ location, pins.get? v.name = some location ∧
        pool.reserve? location v.footprint = some left ∧ w = { v with location } := by
  cases hpin : pins.get? v.name with
  | none =>
      rw [pinStep_of_unpinned hpin] at h
      cases h
      exact .inl ⟨rfl, rfl, rfl⟩
  | some location =>
      cases hreserve : pool.reserve? location v.footprint with
      | none => rw [pinStep_of_taken hpin hreserve] at h; cases h
      | some next =>
          rw [pinStep_of_reserved hpin hreserve] at h
          cases h
          exact .inr ⟨location, rfl, hreserve, rfl⟩

/-- Pinned variables take their extents out of what is free. -/
theorem pinStep_follows (pins : Pins) :
    (pinStep pins).Follows (fun v => (pins.get? v.name).isSome) Extent.Within where
  unplaced := by
    intro pool v left w h
    obtain ⟨-, -, rfl⟩ | ⟨location, -, -, rfl⟩ := pinStep_cases h <;> rfl
  takes := by
    intro pool v left w free hpool h htest
    obtain ⟨hpin, -, rfl⟩ | ⟨location, -, hreserve, rfl⟩ := pinStep_cases h
    · simp [hpin] at htest
    · exact hpool.of_reserve? v.footprint_pos hreserve
  leaves := by
    intro pool v left w h htest
    obtain ⟨-, hleft, -⟩ | ⟨location, hpin, -, rfl⟩ := pinStep_cases h
    · exact hleft
    · simp [hpin] at htest

theorem fitStep_cases {space : Namespace} (h : fitStep space pool v = .ok (left, w)) :
    ∃ location, pool.allocate? v.footprint = some (location, left) ∧ w = { v with location } := by
  cases hallocate : pool.allocate? v.footprint with
  | none => rw [fitStep_of_none hallocate] at h; cases h
  | some found =>
      rw [fitStep_of_some hallocate] at h
      cases h
      exact ⟨found.1, rfl, rfl⟩

/-- A variable for which a place is found takes the lowest extent that is free. -/
theorem fitStep_lowest {space : Namespace} (hpool : pool.Holds free)
    (h : fitStep space pool v = .ok (left, w)) :
    w.extent.Lowest free ∧ left.Holds (free \ w.slots) := by
  obtain ⟨location, hallocate, rfl⟩ := fitStep_cases h
  exact hpool.of_allocate? v.footprint_pos hallocate

/-- No place is found exactly if no extent of the size is free. -/
theorem fitStep_eq_error_iff {space : Namespace} (hpool : pool.Holds free) :
    fitStep space pool v = .error e ↔
      e = .exhausted space v.name ∧ ∀ l, ¬ Set.Ico l (l + v.footprint) ⊆ free := by
  rw [← hpool.allocate?_eq_none_iff v.footprint_pos]
  cases hallocate : pool.allocate? v.footprint with
  | none => simp [fitStep_of_none hallocate, eq_comm]
  | some found => simp [fitStep_of_some hallocate]

/-- A variable goes to the place that is the lowest one for it. -/
theorem fitStep_of_lowest {space : Namespace} (hpool : pool.Holds free)
    (hw : w.unplaced = v.unplaced) (hlowest : w.extent.Lowest free) :
    ∃ next, fitStep space pool v = .ok (next, w) ∧ next.Holds (free \ w.slots) := by
  obtain ⟨-, hsize, -⟩ := InterfaceVar.agree_of_unplaced hw
  cases hfit : fitStep space pool v with
  | error e =>
      obtain ⟨-, hfull⟩ := (fitStep_eq_error_iff hpool).mp hfit
      exact absurd (hsize ▸ hlowest.within) (hfull w.location)
  | ok result =>
      obtain ⟨next, u⟩ := result
      obtain ⟨hu, hnext⟩ := fitStep_lowest hpool hfit
      obtain ⟨location, -, rfl⟩ := fitStep_cases hfit
      have hplace : w.location = location := hlowest.location_eq hu hsize
      obtain rfl : w = { v with location } := InterfaceVar.eq_of_unplaced hw hplace
      exact ⟨next, rfl, hnext⟩

theorem fitWhereStep_cases {space : Namespace} {test : InterfaceVar → Bool}
    (h : fitWhereStep space test pool v = .ok (left, w)) :
    (test v = false ∧ left = pool ∧ w = v) ∨
      test v = true ∧ fitStep space pool v = .ok (left, w) := by
  cases htest : test v with
  | false =>
      rw [fitWhereStep_of_neg (by simp [htest])] at h
      cases h
      exact .inl ⟨rfl, rfl, rfl⟩
  | true =>
      rw [fitWhereStep_of_pos htest] at h
      exact .inr ⟨rfl, h⟩

theorem unplaced_of_fitStep {space : Namespace} (h : fitStep space pool v = .ok (left, w)) :
    w.unplaced = v.unplaced := by
  obtain ⟨location, -, rfl⟩ := fitStep_cases h
  rfl

theorem unplaced_of_fitWhereStep {space : Namespace} {test : InterfaceVar → Bool}
    (h : fitWhereStep space test pool v = .ok (left, w)) : w.unplaced = v.unplaced := by
  obtain ⟨-, -, rfl⟩ | ⟨-, hfit⟩ := fitWhereStep_cases h
  · rfl
  · exact unplaced_of_fitStep hfit

/-- Variables of a test take the lowest extents that are free. -/
theorem fitWhereStep_follows (space : Namespace) {test : InterfaceVar → Bool}
    (hignores : IgnoresLocation test) :
    (fitWhereStep space test).Follows test Extent.Lowest where
  unplaced := by
    intro pool v left w h
    exact unplaced_of_fitWhereStep h
  takes := by
    intro pool v left w free hpool h htest
    obtain ⟨hv, -, rfl⟩ | ⟨-, hfit⟩ := fitWhereStep_cases h
    · simp [hv] at htest
    · exact fitStep_lowest hpool hfit
  leaves := by
    intro pool v left w h htest
    obtain ⟨-, hleft, -⟩ | ⟨hv, -⟩ := fitWhereStep_cases h
    · exact hleft
    · rw [hignores.eq (unplaced_of_fitWhereStep h), hv] at htest
      cases htest

/-- Variables outside of a test are not moved. -/
theorem eq_of_fitWhereStep {space : Namespace} {test : InterfaceVar → Bool}
    (h : fitWhereStep space test pool v = .ok (left, w)) (htest : test v = false) : w = v := by
  obtain ⟨-, -, hw⟩ | ⟨hv, -⟩ := fitWhereStep_cases h
  · exact hw
  · rw [hv] at htest
    cases htest

theorem fitStep_follows (space : Namespace) :
    (fitStep space).Follows (fun _ => true) Extent.Lowest where
  unplaced := by
    intro pool v left w h
    exact unplaced_of_fitStep h
  takes := by
    intro pool v left w free hpool h _
    exact fitStep_lowest hpool h
  leaves := by
    intro pool v left w _ htest
    cases htest

end

/-- Finding places for the variables of a test does not move those of a test that
excludes it. -/
theorem filter_eq_of_placeWhere {space : Namespace} {test keep : InterfaceVar → Bool}
    (hkeep : IgnoresLocation keep) (hexcludes : ∀ v, keep v = true → test v = false)
    {pool left : LocationPool} {vs ws : List InterfaceVar}
    (h : placeWhere space test pool vs = .ok (left, ws)) : ws.filter keep = vs.filter keep := by
  rw [placeWhere_eq_placeEach] at h
  refine filter_eq_of_placeEach hkeep ?_ h
  intro pool v left w hstep
  exact ⟨unplaced_of_fitWhereStep hstep, fun hv => eq_of_fitWhereStep hstep (hexcludes v hv)⟩

section

variable {space : Namespace} {test : InterfaceVar → Bool} {pool left : LocationPool}
variable {free : Set Nat} {vs ws : List InterfaceVar} {e : PlacementError}

/-- A pass for the variables of a test is a pass over these variables alone. -/
theorem placeEach_filter (hignores : IgnoresLocation test) :
    placeEach (fitStep space) pool (vs.filter test) =
      (placeEach (fitWhereStep space test) pool vs).map fun rest =>
        (rest.1, rest.2.filter test) := by
  induction vs generalizing pool with
  | nil => rfl
  | cons v vs ih =>
      by_cases htest : test v = true
      · rw [List.filter_cons_of_pos htest]
        have hstep := @fitWhereStep_of_pos pool v space test htest
        cases hfit : fitStep space pool v with
        | error e =>
            rw [placeEach_cons_of_error hfit, placeEach_cons_of_error (hstep.trans hfit)]
            rfl
        | ok result =>
            obtain ⟨next, w⟩ := result
            have hw : test w = true := (hignores.eq (unplaced_of_fitStep hfit)).trans htest
            rw [placeEach_cons_of_ok hfit, placeEach_cons_of_ok (hstep.trans hfit), ih]
            cases placeEach (fitWhereStep space test) next vs with
            | error e => rfl
            | ok rest => simp [Except.map, hw]
      · rw [List.filter_cons_of_neg htest, placeEach_cons_of_ok (fitWhereStep_of_neg htest), ih]
        cases placeEach (fitWhereStep space test) pool vs with
        | error e => rfl
        | ok rest => simp [Except.map, htest]

theorem placeWhere_eq_error_iff (hignores : IgnoresLocation test) :
    placeWhere space test pool vs = .error e ↔
      placeEach (fitStep space) pool (vs.filter test) = .error e := by
  rw [placeEach_filter hignores, placeWhere_eq_placeEach]
  cases placeEach (fitWhereStep space test) pool vs with
  | error e' => simp [Except.map]
  | ok rest => simp [Except.map]

theorem placeEach_filter_of_placeWhere (hignores : IgnoresLocation test)
    (h : placeWhere space test pool vs = .ok (left, ws)) :
    placeEach (fitStep space) pool (vs.filter test) = .ok (left, ws.filter test) := by
  rw [placeEach_filter hignores, ← placeWhere_eq_placeEach, h]
  rfl

/-- Variables find places exactly where each takes the lowest extent in turn. -/
theorem placeEach_fitStep_eq_ok_iff (hpool : pool.Holds free) :
    (∃ left, placeEach (fitStep space) pool vs = .ok (left, ws)) ↔
      ws.map InterfaceVar.unplaced = vs.map InterfaceVar.unplaced ∧
        InTurn Extent.Lowest free (extents ws) := by
  constructor
  · rintro ⟨left, h⟩
    have hturn := (inTurn_of_placeEach (fitStep_follows space) hpool h).1
    rw [List.filter_true] at hturn
    exact ⟨unplaced_of_placeEach (fitStep_follows space) h, hturn⟩
  · rintro ⟨hsame, hturn⟩
    induction vs generalizing pool free ws with
    | nil =>
        obtain rfl := List.map_eq_nil_iff.mp hsame
        exact ⟨pool, rfl⟩
    | cons v vs ih =>
        cases ws with
        | nil => cases hsame
        | cons w ws =>
            obtain ⟨hw, hws⟩ := List.cons.inj hsame
            obtain ⟨next, hfit, hnext⟩ : ∃ next, fitStep space pool v = .ok (next, w) ∧
                next.Holds (free \ w.slots) := fitStep_of_lowest hpool hw hturn.1
            obtain ⟨left, hleft⟩ := ih hnext hws hturn.2
            exact ⟨left, placeEach_cons_eq_ok_iff.mpr ⟨next, w, ws, hfit, hleft, rfl⟩⟩

end

end LegacyShader
