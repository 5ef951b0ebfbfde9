import LegacyShader.Proofs.Passes
import Mathlib.Data.List.Nodup

/-!
# Placement of varyings

Vertex outputs are placed in two passes, active ones first, and each is as low as
those before it allow.  Fragment inputs come third.  One that has the name of a
vertex output is *matched* and goes where that output is.  One that is not must be
inactive, and gets a place that neither an output nor an unmatched input before it
occupies.

`VaryingLayout` says where fragment inputs are, given the placed outputs.  Behind a
placement of outputs, resolving inputs gives exactly the layout, and it fails
exactly at the first input that has none (`resolveInputs_iff_varyingLayout`).

Matched inputs share the location of an output, but have a type of their own.  So
two of them meet if one is larger than its output and reaches beyond it.  That is
the only way (`pairwise_disjoint_iff_not_beyond_output`).
-/

namespace LegacyShader

/-! ## Matching by name -/

/-- No output has the name of a variable. -/
def unmatched (outputs : List InterfaceVar) (v : InterfaceVar) : Bool :=
  outputs.all fun w => w.name != v.name

/-- An output is the last one of a name, active outputs first. -/
def LastNamed (outputs : List InterfaceVar) (name : String) (w : InterfaceVar) : Prop :=
  ∃ before after, placementOrder outputs = before ++ w :: after ∧ w.name = name ∧
    ∀ u ∈ after, u.name ≠ name

theorem unmatched_iff {outputs : List InterfaceVar} {v : InterfaceVar} :
    unmatched outputs v = true ↔ ∀ w ∈ outputs, w.name ≠ v.name := by
  simp [unmatched]

theorem LastNamed.mem {outputs : List InterfaceVar} {name : String} {w : InterfaceVar}
    (h : LastNamed outputs name w) : w ∈ outputs := by
  obtain ⟨before, after, horder, -, -⟩ := h
  exact (placementOrder_perm outputs).mem_iff.mp (by simp [horder])

theorem LastNamed.name_eq {outputs : List InterfaceVar} {name : String} {w : InterfaceVar}
    (h : LastNamed outputs name w) : w.name = name := by
  obtain ⟨before, after, -, hname, -⟩ := h
  exact hname

/-- The location of a name is that of the last output that has it. -/
theorem varyingLocation?_eq_some_iff {outputs : List InterfaceVar} {name : String} {l : Nat} :
    varyingLocation? outputs name = some l ↔ ∃ w, LastNamed outputs name w ∧ w.location = l := by
  unfold varyingLocation?
  rw [Option.map_eq_some_iff]
  refine exists_congr fun w => and_congr_left fun _ => ?_
  rw [List.find?_eq_some_iff_append]
  constructor
  · rintro ⟨hname, after, before, hreverse, hafter⟩
    refine ⟨before.reverse, after.reverse, ?_, beq_iff_eq.mp hname, ?_⟩
    · rw [← List.reverse_reverse (placementOrder outputs), hreverse]
      simp
    · simpa using hafter
  · rintro ⟨before, after, horder, hname, hafter⟩
    refine ⟨beq_iff_eq.mpr hname, after.reverse, before.reverse, by simp [horder], ?_⟩
    simpa using hafter

/-- A name has no location exactly if no output has it. -/
theorem varyingLocation?_eq_none_iff {outputs : List InterfaceVar} {v : InterfaceVar} :
    varyingLocation? outputs v.name = none ↔ unmatched outputs v = true := by
  unfold varyingLocation?
  rw [Option.map_eq_none_iff, List.find?_eq_none, unmatched_iff]
  simp [(placementOrder_perm outputs).mem_iff]

/-- Every variable is matched or not. -/
theorem exists_lastNamed {outputs : List InterfaceVar} {v : InterfaceVar}
    (h : unmatched outputs v = false) :
    ∃ w, LastNamed outputs v.name w ∧ varyingLocation? outputs v.name = some w.location := by
  cases hlocation : varyingLocation? outputs v.name with
  | none =>
      rw [varyingLocation?_eq_none_iff.mp hlocation] at h
      cases h
  | some l =>
      obtain ⟨w, hlast, rfl⟩ := varyingLocation?_eq_some_iff.mp hlocation
      exact ⟨w, hlast, rfl⟩

/-! ## Outputs -/

theorem placeVaryings_eq_ok_iff {capacity : Nat} {outputs placed : List InterfaceVar}
    {pool : LocationPool} :
    placeVaryings capacity outputs = .ok (pool, placed) ↔
      ∃ pool₁ vs₁,
        placeWhere .varyings (·.active) (.ofCapacity capacity) outputs = .ok (pool₁, vs₁) ∧
        placeWhere .varyings (!·.active) pool₁ vs₁ = .ok (pool, placed) := by
  simp only [placeVaryings, bind_eq_ok_iff, Prod.exists]

/-- What the two passes over outputs take, and what they leave.  The second pass does not
move active outputs. -/
theorem inTurn_of_placeVaryings {capacity : Nat} {outputs placed : List InterfaceVar}
    {pool : LocationPool} (h : placeVaryings capacity outputs = .ok (pool, placed)) :
    placed.map InterfaceVar.unplaced = outputs.map InterfaceVar.unplaced ∧
    InTurn Extent.Lowest (Set.Ico 0 capacity) (extents (placementOrder placed)) ∧
    pool.Holds (Set.Ico 0 capacity \ occupied (extents placed)) := by
  obtain ⟨pool₁, vs₁, h₁, h₂⟩ := placeVaryings_eq_ok_iff.mp h
  have hactive : placed.filter (·.active) = vs₁.filter (·.active) :=
    filter_eq_of_placeWhere (fun _ => rfl) (fun v hv => by simp [hv]) h₂
  rw [placeWhere_eq_placeEach] at h₁ h₂
  have hfollows₁ := fitWhereStep_follows .varyings
    (show IgnoresLocation fun v => v.active from fun _ => rfl)
  have hfollows₂ := fitWhereStep_follows .varyings
    (show IgnoresLocation fun v => !v.active from fun _ => rfl)
  obtain ⟨hturn₁, hpool₁⟩ :=
    inTurn_of_placeEach hfollows₁ (LocationPool.ofCapacity_holds capacity) h₁
  obtain ⟨hturn₂, hpool₂⟩ := inTurn_of_placeEach hfollows₂ hpool₁ h₂
  rw [← hactive] at hturn₁ hturn₂ hpool₂
  refine ⟨?_, ?_, ?_⟩
  · rw [unplaced_of_placeEach hfollows₂ h₂, unplaced_of_placeEach hfollows₁ h₁]
  · rw [placementOrder, extents_append, InTurn.append_iff]
    exact ⟨hturn₁, hturn₂⟩
  · rw [Set.sdiff_sdiff, ← occupied_append, ← extents_append] at hpool₂
    have hslots : occupied (extents (placementOrder placed)) = occupied (extents placed) :=
      occupied_extents_perm (placementOrder_perm placed)
    rw [← hslots]
    exact hpool₂

/-! ## Layouts of inputs -/

/-- A run at a location lies below the capacity and meets none of the variables. -/
def RoomAt (capacity : Nat) (outputs inputs : List InterfaceVar) (size l : Nat) : Prop :=
  Set.Ico l (l + size) ⊆ Set.Ico 0 capacity ∧
    (∀ w ∈ outputs, Disjoint (Set.Ico l (l + size)) w.slots) ∧
    ∀ w ∈ inputs, Disjoint (Set.Ico l (l + size)) w.slots

/-- Fragment inputs are placed with vertex outputs that already have their places. -/
structure VaryingLayout (capacity : Nat) (outputs inputs placed : List InterfaceVar) : Prop where
  /-- Only locations differ. -/
  unplaced : placed.map InterfaceVar.unplaced = inputs.map InterfaceVar.unplaced
  /-- An input that has the name of an output is where the last output of the name is. -/
  matched : ∀ v ∈ placed, (∃ w ∈ outputs, w.name = v.name) →
    ∃ w, LastNamed outputs v.name w ∧ v.location = w.location
  /-- Every other input is inactive. -/
  inactive : ∀ v ∈ placed, (∀ w ∈ outputs, w.name ≠ v.name) → v.active = false
  /-- Every other input lies below the capacity. -/
  within : ∀ v ∈ placed, (∀ w ∈ outputs, w.name ≠ v.name) → v.slots ⊆ Set.Ico 0 capacity
  /-- Every other input meets no output. -/
  apart : ∀ v ∈ placed, (∀ w ∈ outputs, w.name ≠ v.name) →
    ∀ w ∈ outputs, Disjoint v.slots w.slots
  /-- No two of the other inputs meet. -/
  disjoint : (placed.filter (unmatched outputs)).Pairwise fun v w => Disjoint v.slots w.slots
  /-- Every other input is as low as outputs and those before it allow. -/
  lowest : ∀ before v after, placed.filter (unmatched outputs) = before ++ v :: after →
    IsLeast {l | RoomAt capacity outputs before v.footprint l} v.location

section

variable {capacity : Nat} {outputs inputs placed : List InterfaceVar}
variable {pool left : LocationPool} {free : Set Nat} {v w : InterfaceVar} {e : PlacementError}

theorem roomAt_iff {size l : Nat} :
    RoomAt capacity outputs inputs size l ↔
      Set.Ico l (l + size) ⊆
        (Set.Ico 0 capacity \ occupied (extents outputs)) \ occupied (extents inputs) := by
  rw [subset_sdiff_extents_iff, subset_sdiff_extents_iff, and_assoc]
  rfl

/-- What a pass over inputs does, with the locations of names and what is free. -/
structure Resolved (outputs : List InterfaceVar) (free : Set Nat)
    (inputs placed : List InterfaceVar) : Prop where
  /-- Only locations differ. -/
  unplaced : placed.map InterfaceVar.unplaced = inputs.map InterfaceVar.unplaced
  /-- Matched inputs are at the locations of their names. -/
  matched : ∀ v ∈ placed, unmatched outputs v = false →
    varyingLocation? outputs v.name = some v.location
  /-- Unmatched inputs are inactive. -/
  inactive : ∀ v ∈ placed, unmatched outputs v = true → v.active = false
  /-- Unmatched inputs take the lowest extents that are free. -/
  inTurn : InTurn Extent.Lowest free (extents (placed.filter (unmatched outputs)))

/-- A layout is what a pass does with what outputs leave free. -/
theorem varyingLayout_iff_resolved :
    VaryingLayout capacity outputs inputs placed ↔
      Resolved outputs (Set.Ico 0 capacity \ occupied (extents outputs)) inputs placed := by
  constructor
  · intro h
    refine ⟨h.unplaced, ?_, ?_, ?_⟩
    · intro v hv hmatched
      obtain ⟨o, hlast, -⟩ := exists_lastNamed hmatched
      obtain ⟨w, hw, hlocation⟩ := h.matched v hv ⟨o, hlast.mem, hlast.name_eq⟩
      exact varyingLocation?_eq_some_iff.mpr ⟨w, hw, hlocation.symm⟩
    · intro v hv hunmatched
      exact h.inactive v hv (unmatched_iff.mp hunmatched)
    · refine inTurn_lowest_iff.mpr fun before v after hsplit => ?_
      have hleast := h.lowest before v after hsplit
      simp only [roomAt_iff, subset_sdiff_extents_iff] at hleast ⊢
      exact hleast
  · intro h
    have hturn := h.inTurn.mono fun _ _ => Extent.Lowest.within
    have hslots : ∀ v ∈ placed, (∀ w ∈ outputs, w.name ≠ v.name) →
        v.slots ⊆ Set.Ico 0 capacity ∧ ∀ w ∈ outputs, Disjoint v.slots w.slots := by
      intro v hv hnames
      refine subset_sdiff_extents_iff.mp (slots_subset_of_inTurn hturn ?_)
      exact List.mem_filter.mpr ⟨hv, unmatched_iff.mpr hnames⟩
    refine ⟨h.unplaced, ?_, ?_, fun v hv hnames => (hslots v hv hnames).1,
      fun v hv hnames => (hslots v hv hnames).2, pairwise_disjoint_of_inTurn hturn, ?_⟩
    · rintro v hv ⟨o, ho, hname⟩
      have hmatched : unmatched outputs v = false :=
        Bool.eq_false_iff.mpr fun hu => unmatched_iff.mp hu o ho hname
      obtain ⟨w, hlast, hlocation⟩ :=
        varyingLocation?_eq_some_iff.mp (h.matched v hv hmatched)
      exact ⟨w, hlast, hlocation.symm⟩
    · intro v hv hnames
      exact h.inactive v hv (unmatched_iff.mpr hnames)
    · intro before v after hsplit
      have hleast := inTurn_lowest_iff.mp h.inTurn before v after hsplit
      simp only [roomAt_iff, subset_sdiff_extents_iff] at hleast ⊢
      exact hleast

/-! ## Resolving inputs -/

theorem resolveStep_cases (h : resolveStep outputs pool v = .ok (left, w)) :
    (unmatched outputs v = false ∧ left = pool ∧
      ∃ location, varyingLocation? outputs v.name = some location ∧ w = { v with location }) ∨
    (unmatched outputs v = true ∧ v.active = false ∧
      fitStep .varyings pool v = .ok (left, w)) := by
  cases hmatch : unmatched outputs v with
  | false =>
      obtain ⟨o, -, hlocation⟩ := exists_lastNamed hmatch
      rw [resolveStep_of_matched hlocation] at h
      cases h
      exact .inl ⟨rfl, rfl, o.location, hlocation, rfl⟩
  | true =>
      have hnone := varyingLocation?_eq_none_iff.mpr hmatch
      cases hactive : v.active with
      | true => rw [resolveStep_of_active hnone hactive] at h; cases h
      | false =>
          rw [resolveStep_of_inactive hnone (by simp [hactive])] at h
          exact .inr ⟨rfl, rfl, h⟩

/-- An input cannot be placed exactly if it is unmatched, and active or without room. -/
theorem resolveStep_eq_error_iff (hpool : pool.Holds free) :
    resolveStep outputs pool v = .error e ↔
      unmatched outputs v = true ∧
        (v.active = true ∧ e = .unresolvedVarying v.name ∨
          v.active = false ∧ e = .exhausted .varyings v.name ∧
            ∀ l, ¬ Set.Ico l (l + v.footprint) ⊆ free) := by
  cases hmatch : unmatched outputs v with
  | false =>
      obtain ⟨o, -, hlocation⟩ := exists_lastNamed hmatch
      simp [resolveStep_of_matched hlocation]
  | true =>
      have hnone := varyingLocation?_eq_none_iff.mpr hmatch
      cases hactive : v.active with
      | true => simp [resolveStep_of_active hnone hactive, eq_comm]
      | false =>
          rw [resolveStep_of_inactive hnone (by simp [hactive]), fitStep_eq_error_iff hpool]
          simp

theorem unmatched_ignoresLocation (outputs : List InterfaceVar) :
    IgnoresLocation (unmatched outputs) := fun _ => rfl

theorem unplaced_of_resolveStep (h : resolveStep outputs pool v = .ok (left, w)) :
    w.unplaced = v.unplaced := by
  obtain ⟨-, -, location, -, rfl⟩ | ⟨-, -, hfit⟩ := resolveStep_cases h
  · rfl
  · exact unplaced_of_fitStep hfit

/-- Unmatched inputs take the lowest extents that are free. -/
theorem resolveStep_follows (outputs : List InterfaceVar) :
    (resolveStep outputs).Follows (unmatched outputs) Extent.Lowest where
  unplaced := by
    intro pool v left w h
    exact unplaced_of_resolveStep h
  takes := by
    intro pool v left w free hpool h htest
    rw [(unmatched_ignoresLocation outputs).eq (unplaced_of_resolveStep h)] at htest
    obtain ⟨hmatched, -, -⟩ | ⟨-, -, hfit⟩ := resolveStep_cases h
    · rw [hmatched] at htest
      cases htest
    · exact fitStep_lowest hpool hfit
  leaves := by
    intro pool v left w h htest
    rw [(unmatched_ignoresLocation outputs).eq (unplaced_of_resolveStep h)] at htest
    obtain ⟨-, hleft, -⟩ | ⟨hunmatched, -, -⟩ := resolveStep_cases h
    · exact hleft
    · rw [hunmatched] at htest
      cases htest

/-- What a pass over inputs does if it succeeds. -/
theorem Resolved.of_placeEach (hpool : pool.Holds free)
    (h : placeEach (resolveStep outputs) pool inputs = .ok (left, placed)) :
    Resolved outputs free inputs placed := by
  refine ⟨unplaced_of_placeEach (resolveStep_follows outputs) h, ?_, ?_,
    (inTurn_of_placeEach (resolveStep_follows outputs) hpool h).1⟩
  · refine forall_of_placeEach (fun pool v left w hstep hmatched => ?_) h
    obtain ⟨-, -, location, hlocation, rfl⟩ | ⟨hunmatched, -, hfit⟩ := resolveStep_cases hstep
    · exact hlocation
    · rw [(unmatched_ignoresLocation outputs).eq (unplaced_of_fitStep hfit), hunmatched] at hmatched
      cases hmatched
  · refine forall_of_placeEach (fun pool v left w hstep hunmatched => ?_) h
    obtain ⟨hmatched, -, location, -, rfl⟩ | ⟨-, hinactive, hfit⟩ := resolveStep_cases hstep
    · rw [show unmatched outputs { v with location } = unmatched outputs v from rfl,
        hmatched] at hunmatched
      cases hunmatched
    · obtain ⟨-, -, hsame⟩ := InterfaceVar.agree_of_unplaced (unplaced_of_fitStep hfit)
      rw [hsame, hinactive]

/-- One step of a resolution: the first input is placed, and the others are resolved
with what it leaves free. -/
theorem Resolved.step (hpool : pool.Holds free)
    (h : Resolved outputs free (v :: inputs) (w :: placed)) :
    ∃ next rest, resolveStep outputs pool v = .ok (next, w) ∧ next.Holds rest ∧
      Resolved outputs rest inputs placed := by
  obtain ⟨hw, hunplaced⟩ := List.cons.inj h.unplaced
  obtain ⟨hlocation, hmatched⟩ := List.forall_mem_cons.mp h.matched
  obtain ⟨hactive, hinactive⟩ := List.forall_mem_cons.mp h.inactive
  obtain ⟨hname, -, hsame⟩ := InterfaceVar.agree_of_unplaced hw
  cases htest : unmatched outputs w with
  | false =>
      have hstep : resolveStep outputs pool v = .ok (pool, { v with location := w.location }) :=
        resolveStep_of_matched (hname ▸ hlocation htest)
      have hmoved : w = { v with location := w.location } := InterfaceVar.eq_of_unplaced hw rfl
      rw [← hmoved] at hstep
      have hturn := h.inTurn
      rw [List.filter_cons_of_neg (by simp [htest])] at hturn
      exact ⟨pool, free, hstep, hpool, hunplaced, hmatched, hinactive, hturn⟩
  | true =>
      have hturn := h.inTurn
      rw [List.filter_cons_of_pos htest] at hturn
      obtain ⟨hlowest, hturn⟩ := hturn
      have hnone : varyingLocation? outputs v.name = none :=
        hname ▸ varyingLocation?_eq_none_iff.mpr htest
      have hidle : ¬ v.active = true := by simp [← hsame, hactive htest]
      obtain ⟨next, hfit, hnext⟩ : ∃ next, fitStep .varyings pool v = .ok (next, w) ∧
          next.Holds (free \ w.slots) := fitStep_of_lowest hpool hw hlowest
      refine ⟨next, _, ?_, hnext, hunplaced, hmatched, hinactive, hturn⟩
      rw [resolveStep_of_inactive hnone hidle, hfit]

/-- Inputs that can be resolved are. -/
theorem Resolved.placeEach_eq_ok (hpool : pool.Holds free)
    (h : Resolved outputs free inputs placed) :
    ∃ left, placeEach (resolveStep outputs) pool inputs = .ok (left, placed) := by
  induction inputs generalizing pool free placed with
  | nil =>
      obtain rfl : placed = [] := List.map_eq_nil_iff.mp h.unplaced
      exact ⟨pool, rfl⟩
  | cons v vs ih =>
      obtain ⟨w, ws, rfl⟩ : ∃ w ws, placed = w :: ws := by
        refine List.exists_cons_of_ne_nil ?_
        rintro rfl
        cases h.unplaced
      obtain ⟨next, rest, hstep, hnext, hrest⟩ := h.step hpool
      obtain ⟨left, hleft⟩ := ih hnext hrest
      exact ⟨left, placeEach_cons_eq_ok_iff.mpr ⟨next, w, ws, hstep, hleft, rfl⟩⟩

theorem resolved_iff_placeEach (hpool : pool.Holds free) :
    Resolved outputs free inputs placed ↔
      ∃ left, placeEach (resolveStep outputs) pool inputs = .ok (left, placed) := by
  constructor
  · intro h
    exact h.placeEach_eq_ok hpool
  · rintro ⟨left, h⟩
    exact .of_placeEach hpool h

theorem resolveInputs_eq_ok_iff :
    resolveInputs outputs pool inputs = .ok placed ↔
      ∃ left, placeEach (resolveStep outputs) pool inputs = .ok (left, placed) := by
  rw [resolveInputs_eq_placeEach]
  cases placeEach (resolveStep outputs) pool inputs with
  | error e => simp [Except.map]
  | ok result => simp [Except.map, Prod.ext_iff]

theorem resolveInputs_eq_error_iff :
    resolveInputs outputs pool inputs = .error e ↔
      placeEach (resolveStep outputs) pool inputs = .error e := by
  rw [resolveInputs_eq_placeEach]
  cases placeEach (resolveStep outputs) pool inputs with
  | error e' => simp [Except.map]
  | ok result => simp [Except.map]

/-- With a pool that has what outputs leave free, resolving gives exactly the layout. -/
theorem resolveInputs_eq_ok_iff_varyingLayout
    (hpool : pool.Holds (Set.Ico 0 capacity \ occupied (extents outputs))) :
    resolveInputs outputs pool inputs = .ok placed ↔
      VaryingLayout capacity outputs inputs placed := by
  rw [resolveInputs_eq_ok_iff, varyingLayout_iff_resolved, resolved_iff_placeEach hpool]

/-- Resolving fails exactly at an input that cannot be placed behind inputs that can. -/
theorem resolveInputs_eq_error_iff_stuck (hpool : pool.Holds free) :
    resolveInputs outputs pool inputs = .error e ↔
      ∃ before v after placed, inputs = before ++ v :: after ∧
        Resolved outputs free before placed ∧ unmatched outputs v = true ∧
        (v.active = true ∧ e = .unresolvedVarying v.name ∨
          v.active = false ∧ e = .exhausted .varyings v.name ∧
            ∀ l, ¬ Set.Ico l (l + v.footprint) ⊆
              free \ occupied (extents (placed.filter (unmatched outputs)))) := by
  rw [resolveInputs_eq_error_iff, placeEach_eq_error_iff]
  constructor
  · rintro ⟨before, v, after, next, placed, hsplit, hbefore, hstep⟩
    have hnext := (inTurn_of_placeEach (resolveStep_follows outputs) hpool hbefore).2
    exact ⟨before, v, after, placed, hsplit, .of_placeEach hpool hbefore,
      (resolveStep_eq_error_iff hnext).mp hstep⟩
  · rintro ⟨before, v, after, placed, hsplit, hbefore, hstuck⟩
    obtain ⟨next, hplace⟩ := hbefore.placeEach_eq_ok hpool
    have hnext := (inTurn_of_placeEach (resolveStep_follows outputs) hpool hplace).2
    exact ⟨before, v, after, next, placed, hsplit, hplace,
      (resolveStep_eq_error_iff hnext).mpr hstuck⟩

end

/-- Behind a placement of outputs, resolving inputs gives exactly the layout.  It
fails exactly at the first input that has no place: one that is active and has the
name of no output, or one that is inactive and unmatched when there is no room. -/
theorem resolveInputs_iff_varyingLayout {capacity : Nat} {outputs placedOutputs : List InterfaceVar}
    {pool : LocationPool} (houtputs : placeVaryings capacity outputs = .ok (pool, placedOutputs))
    (inputs : List InterfaceVar) :
    placedOutputs.map InterfaceVar.unplaced = outputs.map InterfaceVar.unplaced ∧
    (∀ placed, resolveInputs placedOutputs pool inputs = .ok placed ↔
      VaryingLayout capacity placedOutputs inputs placed) ∧
    (∀ name, resolveInputs placedOutputs pool inputs = .error (.unresolvedVarying name) ↔
      ∃ before v after placed, inputs = before ++ v :: after ∧
        VaryingLayout capacity placedOutputs before placed ∧
        (∀ w ∈ placedOutputs, w.name ≠ v.name) ∧ v.active = true ∧ v.name = name) ∧
    (∀ space name, resolveInputs placedOutputs pool inputs = .error (.exhausted space name) ↔
      space = .varyings ∧ ∃ before v after placed, inputs = before ++ v :: after ∧
        VaryingLayout capacity placedOutputs before placed ∧
        (∀ w ∈ placedOutputs, w.name ≠ v.name) ∧ v.active = false ∧ v.name = name ∧
        ¬ ∃ l, RoomAt capacity placedOutputs (placed.filter (unmatched placedOutputs))
          v.footprint l) := by
  obtain ⟨hunplaced, -, hpool⟩ := inTurn_of_placeVaryings houtputs
  refine ⟨hunplaced, ?_, ?_, ?_⟩
  · intro placed
    exact resolveInputs_eq_ok_iff_varyingLayout hpool
  · intro name
    simp only [resolveInputs_eq_error_iff_stuck hpool, ← varyingLayout_iff_resolved,
      unmatched_iff]
    constructor
    · rintro ⟨before, v, after, placed, hsplit, hbefore, hnames, hstuck⟩
      obtain ⟨hactive, he⟩ | ⟨-, he, -⟩ := hstuck
      · cases he
        exact ⟨before, v, after, placed, hsplit, hbefore, hnames, hactive, rfl⟩
      · cases he
    · rintro ⟨before, v, after, placed, hsplit, hbefore, hnames, hactive, rfl⟩
      exact ⟨before, v, after, placed, hsplit, hbefore, hnames, .inl ⟨hactive, rfl⟩⟩
  · intro space name
    simp only [resolveInputs_eq_error_iff_stuck hpool, ← varyingLayout_iff_resolved,
      unmatched_iff, roomAt_iff]
    constructor
    · rintro ⟨before, v, after, placed, hsplit, hbefore, hnames, hstuck⟩
      obtain ⟨-, he⟩ | ⟨hactive, he, hfull⟩ := hstuck
      · cases he
      · cases he
        exact ⟨rfl, before, v, after, placed, hsplit, hbefore, hnames, hactive, rfl,
          not_exists.mpr hfull⟩
    · rintro ⟨rfl, before, v, after, placed, hsplit, hbefore, hnames, hactive, rfl, hfull⟩
      exact ⟨before, v, after, placed, hsplit, hbefore, hnames,
        .inr ⟨hactive, rfl, not_exists.mp hfull⟩⟩

/-- Two outputs share a name, and the inactive one counts.  The input without an
output goes behind all three. -/
theorem resolveInputs_iff_varyingLayout_of_repeated_name :
    let output (name : String) (index : Nat) (active : Bool) (location : Nat) : InterfaceVar :=
      ⟨name, .vector .two .f32, .resultMember index, location, active⟩
    let input (name : String) (index : Nat) (active : Bool) (location : Nat) : InterfaceVar :=
      ⟨name, .vector .two .f32, .argument index, location, active⟩
    let outputs := [output "uv" 0 false 0, output "color" 1 true 0, output "uv" 2 true 0]
    let placedOutputs := [output "uv" 0 false 2, output "color" 1 true 0, output "uv" 2 true 1]
    let inputs := [input "uv" 0 true 0, input "spare" 1 false 0]
    let placed := [input "uv" 0 true 2, input "spare" 1 false 3]
    placeVaryings 4 outputs = .ok (⟨[⟨3, 1⟩]⟩, placedOutputs) ∧
      resolveInputs placedOutputs ⟨[⟨3, 1⟩]⟩ inputs = .ok placed ∧
      VaryingLayout 4 placedOutputs inputs placed := by
  intro output input outputs placedOutputs inputs placed
  have houtputs : placeVaryings 4 outputs = .ok (⟨[⟨3, 1⟩]⟩, placedOutputs) := rfl
  have hinputs : resolveInputs placedOutputs ⟨[⟨3, 1⟩]⟩ inputs = .ok placed := rfl
  obtain ⟨-, hok, -, -⟩ := resolveInputs_iff_varyingLayout houtputs inputs
  exact ⟨houtputs, hinputs, (hok placed).mp hinputs⟩

/-! ## Collisions -/

/-- No two placed outputs meet. -/
theorem disjoint_of_placeVaryings {capacity : Nat} {outputs placed : List InterfaceVar}
    {pool : LocationPool} (h : placeVaryings capacity outputs = .ok (pool, placed)) :
    placed.Pairwise fun v w => Disjoint v.slots w.slots := by
  obtain ⟨-, hturn, -⟩ := inTurn_of_placeVaryings h
  refine (InterfaceVar.pairwise_disjoint_perm (placementOrder_perm placed)).mp ?_
  exact pairwise_disjoint_of_inTurn (hturn.mono fun _ _ => Extent.Lowest.within)

section

variable {capacity : Nat} {outputs inputs placed : List InterfaceVar} {v w o : InterfaceVar}

/-- With one output for each name, an input is where the output of its name is. -/
theorem VaryingLayout.location_eq (h : VaryingLayout capacity outputs inputs placed)
    (hnames : (outputs.map InterfaceVar.name).Nodup) (hv : v ∈ placed) (ho : o ∈ outputs)
    (hname : o.name = v.name) : v.location = o.location := by
  obtain ⟨w, hlast, hlocation⟩ := h.matched v hv ⟨o, ho, hname⟩
  have hwo : w.name = o.name := hlast.name_eq.trans hname.symm
  rw [hlocation, List.inj_on_of_nodup_map hnames hlast.mem ho hwo]

/-- With one output for each name, an input is where the output of its name is, or it
is of another name than all outputs and meets none. -/
theorem VaryingLayout.at_output_or_apart (h : VaryingLayout capacity outputs inputs placed)
    (hnames : (outputs.map InterfaceVar.name).Nodup) (hv : v ∈ placed) :
    (∃ o ∈ outputs, o.name = v.name ∧ v.location = o.location) ∨
      ∀ o ∈ outputs, Disjoint v.slots o.slots ∧ o.name ≠ v.name := by
  by_cases hmatch : ∃ o ∈ outputs, o.name = v.name
  · obtain ⟨o, ho, hname⟩ := hmatch
    exact .inl ⟨o, ho, hname, h.location_eq hnames hv ho hname⟩
  · have hunmatched : ∀ o ∈ outputs, o.name ≠ v.name := fun o ho hname => hmatch ⟨o, ho, hname⟩
    exact .inr fun o ho => ⟨h.apart v hv hunmatched o ho, hunmatched o ho⟩

/-- An input starts within another one only beyond the output of that one's name. -/
theorem VaryingLayout.location_not_mem_slots (h : VaryingLayout capacity outputs inputs placed)
    (hdisjoint : outputs.Pairwise fun v w => Disjoint v.slots w.slots)
    (hnames : (outputs.map InterfaceVar.name).Nodup) (hv : v ∈ placed) (hw : w ∈ placed)
    (hne : v.name ≠ w.name)
    (hbeyond : ∀ o ∈ outputs, o.name = v.name →
      w.location ∉ Set.Ico (o.location + o.footprint) (v.location + v.footprint)) :
    w.location ∉ v.slots := by
  intro hmem
  rcases h.at_output_or_apart hnames hv with ⟨o, ho, hoName, hoLocation⟩ | hvApart
  · have hinside : w.location ∈ o.slots := by
      have hnot := hbeyond o ho hoName
      simp only [InterfaceVar.slots, Set.mem_Ico] at hmem hnot ⊢
      omega
    rcases h.at_output_or_apart hnames hw with ⟨p, hp, hpName, hpLocation⟩ | hwApart
    · have hop : o ≠ p := by
        rintro rfl
        exact hne (hoName.symm.trans hpName)
      rw [hpLocation] at hinside
      exact Set.disjoint_left.mp (InterfaceVar.disjoint_of_pairwise hdisjoint ho hp hop) hinside
        p.location_mem_slots
    · exact Set.disjoint_left.mp (hwApart o ho).1 w.location_mem_slots hinside
  · rcases h.at_output_or_apart hnames hw with ⟨p, hp, -, hpLocation⟩ | hwApart
    · rw [hpLocation] at hmem
      exact Set.disjoint_left.mp (hvApart p hp).1 hmem p.location_mem_slots
    · have hvw : v ≠ w := fun heq => hne (congrArg InterfaceVar.name heq)
      have hvMem : v ∈ placed.filter (unmatched outputs) :=
        List.mem_filter.mpr ⟨hv, unmatched_iff.mpr fun o ho => (hvApart o ho).2⟩
      have hwMem : w ∈ placed.filter (unmatched outputs) :=
        List.mem_filter.mpr ⟨hw, unmatched_iff.mpr fun o ho => (hwApart o ho).2⟩
      exact Set.disjoint_left.mp (InterfaceVar.disjoint_of_pairwise h.disjoint hvMem hwMem hvw) hmem
        w.location_mem_slots

/-- Inputs of different names do not meet exactly if none starts beyond the output of
another one's name and within that one. -/
theorem VaryingLayout.pairwise_disjoint_iff (h : VaryingLayout capacity outputs inputs placed)
    (hdisjoint : outputs.Pairwise fun v w => Disjoint v.slots w.slots)
    (houtputs : (outputs.map InterfaceVar.name).Nodup)
    (hplaced : (placed.map InterfaceVar.name).Nodup) :
    (placed.Pairwise fun v w => Disjoint v.slots w.slots) ↔
      ∀ v ∈ placed, ∀ o ∈ outputs, o.name = v.name → ∀ w ∈ placed,
        w.location ∉ Set.Ico (o.location + o.footprint) (v.location + v.footprint) := by
  constructor
  · intro hpairs v hv o ho hname w hw hmem
    have hlocation := h.location_eq houtputs hv ho hname
    have hpos := o.footprint_pos
    simp only [Set.mem_Ico] at hmem
    have hvw : v ≠ w := by
      rintro rfl
      omega
    have hinside : w.location ∈ v.slots := by
      simp only [InterfaceVar.slots, Set.mem_Ico]
      omega
    exact Set.disjoint_left.mp (InterfaceVar.disjoint_of_pairwise hpairs hv hw hvw) hinside
      w.location_mem_slots
  · intro hbeyond
    rw [List.Nodup, List.pairwise_map] at hplaced
    refine hplaced.imp_of_mem fun {v w} hv hw hne => ?_
    refine InterfaceVar.disjoint_slots_iff.mpr ⟨?_, ?_⟩
    · exact h.location_not_mem_slots hdisjoint houtputs hv hw hne
        fun o ho hname => hbeyond v hv o ho hname w hw
    · exact h.location_not_mem_slots hdisjoint houtputs hw hv hne.symm
        fun o ho hname => hbeyond w hw o ho hname v hv

end

/-- With different names on each side, linked fragment inputs do not meet exactly if
none of them starts in that part of another one that lies beyond the vertex output of
its name.  So they do not if no input is larger than the output of its name. -/
theorem pairwise_disjoint_iff_not_beyond_output {capacity : Nat}
    {outputs placedOutputs inputs placed : List InterfaceVar} {pool : LocationPool}
    (houtputs : placeVaryings capacity outputs = .ok (pool, placedOutputs))
    (hinputs : resolveInputs placedOutputs pool inputs = .ok placed)
    (houtputNames : (outputs.map InterfaceVar.name).Nodup)
    (hinputNames : (inputs.map InterfaceVar.name).Nodup) :
    ((placed.Pairwise fun v w => Disjoint v.slots w.slots) ↔
      ∀ v ∈ placed, ∀ o ∈ placedOutputs, o.name = v.name → ∀ w ∈ placed,
        w.location ∉ Set.Ico (o.location + o.footprint) (v.location + v.footprint)) ∧
    ((∀ v ∈ placed, ∀ o ∈ placedOutputs, o.name = v.name → v.footprint ≤ o.footprint) →
      placed.Pairwise fun v w => Disjoint v.slots w.slots) := by
  obtain ⟨hunplaced, -, hpool⟩ := inTurn_of_placeVaryings houtputs
  have hlayout := (resolveInputs_eq_ok_iff_varyingLayout hpool).mp hinputs
  rw [← InterfaceVar.map_name_of_map_unplaced hunplaced] at houtputNames
  rw [← InterfaceVar.map_name_of_map_unplaced hlayout.unplaced] at hinputNames
  have hiff := hlayout.pairwise_disjoint_iff (disjoint_of_placeVaryings houtputs) houtputNames
    hinputNames
  refine ⟨hiff, fun hfits => hiff.mpr fun v hv o ho hname w _ hmem => ?_⟩
  have hlocation := hlayout.location_eq houtputNames hv ho hname
  have hsize := hfits v hv o ho hname
  simp only [Set.mem_Ico] at hmem
  omega

/-- The fragment stage reads `color` at double width, which takes two slots, and the
vertex stage writes it in one.  Nothing starts in the second slot. -/
theorem pairwise_disjoint_iff_not_beyond_output_at_end :
    let output (name : String) (scalar : Scalar) (index location : Nat) : InterfaceVar :=
      ⟨name, .vector .four scalar, .resultMember index, location, true⟩
    let input (name : String) (scalar : Scalar) (index location : Nat) : InterfaceVar :=
      ⟨name, .vector .four scalar, .argument index, location, true⟩
    let outputs := [output "uv" .f32 0 0, output "color" .f32 1 0]
    let placedOutputs := [output "uv" .f32 0 0, output "color" .f32 1 1]
    let inputs := [input "color" .f64 0 0, input "uv" .f32 1 0]
    let placed := [input "color" .f64 0 1, input "uv" .f32 1 0]
    placeVaryings 4 outputs = .ok (⟨[⟨2, 2⟩]⟩, placedOutputs) ∧
      resolveInputs placedOutputs ⟨[⟨2, 2⟩]⟩ inputs = .ok placed ∧
      (outputs.map InterfaceVar.name).Nodup ∧ (inputs.map InterfaceVar.name).Nodup ∧
      placed.Pairwise fun v w => Disjoint v.slots w.slots := by
  intro output input outputs placedOutputs inputs placed
  have houtputs : placeVaryings 4 outputs = .ok (⟨[⟨2, 2⟩]⟩, placedOutputs) := rfl
  have hinputs : resolveInputs placedOutputs ⟨[⟨2, 2⟩]⟩ inputs = .ok placed := rfl
  have houtputNames : (outputs.map InterfaceVar.name).Nodup := by decide
  have hinputNames : (inputs.map InterfaceVar.name).Nodup := by decide
  obtain ⟨hiff, -⟩ :=
    pairwise_disjoint_iff_not_beyond_output houtputs hinputs houtputNames hinputNames
  refine ⟨houtputs, hinputs, houtputNames, hinputNames, hiff.mpr ?_⟩
  intro v hv o ho hname w hw hmem
  have hlocation : ∀ w ∈ placed, w.location ≤ 1 := by decide
  have hend : ∀ v ∈ placed, ∀ o ∈ placedOutputs, o.name = v.name →
      o.location + o.footprint = 2 ∨ v.location + v.footprint = 1 := by decide
  have hwLow := hlocation w hw
  have hvEnd := hend v hv o ho hname
  have hpos := o.footprint_pos
  simp only [Set.mem_Ico] at hmem
  omega

/-- With `color` in the first place, its second slot is that of `uv`. -/
theorem not_pairwise_disjoint_of_wider_input :
    let output (name : String) (scalar : Scalar) (index location : Nat) : InterfaceVar :=
      ⟨name, .vector .four scalar, .resultMember index, location, true⟩
    let input (name : String) (scalar : Scalar) (index location : Nat) : InterfaceVar :=
      ⟨name, .vector .four scalar, .argument index, location, true⟩
    let outputs := [output "color" .f32 0 0, output "uv" .f32 1 0]
    let placedOutputs := [output "color" .f32 0 0, output "uv" .f32 1 1]
    let inputs := [input "color" .f64 0 0, input "uv" .f32 1 0]
    let placed := [input "color" .f64 0 0, input "uv" .f32 1 1]
    placeVaryings 4 outputs = .ok (⟨[⟨2, 2⟩]⟩, placedOutputs) ∧
      resolveInputs placedOutputs ⟨[⟨2, 2⟩]⟩ inputs = .ok placed ∧
      (outputs.map InterfaceVar.name).Nodup ∧ (inputs.map InterfaceVar.name).Nodup ∧
      ¬ placed.Pairwise fun v w => Disjoint v.slots w.slots := by
  intro output input outputs placedOutputs inputs placed
  refine ⟨rfl, rfl, by decide, by decide, ?_⟩
  intro hpairs
  have hdisjoint := (List.pairwise_cons.mp hpairs).1 (input "uv" .f32 1 1) (by simp)
  have hcolor : 1 ∈ (input "color" .f64 0 0).slots := by
    simp only [InterfaceVar.slots, Set.mem_Ico]
    decide
  exact Set.disjoint_left.mp hdisjoint hcolor (input "uv" .f32 1 1).location_mem_slots

end LegacyShader
