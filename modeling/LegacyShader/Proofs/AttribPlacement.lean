import LegacyShader.Proofs.Passes

/-!
# Placement of attributes

Three passes place the inputs of a vertex stage.  The first takes the places of
the pinned ones, the second finds places for the active ones of the rest, and the
third for the inactive ones.  Each pass moves only its own variables, so what one
has placed is still there at the end, and all three draw from one pool.

`AttribLayout` says where the inputs are in the end, without a pool or a pass: no
two of them meet, the pinned ones are at their pins, and each other one is as low
as what was placed before it allows.  Every placement that succeeds is such a
layout, and pins that no input has the name of do not matter
(`attribLayout_of_placeAttribs`).
-/

namespace LegacyShader

/-! ## Layouts -/

/-- A variable has a pin. -/
def Pins.pinned (pins : Pins) (v : InterfaceVar) : Bool := (pins.get? v.name).isSome

/-- A variable has no pin. -/
def Pins.unpinned (pins : Pins) (v : InterfaceVar) : Bool := (pins.get? v.name).isNone

theorem Pins.not_pinned (pins : Pins) (v : InterfaceVar) : (!pins.pinned v) = pins.unpinned v := by
  simp [pinned, unpinned]

theorem Pins.unpinned_of_pinned {pins : Pins} {v : InterfaceVar} (h : pins.pinned v = true) :
    pins.unpinned v = false := by
  rw [← pins.not_pinned, h, Bool.not_true]

/-- The locations `[0, capacity)` are shared out to vertex inputs. -/
structure AttribLayout (pins : Pins) (capacity : Nat) (inputs placed : List InterfaceVar) :
    Prop where
  /-- Only locations differ. -/
  unplaced : placed.map InterfaceVar.unplaced = inputs.map InterfaceVar.unplaced
  /-- No two variables meet. -/
  disjoint : placed.Pairwise fun v w => Disjoint v.slots w.slots
  /-- All variables lie below the capacity. -/
  within : ∀ v ∈ placed, v.slots ⊆ Set.Ico 0 capacity
  /-- Pinned variables are at their pins. -/
  atPin : ∀ v ∈ placed, ∀ location, pins.get? v.name = some location → v.location = location
  /-- Every other variable is at the least location at which it meets no pinned
  variable and none that comes before it, active ones first. -/
  lowest : ∀ before v after,
    placementOrder (placed.filter pins.unpinned) = before ++ v :: after →
    IsLeast {l | Set.Ico l (l + v.footprint) ⊆ Set.Ico 0 capacity ∧
      (∀ w ∈ placed, pins.pinned w = true → Disjoint (Set.Ico l (l + v.footprint)) w.slots) ∧
      ∀ w ∈ before, Disjoint (Set.Ico l (l + v.footprint)) w.slots} v.location

/-! ## The three passes -/

theorem placeAttribs_eq_ok_iff {pins : Pins} {capacity : Nat} {inputs placed : List InterfaceVar} :
    placeAttribs pins capacity inputs = .ok placed ↔
      ∃ pool₁ vs₁ pool₂ vs₂ pool₃,
        reservePins pins (.ofCapacity capacity) inputs = .ok (pool₁, vs₁) ∧
        placeWhere .attributes (fun v => pins.unpinned v && v.active) pool₁ vs₁ =
          .ok (pool₂, vs₂) ∧
        placeWhere .attributes (fun v => pins.unpinned v && !v.active) pool₂ vs₂ =
          .ok (pool₃, placed) := by
  simp only [placeAttribs, bind_eq_ok_iff, Prod.exists]
  constructor
  · rintro ⟨pool₁, vs₁, h₁, pool₂, vs₂, h₂, pool₃, vs₃, h₃, hpure⟩
    cases hpure
    exact ⟨pool₁, vs₁, pool₂, vs₂, pool₃, h₁, h₂, h₃⟩
  · rintro ⟨pool₁, vs₁, pool₂, vs₂, pool₃, h₁, h₂, h₃⟩
    exact ⟨pool₁, vs₁, h₁, pool₂, vs₂, h₂, pool₃, placed, h₃, rfl⟩

section

variable {pins : Pins} {capacity : Nat} {inputs placed : List InterfaceVar}

/-- The variables of a test in two passes, active ones first, are in the order of
placement. -/
theorem filter_append_filter_eq_placementOrder (keep : InterfaceVar → Bool)
    (vars : List InterfaceVar) :
    vars.filter (fun v => keep v && v.active) ++ vars.filter (fun v => keep v && !v.active) =
      placementOrder (vars.filter keep) := by
  simp only [placementOrder, List.filter_filter, Bool.and_comm]

/-- Pinned and other variables together are all variables. -/
theorem pinned_append_unpinned_perm (pins : Pins) (vars : List InterfaceVar) :
    (vars.filter pins.pinned ++ placementOrder (vars.filter pins.unpinned)).Perm vars := by
  have hall := List.filter_append_perm pins.pinned vars
  simp only [Pins.not_pinned] at hall
  exact ((placementOrder_perm _).append_left _).trans hall

/-- Finding places for variables without pins does not move pinned ones. -/
theorem filter_pinned_of_placeWhere {space : Namespace} {test : InterfaceVar → Bool}
    {pool left : LocationPool} {vs ws : List InterfaceVar}
    (h : placeWhere space (fun v => pins.unpinned v && test v) pool vs = .ok (left, ws)) :
    ws.filter pins.pinned = vs.filter pins.pinned := by
  refine filter_eq_of_placeWhere (fun _ => rfl) (fun v hv => ?_) h
  rw [Pins.unpinned_of_pinned hv, Bool.false_and]

/-- What the three passes take, each out of what the ones before it have left.  A later pass
does not move what an earlier one has placed. -/
theorem inTurn_of_placeAttribs (h : placeAttribs pins capacity inputs = .ok placed) :
    placed.map InterfaceVar.unplaced = inputs.map InterfaceVar.unplaced ∧
    InTurn Extent.Within (Set.Ico 0 capacity) (extents (placed.filter pins.pinned)) ∧
    InTurn Extent.Lowest (Set.Ico 0 capacity \ occupied (extents (placed.filter pins.pinned)))
      (extents (placementOrder (placed.filter pins.unpinned))) := by
  obtain ⟨pool₁, vs₁, pool₂, vs₂, pool₃, h₁, h₂, h₃⟩ := placeAttribs_eq_ok_iff.mp h
  have hpinned₂ := filter_pinned_of_placeWhere h₂
  have hpinned₃ := filter_pinned_of_placeWhere h₃
  have hactive₃ : placed.filter (fun v => pins.unpinned v && v.active) =
      vs₂.filter (fun v => pins.unpinned v && v.active) :=
    filter_eq_of_placeWhere (fun _ => rfl) (fun v hv => by simp_all) h₃
  rw [reservePins_eq_placeEach] at h₁
  rw [placeWhere_eq_placeEach] at h₂ h₃
  obtain ⟨hturn₁, hpool₁⟩ :=
    inTurn_of_placeEach (pinStep_follows pins) (LocationPool.ofCapacity_holds capacity) h₁
  have hfollows₂ := fitWhereStep_follows .attributes
    (show IgnoresLocation fun v => pins.unpinned v && v.active from fun _ => rfl)
  obtain ⟨hturn₂, hpool₂⟩ := inTurn_of_placeEach hfollows₂ hpool₁ h₂
  have hfollows₃ := fitWhereStep_follows .attributes
    (show IgnoresLocation fun v => pins.unpinned v && !v.active from fun _ => rfl)
  obtain ⟨hturn₃, -⟩ := inTurn_of_placeEach hfollows₃ hpool₂ h₃
  refine ⟨?_, ?_, ?_⟩
  · rw [unplaced_of_placeEach hfollows₃ h₃, unplaced_of_placeEach hfollows₂ h₂,
      unplaced_of_placeEach (pinStep_follows pins) h₁]
  · rw [hpinned₃, hpinned₂]
    exact hturn₁
  · rw [← filter_append_filter_eq_placementOrder, extents_append, InTurn.append_iff, hpinned₃,
      hpinned₂, hactive₃]
    exact ⟨hturn₂, hturn₃⟩

/-- Pinned variables are at their pins.  The first pass puts them there. -/
theorem location_eq_of_placeAttribs (h : placeAttribs pins capacity inputs = .ok placed) :
    ∀ v ∈ placed, ∀ location, pins.get? v.name = some location → v.location = location := by
  obtain ⟨pool₁, vs₁, pool₂, vs₂, pool₃, h₁, h₂, h₃⟩ := placeAttribs_eq_ok_iff.mp h
  intro v hv location hpin
  have hkeep : placed.filter pins.pinned = vs₁.filter pins.pinned := by
    rw [filter_pinned_of_placeWhere h₃, filter_pinned_of_placeWhere h₂]
  have hmem : v ∈ vs₁.filter pins.pinned :=
    hkeep ▸ List.mem_filter.mpr ⟨hv, by simp [Pins.pinned, hpin]⟩
  rw [reservePins_eq_placeEach] at h₁
  refine forall_of_placeEach (P := fun w => ∀ l, pins.get? w.name = some l → w.location = l) ?_ h₁ v
    (List.mem_filter.mp hmem).1 location hpin
  intro pool u left w hstep l hl
  obtain ⟨hnone, -, rfl⟩ | ⟨location, hsome, -, rfl⟩ := pinStep_cases hstep
  · rw [hnone] at hl
    cases hl
  · exact Option.some.inj (hsome.symm.trans hl)

/-- All variables together take their extents in turn. -/
theorem inTurn_all_of_placeAttribs (h : placeAttribs pins capacity inputs = .ok placed) :
    InTurn Extent.Within (Set.Ico 0 capacity)
      (extents (placed.filter pins.pinned ++ placementOrder (placed.filter pins.unpinned))) := by
  obtain ⟨-, hpinned, hlowest⟩ := inTurn_of_placeAttribs h
  rw [extents_append, InTurn.append_iff]
  exact ⟨hpinned, hlowest.mono fun _ _ => Extent.Lowest.within⟩

theorem AttribLayout.of_placeAttribs (h : placeAttribs pins capacity inputs = .ok placed) :
    AttribLayout pins capacity inputs placed := by
  obtain ⟨hunplaced, -, hlowest⟩ := inTurn_of_placeAttribs h
  have hall := inTurn_all_of_placeAttribs h
  have hperm := pinned_append_unpinned_perm pins placed
  refine ⟨hunplaced, ?_, ?_, location_eq_of_placeAttribs h, ?_⟩
  · exact (InterfaceVar.pairwise_disjoint_perm hperm).mp (pairwise_disjoint_of_inTurn hall)
  · intro v hv
    exact slots_subset_of_inTurn hall (hperm.mem_iff.mpr hv)
  · intro before v after hsplit
    have hleast := inTurn_lowest_iff.mp hlowest before v after hsplit
    simp only [subset_sdiff_extents_iff, List.mem_filter, and_imp, and_assoc] at hleast
    exact hleast

end

/-! ## Pins of other names -/

section

variable {pins pins' : Pins} {inputs : List InterfaceVar}

theorem reservePins_congr (hpins : ∀ v ∈ inputs, pins'.get? v.name = pins.get? v.name)
    (pool : LocationPool) : reservePins pins' pool inputs = reservePins pins pool inputs := by
  rw [reservePins_eq_placeEach, reservePins_eq_placeEach]
  refine placeEach_congr fun v hv pool => ?_
  simp only [pinStep, hpins v hv]

/-- A later pass sees the same names, since a pass changes nothing but locations. -/
theorem placeWhere_unpinned_congr (hpins : ∀ v ∈ inputs, pins'.get? v.name = pins.get? v.name)
    {vs : List InterfaceVar}
    (hvs : vs.map InterfaceVar.unplaced = inputs.map InterfaceVar.unplaced) (space : Namespace)
    (test : InterfaceVar → Bool) (pool : LocationPool) :
    placeWhere space (fun v => pins'.unpinned v && test v) pool vs =
      placeWhere space (fun v => pins.unpinned v && test v) pool vs := by
  rw [placeWhere_eq_placeEach, placeWhere_eq_placeEach]
  refine placeEach_congr fun w hw pool => ?_
  obtain ⟨v, hv, hwv⟩ := InterfaceVar.exists_of_map_unplaced hvs hw
  obtain ⟨hname, -, -⟩ := InterfaceVar.agree_of_unplaced hwv
  simp only [fitWhereStep, Pins.unpinned, hname, hpins v hv]

/-- Pins count only at the names of the inputs. -/
theorem placeAttribs_congr (hpins : ∀ v ∈ inputs, pins'.get? v.name = pins.get? v.name)
    (capacity : Nat) : placeAttribs pins' capacity inputs = placeAttribs pins capacity inputs := by
  unfold placeAttribs
  rw [reservePins_congr hpins]
  refine bind_congr_of_ok fun first hfirst => ?_
  obtain ⟨pool₁, vs₁⟩ := first
  rw [reservePins_eq_placeEach] at hfirst
  have hvs₁ := unplaced_of_placeEach (pinStep_follows pins) hfirst
  have hactive := placeWhere_unpinned_congr hpins hvs₁ .attributes (·.active) pool₁
  simp only [Pins.unpinned] at hactive
  simp only [hactive]
  refine bind_congr_of_ok fun second hsecond => ?_
  obtain ⟨pool₂, vs₂⟩ := second
  rw [placeWhere_eq_placeEach] at hsecond
  have hvs₂ := unplaced_of_placeEach (fitWhereStep_follows .attributes (fun _ => rfl)) hsecond
  have hinactive :=
    placeWhere_unpinned_congr hpins (hvs₂.trans hvs₁) .attributes (!·.active) pool₂
  simp only [Pins.unpinned] at hinactive
  simp only [hinactive]

end

/-- Every placement of attributes that succeeds is a layout of its inputs.  Pins
that no input has the name of change nothing. -/
theorem attribLayout_of_placeAttribs (pins : Pins) (capacity : Nat)
    (inputs : List InterfaceVar) :
    (∀ placed, placeAttribs pins capacity inputs = .ok placed →
      AttribLayout pins capacity inputs placed) ∧
    (∀ pins' : Pins, (∀ v ∈ inputs, pins'.get? v.name = pins.get? v.name) →
      placeAttribs pins' capacity inputs = placeAttribs pins capacity inputs) := by
  constructor
  · intro placed h
    exact .of_placeAttribs h
  · intro pins' hpins
    exact placeAttribs_congr hpins capacity

/-- A pin leaves a hole at the front that is too small for a matrix and is filled by
an active and then an inactive input.  The other pin is of no input. -/
theorem attribLayout_of_placeAttribs_around_pin :
    let input (name : String) (type : ShaderType) (index : Nat) (active : Bool)
      (location : Nat) : InterfaceVar := ⟨name, type, .argument index, location, active⟩
    let inputs := [input "model" (.matrix .four .four .f32) 0 true 0,
      input "spare" (.scalar .f32) 1 false 0, input "position" (.vector .four .f32) 2 true 0,
      input "weight" (.scalar .f32) 3 true 0]
    let placed := [input "model" (.matrix .four .four .f32) 0 true 3,
      input "spare" (.scalar .f32) 1 false 1, input "position" (.vector .four .f32) 2 true 2,
      input "weight" (.scalar .f32) 3 true 0]
    let pins : Pins := [("position", 2), ("other", 0)]
    placeAttribs pins 16 inputs = .ok placed ∧ AttribLayout pins 16 inputs placed ∧
      (∀ v ∈ inputs, Pins.get? [("position", 2)] v.name = pins.get? v.name) ∧
      placeAttribs [("position", 2)] 16 inputs = .ok placed := by
  intro input inputs placed pins
  have hplace : placeAttribs pins 16 inputs = .ok placed := rfl
  have hpins : ∀ v ∈ inputs, Pins.get? [("position", 2)] v.name = pins.get? v.name := by
    decide
  obtain ⟨hlayout, hsame⟩ := attribLayout_of_placeAttribs pins 16 inputs
  exact ⟨hplace, hlayout placed hplace, hpins, (hsame _ hpins).trans hplace⟩

end LegacyShader
