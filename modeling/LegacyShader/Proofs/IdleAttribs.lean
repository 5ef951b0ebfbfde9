import LegacyShader.Proofs.AttribPlacement

/-!
# Idle attributes

A vertex input is *idle* if it has no pin and the shader does not use it.  All others
are *engaged*.  The first two passes of a placement are for the engaged inputs, and they
step over an idle one without a change to the pool.  So if idle inputs are put among the
others (`Padded`), both passes go the same way: they fail with the same error, or they
leave the same pool and the same places (`placeEngaged_of_padded`).  The third pass is
for the idle inputs and moves no other.

Hence adding idle inputs never moves an engaged one, and the only new way to fail is
that an idle input finds no room (`placeAttribs_of_padded`).
-/

namespace LegacyShader

variable {pins : Pins} {capacity : Nat} {pool left : LocationPool}
variable {vs ws placed : List InterfaceVar} {e : PlacementError}

/-! ## Idle inputs -/

/-- A variable has no pin and is not used. -/
def Pins.idle (pins : Pins) (v : InterfaceVar) : Bool := pins.unpinned v && !v.active

/-- A variable is pinned or used. -/
def Pins.engaged (pins : Pins) (v : InterfaceVar) : Bool := pins.pinned v || v.active

theorem Pins.not_idle (pins : Pins) (v : InterfaceVar) : (!pins.idle v) = pins.engaged v := by
  simp [idle, engaged, ← pins.not_pinned]

theorem Pins.idle_of_engaged {v : InterfaceVar} (h : pins.engaged v = true) :
    pins.idle v = false := by
  rw [← pins.not_idle] at h
  simpa using h

theorem Pins.engaged_of_idle {v : InterfaceVar} (h : pins.idle v = true) :
    pins.engaged v = false := by
  rw [← pins.not_idle, h, Bool.not_true]

/-- A list is another one with idle variables put in at any places. -/
inductive Padded (pins : Pins) : List InterfaceVar → List InterfaceVar → Prop
  | nil : Padded pins [] []
  | keep (v : InterfaceVar) {vs ws : List InterfaceVar} : Padded pins vs ws →
      Padded pins (v :: vs) (v :: ws)
  | insert {w : InterfaceVar} {vs ws : List InterfaceVar} : pins.idle w = true →
      Padded pins vs ws → Padded pins vs (w :: ws)

/-- Padding does not change the engaged inputs. -/
theorem Padded.filter_engaged (h : Padded pins vs ws) :
    ws.filter pins.engaged = vs.filter pins.engaged := by
  induction h with
  | nil => rfl
  | keep v _ ih => simp only [List.filter_cons, ih]
  | insert hw _ ih => simp [Pins.engaged_of_idle hw, ih]

/-! ## Passes over padded lists -/

/-- A step passes over idle variables. -/
def PlacementStep.Skips (step : PlacementStep) (pins : Pins) : Prop :=
  ∀ pool v, pins.idle v = true → step pool v = .ok (pool, v)

/-- The pass over pins goes past idle inputs. -/
theorem pinStep_skips (pins : Pins) : (pinStep pins).Skips pins := by
  intro pool v hidle
  simp only [Pins.idle, Bool.and_eq_true, Pins.unpinned, Option.isNone_iff_eq_none] at hidle
  exact pinStep_of_unpinned hidle.1

theorem fitWhereStep_skips (space : Namespace) :
    (fitWhereStep space fun v => pins.unpinned v && v.active).Skips pins := by
  intro pool v hidle
  simp only [Pins.idle, Bool.and_eq_true, Bool.not_eq_true'] at hidle
  exact fitWhereStep_of_neg (by simp [hidle.2])

/-- A pass that steps over idle variables fails on both lists with the same error, or
takes the same out of the pool on both.  Idle variables that were put in stay as they
are. -/
theorem placeEach_of_padded {step : PlacementStep} (hskips : step.Skips pins)
    (h : Padded pins vs ws) (pool : LocationPool) :
    (∃ e, placeEach step pool vs = .error e ∧ placeEach step pool ws = .error e) ∨
      ∃ left vs' ws', placeEach step pool vs = .ok (left, vs') ∧
        placeEach step pool ws = .ok (left, ws') ∧ Padded pins vs' ws' := by
  induction h generalizing pool with
  | nil => exact .inr ⟨pool, [], [], rfl, rfl, .nil⟩
  | keep v _ ih =>
      cases hstep : step pool v with
      | error e =>
          exact .inl ⟨e, placeEach_cons_of_error hstep, placeEach_cons_of_error hstep⟩
      | ok result =>
          obtain ⟨next, w⟩ := result
          rw [placeEach_cons_of_ok hstep, placeEach_cons_of_ok hstep]
          obtain ⟨e, hvs, hws⟩ | ⟨left, vs', ws', hvs, hws, hpadded⟩ := ih next
          · exact .inl ⟨e, by rw [hvs]; rfl, by rw [hws]; rfl⟩
          · exact .inr ⟨left, w :: vs', w :: ws', by rw [hvs]; rfl, by rw [hws]; rfl,
              .keep w hpadded⟩
  | @insert w _ _ hidle _ ih =>
      rw [placeEach_cons_of_ok (hskips pool w hidle)]
      obtain ⟨e, hvs, hws⟩ | ⟨left, vs', ws', hvs, hws, hpadded⟩ := ih pool
      · exact .inl ⟨e, hvs, by rw [hws]; rfl⟩
      · exact .inr ⟨left, vs', w :: ws', hvs, by rw [hws]; rfl, .insert hidle hpadded⟩

/-! ## The places of engaged inputs -/

/-- Places the engaged inputs: the pinned ones, then the active ones. -/
def placeEngaged (pins : Pins) (capacity : Nat) (inputs : List InterfaceVar) :
    Except PlacementError (LocationPool × List InterfaceVar) :=
  reservePins pins (.ofCapacity capacity) inputs >>= fun first =>
    placeWhere .attributes (fun v => pins.unpinned v && v.active) first.1 first.2

/-- A placement places the engaged inputs and then the idle ones. -/
theorem placeAttribs_eq_placeEngaged (pins : Pins) (capacity : Nat) (inputs : List InterfaceVar) :
    placeAttribs pins capacity inputs =
      placeEngaged pins capacity inputs >>= fun engaged =>
        (placeWhere .attributes pins.idle engaged.1 engaged.2).map Prod.snd := by
  simp only [placeAttribs, placeEngaged, bind_assoc]
  refine bind_congr_of_ok fun first _ => bind_congr_of_ok fun second _ => ?_
  change (placeWhere .attributes pins.idle second.1 second.2 >>= _) = _
  cases placeWhere .attributes pins.idle second.1 second.2 <;> rfl

theorem unplaced_of_placeEngaged (h : placeEngaged pins capacity vs = .ok (left, ws)) :
    ws.map InterfaceVar.unplaced = vs.map InterfaceVar.unplaced := by
  obtain ⟨⟨pool, us⟩, hpins, hactive⟩ := bind_eq_ok_iff.mp h
  rw [reservePins_eq_placeEach] at hpins
  rw [placeWhere_eq_placeEach] at hactive
  rw [unplaced_of_placeEach (fitWhereStep_follows .attributes fun _ => rfl) hactive,
    unplaced_of_placeEach (pinStep_follows pins) hpins]

/-- Idle inputs make no difference to the places of the others. -/
theorem placeEngaged_of_padded (h : Padded pins vs ws) (capacity : Nat) :
    (∃ e, placeEngaged pins capacity vs = .error e ∧ placeEngaged pins capacity ws = .error e) ∨
      ∃ left vs' ws', placeEngaged pins capacity vs = .ok (left, vs') ∧
        placeEngaged pins capacity ws = .ok (left, ws') ∧ Padded pins vs' ws' := by
  simp only [placeEngaged, reservePins_eq_placeEach, placeWhere_eq_placeEach]
  obtain ⟨e, hvs, hws⟩ | ⟨pool, vs₁, ws₁, hvs, hws, h₁⟩ :=
    placeEach_of_padded (pinStep_skips pins) h (.ofCapacity capacity)
  · exact .inl ⟨e, by rw [hvs]; rfl, by rw [hws]; rfl⟩
  · rw [hvs, hws]
    exact placeEach_of_padded (fitWhereStep_skips .attributes) h₁ pool

/-! ## What is left to the idle inputs -/

/-- A placement keeps to given places of the engaged inputs.  If it succeeds, its inputs
are the given ones and the engaged among them are at these places.  If it fails, it has
no room for an idle one. -/
structure KeepsEngaged (pins : Pins) (places inputs : List InterfaceVar)
    (outcome : Except PlacementError (List InterfaceVar)) : Prop where
  /-- Nothing but the places of idle inputs is open. -/
  ok : ∀ placed, outcome = .ok placed →
    placed.map InterfaceVar.unplaced = inputs.map InterfaceVar.unplaced ∧
      placed.filter pins.engaged = places
  /-- Nothing but idle inputs can be in the way. -/
  error : ∀ e, outcome = .error e →
    ∃ v ∈ inputs, pins.idle v = true ∧ e = .exhausted .attributes v.name

/-- If there is no room for idle inputs, the error names one of them. -/
theorem exists_idle_of_placeWhere (h : placeWhere .attributes pins.idle pool vs = .error e) :
    ∃ v ∈ vs, pins.idle v = true ∧ e = .exhausted .attributes v.name := by
  rw [placeWhere_eq_placeEach] at h
  obtain ⟨before, v, after, next, _, rfl, _, hstep⟩ := placeEach_eq_error_iff.mp h
  refine ⟨v, by simp, ?_⟩
  by_cases hidle : pins.idle v = true
  · rw [fitWhereStep_of_pos hidle, fitStep] at hstep
    split at hstep
    · exact ⟨hidle, (Except.error.inj hstep).symm⟩
    · cases hstep
  · rw [fitWhereStep_of_neg hidle] at hstep
    cases hstep

/-- Idle inputs come last, so engaged ones keep their places or the error names an idle one.
-/
theorem keepsEngaged_of_placeEngaged (h : placeEngaged pins capacity vs = .ok (left, ws)) :
    KeepsEngaged pins (ws.filter pins.engaged) vs (placeAttribs pins capacity vs) := by
  have hws := unplaced_of_placeEngaged h
  rw [placeAttribs_eq_placeEngaged, h]
  change KeepsEngaged pins _ _ ((placeWhere .attributes pins.idle left ws).map Prod.snd)
  cases hidle : placeWhere .attributes pins.idle left ws with
  | error e =>
      refine ⟨fun placed hok => (by cases hok), fun e' he => ?_⟩
      cases he
      obtain ⟨w, hw, hwidle, rfl⟩ := exists_idle_of_placeWhere hidle
      obtain ⟨v, hv, hwv⟩ := InterfaceVar.exists_of_map_unplaced hws hw
      obtain ⟨hname, -, hactive⟩ := InterfaceVar.agree_of_unplaced hwv
      refine ⟨v, hv, ?_, by rw [hname]⟩
      rw [← hwidle]
      simp only [Pins.idle, Pins.unpinned, hname, hactive]
  | ok result =>
      obtain ⟨_, placed⟩ := result
      refine ⟨fun placed' hok => ?_, fun e he => (by cases he)⟩
      cases hok
      refine ⟨?_, filter_eq_of_placeWhere (fun _ => rfl) (fun _ => Pins.idle_of_engaged) hidle⟩
      rw [placeWhere_eq_placeEach] at hidle
      rw [unplaced_of_placeEach (fitWhereStep_follows .attributes fun _ => rfl) hidle, hws]

/-- Let one list of inputs be another one with idle inputs put in.  Then the engaged
inputs cannot be placed in either, for the same reason, or they have the same places in
both, whatever becomes of the idle ones. -/
theorem placeAttribs_of_padded (h : Padded pins vs ws) (capacity : Nat) :
    (∃ e, placeEngaged pins capacity vs = .error e ∧ placeEngaged pins capacity ws = .error e ∧
        placeAttribs pins capacity vs = .error e ∧ placeAttribs pins capacity ws = .error e) ∨
      ∃ places, KeepsEngaged pins places vs (placeAttribs pins capacity vs) ∧
        KeepsEngaged pins places ws (placeAttribs pins capacity ws) := by
  obtain ⟨e, hvs, hws⟩ | ⟨left, vs', ws', hvs, hws, hpadded⟩ := placeEngaged_of_padded h capacity
  · refine .inl ⟨e, hvs, hws, ?_, ?_⟩
    · rw [placeAttribs_eq_placeEngaged, hvs]
      rfl
    · rw [placeAttribs_eq_placeEngaged, hws]
      rfl
  · refine .inr ⟨vs'.filter pins.engaged, keepsEngaged_of_placeEngaged hvs, ?_⟩
    rw [← hpadded.filter_engaged]
    exact keepsEngaged_of_placeEngaged hws

/-- Idle matrices in front of and behind an idle scalar move the scalar and nothing
else.  The pin in the middle leaves room on both of its sides. -/
theorem placeAttribs_of_padded_around_pin :
    let input (name : String) (type : ShaderType) (index : Nat) (active : Bool)
      (location : Nat) : InterfaceVar := ⟨name, type, .argument index, location, active⟩
    let spare (name : String) (index : Nat) := input name (.matrix .three .three .f32) index false
    let weight := input "weight" (.scalar .f32) 0 false
    let position := input "position" (.vector .four .f32) 1 true
    let model := input "model" (.matrix .two .two .f32) 2 true
    let vs := [weight 0, position 0, model 0]
    let ws := [spare "a" 3 0, weight 0, spare "b" 4 0, position 0, model 0]
    let pins : Pins := [("position", 2)]
    let placed := [weight 3, position 2, model 0]
    let placed' := [spare "a" 3 3, weight 6, spare "b" 4 7, position 2, model 0]
    Padded pins vs ws ∧ placeAttribs pins 16 vs = .ok placed ∧
      placeAttribs pins 16 ws = .ok placed' ∧
      ∃ places, KeepsEngaged pins places vs (placeAttribs pins 16 vs) ∧
        KeepsEngaged pins places ws (placeAttribs pins 16 ws) := by
  intro input spare weight position model vs ws pins placed placed'
  have hpadded : Padded pins vs ws :=
    .insert (by decide) (.keep _ (.insert (by decide) (.keep _ (.keep _ .nil))))
  have hvs : placeAttribs pins 16 vs = .ok placed := rfl
  have hws : placeAttribs pins 16 ws = .ok placed' := rfl
  refine ⟨hpadded, hvs, hws, ?_⟩
  obtain ⟨e, -, -, herror, -⟩ | hkeeps := placeAttribs_of_padded hpadded 16
  · rw [hvs] at herror
    cases herror
  · exact hkeeps

end LegacyShader
