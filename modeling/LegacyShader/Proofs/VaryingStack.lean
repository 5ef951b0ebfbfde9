import LegacyShader.Proofs.AttribFailures
import LegacyShader.Proofs.VaryingPlacement
import Mathlib.Algebra.GroupWithZero.Nat
import Mathlib.Order.Interval.Set.LinearOrder

/-!
# Stacked varyings

Vertex outputs have no pins, so nothing cuts holes into their namespace: what is free is
always one run of slots that ends at the capacity.  The lowest place for an output is the
start of that run (`Extent.lowest_Ico_iff`), and the run goes on behind it.

So a pass over variables stacks them: each one starts where the footprints of those before
it end (`stackFrom`).  It succeeds exactly if all footprints together fit into the run, and
fails at the variable with which they exceed it (`placeEach_fitStep_eq_error_iff_overflow`).
The two passes over outputs are one pass in the order of placement, which gives the closed
form of their places (`placeVaryings_closed_form`).
-/

namespace LegacyShader

/-! ## Sums of footprints -/

/-- The number of slots that variables occupy together. -/
def totalFootprint (vars : List InterfaceVar) : Nat := (vars.map InterfaceVar.footprint).sum

@[simp] theorem totalFootprint_nil : totalFootprint [] = 0 := rfl

@[simp] theorem totalFootprint_cons (v : InterfaceVar) (vs : List InterfaceVar) :
    totalFootprint (v :: vs) = v.footprint + totalFootprint vs := rfl

@[simp] theorem totalFootprint_append (vs ws : List InterfaceVar) :
    totalFootprint (vs ++ ws) = totalFootprint vs + totalFootprint ws := by
  rw [totalFootprint, List.map_append, List.sum_append]
  rfl

theorem totalFootprint_perm {vs ws : List InterfaceVar} (h : vs.Perm ws) :
    totalFootprint vs = totalFootprint ws := (h.map InterfaceVar.footprint).sum_nat

/-- Variables lie one behind the other from a slot on. -/
def stackFrom (start : Nat) : List InterfaceVar → List InterfaceVar
  | [] => []
  | v :: vs => { v with location := start } :: stackFrom (start + v.footprint) vs

/-- In a stack, each variable starts where the footprints before it end. -/
theorem location_of_stackFrom {start : Nat} {vs before after : List InterfaceVar} {v : InterfaceVar}
    (h : stackFrom start vs = before ++ v :: after) :
    v.location = start + totalFootprint before := by
  induction vs generalizing start before with
  | nil => simp [stackFrom] at h
  | cons u us ih =>
      cases before with
      | nil =>
          obtain ⟨rfl, -⟩ := List.cons.inj h
          rfl
      | cons w before =>
          obtain ⟨rfl, hrest⟩ := List.cons.inj h
          rw [ih hrest, totalFootprint_cons, ← Nat.add_assoc]
          rfl

/-- Footprints that exceed a run do so with some variable for the first time. -/
theorem exists_overflow {start stop : Nat} {vs : List InterfaceVar} (hle : start ≤ stop)
    (h : stop < start + totalFootprint vs) :
    ∃ before v after, vs = before ++ v :: after ∧ start + totalFootprint before ≤ stop ∧
      stop < start + totalFootprint before + v.footprint := by
  induction vs generalizing start with
  | nil =>
      rw [totalFootprint_nil] at h
      omega
  | cons v vs ih =>
      rw [totalFootprint_cons] at h
      rcases Nat.lt_or_ge stop (start + v.footprint) with hfull | hroom
      · exact ⟨[], v, vs, rfl, hle, hfull⟩
      · obtain ⟨before, w, after, rfl, hbefore, hw⟩ := ih hroom (by omega)
        refine ⟨v :: before, w, after, rfl, ?_, ?_⟩ <;> rw [totalFootprint_cons] <;> omega

/-! ## Runs of free slots -/

/-- The lowest extent in a run of free slots is at its start. -/
theorem Extent.lowest_Ico_iff {start stop : Nat} {x : Extent} (hsize : 0 < x.size) :
    x.Lowest (Set.Ico start stop) ↔ x.location = start ∧ start + x.size ≤ stop := by
  have hsub (l : Nat) : Set.Ico l (l + x.size) ⊆ Set.Ico start stop ↔
      start ≤ l ∧ l + x.size ≤ stop := Set.Ico_subset_Ico_iff (by omega)
  simp only [Lowest, hsub]
  constructor
  · rintro ⟨⟨hstart, hstop⟩, hleast⟩
    have hle : x.location ≤ start := hleast ⟨le_rfl, by omega⟩
    omega
  · rintro ⟨rfl, hstop⟩
    exact ⟨⟨le_rfl, hstop⟩, fun l hl => hl.1⟩

section

variable (space : Namespace) {start stop : Nat} {pool left : LocationPool} {v : InterfaceVar}
variable {vs ws : List InterfaceVar} {e : PlacementError}

/-- A variable takes the front of a run, and the run goes on behind it. -/
theorem fitStep_of_run (hpool : pool.Holds (Set.Ico start stop))
    (hroom : start + v.footprint ≤ stop) :
    ∃ next, fitStep space pool v = .ok (next, { v with location := start }) ∧
      next.Holds (Set.Ico (start + v.footprint) stop) := by
  let w : InterfaceVar := { v with location := start }
  have hlowest : w.extent.Lowest (Set.Ico start stop) :=
    (Extent.lowest_Ico_iff v.footprint_pos).mpr ⟨rfl, hroom⟩
  have hbehind : Set.Ico start stop \ w.slots = Set.Ico (start + v.footprint) stop := by
    ext slot
    have hw : slot ∈ w.slots ↔ start ≤ slot ∧ slot < start + v.footprint := Iff.rfl
    simp only [Set.mem_sdiff, hw, Set.mem_Ico]
    omega
  rw [← hbehind]
  exact fitStep_of_lowest hpool rfl hlowest

theorem fitStep_of_overflow (hpool : pool.Holds (Set.Ico start stop))
    (hfull : stop < start + v.footprint) :
    fitStep space pool v = .error (.exhausted space v.name) := by
  refine (fitStep_eq_error_iff hpool).mpr ⟨rfl, fun l hsub => ?_⟩
  have hpos := v.footprint_pos
  obtain ⟨hstart, hstop⟩ := (Set.Ico_subset_Ico_iff (by omega)).mp hsub
  omega

/-- A pass over variables that fit into a run stacks them. -/
theorem placeEach_fitStep_of_run (hpool : pool.Holds (Set.Ico start stop))
    (hroom : start + totalFootprint vs ≤ stop) :
    ∃ left, placeEach (fitStep space) pool vs = .ok (left, stackFrom start vs) ∧
      left.Holds (Set.Ico (start + totalFootprint vs) stop) := by
  induction vs generalizing pool start with
  | nil => exact ⟨pool, rfl, hpool⟩
  | cons v vs ih =>
      rw [totalFootprint_cons, ← Nat.add_assoc] at hroom ⊢
      obtain ⟨next, hv, hnext⟩ := fitStep_of_run space (v := v) hpool (by omega)
      obtain ⟨left, hrest, hleft⟩ := ih hnext hroom
      exact ⟨left, placeEach_cons_eq_ok_iff.mpr ⟨next, _, _, hv, hrest, rfl⟩, hleft⟩

/-- A pass over variables fails exactly at the one with which they exceed the run. -/
theorem placeEach_fitStep_eq_error_iff_overflow (hpool : pool.Holds (Set.Ico start stop))
    (hle : start ≤ stop) :
    placeEach (fitStep space) pool vs = .error e ↔
      ∃ before v after, vs = before ++ v :: after ∧ start + totalFootprint before ≤ stop ∧
        stop < start + totalFootprint before + v.footprint ∧ e = .exhausted space v.name := by
  have hfails {before after : List InterfaceVar} {v : InterfaceVar}
      (hsplit : vs = before ++ v :: after)
      (hbefore : start + totalFootprint before ≤ stop)
      (hv : stop < start + totalFootprint before + v.footprint) :
      placeEach (fitStep space) pool vs = .error (.exhausted space v.name) := by
    obtain ⟨next, hplaced, hnext⟩ := placeEach_fitStep_of_run space hpool hbefore
    exact placeEach_eq_error_iff.mpr
      ⟨before, v, after, next, _, hsplit, hplaced, fitStep_of_overflow space hnext hv⟩
  constructor
  · intro h
    rcases Nat.lt_or_ge stop (start + totalFootprint vs) with hfull | hroom
    · obtain ⟨before, v, after, hsplit, hbefore, hv⟩ := exists_overflow hle hfull
      cases h.symm.trans (hfails hsplit hbefore hv)
      exact ⟨before, v, after, hsplit, hbefore, hv, rfl⟩
    · obtain ⟨left, hok, -⟩ := placeEach_fitStep_of_run space hpool hroom
      cases h.symm.trans hok
  · rintro ⟨before, v, after, hsplit, hbefore, hv, rfl⟩
    exact hfails hsplit hbefore hv

/-- A pass that succeeds has stacked its variables, and they fit. -/
theorem eq_stackFrom_of_placeEach (hpool : pool.Holds (Set.Ico start stop)) (hle : start ≤ stop)
    (h : placeEach (fitStep space) pool vs = .ok (left, ws)) :
    start + totalFootprint vs ≤ stop ∧ ws = stackFrom start vs ∧
      left.Holds (Set.Ico (start + totalFootprint vs) stop) := by
  rcases Nat.lt_or_ge stop (start + totalFootprint vs) with hfull | hroom
  · obtain ⟨before, v, after, hsplit, hbefore, hv⟩ := exists_overflow hle hfull
    have herror := (placeEach_fitStep_eq_error_iff_overflow space hpool hle).mpr
      ⟨before, v, after, hsplit, hbefore, hv, rfl⟩
    cases h.symm.trans herror
  · obtain ⟨next, hok, hnext⟩ := placeEach_fitStep_of_run space hpool hroom
    obtain ⟨rfl, rfl⟩ := Prod.mk.inj (Except.ok.inj (h.symm.trans hok))
    exact ⟨hroom, rfl, hnext⟩

end

/-! ## Outputs -/

section

variable {capacity : Nat} {outputs placed : List InterfaceVar} {pool : LocationPool}
variable {e : PlacementError}

/-- The order of placement does not look at locations. -/
theorem placementOrder_unplaced {vs ws : List InterfaceVar}
    (h : ws.map InterfaceVar.unplaced = vs.map InterfaceVar.unplaced) :
    (placementOrder ws).map InterfaceVar.unplaced =
      (placementOrder vs).map InterfaceVar.unplaced := by
  have hcomm (vars : List InterfaceVar) : (placementOrder vars).map InterfaceVar.unplaced =
      placementOrder (vars.map InterfaceVar.unplaced) := by
    simp only [placementOrder, List.map_append, List.filter_map]
    rfl
  rw [hcomm, hcomm, h]

theorem placeVaryings_eq_error_iff :
    placeVaryings capacity outputs = .error e ↔
      placeEach (fitStep .varyings) (.ofCapacity capacity) (placementOrder outputs) = .error e := by
  have htwice := @placeWhere_twice_eq_error_iff (.ofCapacity capacity) e .varyings (fun _ => true)
    (fun _ => rfl) outputs
  rw [List.filter_true] at htwice
  simp only [placeVaryings, bind_eq_error_iff, Prod.exists]
  exact htwice

/-- Two passes that succeed are one pass in the order of placement. -/
theorem placeEach_of_placeVaryings (h : placeVaryings capacity outputs = .ok (pool, placed)) :
    ∃ left, placeEach (fitStep .varyings) (.ofCapacity capacity) (placementOrder outputs) =
      .ok (left, placementOrder placed) := by
  obtain ⟨hunplaced, hturn, -⟩ := inTurn_of_placeVaryings h
  exact (placeEach_fitStep_eq_ok_iff (LocationPool.ofCapacity_holds capacity)).mpr
    ⟨placementOrder_unplaced hunplaced, hturn⟩

/-- Outputs that are placed are stacked in the order of placement, and what is left is the
run behind them.  The pool holds what the outputs leave, whatever their order. -/
theorem stacked_of_placeVaryings (h : placeVaryings capacity outputs = .ok (pool, placed)) :
    totalFootprint outputs ≤ capacity ∧
      placementOrder placed = stackFrom 0 (placementOrder outputs) ∧
      pool.Holds (Set.Ico (totalFootprint outputs) capacity) := by
  have hnew := LocationPool.ofCapacity_holds capacity
  obtain ⟨-, -, hpool⟩ := inTurn_of_placeVaryings h
  obtain ⟨left, hpass⟩ := placeEach_of_placeVaryings h
  obtain ⟨hroom, hstack, hleft⟩ := eq_stackFrom_of_placeEach .varyings hnew (Nat.zero_le _) hpass
  rw [Nat.zero_add, totalFootprint_perm (placementOrder_perm outputs)] at hroom hleft
  refine ⟨hroom, hstack, hpool.separated, ?_⟩
  have hleft' := (inTurn_of_placeEach (fitStep_follows .varyings) hnew hpass).2
  rw [List.filter_true, occupied_extents_perm (placementOrder_perm placed)] at hleft'
  rw [hpool.free_eq, ← hleft'.free_eq, hleft.free_eq]

theorem exists_placeVaryings_iff :
    (∃ pool placed, placeVaryings capacity outputs = .ok (pool, placed)) ↔
      totalFootprint outputs ≤ capacity := by
  constructor
  · rintro ⟨pool, placed, h⟩
    exact (stacked_of_placeVaryings h).1
  · intro hroom
    cases houtcome : placeVaryings capacity outputs with
    | ok result => exact ⟨result.1, result.2, rfl⟩
    | error e =>
        rw [← totalFootprint_perm (placementOrder_perm outputs), ← Nat.zero_add (totalFootprint _)]
          at hroom
        obtain ⟨left, hok, -⟩ :=
          placeEach_fitStep_of_run .varyings (LocationPool.ofCapacity_holds capacity) hroom
        cases (placeVaryings_eq_error_iff.mp houtcome).symm.trans hok

end

/-- Vertex outputs are placed exactly if all their footprints together fit into the capacity.
Then each one is where the footprints of the outputs before it end, active outputs first, and
what is left is all that is behind them.  If they do not fit, the first output with which they
exceed the capacity is named. -/
theorem placeVaryings_closed_form (capacity : Nat) (outputs : List InterfaceVar) :
    ((∃ pool placed, placeVaryings capacity outputs = .ok (pool, placed)) ↔
      totalFootprint outputs ≤ capacity) ∧
    (∀ pool placed, placeVaryings capacity outputs = .ok (pool, placed) →
      placed.map InterfaceVar.unplaced = outputs.map InterfaceVar.unplaced ∧
      (∀ before v after, placementOrder placed = before ++ v :: after →
        v.location = totalFootprint before) ∧
      pool.Holds (Set.Ico (totalFootprint outputs) capacity)) ∧
    (∀ e, placeVaryings capacity outputs = .error e ↔
      ∃ before v after, placementOrder outputs = before ++ v :: after ∧
        totalFootprint before ≤ capacity ∧ capacity < totalFootprint (before ++ [v]) ∧
        e = .exhausted .varyings v.name) := by
  refine ⟨exists_placeVaryings_iff, fun pool placed h => ?_, fun e => ?_⟩
  · obtain ⟨-, hstack, hpool⟩ := stacked_of_placeVaryings h
    refine ⟨(inTurn_of_placeVaryings h).1, fun before v after hsplit => ?_, hpool⟩
    rw [location_of_stackFrom (hstack ▸ hsplit), Nat.zero_add]
  · rw [placeVaryings_eq_error_iff, placeEach_fitStep_eq_error_iff_overflow .varyings
      (LocationPool.ofCapacity_holds capacity) (Nat.zero_le _)]
    simp only [Nat.zero_add, totalFootprint_append, totalFootprint_cons, totalFootprint_nil,
      Nat.add_zero]

/-- A matrix takes two slots and comes before the inactive output in front of it.  Four slots
are enough for all three outputs, and with three the inactive one is left over. -/
theorem placeVaryings_closed_form_at_capacity :
    let output (name : String) (type : ShaderType) (index : Nat) (active : Bool) (location : Nat) :
      InterfaceVar := ⟨name, type, .resultMember index, location, active⟩
    let spare := output "spare" (.scalar .f32) 0 false
    let frame := output "frame" (.matrix .two .two .f32) 1 true
    let uv := output "uv" (.vector .two .f32) 2 true
    let outputs := [spare 0, frame 0, uv 0]
    let placed := [spare 3, frame 0, uv 2]
    totalFootprint outputs = 4 ∧
      placeVaryings 4 outputs = .ok (⟨[]⟩, placed) ∧
      placementOrder placed = [frame 0, uv 2, spare 3] ∧
      (spare 3).location = totalFootprint [frame 0, uv 2] ∧
      (¬ ∃ pool placed, placeVaryings 3 outputs = .ok (pool, placed)) ∧
      placeVaryings 3 outputs = .error (.exhausted .varyings "spare") := by
  intro output spare frame uv outputs placed
  have htotal : totalFootprint outputs = 4 := rfl
  have hok : placeVaryings 4 outputs = .ok (⟨[]⟩, placed) := rfl
  obtain ⟨-, hplaces, -⟩ := placeVaryings_closed_form 4 outputs
  obtain ⟨-, hlocation, -⟩ := hplaces _ _ hok
  obtain ⟨hfits, -, herror⟩ := placeVaryings_closed_form 3 outputs
  refine ⟨htotal, hok, rfl, hlocation [frame 0, uv 2] (spare 3) [] rfl, ?_, ?_⟩
  · rw [hfits, htotal]
    decide
  · exact (herror _).mpr ⟨[frame 0, uv 0], spare 0, [], rfl, by decide, by decide, rfl⟩

end LegacyShader
