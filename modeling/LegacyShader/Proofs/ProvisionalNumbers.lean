import LegacyShader.Proofs.Stripped
import LegacyShader.Proofs.VaryingPlacement

/-!
# Linking replaces provisional numbers

A link of two modules gives what a link of the stripped modules gives
(`prepareLink_stripped`).  So it does not depend on the numbers that it replaces, and none
of them is left in its result.

The passes over variables show why no location is read before it is replaced.  A pass that
starts without the locations of some variables ends without the locations of those that
neither had one nor were placed by the pass (`placeEach_map`).  The last pass places all
that are left.
-/

namespace LegacyShader

/-! ## Passes -/

/-- A variable that has lost its location, unless it satisfies a test. -/
def InterfaceVar.keptIf (keep : InterfaceVar → Bool) (v : InterfaceVar) : InterfaceVar :=
  if keep v then v else v.unplaced

theorem map_bind_except {ε α β γ : Type} (x : Except ε α) (f : α → β) (g : β → Except ε γ) :
    (x.map f >>= g) = (x >>= fun a => g (f a)) := by
  cases x <;> rfl

/-- A pass whose steps go along with a change of variables goes along with it. -/
theorem placeEach_map {step : PlacementStep} {f g : InterfaceVar → InterfaceVar}
    (hstep : ∀ pool v, step pool (f v) = (step pool v).map fun x => (x.1, g x.2))
    (pool : LocationPool) (vars : List InterfaceVar) :
    placeEach step pool (vars.map f) =
      (placeEach step pool vars).map fun x => (x.1, x.2.map g) := by
  induction vars generalizing pool with
  | nil => rfl
  | cons v vars ih =>
      cases hv : step pool v with
      | error e =>
          rw [List.map_cons, placeEach_cons_of_error hv, placeEach_cons_of_error]
          · rfl
          · rw [hstep, hv]
            rfl
      | ok x =>
          obtain ⟨next, w⟩ := x
          have hfv : step pool (f v) = .ok (next, g w) := by
            rw [hstep, hv]
            rfl
          rw [List.map_cons, placeEach_cons_of_ok hv, placeEach_cons_of_ok hfv, ih]
          cases placeEach step next vars <;> rfl

section

variable {pool : LocationPool} {v : InterfaceVar}

theorem keptIf_of_pos {keep : InterfaceVar → Bool} (h : keep v = true) : v.keptIf keep = v :=
  if_pos h

theorem keptIf_of_neg {keep : InterfaceVar → Bool} (h : keep v = false) :
    v.keptIf keep = v.unplaced := by
  rw [InterfaceVar.keptIf, h]
  rfl

theorem pinStep_unplaced (pins : Pins) :
    pinStep pins pool v.unplaced =
      (pinStep pins pool v).map fun x => (x.1, x.2.keptIf pins.pinned) := by
  cases hpin : pins.get? v.name with
  | none =>
      have hkept : v.keptIf pins.pinned = v.unplaced := keptIf_of_neg (by simp [Pins.pinned, hpin])
      rw [pinStep_of_unpinned hpin, pinStep_of_unpinned (v := v.unplaced) hpin, Except.map, hkept]
  | some location =>
      have hpinned : pins.pinned { v with location } = true := by simp [Pins.pinned, hpin]
      cases hreserve : pool.reserve? location v.footprint with
      | none =>
          rw [pinStep_of_taken hpin hreserve, pinStep_of_taken (v := v.unplaced) hpin hreserve]
          rfl
      | some left =>
          rw [pinStep_of_reserved hpin hreserve,
            pinStep_of_reserved (v := v.unplaced) hpin hreserve, Except.map, keptIf_of_pos hpinned]
          rfl

theorem fitStep_keptIf (space : Namespace) (keep : InterfaceVar → Bool) :
    fitStep space pool (v.keptIf keep) = fitStep space pool v := by
  unfold InterfaceVar.keptIf
  split <;> rfl

theorem fitWhereStep_keptIf (space : Namespace) {test : InterfaceVar → Bool}
    (htest : IgnoresLocation test) (keep : InterfaceVar → Bool) :
    fitWhereStep space test pool (v.keptIf keep) =
      (fitWhereStep space test pool v).map fun x =>
        (x.1, x.2.keptIf fun v => keep v || test v) := by
  have hsame : test (v.keptIf keep) = test v := by
    unfold InterfaceVar.keptIf
    split
    · rfl
    · exact htest v
  cases hv : test v with
  | true =>
      rw [fitWhereStep_of_pos hv, fitWhereStep_of_pos (hsame.trans hv), fitStep_keptIf]
      cases hfit : fitStep space pool v with
      | error e => rfl
      | ok x =>
          obtain ⟨left, w⟩ := x
          have hw : test w = true := (htest.eq (unplaced_of_fitStep hfit)).trans hv
          rw [Except.map, keptIf_of_pos (by rw [hw, Bool.or_true])]
  | false =>
      have hkept : (v.keptIf fun v => keep v || test v) = v.keptIf keep := by
        simp only [InterfaceVar.keptIf, hv, Bool.or_false]
      rw [fitWhereStep_of_neg (Bool.eq_false_iff.mp hv),
        fitWhereStep_of_neg (Bool.eq_false_iff.mp (hsame.trans hv)), Except.map, hkept]

theorem resolveStep_unplaced (outputs : List InterfaceVar) :
    resolveStep outputs pool v.unplaced = resolveStep outputs pool v := rfl

end

theorem unplaced_eq_keptIf : InterfaceVar.unplaced = InterfaceVar.keptIf fun _ => false := rfl

theorem map_keptIf_of_forall {keep : InterfaceVar → Bool} (h : ∀ v, keep v = true)
    (vars : List InterfaceVar) : vars.map (InterfaceVar.keptIf keep) = vars := by
  refine (List.map_congr_left fun v _ => keptIf_of_pos (h v)).trans (List.map_id' vars)

/-- Attributes are placed without regard to the locations that they have.  Each is pinned,
or active, or neither, and so is placed by one of the passes. -/
theorem placeAttribs_unplaced (pins : Pins) (capacity : Nat) (inputs : List InterfaceVar) :
    placeAttribs pins capacity (inputs.map InterfaceVar.unplaced) =
      placeAttribs pins capacity inputs := by
  simp only [placeAttribs, reservePins_eq_placeEach, placeWhere_eq_placeEach]
  rw [placeEach_map fun _ _ => pinStep_unplaced pins, map_bind_except]
  refine bind_congr_of_ok fun x _ => ?_
  dsimp only
  rw [placeEach_map fun _ _ => fitWhereStep_keptIf .attributes (fun _ => rfl) _, map_bind_except]
  refine bind_congr_of_ok fun y _ => ?_
  dsimp only
  rw [placeEach_map fun _ _ => fitWhereStep_keptIf .attributes (fun _ => rfl) _, map_bind_except]
  refine bind_congr_of_ok fun z _ => ?_
  dsimp only
  rw [map_keptIf_of_forall]
  intro v
  rw [Pins.pinned]
  cases pins.get? v.name <;> cases v.active <;> rfl

theorem placeVaryings_unplaced (capacity : Nat) (outputs : List InterfaceVar) :
    placeVaryings capacity (outputs.map InterfaceVar.unplaced) =
      placeVaryings capacity outputs := by
  simp only [placeVaryings, placeWhere_eq_placeEach, unplaced_eq_keptIf]
  rw [placeEach_map fun _ _ => fitWhereStep_keptIf .varyings (fun _ => rfl) _, map_bind_except]
  refine bind_congr_of_ok fun x _ => ?_
  dsimp only
  rw [placeEach_map fun _ _ => fitWhereStep_keptIf .varyings (fun _ => rfl) _]
  have hall (v : InterfaceVar) : (false || v.active || !v.active) = true := by
    cases v.active <;> rfl
  simp only [map_keptIf_of_forall hall]
  exact congrFun Except.map_id _

theorem resolveInputs_unplaced (outputs : List InterfaceVar) (pool : LocationPool)
    (inputs : List InterfaceVar) :
    resolveInputs outputs pool (inputs.map InterfaceVar.unplaced) =
      resolveInputs outputs pool inputs := by
  have hstep (pool : LocationPool) (v : InterfaceVar) : resolveStep outputs pool v.unplaced =
      (resolveStep outputs pool v).map fun x => (x.1, id x.2) := by
    rw [resolveStep_unplaced]
    exact (congrFun Except.map_id _).symm
  rw [resolveInputs_eq_placeEach, resolveInputs_eq_placeEach, placeEach_map hstep]
  simp only [List.map_id]
  exact congrArg _ (congrFun Except.map_id _)

/-! ## Bindings -/

/-- Whether resources can be bound is a question of how many they are. -/
theorem bindResources_eq_map {pool : LocationPool} {next capacity : Nat}
    (h : pool.Holds (Set.Ico next capacity)) (p q : ModulePair)
    (resources : List (Stage × ResourceVar)) :
    bindResources pool p resources =
      (bindResources pool q resources).map fun _ => p.bindFrom next resources := by
  induction resources generalizing pool next p q with
  | nil => rfl
  | cons x rest ih =>
      obtain ⟨stage, r⟩ := x
      rcases Nat.lt_or_ge next capacity with hlt | hge
      · obtain ⟨left, hallocate, hleft⟩ := h.allocate?_one hlt
        simp only [bindResources, hallocate]
        exact ih hleft _ _
      · simp only [bindResources, h.allocate?_one_of_le hge]
        rfl

theorem ShaderModule.isReplaced_iff {m : ShaderModule} {index : Nat} :
    m.isReplaced index = true ↔
      ∃ r ∈ StageInterface.texturesOf m ++ StageInterface.blocksOf m,
        r.global = index ∨ r.sampler = some index := by
  simp only [isReplaced, Bool.or_eq_true, Option.any_eq_true, List.any_eq_true, beq_iff_eq,
    decide_eq_true_eq]
  constructor
  · rintro (⟨g, hg, htexture | hblock⟩ | ⟨t, ht, hsampler⟩)
    · have hglobal := StageInterface.global_textureOf m g index
      refine ⟨_, List.mem_append_left _ (StageInterface.mem_texturesOf.mpr ⟨g, ?_, htexture, ?_⟩),
        .inl hglobal⟩
      · rwa [hglobal]
      · rw [hglobal]
    · exact ⟨StageInterface.blockOf g index, List.mem_append_right _
        (StageInterface.mem_blocksOf.mpr ⟨g, hg, hblock, rfl⟩), .inl rfl⟩
    · exact ⟨t, List.mem_append_left _ ht, .inr hsampler⟩
  · rintro ⟨r, hr, hindex⟩
    rcases List.mem_append.mp hr with hr | hr
    · obtain ⟨g, hg, htexture, -⟩ := StageInterface.mem_texturesOf.mp hr
      rcases hindex with rfl | hsampler
      · exact .inl ⟨g, hg, .inl htexture⟩
      · exact .inr ⟨r, hr, hsampler⟩
    · obtain ⟨g, hg, hblock, heq⟩ := StageInterface.mem_blocksOf.mp hr
      rcases hindex with rfl | hsampler
      · exact .inl ⟨g, hg, .inr hblock⟩
      · rw [heq] at hsampler
        cases hsampler

section

variable {stages : Stage → LinkStage} {stage : Stage} {index : Nat}

/-- A link writes to the globals whose bindings it replaces, and to no others. -/
theorem exists_mem_stageWrites_iff (hcollected : (stages stage).Collected) :
    (∃ w ∈ stageWrites stage 0 (resourcesOf stages), w.1 = index) ↔
      (stages stage).shader.isReplaced index = true := by
  rw [ShaderModule.isReplaced_iff, ← hcollected.resources]
  constructor
  · rintro ⟨⟨i, b⟩, hw, rfl⟩
    obtain ⟨k, r, hk, hwrite⟩ := mem_stageWrites.mp hw
    refine ⟨r.asCollected, List.mem_map_of_mem (mem_resources_of_getElem? hk), ?_⟩
    rcases ResourceVar.mem_writes.mp hwrite with ⟨hglobal, -⟩ | ⟨hsampler, -⟩
    · exact .inl hglobal
    · exact .inr hsampler
  · rintro ⟨r, hr, hindex⟩
    obtain ⟨r, hmem, rfl⟩ := List.mem_map.mp hr
    obtain ⟨k, hk⟩ := List.getElem?_of_mem (mem_resourcesOf.mpr hmem)
    rcases hindex with hglobal | hsampler
    · exact ⟨(index, ⟨0, 0 + k⟩), mem_stageWrites.mpr
        ⟨k, r, hk, ResourceVar.mem_writes.mpr (.inl ⟨hglobal, rfl⟩)⟩, rfl⟩
    · exact ⟨(index, ⟨samplerGroup, 0 + k⟩), mem_stageWrites.mpr
        ⟨k, r, hk, ResourceVar.mem_writes.mpr (.inr ⟨hsampler, rfl⟩)⟩, rfl⟩

end

/-! ## Stages -/

namespace ShaderModule

variable (m : ShaderModule) (writes : List (Nat × ResourceBinding))
variable (inputs outputs : List InterfaceVar)

/-- A module with bindings and locations written into it. -/
def patchedWith : ShaderModule :=
  ((m.bindAll writes).applyLocations inputs).applyLocations outputs

theorem patchedWith_eq :
    m.patchedWith writes inputs outputs =
      { m with
        globals := (m.bindAll writes).globals
        entry := m.entry.map ((inputs ++ outputs).foldl EntryPoint.setLocation) } := by
  have hunbound : (m.bindAll writes).unbound = m.unbound := unbound_bindAll
  obtain ⟨-, hfunctions, hentry, hcode⟩ := mk.inj hunbound
  simp only [patchedWith, applyLocations, mapEntry, hfunctions, hentry, hcode, Option.map_map,
    mk.injEq, true_and, and_true]
  congr 1
  funext e
  exact List.foldl_append.symm

variable {m writes inputs outputs} {stage : Stage}

/-- All that was taken away from a module is written again. -/
theorem patchedWith_stripped
    (hwrites : ∀ index, m.isReplaced index = true → ∃ w ∈ writes, w.1 = index)
    (hvars : ∀ e, m.entry = some e → ∀ slot n, slot.isReplaced stage = true →
      e.decorationAt? slot = some (.location n) → ∃ v ∈ inputs ++ outputs, v.slot = slot) :
    (m.stripped stage).patchedWith writes inputs outputs = m.patchedWith writes inputs outputs := by
  rw [patchedWith_eq, patchedWith_eq, globals_bindAll_stripped hwrites, stripped]
  simp only [mk.injEq, true_and, and_true, Option.map_map]
  cases hentry : m.entry with
  | none => rfl
  | some e =>
      simp only [Option.map_some, Option.some.injEq, Function.comp_apply]
      exact EntryPoint.foldl_setLocation_stripped (hvars e hentry)

/-- Nothing else of a module is changed. -/
theorem stripped_patchedWith (hwrites : ∀ w ∈ writes, m.isReplaced w.1 = true)
    (hvars : ∀ e, m.entry = some e → ∀ v ∈ inputs ++ outputs, v.slot.isReplaced stage = true ∨
      e.decorationAt? v.slot = some (.location v.location)) :
    (m.patchedWith writes inputs outputs).stripped stage = m.stripped stage := by
  have hreplaced : (m.patchedWith writes inputs outputs).isReplaced =
      (m.bindAll writes).isReplaced :=
    funext fun index => isReplaced_congr (by rw [patchedWith_eq]; rfl) index
  have hglobals : ((m.bindAll writes).stripped stage).globals = (m.stripped stage).globals :=
    globals_stripped_bindAll hwrites
  rw [stripped, hreplaced, patchedWith_eq]
  simp only [stripped, mk.injEq, true_and, and_true, Option.map_map]
  refine ⟨hglobals, ?_⟩
  cases hentry : m.entry with
  | none => rfl
  | some e =>
      simp only [Option.map_some, Option.some.injEq, Function.comp_apply]
      exact EntryPoint.stripped_foldl_setLocation (hvars e hentry)

end ShaderModule

/-- A stage without the numbers that linking replaces. -/
def LinkStage.stripped (s : LinkStage) (stage : Stage) : LinkStage :=
  ⟨s.stage, s.shader.stripped stage, s.interface.stripped stage⟩

theorem LinkStage.ofCompiled?_stripped (shader : Option CompiledShader) (stage : Stage) :
    ofCompiled? (shader.map fun c => c.stripped stage) stage =
      (ofCompiled? shader stage).map fun s => s.stripped stage := by
  cases shader with
  | none => rfl
  | some c =>
      simp only [ofCompiled?, Option.map_some, bind, Option.bind_some,
        CompiledShader.interface?_stripped]
      cases c.interface? stage <;> rfl

section

variable {c : Option CompiledShader} {stage : Stage} {s : LinkStage} {e : EntryPoint}
variable {inputs outputs : List InterfaceVar}

/-- The variables of a stage are those of its entry point, up to their use. -/
theorem LinkStage.slots_of_ofCompiled? (h : ofCompiled? c stage = some s)
    (he : s.shader.entry = some e) :
    s.interface.inputs.map (fun v => (v.slot, v.location)) =
        (StageInterface.inputsOf e).map (fun v => (v.slot, v.location)) ∧
      s.interface.outputs.map (fun v => (v.slot, v.location)) =
        (StageInterface.outputsOf e).map (fun v => (v.slot, v.location)) := by
  obtain ⟨c, i, rfl, hi, rfl⟩ := ofCompiled?_eq_some_iff.mp h
  obtain ⟨-, e', he', rfl⟩ := CompiledShader.interface?_eq_some_iff.mp hi
  obtain rfl : e' = e := Option.some.inj (he'.symm.trans he)
  simp only [StageInterface.markActivity, List.map_map]
  exact ⟨rfl, rfl⟩

theorem slots_of_map_unplaced {vs ws : List InterfaceVar}
    (h : ws.map InterfaceVar.unplaced = vs.map InterfaceVar.unplaced) :
    ws.map (·.slot) = vs.map (·.slot) := by
  have hslots := congrArg (List.map InterfaceVar.slot) h
  rwa [List.map_map, List.map_map] at hslots

/-- Placed variables still are at every location of the entry point. -/
theorem LinkStage.exists_slot_of_ofCompiled? (h : ofCompiled? c stage = some s)
    (he : s.shader.entry = some e)
    (hinputs : inputs.map InterfaceVar.unplaced = s.interface.inputs.map InterfaceVar.unplaced)
    (houtputs : outputs.map InterfaceVar.unplaced = s.interface.outputs.map InterfaceVar.unplaced)
    {slot : LocationSlot} {n : Nat} (hd : e.decorationAt? slot = some (.location n)) :
    ∃ v ∈ inputs ++ outputs, v.slot = slot := by
  obtain ⟨v, hv, rfl⟩ := StageInterface.exists_mem_of_decorationAt? hd
  obtain ⟨hin, hout⟩ := slots_of_ofCompiled? h he
  have hin := congrArg (List.map Prod.fst) hin
  have hout := congrArg (List.map Prod.fst) hout
  rw [List.map_map, List.map_map] at hin hout
  have hall : (inputs ++ outputs).map (·.slot) =
      (StageInterface.inputsOf e ++ StageInterface.outputsOf e).map (·.slot) := by
    rw [List.map_append, List.map_append, slots_of_map_unplaced hinputs,
      slots_of_map_unplaced houtputs]
    exact congrArg₂ _ hin hout
  have hmem : v.slot ∈ (inputs ++ outputs).map (·.slot) := hall ▸ List.mem_map_of_mem hv
  exact List.mem_map.mp hmem

/-- Placed variables of a fragment stage are at arguments, and at results as they are. -/
theorem LinkStage.replaced_or_kept (h : ofCompiled? c .fragment = some s)
    (he : s.shader.entry = some e)
    (hinputs : inputs.map InterfaceVar.unplaced = s.interface.inputs.map InterfaceVar.unplaced)
    {v : InterfaceVar} (hv : v ∈ inputs ++ s.interface.outputs) :
    v.slot.isReplaced .fragment = true ∨ e.decorationAt? v.slot = some (.location v.location) := by
  obtain ⟨hin, hout⟩ := slots_of_ofCompiled? h he
  rcases List.mem_append.mp hv with hv | hv
  · obtain ⟨w, hw, hunplaced⟩ := InterfaceVar.exists_of_map_unplaced hinputs hv
    obtain ⟨-, -, hslot, -⟩ := InterfaceVar.mk.inj hunplaced
    have hmem : (w.slot, w.location) ∈
        (StageInterface.inputsOf e).map fun v => (v.slot, v.location) :=
      hin ▸ List.mem_map_of_mem hw
    obtain ⟨u, hu, heq⟩ := List.mem_map.mp hmem
    obtain ⟨i, a, n, -, -, rfl⟩ := StageInterface.mem_inputsOf_iff.mp hu
    rw [hslot, ← (Prod.mk.inj heq).1]
    exact .inl rfl
  · have hmem : (v.slot, v.location) ∈
        (StageInterface.outputsOf e).map fun v => (v.slot, v.location) :=
      hout ▸ List.mem_map_of_mem hv
    obtain ⟨u, hu, heq⟩ := List.mem_map.mp hmem
    obtain ⟨hslot, hlocation⟩ := Prod.mk.inj heq
    rw [← hslot, ← hlocation]
    exact .inr (StageInterface.decorationAt?_of_mem_outputsOf hu)

end

/-! ## Links -/

/-- What a link writes out and reflects. -/
def PlacedProgram.output (p : PlacedProgram) : ShaderModule × ShaderModule × ProgramReflection :=
  (p.vertex.patched, p.fragment.patched, p.reflection)

theorem PlacedProgram.output_congr {p q : PlacedProgram}
    (hvertex : p.vertex.patched = q.vertex.patched)
    (hfragment : p.fragment.patched = q.fragment.patched)
    (hvertex' : p.vertex.interface = q.vertex.interface)
    (hfragment' : p.fragment.interface = q.fragment.interface) : p.output = q.output := by
  simp only [output, reflection, hvertex, hfragment, hvertex', hfragment']

/-- The first part of placing a program: the locations of both interfaces. -/
def placeLocations (vertex fragment : StageInterface) (pins : Pins) (options : LinkOptions) :
    Except PlacementError (StageInterface × StageInterface) := do
  let inputs ← placeAttribs pins options.attribCapacity vertex.inputs
  let (pool, outputs) ← placeVaryings options.varyingCapacity vertex.outputs
  let fragmentInputs ← resolveInputs outputs pool fragment.inputs
  return ({ vertex with inputs, outputs }, { fragment with inputs := fragmentInputs })

/-- A program with the resources of both interfaces bound in order. -/
def PlacedProgram.bound (modules : ModulePair) (vertex fragment : StageInterface) :
    PlacedProgram :=
  let modules := modules.bindFrom 0 (bindingOrder vertex fragment)
  ⟨⟨.vertex, modules.vertex, vertex⟩, ⟨.fragment, modules.fragment, fragment⟩⟩

/-- The stages of such a program are patched with what is written to their modules. -/
theorem PlacedProgram.patched_bound (modules : ModulePair) (vertex fragment : StageInterface) :
    (bound modules vertex fragment).vertex.patched =
        modules.vertex.patchedWith (stageWrites .vertex 0 (bindingOrder vertex fragment))
          vertex.inputs vertex.outputs ∧
      (bound modules vertex fragment).fragment.patched =
        modules.fragment.patchedWith (stageWrites .fragment 0 (bindingOrder vertex fragment))
          fragment.inputs fragment.outputs := by
  have hget := modules.get_bindFrom 0 (bindingOrder vertex fragment)
  have hvertex := hget .vertex
  have hfragment := hget .fragment
  dsimp only [ModulePair.get] at hvertex hfragment
  simp only [bound, LinkStage.patched, ShaderModule.patchedWith, hvertex, hfragment, and_self]

section

variable {vertex fragment : StageInterface} {placed : StageInterface × StageInterface}
variable {pins : Pins} {options : LinkOptions}

theorem placeLocations_stripped :
    placeLocations (vertex.stripped .vertex) (fragment.stripped .fragment) pins options =
      placeLocations vertex fragment pins options := by
  simp only [placeLocations, StageInterface.stripped, placeAttribs_unplaced, if_true,
    placeVaryings_unplaced, resolveInputs_unplaced]
  rfl

/-- Locations are all that is changed, and those of fragment outputs are not. -/
theorem placeLocations_cases (h : placeLocations vertex fragment pins options = .ok placed) :
    ∃ inputs outputs fragmentInputs,
      inputs.map InterfaceVar.unplaced = vertex.inputs.map InterfaceVar.unplaced ∧
      outputs.map InterfaceVar.unplaced = vertex.outputs.map InterfaceVar.unplaced ∧
      fragmentInputs.map InterfaceVar.unplaced = fragment.inputs.map InterfaceVar.unplaced ∧
      placed = ({ vertex with inputs, outputs }, { fragment with inputs := fragmentInputs }) := by
  simp only [placeLocations, bind_eq_ok_iff, Prod.exists] at h
  obtain ⟨inputs, hinputs, pool, outputs, houtputs, fragmentInputs, hresolve, hpure⟩ := h
  cases hpure
  refine ⟨inputs, outputs, fragmentInputs, (inTurn_of_placeAttribs hinputs).1,
    (inTurn_of_placeVaryings houtputs).1, ?_, rfl⟩
  obtain ⟨left, hpass⟩ := resolveInputs_eq_ok_iff.mp hresolve
  exact unplaced_of_placeEach (resolveStep_follows outputs) hpass

/-- Placing a program places locations, then binds what the numbers are enough for. -/
theorem placeProgram_eq (vertex fragment : LinkStage) (modules : ModulePair) :
    placeProgram vertex fragment pins options =
      placeLocations vertex.interface fragment.interface pins options >>= fun placed =>
        (placeBindings modules placed.1 placed.2).map fun _ =>
          PlacedProgram.bound ⟨vertex.shader, fragment.shader⟩ placed.1 placed.2 := by
  have hbind (vi fi : StageInterface) :
      placeBindings ⟨vertex.shader, fragment.shader⟩ vi fi =
        (placeBindings modules vi fi).map fun _ =>
          ModulePair.bindFrom ⟨vertex.shader, fragment.shader⟩ 0 (bindingOrder vi fi) :=
    bindResources_eq_map (LocationPool.ofCapacity_holds wordMax) _ _ _
  simp only [placeProgram, placeLocations, bind_assoc, hbind, map_bind_except, pure_bind]
  refine bind_congr_of_ok fun inputs _ => bind_congr_of_ok fun x _ => ?_
  refine bind_congr_of_ok fun fragmentInputs _ => ?_
  generalize placeBindings modules _ _ = y
  cases y <;> rfl

end

theorem map_output_bind {ε α : Type} (x : Except ε α) (f : α → Except ε PlacedProgram) :
    (x >>= f).map PlacedProgram.output = (x >>= fun a => (f a).map PlacedProgram.output) := by
  cases x <;> rfl

section

variable {vertexShader fragmentShader : Option CompiledShader} {vertex fragment : LinkStage}
variable {pins : Pins} {options : LinkOptions} {placed : StageInterface × StageInterface}

/-- Placing locations does not change which resources are bound, nor their order. -/
theorem bindingOrder_of_placeLocations
    (h : placeLocations vertex.interface fragment.interface pins options = .ok placed) :
    bindingOrder placed.1 placed.2 = resourcesOf (stagesOf vertex fragment) := by
  obtain ⟨inputs, outputs, fragmentInputs, -, -, -, rfl⟩ := placeLocations_cases h
  exact bindingOrder_eq_mergedResources _ _

/-- Both stages of a link, with their collected resources. -/
theorem collected_stagesOf (hvertex : LinkStage.ofCompiled? vertexShader .vertex = some vertex)
    (hfragment : LinkStage.ofCompiled? fragmentShader .fragment = some fragment) (stage : Stage) :
    (stagesOf vertex fragment stage).Collected := by
  cases stage with
  | vertex => exact LinkStage.collected_of_ofCompiled? hvertex
  | fragment => exact LinkStage.collected_of_ofCompiled? hfragment

/-- What was taken away from the modules of a link is written again. -/
theorem PlacedProgram.output_bound_stripped
    (hvertex : LinkStage.ofCompiled? vertexShader .vertex = some vertex)
    (hfragment : LinkStage.ofCompiled? fragmentShader .fragment = some fragment)
    (hplaced : placeLocations vertex.interface fragment.interface pins options = .ok placed) :
    (bound ⟨vertex.shader.stripped .vertex, fragment.shader.stripped .fragment⟩
        placed.1 placed.2).output =
      (bound ⟨vertex.shader, fragment.shader⟩ placed.1 placed.2).output := by
  have hcollected := collected_stagesOf hvertex hfragment
  have horder := bindingOrder_of_placeLocations hplaced
  obtain ⟨inputs, outputs, fragmentInputs, hinputs, houtputs, hfragmentInputs, rfl⟩ :=
    placeLocations_cases hplaced
  refine output_congr ?_ ?_ rfl rfl
  · rw [(patched_bound _ _ _).1, (patched_bound _ _ _).1, horder]
    refine ShaderModule.patchedWith_stripped (fun index hindex => ?_) fun e he slot n _ hd => ?_
    · exact (exists_mem_stageWrites_iff (hcollected .vertex)).mpr hindex
    · exact LinkStage.exists_slot_of_ofCompiled? hvertex he hinputs houtputs hd
  · rw [(patched_bound _ _ _).2, (patched_bound _ _ _).2, horder]
    refine ShaderModule.patchedWith_stripped (fun index hindex => ?_) fun e he slot n _ hd => ?_
    · exact (exists_mem_stageWrites_iff (hcollected .fragment)).mpr hindex
    · exact LinkStage.exists_slot_of_ofCompiled? hfragment he hfragmentInputs rfl hd

theorem placeProgram_stripped (hvertex : LinkStage.ofCompiled? vertexShader .vertex = some vertex)
    (hfragment : LinkStage.ofCompiled? fragmentShader .fragment = some fragment) :
    (placeProgram (vertex.stripped .vertex) (fragment.stripped .fragment) pins options).map
        PlacedProgram.output =
      (placeProgram vertex fragment pins options).map PlacedProgram.output := by
  rw [placeProgram_eq _ _ ⟨vertex.shader, fragment.shader⟩,
    placeProgram_eq vertex fragment ⟨vertex.shader, fragment.shader⟩]
  have hlocations : placeLocations (vertex.stripped .vertex).interface
      (fragment.stripped .fragment).interface pins options =
        placeLocations vertex.interface fragment.interface pins options := placeLocations_stripped
  rw [hlocations, map_output_bind, map_output_bind]
  refine bind_congr_of_ok fun placed hplaced => ?_
  generalize placeBindings _ _ _ = bindings
  cases bindings with
  | error e => rfl
  | ok modules =>
      exact congrArg Except.ok (PlacedProgram.output_bound_stripped hvertex hfragment hplaced)

/-- A program that is placed has its locations placed and its resources bound. -/
theorem bound_of_placeProgram {p : PlacedProgram}
    (h : placeProgram vertex fragment pins options = .ok p) :
    ∃ placed, placeLocations vertex.interface fragment.interface pins options = .ok placed ∧
      p = PlacedProgram.bound ⟨vertex.shader, fragment.shader⟩ placed.1 placed.2 := by
  rw [placeProgram_eq _ _ ⟨vertex.shader, fragment.shader⟩, bind_eq_ok_iff] at h
  obtain ⟨placed, hplaced, hbound⟩ := h
  refine ⟨placed, hplaced, ?_⟩
  generalize placeBindings _ _ _ = bindings at hbound
  cases bindings with
  | error e => cases hbound
  | ok modules => exact (Except.ok.inj hbound).symm

/-- A link changes no more than what it replaces. -/
theorem stripped_of_placeProgram
    (hvertex : LinkStage.ofCompiled? vertexShader .vertex = some vertex)
    (hfragment : LinkStage.ofCompiled? fragmentShader .fragment = some fragment)
    {p : PlacedProgram} (h : placeProgram vertex fragment pins options = .ok p) :
    p.vertex.patched.stripped .vertex = vertex.shader.stripped .vertex ∧
      p.fragment.patched.stripped .fragment = fragment.shader.stripped .fragment := by
  have hcollected := collected_stagesOf hvertex hfragment
  obtain ⟨placed, hplaced, rfl⟩ := bound_of_placeProgram h
  rw [(PlacedProgram.patched_bound _ _ _).1, (PlacedProgram.patched_bound _ _ _).2,
    bindingOrder_of_placeLocations hplaced]
  obtain ⟨inputs, outputs, fragmentInputs, -, -, hinputs, rfl⟩ := placeLocations_cases hplaced
  constructor
  · refine ShaderModule.stripped_patchedWith (fun w hw => ?_) fun e he v hv => ?_
    · exact (exists_mem_stageWrites_iff (hcollected .vertex)).mp ⟨w, hw, rfl⟩
    · exact .inl v.slot.isReplaced_vertex
  · refine ShaderModule.stripped_patchedWith (fun w hw => ?_) fun e he v hv => ?_
    · exact (exists_mem_stageWrites_iff (hcollected .fragment)).mp ⟨w, hw, rfl⟩
    · exact LinkStage.replaced_or_kept hfragment he hinputs hv

end

/-! ## Both runs -/

section

variable {vertex vertex' fragment fragment' : Option CompiledShader} {pins : Pins}
variable {options : LinkOptions} {p q : PlacedProgram}

theorem prepareLink_eq_ok_iff :
    prepareLink vertex fragment pins options = .ok p ↔
      ∃ v f, LinkStage.ofCompiled? vertex .vertex = some v ∧
        LinkStage.ofCompiled? fragment .fragment = some f ∧
        placeProgram v f pins options = .ok p := by
  unfold prepareLink
  cases LinkStage.ofCompiled? vertex .vertex with
  | none => simp [throw, throwThe, MonadExceptOf.throw]
  | some v =>
      cases LinkStage.ofCompiled? fragment .fragment with
      | none => simp [throw, throwThe, MonadExceptOf.throw]
      | some f => cases hplace : placeProgram v f pins options <;> simp [Except.mapError, hplace]

/-- A link gives what it gives for the stripped modules. -/
theorem prepareLink_stripped (vertex fragment : Option CompiledShader) (pins : Pins)
    (options : LinkOptions) :
    (prepareLink (vertex.map fun c => c.stripped .vertex)
        (fragment.map fun c => c.stripped .fragment) pins options).map PlacedProgram.output =
      (prepareLink vertex fragment pins options).map PlacedProgram.output := by
  have hmap (x : Except PlacementError PlacedProgram) :
      (x.mapError LinkError.placement).map PlacedProgram.output =
        (x.map PlacedProgram.output).mapError LinkError.placement := by
    cases x <;> rfl
  unfold prepareLink
  rw [LinkStage.ofCompiled?_stripped, LinkStage.ofCompiled?_stripped]
  cases hvertex : LinkStage.ofCompiled? vertex .vertex with
  | none => rfl
  | some v =>
      cases hfragment : LinkStage.ofCompiled? fragment .fragment with
      | none => rfl
      | some f =>
          simp only [Option.map_some, hmap, placeProgram_stripped hvertex hfragment]

theorem emitProgram_congr (backend : Backend) (hvertex : p.vertex.stage = q.vertex.stage)
    (hfragment : p.fragment.stage = q.fragment.stage) (houtput : p.output = q.output) :
    emitProgram backend options p = emitProgram backend options q := by
  obtain ⟨hvertexPatched, hrest⟩ := Prod.mk.inj houtput
  obtain ⟨hfragmentPatched, hreflection⟩ := Prod.mk.inj hrest
  simp only [emitProgram, emitStage, hvertex, hfragment, hvertexPatched, hfragmentPatched,
    hreflection]

theorem stage_of_prepareLink (h : prepareLink vertex fragment pins options = .ok p) :
    p.vertex.stage = .vertex ∧ p.fragment.stage = .fragment := by
  obtain ⟨v, f, -, -, hplace⟩ := prepareLink_eq_ok_iff.mp h
  obtain ⟨_, _, _, _, _, -, -, -, -, rfl⟩ := placeProgram_eq_ok_iff.mp hplace
  exact ⟨rfl, rfl⟩

/-- What is written out is a function of what the stages are patched to. -/
theorem link_congr (backend : Backend)
    (h : (prepareLink vertex' fragment' pins options).map PlacedProgram.output =
      (prepareLink vertex fragment pins options).map PlacedProgram.output) :
    link backend vertex' fragment' pins options = link backend vertex fragment pins options := by
  unfold link
  cases hp : prepareLink vertex' fragment' pins options with
  | error e =>
      cases hq : prepareLink vertex fragment pins options with
      | error e' =>
          rw [hp, hq] at h
          cases h
          rfl
      | ok q =>
          rw [hp, hq] at h
          cases h
  | ok p =>
      cases hq : prepareLink vertex fragment pins options with
      | error e =>
          rw [hp, hq] at h
          cases h
      | ok q =>
          rw [hp, hq] at h
          obtain ⟨hvertex, hfragment⟩ := stage_of_prepareLink hp
          obtain ⟨hvertex', hfragment'⟩ := stage_of_prepareLink hq
          exact emitProgram_congr backend (hvertex.trans hvertex'.symm)
            (hfragment.trans hfragment'.symm) (Except.ok.inj h)

/-- Linking replaces every provisional number.  Modules that differ in nothing else are
linked with the same error, or to the same modules and the same reflection, and nothing
else of a module is changed. -/
theorem link_ignores_provisional
    (hvertex : vertex'.map (fun c => c.stripped .vertex) =
      vertex.map fun c => c.stripped .vertex)
    (hfragment : fragment'.map (fun c => c.stripped .fragment) =
      fragment.map fun c => c.stripped .fragment) :
    (prepareLink vertex' fragment' pins options).map PlacedProgram.output =
        (prepareLink vertex fragment pins options).map PlacedProgram.output ∧
      (∀ backend, link backend vertex' fragment' pins options =
        link backend vertex fragment pins options) ∧
      ∀ v f p, vertex = some v → fragment = some f →
        prepareLink vertex fragment pins options = .ok p →
        p.vertex.patched.stripped .vertex = v.shader.stripped .vertex ∧
          p.fragment.patched.stripped .fragment = f.shader.stripped .fragment := by
  have houtput : (prepareLink vertex' fragment' pins options).map PlacedProgram.output =
      (prepareLink vertex fragment pins options).map PlacedProgram.output := by
    rw [← prepareLink_stripped vertex', hvertex, hfragment, prepareLink_stripped]
  refine ⟨houtput, fun backend => link_congr backend houtput, ?_⟩
  rintro v f p rfl rfl hp
  obtain ⟨vs, fs, hv, hf, hplace⟩ := prepareLink_eq_ok_iff.mp hp
  obtain ⟨_, _, ⟨⟩, -, rfl⟩ := LinkStage.ofCompiled?_eq_some_iff.mp hv
  obtain ⟨_, _, ⟨⟩, -, rfl⟩ := LinkStage.ofCompiled?_eq_some_iff.mp hf
  exact stripped_of_placeProgram hv hf hplace

end

/-- A vertex stage with provisional numbers from a number on. -/
def sampleVertex (number : Nat) : CompiledShader where
  stage := .vertex
  shader :=
    { globals := [⟨some "compat_VertexUniforms", .struct none [] 16, .uniform, some ⟨3, number⟩⟩,
        ⟨some "uv", .vector .four ⟨.float, 4⟩, .perInvocation, none⟩]
      functions := [⟨"main", [1], [], []⟩]
      entry := some
        { stage := .vertex
          arguments := [⟨some "idle", .scalar ⟨.float, 4⟩, .location number, .byType⟩,
            ⟨none, .scalar ⟨.float, 4⟩, .builtIn .vertexIndex, .byType⟩]
          result := .struct
            [⟨some "uv", .vector .four ⟨.float, 4⟩, 0, .location (number + 1), .byType⟩,
              ⟨none, .vector .four ⟨.float, 4⟩, 16, .builtIn .position, .byType⟩] 32
          body := ⟨"main", [0, 1], [], [0]⟩ } }

/-- A fragment stage with provisional numbers from a number on.  Its output and a sampler
of no texture have other numbers. -/
def sampleFragment (number : Nat) : CompiledShader where
  stage := .fragment
  shader :=
    { globals := [⟨some "compat_texture_map", .image .d2 false (.texels .float), .handle, none⟩,
        ⟨some "compat_sampler_map", .sampler false, .handle, some ⟨number, number⟩⟩,
        ⟨some "loose", .sampler false, .handle, some ⟨0, 7⟩⟩]
      functions := []
      entry := some
        { stage := .fragment
          arguments := [⟨some "uv", .vector .four ⟨.float, 4⟩, .location number, .byType⟩]
          result := .value (.vector .four ⟨.float, 4⟩) (.location 2)
          body := ⟨"main", [0, 1], [], []⟩ } }

theorem link_ignores_provisional_of_samples :
    let linked (number : Nat) :=
      prepareLink (some (sampleVertex number)) (some (sampleFragment number)) [] {}
    (some (sampleVertex 8)).map (fun c => c.stripped .vertex) =
        (some (sampleVertex 5)).map (fun c => c.stripped .vertex) ∧
      (some (sampleFragment 8)).map (fun c => c.stripped .fragment) =
        (some (sampleFragment 5)).map (fun c => c.stripped .fragment) ∧
      (linked 8).map PlacedProgram.output = (linked 5).map PlacedProgram.output ∧
      ∃ p, linked 5 = .ok p ∧
        p.fragment.patched.stripped .fragment = (sampleFragment 5).shader.stripped .fragment ∧
        p.vertex.patched.binding? 0 = some ⟨0, 1⟩ ∧ p.fragment.patched.binding? 0 = some ⟨0, 0⟩ ∧
        p.fragment.patched.binding? 1 = some ⟨1, 0⟩ ∧
        p.fragment.patched.binding? 2 = some ⟨0, 7⟩ := by
  intro linked
  have hvertex : (some (sampleVertex 8)).map (fun c => c.stripped .vertex) =
      (some (sampleVertex 5)).map (fun c => c.stripped .vertex) := rfl
  have hfragment : (some (sampleFragment 8)).map (fun c => c.stripped .fragment) =
      (some (sampleFragment 5)).map (fun c => c.stripped .fragment) := rfl
  obtain ⟨houtput, -, hkept⟩ :=
    @link_ignores_provisional _ _ _ _ [] {} hvertex hfragment
  refine ⟨hvertex, hfragment, houtput, _, rfl, (hkept _ _ _ rfl rfl rfl).2, ?_⟩
  decide +kernel

end LegacyShader
