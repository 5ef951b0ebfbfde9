import LegacyShader.Proofs.PatchedModules
import LegacyShader.Proofs.VaryingStack

/-!
# Provisional numbers

Before a module is linked, its inputs and its outputs are numbered one after the other, each
from zero on, and its textures and uniform blocks are bound one after the other.  Fragment
outputs stay where they are.

The counter of locations stops at the largest word, so the location of a variable is the sum
of the footprints before it, cut off there (`getElem?_consecutive`).  As long as all
footprints together stay below that, the variables are stacked and do not meet
(`pairwise_disjoint_consecutive`).

The numbers are written into the module as a link writes them.  So what is collected from the
module afterwards is the interface with these numbers, and the writes to bindings do not get
in each other's way unless a resource is named like a sampler (`provisional_layout`).
-/

namespace LegacyShader

/-! ## Locations -/

section

variable {start : Nat} {vs : List InterfaceVar}

/-- Each variable is where the footprints before it end, cut off at the largest word. -/
theorem getElem?_consecutive (start : Nat) (vs : List InterfaceVar) (k : Nat) :
    (consecutive (min start wordMax) vs)[k]? = vs[k]?.map fun v =>
      { v with location := min (start + totalFootprint (vs.take k)) wordMax } := by
  induction vs generalizing start k with
  | nil => rfl
  | cons v vs ih =>
      cases k with
      | zero => rfl
      | succ k =>
          have hnext : cappedAdd (min start wordMax) v.footprint =
              min (start + v.footprint) wordMax := by
            unfold cappedAdd
            omega
          rw [consecutive, List.getElem?_cons_succ, List.getElem?_cons_succ, hnext, ih,
            List.take_succ_cons, totalFootprint_cons, Nat.add_assoc]

theorem map_unplaced_consecutive (start : Nat) (vs : List InterfaceVar) :
    (consecutive start vs).map InterfaceVar.unplaced = vs.map InterfaceVar.unplaced := by
  induction vs generalizing start with
  | nil => rfl
  | cons v vs ih =>
      rw [consecutive, List.map_cons, List.map_cons, ih]
      rfl

/-- Variables that fit below the largest word are stacked. -/
theorem consecutive_eq_stackFrom (h : start + totalFootprint vs ≤ wordMax) :
    consecutive start vs = stackFrom start vs := by
  induction vs generalizing start with
  | nil => rfl
  | cons v vs ih =>
      rw [totalFootprint_cons, ← Nat.add_assoc] at h
      have hnext : cappedAdd start v.footprint = start + v.footprint :=
        Nat.min_eq_left ((Nat.le_add_right _ _).trans h)
      rw [consecutive, stackFrom, hnext, ih h]

theorem le_location_of_mem_stackFrom {w : InterfaceVar} (hw : w ∈ stackFrom start vs) :
    start ≤ w.location := by
  obtain ⟨before, after, hsplit⟩ := List.append_of_mem hw
  rw [location_of_stackFrom hsplit]
  exact Nat.le_add_right _ _

/-- Variables of a stack do not meet: each one ends where the next one starts. -/
theorem pairwise_disjoint_stackFrom (start : Nat) (vs : List InterfaceVar) :
    (stackFrom start vs).Pairwise fun v w => Disjoint v.slots w.slots := by
  induction vs generalizing start with
  | nil => exact .nil
  | cons v vs ih =>
      refine .cons (fun w hw => Set.disjoint_left.mpr ?_) (ih _)
      rintro slot ⟨-, hlt⟩ ⟨hle, -⟩
      have hstart := le_location_of_mem_stackFrom hw
      have hlt' : slot < start + v.footprint := hlt
      omega

theorem pairwise_disjoint_consecutive (h : totalFootprint vs ≤ wordMax) :
    (consecutive 0 vs).Pairwise fun v w => Disjoint v.slots w.slots := by
  rw [consecutive_eq_stackFrom ((Nat.zero_add _).symm ▸ h)]
  exact pairwise_disjoint_stackFrom 0 vs

end

/-! ## Bindings -/

/-- Binding resources one after the other is a list of writes. -/
theorem bindFrom_eq_bindAll (stage : Stage) (m : ShaderModule) (next : Nat)
    (resources : List ResourceVar) :
    bindFrom m next resources =
      m.bindAll (stageWrites stage next (resources.map fun r => (stage, r))) := by
  induction resources generalizing m next with
  | nil => rfl
  | cons r resources ih =>
      rw [bindFrom, ih, List.map_cons, stageWrites, if_pos rfl, ShaderModule.bindAll_append,
        ShaderModule.applyBinding_eq_bindAll]

/-- Locations and bindings are written to different parts of a module. -/
theorem ShaderModule.bindAll_applyLocations (m : ShaderModule) (vars : List InterfaceVar)
    (writes : List (Nat × ResourceBinding)) :
    (m.applyLocations vars).bindAll writes = (m.bindAll writes).applyLocations vars := by
  induction writes generalizing m with
  | nil => rfl
  | cons w writes ih => exact ih (m.bindGlobal w.1 w.2.group w.2.binding)

section

variable {m : ShaderModule} {i : StageInterface}

theorem ResourceVar.map_asCollected_of_active {resources : List ResourceVar}
    (h : ∀ r ∈ resources, r.active = true) : resources.map asCollected = resources := by
  have hagain := map_asCollected_map h fun _ => true
  rw [List.map_map] at hagain
  exact hagain

/-- An interface that has just been collected has the resources of its module. -/
theorem StageInterface.collected_of_collect? (stage : Stage) (h : collect? m = some i) :
    LinkStage.Collected ⟨stage, m, i⟩ := by
  obtain ⟨e, -, rfl⟩ := Option.map_eq_some_iff.mp h
  exact ⟨ResourceVar.map_asCollected_of_active fun r => active_of_mem_texturesOf,
    ResourceVar.map_asCollected_of_active fun r => active_of_mem_blocksOf⟩

/-- The resource at a place is in group zero and has the place as its number.  No other
resource has its global, and no sampler is its global. -/
theorem LinkStage.Collected.binding?_bindFrom {s : LinkStage} (h : s.Collected)
    (hapart : s.shader.SamplersApart) (placed : ShaderModule)
    (hglobals : placed.globals = s.shader.globals) {k : Nat} {r : ResourceVar}
    (hk : s.interface.resources[k]? = some r) :
    (bindFrom placed 0 s.interface.resources).binding? r.global = some ⟨0, k⟩ := by
  have hat {j : Nat} {t : ResourceVar} :
      (s.interface.resources.map fun r => (s.stage, r))[j]? = some (s.stage, t) ↔
        s.interface.resources[j]? = some t := by
    simp [List.getElem?_map]
  obtain ⟨g, hg, -⟩ := h.exists_global (List.mem_of_getElem? hk)
  obtain ⟨hlt, -⟩ := List.getElem?_eq_some_iff.mp hg
  rw [bindFrom_eq_bindAll s.stage]
  refine ShaderModule.binding?_bindAll_of_written (hglobals ▸ hlt) ?_ fun b hb => ?_
  · exact mem_stageWrites.mpr
      ⟨k, r, hat.mpr hk, ResourceVar.mem_writes.mpr (.inl ⟨rfl, by rw [Nat.zero_add]⟩)⟩
  · obtain ⟨j, t, hj, hwrite⟩ := mem_stageWrites.mp hb
    have hj' := hat.mp hj
    rcases ResourceVar.mem_writes.mp hwrite with ⟨hglobal, rfl⟩ | ⟨hsampler, -⟩
    · have hplace : j = k := by
        refine (List.getElem?_inj ?_ h.nodup_global).mp ?_
        · rw [List.length_map]
          exact (List.getElem?_eq_some_iff.mp hj').1
        · rw [List.getElem?_map, List.getElem?_map, hj', hk, Option.map_some, Option.map_some,
            hglobal]
      rw [hplace, Nat.zero_add]
    · exact absurd hsampler
        (h.sampler_ne_global hapart (List.mem_of_getElem? hj') (List.mem_of_getElem? hk))

end

/-! ## Modules with provisional numbers -/

/-- What provisional numbers do to a module `m` with the entry point `e` and the interface
`i`, which become `placed` and `j`. -/
structure ProvisionalLayout (m : ShaderModule) (e : EntryPoint) (i : StageInterface)
    (placed : ShaderModule) (j : StageInterface) : Prop where
  /-- Each input is where the footprints before it end, cut off at the largest word. -/
  inputs : ∀ k, j.inputs[k]? = i.inputs[k]?.map fun (v : InterfaceVar) =>
    { v with location := min (totalFootprint (i.inputs.take k)) (2 ^ 32 - 1) }
  /-- So is each output of a stage other than the fragment stage. -/
  outputs : e.stage ≠ .fragment → ∀ k, j.outputs[k]? = i.outputs[k]?.map fun (v : InterfaceVar) =>
    { v with location := min (totalFootprint (i.outputs.take k)) (2 ^ 32 - 1) }
  /-- Fragment outputs keep their locations. -/
  fragmentOutputs : e.stage = .fragment → j.outputs = i.outputs
  /-- Inputs do not meet, if their footprints together are a word. -/
  inputsApart : totalFootprint i.inputs < 2 ^ 32 →
    j.inputs.Pairwise fun v w => Disjoint v.slots w.slots
  /-- Neither do outputs of a stage other than the fragment stage. -/
  outputsApart : e.stage ≠ .fragment → totalFootprint i.outputs < 2 ^ 32 →
    j.outputs.Pairwise fun v w => Disjoint v.slots w.slots
  /-- The resource at a place, textures first, is in group zero and has the place as its
  number, unless a resource is named like a sampler. -/
  resources : m.SamplersApart → ∀ k r, (i.textures ++ i.uniformBlocks)[k]? = some r →
    placed.binding? r.global = some ⟨0, k⟩
  /-- The module has each variable at its location. -/
  decorations : ∀ v ∈ j.inputs ++ j.outputs,
    placed.entry.bind (·.decorationAt? v.slot) = some (.location v.location)
  /-- What is collected from the module is the interface with these numbers. -/
  collected : StageInterface.collect? placed = some j

section

variable {m : ShaderModule} {i j : StageInterface}

/-- Provisional numbers are written as the numbers of a link are. -/
theorem assignProvisional_fst (m : ShaderModule) (i : StageInterface) (stage : Stage) :
    (assignProvisional m i).1 =
      m.patchedWith (stageWrites stage 0 (i.resources.map fun r => (stage, r)))
        (assignProvisional m i).2.inputs (assignProvisional m i).2.outputs := by
  rw [ShaderModule.patchedWith, ← ShaderModule.bindAll_applyLocations,
    ← ShaderModule.bindAll_applyLocations, ← bindFrom_eq_bindAll]
  rfl

/-- Collected variables are at the locations that the module has. -/
theorem StageInterface.decorationAt?_of_collect? (h : collect? m = some i) {v : InterfaceVar}
    (hv : v ∈ i.inputs ++ i.outputs) :
    m.entry.bind (·.decorationAt? v.slot) = some (.location v.location) := by
  obtain ⟨e, he, rfl⟩ := Option.map_eq_some_iff.mp h
  rw [he, Option.bind_some]
  rcases List.mem_append.mp hv with hv | hv
  · obtain ⟨index, a, n, ha, hn, rfl⟩ := mem_inputsOf_iff.mp hv
    simp [EntryPoint.decorationAt?, ha, hn]
  · exact decorationAt?_of_mem_outputsOf hv

end

/-- Provisional numbers do not collide.  Inputs are stacked, and so are outputs of a stage
other than the fragment stage, each as far as words go; fragment outputs stay where they are;
resources are numbered in order; and the module agrees with its interface about all of it. -/
theorem provisional_layout (m : ShaderModule) (i : StageInterface)
    (hcollect : StageInterface.collect? m = some i) :
    ∃ e, m.entry = some e ∧
      ProvisionalLayout m e i (assignProvisional m i).1 (assignProvisional m i).2 := by
  obtain ⟨e, he, -⟩ := Option.map_eq_some_iff.mp hcollect
  refine ⟨e, he, ?_⟩
  have hinputs : (assignProvisional m i).2.inputs = consecutive 0 i.inputs := rfl
  have houtputs : (assignProvisional m i).2.outputs =
      if e.stage = .fragment then i.outputs else consecutive 0 i.outputs := by
    simp [assignProvisional, he]
  have hlocation (vs : List InterfaceVar) (k : Nat) : (consecutive 0 vs)[k]? = vs[k]?.map fun v =>
      { v with location := min (totalFootprint (vs.take k)) (2 ^ 32 - 1) } := by
    have hk := getElem?_consecutive 0 vs k
    rwa [Nat.zero_min, Nat.zero_add] at hk
  have hcollected : StageInterface.collect? (assignProvisional m i).1 =
      some (assignProvisional m i).2 := by
    rw [assignProvisional_fst m i .vertex]
    refine StageInterface.collect?_patchedWith _ hcollect ?_ ?_
    · rw [hinputs, map_unplaced_consecutive]
    · rw [houtputs]
      split
      · rfl
      · exact map_unplaced_consecutive 0 i.outputs
  refine ⟨?_, ?_, ?_, ?_, ?_, ?_, ?_, hcollected⟩
  · exact hlocation i.inputs
  · intro hstage
    rw [houtputs, if_neg hstage]
    exact hlocation i.outputs
  · intro hstage
    rw [houtputs, if_pos hstage]
  · intro htotal
    exact pairwise_disjoint_consecutive (Nat.le_of_lt_succ htotal)
  · intro hstage htotal
    rw [houtputs, if_neg hstage]
    exact pairwise_disjoint_consecutive (Nat.le_of_lt_succ htotal)
  · intro hapart k r hk
    have hresources := StageInterface.collected_of_collect? .vertex hcollect
    exact hresources.binding?_bindFrom hapart ((m.applyLocations _).applyLocations _) rfl hk
  · intro v hv
    exact StageInterface.decorationAt?_of_collect? hcollected hv

/-- An input takes all locations, so the two behind it are both at the last word.  The outputs
are stacked behind a built-in value.  A uniform block stands in front of a texture, which is
bound before it, with its sampler. -/
theorem provisional_layout_of_long_input :
    let vec4 : ShaderType := .vector .four .f32
    let argument (name : String) (type : ShaderType) : EntryArgument :=
      ⟨some name, type, .location 0, .byType⟩
    let output (name : String) (type : ShaderType) : ResultMember :=
      ⟨some name, type, 0, .location 0, .byType⟩
    let e : EntryPoint := {
      stage := .vertex
      arguments := [argument "long" (.array vec4 (some 4294967295) 16), argument "tint" vec4,
        argument "size" (.scalar .f32)]
      result := .struct [⟨none, vec4, 0, .builtIn .position, .byType⟩,
        output "frame" (.matrix .three .two .f32), output "uv" vec4] 0
      body := ⟨"main", [], [], []⟩ }
    let m : ShaderModule := {
      globals := [⟨some "block", .struct none [] 16, .uniform, none⟩,
        ⟨some "compat_texture_map", .image .d2 false (.texels .float), .handle, none⟩,
        ⟨some "compat_sampler_map", .sampler false, .handle, none⟩]
      functions := []
      entry := some e }
    ∃ i, StageInterface.collect? m = some i ∧ m.SamplersApart ∧
      let placed := (assignProvisional m i).1
      let j := (assignProvisional m i).2
      j.inputs.map (·.location) = [0, 4294967295, 4294967295] ∧
      j.outputs.map (·.location) = [0, 3] ∧
      (j.outputs.Pairwise fun v w => Disjoint v.slots w.slots) ∧
      placed.binding? 1 = some ⟨0, 0⟩ ∧ placed.binding? 0 = some ⟨0, 1⟩ ∧
      StageInterface.collect? placed = some j := by
  intro vec4 argument output e m
  have hcollect : StageInterface.collect? m = some _ := rfl
  have hapart : m.SamplersApart := by decide
  obtain ⟨e', he', hlayout⟩ := provisional_layout m _ hcollect
  obtain rfl : e = e' := Option.some.inj he'
  have hvertex : e.stage ≠ .fragment := by decide
  refine ⟨_, hcollect, hapart, by decide, rfl, hlayout.outputsApart hvertex (by decide), ?_, ?_,
    hlayout.collected⟩
  · exact hlayout.resources hapart 0 _ rfl
  · exact hlayout.resources hapart 1 _ rfl

end LegacyShader
