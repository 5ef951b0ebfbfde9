import LegacyShader.Proofs.BindingPlacement
import LegacyShader.Proofs.LinkSteps

/-!
# Well-formed reflections

A host binds its resources by what a reflection says, without a look at the modules.
`ProgramReflection.WellFormed` is what it relies on: every uniform is in a block of
its own stage or has a binding of its own, and no binding is used twice.

A reflection grows by one stage at a time.  A stage adds its active textures and its
first active block, so what matters about it is that these resources have bindings
that nothing else has.  Under that condition a stage that comes after those already
there keeps a reflection well-formed (`WellFormed.addStage`).  Placing bindings gives
each resource of both stages a number of its own, which is the condition for the two
stages of a link (`wellFormed_of_link`).
-/

namespace LegacyShader

namespace ProgramReflection

/-! ## What a stage adds -/

/-- The number that a resource is bound to. -/
def numberOf (m : ShaderModule) (r : ResourceVar) : UInt32 :=
  (m.binding? r.global).elim 0 fun b => b.binding.toUInt32

/-- The block of a stage that is reflected, with its members and its size: the first
active one, if that is a struct. -/
def reflectedBlock? (m : ShaderModule) (i : StageInterface) :
    Option (ResourceVar × List StructMember × Nat) :=
  (i.uniformBlocks.find? (·.active)).bind fun block =>
    match m.globalType? block.global with
    | some (.struct _ members span) => some (block, members, span)
    | _ => none

/-- The entries of the textures of a stage. -/
def textureEntries (stage : Stage) (m : ShaderModule) (i : StageInterface) : List UniformInfo :=
  (i.textures.filter (·.active)).map (textureUniform stage m)

/-- The entry of the block of a stage, if it has one. -/
def blockEntries (stage : Stage) (m : ShaderModule) (i : StageInterface) : List UniformBlockInfo :=
  (reflectedBlock? m i).toList.map fun x => ⟨numberOf m x.1, x.2.2.toUInt32, stage⟩

/-- The entries of the members of the block of a stage. -/
def memberEntries (stage : Stage) (m : ShaderModule) (i : StageInterface) (index : Nat) :
    List UniformInfo :=
  (reflectedBlock? m i).toList.flatMap fun x =>
    (FlatMember.ofMembers "" 0 x.2.1).map fun f => f.toUniform stage index

/-- The resources of a stage that are reflected. -/
def reflectedResources (m : ShaderModule) (i : StageInterface) : List ResourceVar :=
  (reflectedBlock? m i).toList.map Prod.fst ++ i.textures.filter (·.active)

section

variable (r : ProgramReflection) (stage : Stage) (m : ShaderModule) (i : StageInterface)

theorem addBlock_eq :
    r.addBlock stage m i =
      { r with
        uniformBlocks := r.uniformBlocks ++ blockEntries stage m i
        uniforms := r.uniforms ++ memberEntries stage m i r.uniformBlocks.length } := by
  unfold addBlock blockEntries memberEntries reflectedBlock?
  cases i.uniformBlocks.find? (·.active) with
  | none => simp
  | some block =>
      dsimp only [Option.bind_some]
      cases m.globalType? block.global with
      | none => simp
      | some type => cases type <;> simp [numberOf]

theorem attribs_addStage :
    (r.addStage stage m i).attribs =
      r.attribs ++ if stage = .vertex then (i.inputs.filter (·.active)).map attribOf else [] := by
  rw [addStage, addBlock_eq, addTextures, addAttribs]
  split <;> simp

theorem uniformBlocks_addStage :
    (r.addStage stage m i).uniformBlocks = r.uniformBlocks ++ blockEntries stage m i := by
  rw [addStage, addBlock_eq, addTextures, addAttribs]
  split <;> rfl

theorem uniforms_addStage :
    (r.addStage stage m i).uniforms =
      r.uniforms ++ textureEntries stage m i ++
        memberEntries stage m i r.uniformBlocks.length := by
  rw [addStage, addBlock_eq, addTextures, addAttribs]
  split <;> rfl

end

section

variable {stage : Stage} {m : ShaderModule} {i : StageInterface} {u : UniformInfo}

theorem stage_of_mem_blockEntries {b : UniformBlockInfo} (hb : b ∈ blockEntries stage m i) :
    b.stage = stage := by
  obtain ⟨x, -, rfl⟩ := List.mem_map.mp hb
  rfl

/-- Entries of textures have the number of the texture and no block. -/
theorem mem_textureEntries (hu : u ∈ textureEntries stage m i) :
    ∃ t ∈ i.textures, t.active = true ∧ u = textureUniform stage m t := by
  obtain ⟨t, ht, rfl⟩ := List.mem_map.mp hu
  obtain ⟨hmem, hactive⟩ := List.mem_filter.mp ht
  exact ⟨t, hmem, hactive, rfl⟩

/-- Entries of members are in the block of their stage and have no number. -/
theorem mem_memberEntries {index : Nat} (hu : u ∈ memberEntries stage m i index) :
    u.blockIndex = some index.toUInt32 ∧ u.binding = none ∧ u.stage = stage ∧
      blockEntries stage m i ≠ [] := by
  obtain ⟨x, hx, hmem⟩ := List.mem_flatMap.mp hu
  obtain ⟨f, -, rfl⟩ := List.mem_map.mp hmem
  refine ⟨rfl, rfl, rfl, ?_⟩
  rw [blockEntries, ne_eq, List.map_eq_nil_iff]
  exact List.ne_nil_of_mem hx

end

/-! ## Well-formedness -/

/-- The numbers that a reflection uses, those of blocks first. -/
def usedBindings (r : ProgramReflection) : List UInt32 :=
  r.uniformBlocks.map (·.binding) ++ r.uniforms.filterMap (·.binding)

/-- What a host relies on. -/
structure WellFormed (r : ProgramReflection) : Prop where
  /-- Every uniform is in a block or has a binding, and not both. -/
  home : ∀ u ∈ r.uniforms, u.blockIndex.isSome = !u.binding.isSome
  /-- The block of a uniform exists and belongs to its stage. -/
  block : ∀ u ∈ r.uniforms, ∀ index, u.blockIndex = some index →
    ∃ b, r.uniformBlocks[index.toNat]? = some b ∧ b.stage = u.stage
  /-- No stage has two blocks. -/
  oneBlock : (r.uniformBlocks.map (·.stage)).Nodup
  /-- No binding is used twice. -/
  bindings : r.usedBindings.Nodup
  /-- Blocks of the vertex stage come before those of the fragment stage. -/
  blockOrder : r.uniformBlocks.Pairwise fun a b => a.stage = .fragment → b.stage = .fragment
  /-- Uniforms of the vertex stage come before those of the fragment stage. -/
  uniformOrder : r.uniforms.Pairwise fun a b => a.stage = .fragment → b.stage = .fragment

theorem wellFormed_empty : WellFormed {} := by
  constructor <;> simp [usedBindings]

/-- All entries belong to stages that come before a stage. -/
structure Precedes (r : ProgramReflection) (stage : Stage) : Prop where
  /-- Each block belongs to an earlier stage. -/
  blocks : ∀ b ∈ r.uniformBlocks, b.stage = .vertex ∧ stage = .fragment
  /-- So does each uniform. -/
  uniforms : ∀ u ∈ r.uniforms, u.stage = .vertex ∧ stage = .fragment

section

variable {r : ProgramReflection} {stage : Stage} {m : ShaderModule} {i : StageInterface}

/-- The active textures of a stage have bindings. -/
def TexturesBound (m : ShaderModule) (i : StageInterface) : Prop :=
  ∀ t ∈ i.textures, t.active = true → (m.binding? t.global).isSome = true

/-- A stage uses the numbers of the resources that it adds. -/
theorem usedBindings_addStage_perm (r : ProgramReflection) (stage : Stage)
    (hbound : TexturesBound m i) :
    (r.addStage stage m i).usedBindings.Perm
      (r.usedBindings ++ (reflectedResources m i).map (numberOf m)) := by
  have hblocks : (blockEntries stage m i).map (·.binding) =
      ((reflectedBlock? m i).toList.map Prod.fst).map (numberOf m) := by
    simp [blockEntries]
  have htextures : (textureEntries stage m i).filterMap (·.binding) =
      (i.textures.filter (·.active)).map (numberOf m) := by
    rw [textureEntries, List.filterMap_map]
    refine List.filterMap_eq_map_iff_forall_eq_some.mpr fun t ht => ?_
    obtain ⟨hmem, hactive⟩ := List.mem_filter.mp ht
    obtain ⟨b, hb⟩ := Option.isSome_iff_exists.mp (hbound t hmem hactive)
    simp [textureUniform, numberOf, hb]
  have hmembers : (memberEntries stage m i r.uniformBlocks.length).filterMap (·.binding) = [] := by
    refine List.filterMap_eq_nil_iff.mpr fun u hu => ?_
    obtain ⟨-, hnone, -, -⟩ := mem_memberEntries hu
    exact hnone
  rw [usedBindings, uniformBlocks_addStage, uniforms_addStage, List.map_append,
    List.filterMap_append, List.filterMap_append, hblocks, htextures, hmembers,
    reflectedResources, usedBindings, List.map_append, List.perm_iff_count]
  intro number
  simp only [List.count_append, List.count_nil]
  omega

theorem Precedes.length_uniformBlocks_le_one (hr : r.Precedes stage)
    (hone : (r.uniformBlocks.map (·.stage)).Nodup) : r.uniformBlocks.length ≤ 1 := by
  have hvertex : r.uniformBlocks.map (·.stage) =
      List.replicate r.uniformBlocks.length .vertex := by
    refine List.eq_replicate_iff.mpr ⟨List.length_map _, ?_⟩
    intro s hs
    obtain ⟨b, hb, rfl⟩ := List.mem_map.mp hs
    exact (hr.blocks b hb).1
  rw [hvertex] at hone
  exact List.nodup_replicate.mp hone

/-- The uniforms that a stage adds belong to it. -/
theorem stage_of_mem_added {index : Nat} {u : UniformInfo}
    (hu : u ∈ textureEntries stage m i ++ memberEntries stage m i index) : u.stage = stage := by
  rcases List.mem_append.mp hu with hu | hu
  · obtain ⟨t, -, -, rfl⟩ := mem_textureEntries hu
    rfl
  · exact (mem_memberEntries hu).2.2.1

/-- Entries of a stage behind entries of earlier stages are in order. -/
theorem pairwise_append_of_precedes {α : Type} {stageOf : α → Stage} {old new : List α}
    (hold : old.Pairwise fun a b => stageOf a = .fragment → stageOf b = .fragment)
    (hbefore : ∀ a ∈ old, stageOf a = .vertex ∧ stage = .fragment)
    (hnew : ∀ a ∈ new, stageOf a = stage) :
    (old ++ new).Pairwise fun a b => stageOf a = .fragment → stageOf b = .fragment := by
  refine List.pairwise_append.mpr ⟨hold, ?_, ?_⟩
  · refine List.Pairwise.imp_of_mem (R := fun _ _ => True) ?_ (List.pairwise_of_forall (by simp))
    intro a b ha hb _ hstage
    rw [hnew b hb, ← hnew a ha, hstage]
  · intro a ha b hb _
    rw [hnew b hb]
    exact (hbefore a ha).2

/-- A stage that comes after those already there keeps a reflection well-formed, if the
numbers of what it adds are used neither twice nor before.  Its block stands behind those
that were there, and they are at most one. -/
theorem WellFormed.addStage (h : r.WellFormed) (hr : r.Precedes stage)
    (hbound : TexturesBound m i)
    (hnumbers : (r.usedBindings ++ (reflectedResources m i).map (numberOf m)).Nodup) :
    (r.addStage stage m i).WellFormed where
  home := by
    intro u hu
    rw [uniforms_addStage, List.mem_append, List.mem_append] at hu
    rcases hu with (hu | hu) | hu
    · exact h.home u hu
    · obtain ⟨t, ht, hactive, rfl⟩ := mem_textureEntries hu
      simp [textureUniform, hbound t ht hactive]
    · obtain ⟨hindex, hbinding, -, -⟩ := mem_memberEntries hu
      simp [hindex, hbinding]
  block := by
    intro u hu index hindex
    rw [uniforms_addStage, List.mem_append, List.mem_append] at hu
    rw [uniformBlocks_addStage]
    rcases hu with (hu | hu) | hu
    · obtain ⟨b, hb, hstage⟩ := h.block u hu index hindex
      obtain ⟨hlt, -⟩ := List.getElem?_eq_some_iff.mp hb
      exact ⟨b, by rwa [List.getElem?_append_left hlt], hstage⟩
    · obtain ⟨t, -, -, rfl⟩ := mem_textureEntries hu
      cases hindex
    · obtain ⟨hmember, -, hstage, hblock⟩ := mem_memberEntries hu
      obtain rfl := Option.some.inj (hmember.symm.trans hindex)
      have hlength : r.uniformBlocks.length.toUInt32.toNat = r.uniformBlocks.length := by
        have hle := hr.length_uniformBlocks_le_one h.oneBlock
        rw [Nat.toUInt32_eq, UInt32.toNat_ofNat']
        omega
      obtain ⟨b, rest, hrest⟩ := List.exists_cons_of_ne_nil hblock
      refine ⟨b, ?_, ?_⟩
      · rw [hlength, List.getElem?_append_right le_rfl, hrest, Nat.sub_self]
        rfl
      · rw [hstage]
        exact stage_of_mem_blockEntries (hrest ▸ List.mem_cons_self)
  oneBlock := by
    rw [uniformBlocks_addStage, List.map_append]
    refine List.nodup_append.mpr ⟨h.oneBlock, ?_, ?_⟩
    · rw [blockEntries]
      cases reflectedBlock? m i <;> simp
    · intro s hs t ht
      obtain ⟨b, hb, rfl⟩ := List.mem_map.mp hs
      obtain ⟨c, hc, rfl⟩ := List.mem_map.mp ht
      obtain ⟨hvertex, hfragment⟩ := hr.blocks b hb
      rw [hvertex, stage_of_mem_blockEntries hc, hfragment]
      simp
  bindings := (usedBindings_addStage_perm r stage hbound).nodup_iff.mpr hnumbers
  blockOrder := by
    rw [uniformBlocks_addStage]
    exact pairwise_append_of_precedes h.blockOrder hr.blocks fun b => stage_of_mem_blockEntries
  uniformOrder := by
    rw [uniforms_addStage, List.append_assoc]
    exact pairwise_append_of_precedes h.uniformOrder hr.uniforms fun u => stage_of_mem_added

end

/-! ## Numbers of reflected resources -/

section

variable {m : ShaderModule} {i : StageInterface}

theorem mem_uniformBlocks_of_reflectedBlock? {x : ResourceVar × List StructMember × Nat}
    (hx : reflectedBlock? m i = some x) : x.1 ∈ i.uniformBlocks := by
  obtain ⟨block, hblock, hx⟩ := Option.bind_eq_some_iff.mp hx
  split at hx
  next =>
    obtain rfl := Option.some.inj hx
    exact List.mem_of_find?_eq_some hblock
  next => cases hx

/-- What is reflected is part of the resources, up to order. -/
theorem reflectedResources_subperm (m : ShaderModule) (i : StageInterface) :
    (reflectedResources m i).Subperm i.resources := by
  have hblock : ((reflectedBlock? m i).toList.map Prod.fst).Sublist i.uniformBlocks := by
    cases hx : reflectedBlock? m i with
    | none => simp
    | some x => simpa using mem_uniformBlocks_of_reflectedBlock? hx
  exact List.perm_append_comm.subperm.trans
    ((List.filter_sublist.append hblock).subperm)

end

section

variable {stages : Stage → LinkStage} {placed : ModulePair}

/-- Placing bindings gives every resource of both stages a number of its own. -/
theorem nodup_map_numberOf (hcollected : ∀ stage, (stages stage).Collected)
    (hapart : ∀ stage, (stages stage).shader.SamplersApart)
    (hplaced : placeBindings (modulesOf stages) (stages .vertex).interface
      (stages .fragment).interface = .ok placed) :
    ((resourcesOf stages).map fun x => numberOf (placed.get x.1) x.2).Nodup := by
  obtain ⟨hlength, rfl⟩ := placeBindings_eq_ok_iff.mp hplaced
  have hplaces := map_binding?_eq_range (List.append_nil (resourcesOf stages)).symm
    fun k stage r hk => binding?_global_resourcesOf hcollected hapart hk
  have hnumbers := congrArg (List.map fun b => b.elim 0 fun b => b.binding.toUInt32) hplaces
  rw [List.map_map, List.map_map] at hnumbers
  refine hnumbers ▸ List.nodup_range.map_on fun j hj k hk heq => ?_
  rw [List.mem_range] at hj hk
  have hsame := congrArg UInt32.toNat heq
  simp only [Function.comp_apply, Option.elim_some, Nat.toUInt32_eq, UInt32.toNat_ofNat'] at hsame
  unfold wordMax at hlength
  omega

/-- So what the two stages reflect has different numbers. -/
theorem nodup_numbers_of_placeBindings (hcollected : ∀ stage, (stages stage).Collected)
    (hapart : ∀ stage, (stages stage).shader.SamplersApart)
    (hplaced : placeBindings (modulesOf stages) (stages .vertex).interface
      (stages .fragment).interface = .ok placed) :
    ((reflectedResources placed.vertex (stages .vertex).interface).map (numberOf placed.vertex) ++
      (reflectedResources placed.fragment (stages .fragment).interface).map
        (numberOf placed.fragment)).Nodup := by
  have hinjective := List.inj_on_of_nodup_map (nodup_map_numberOf hcollected hapart hplaced)
  let tagged (stage : Stage) : List (Stage × ResourceVar) :=
    (reflectedResources (placed.get stage) (stages stage).interface).map fun r => (stage, r)
  have hmem : ∀ stage, ∀ x ∈ tagged stage, x.1 = stage ∧ x ∈ resourcesOf stages := by
    intro stage x hx
    obtain ⟨r, hr, rfl⟩ := List.mem_map.mp hx
    exact ⟨rfl, mem_resourcesOf.mpr ((reflectedResources_subperm _ _).subset hr)⟩
  have hnodup : ∀ stage, (tagged stage).Nodup := by
    intro stage
    obtain ⟨part, hperm, hpart⟩ :=
      reflectedResources_subperm (placed.get stage) (stages stage).interface
    have hresources := ((hcollected stage).nodup_global.of_map).sublist hpart
    exact (hperm.nodup_iff.mp hresources).map (Prod.mk_right_injective stage)
  have hall : (tagged .vertex ++ tagged .fragment).Nodup := by
    refine List.nodup_append.mpr ⟨hnodup .vertex, hnodup .fragment, fun x hx y hy => ?_⟩
    rintro rfl
    cases (hmem .vertex x hx).1.symm.trans (hmem .fragment x hy).1
  have hsub : ∀ x ∈ tagged .vertex ++ tagged .fragment, x ∈ resourcesOf stages := by
    intro x hx
    rcases List.mem_append.mp hx with hx | hx
    · exact (hmem .vertex x hx).2
    · exact (hmem .fragment x hx).2
  have hnumbers := hall.map_on fun x hx y hy => hinjective (hsub x hx) (hsub y hy)
  rw [List.map_append, List.map_map, List.map_map] at hnumbers
  exact hnumbers

/-- Placing bindings gives every texture one. -/
theorem texturesBound_of_placeBindings (hcollected : ∀ stage, (stages stage).Collected)
    (hapart : ∀ stage, (stages stage).shader.SamplersApart)
    (hplaced : placeBindings (modulesOf stages) (stages .vertex).interface
      (stages .fragment).interface = .ok placed) (stage : Stage) :
    TexturesBound (placed.get stage) (stages stage).interface := by
  obtain ⟨-, rfl⟩ := placeBindings_eq_ok_iff.mp hplaced
  intro t ht _
  have hmem : (stage, t) ∈ resourcesOf stages :=
    mem_resourcesOf.mpr (List.mem_append_left _ ht)
  obtain ⟨k, hk⟩ := List.mem_iff_getElem?.mp hmem
  rw [binding?_global_resourcesOf hcollected hapart hk, Option.isSome_some]

/-- The reflection of two stages with placed bindings is well-formed. -/
theorem wellFormed_of_placeBindings (hcollected : ∀ stage, (stages stage).Collected)
    (hapart : ∀ stage, (stages stage).shader.SamplersApart)
    (hplaced : placeBindings (modulesOf stages) (stages .vertex).interface
      (stages .fragment).interface = .ok placed) :
    ((addStage {} .vertex placed.vertex (stages .vertex).interface).addStage .fragment
      placed.fragment (stages .fragment).interface).WellFormed := by
  have hbound := texturesBound_of_placeBindings hcollected hapart hplaced
  have hnumbers := nodup_numbers_of_placeBindings hcollected hapart hplaced
  have hfirst := usedBindings_addStage_perm {} .vertex (hbound .vertex)
  have hvertex : (addStage {} .vertex placed.vertex (stages .vertex).interface).WellFormed := by
    refine wellFormed_empty.addStage ⟨by simp, by simp⟩ (hbound .vertex) ?_
    exact (List.nodup_append.mp hnumbers).1
  refine hvertex.addStage ⟨?_, ?_⟩ (hbound .fragment) ?_
  · intro b hb
    rw [uniformBlocks_addStage, List.nil_append] at hb
    exact ⟨stage_of_mem_blockEntries hb, rfl⟩
  · intro u hu
    rw [uniforms_addStage, List.nil_append] at hu
    exact ⟨stage_of_mem_added hu, rfl⟩
  · exact (hfirst.append_right _).nodup_iff.mpr hnumbers

end

end ProgramReflection

/-! ## Links -/

/-- Only the inputs of the vertex stage are attributes. -/
theorem PlacedProgram.attribs_reflection (p : PlacedProgram) :
    p.reflection.attribs =
      (p.vertex.interface.inputs.filter (·.active)).map ProgramReflection.attribOf := by
  simp [reflection, ProgramReflection.attribs_addStage]

section

variable {pins : Pins} {capacity : Nat} {inputs placed : List InterfaceVar}

/-- Locations below the capacity of a link are 32-bit numbers. -/
theorem AttribLayout.toNat_location (h : AttribLayout pins capacity inputs placed)
    (hcapacity : capacity ≤ wordMax) {v : InterfaceVar} (hv : v ∈ placed) :
    v.location.toUInt32.toNat = v.location := by
  have hlt : v.location < capacity := (h.within v hv v.location_mem_slots).2
  unfold wordMax at hcapacity
  rw [Nat.toUInt32_eq, UInt32.toNat_ofNat']
  omega

/-- Different variables of a layout have different locations. -/
theorem AttribLayout.nodup_location (h : AttribLayout pins capacity inputs placed)
    (hcapacity : capacity ≤ wordMax) :
    (placed.map fun v => v.location.toUInt32).Nodup := by
  rw [List.nodup_iff_pairwise_ne, List.pairwise_map]
  refine h.disjoint.imp_of_mem fun {v w} hv hw hdisjoint heq => ?_
  have hsame : v.location = w.location := by
    rw [← h.toNat_location hcapacity hv, heq, h.toNat_location hcapacity hw]
  exact InterfaceVar.location_ne_of_disjoint hdisjoint hsame

end

/-- The reflection of every link that succeeds is well-formed.  Its attributes are
the active inputs of the vertex stage in order of declaration, at the locations at
which they are placed, and no two of them are at the same one. -/
theorem reflection_wellFormed_of_link (backend : Backend)
    (vertex fragment : Option CompiledShader) (pins : Pins) (options : LinkOptions)
    (linked : LinkedProgram) (hcapacity : options.attribCapacity ≤ wordMax)
    (hapart : ∀ c, vertex = some c ∨ fragment = some c → c.shader.SamplersApart)
    (hlink : (link backend vertex fragment pins options).result = .ok linked) :
    linked.reflection.WellFormed ∧
    ∃ c i placed, vertex = some c ∧ c.interface? .vertex = some i ∧
      AttribLayout pins options.attribCapacity i.inputs placed ∧
      linked.reflection.attribs.map (fun a => (a.name, a.kind, a.location.toNat)) =
        (placed.filter (·.active)).map (fun v => (v.name, .ofType v.type, v.location)) ∧
      (linked.reflection.attribs.map (·.location)).Nodup := by
  obtain ⟨v, f, p, hv, hf, hplace, hemit⟩ := link_eq_ok_iff.mp hlink
  obtain ⟨-, -, -, -, -, -, rfl⟩ := emitProgram_eq_ok_iff.mp hemit
  obtain ⟨c, i, rfl, hi, rfl⟩ := LinkStage.ofCompiled?_eq_some_iff.mp hv
  obtain ⟨d, j, rfl, hj, rfl⟩ := LinkStage.ofCompiled?_eq_some_iff.mp hf
  obtain ⟨inputs, pool, outputs, fragmentInputs, modules, hinputs, -, -, hmodules, rfl⟩ :=
    placeProgram_eq_ok_iff.mp hplace
  have hlayout := AttribLayout.of_placeAttribs hinputs
  constructor
  · let stages := stagesOf ⟨.vertex, c.shader, { i with inputs, outputs }⟩
      ⟨.fragment, d.shader, { j with inputs := fragmentInputs }⟩
    have hcollected : ∀ stage, (stages stage).Collected := by
      rintro (_ | _)
      · exact ⟨(LinkStage.collected_of_ofCompiled? hv).1, (LinkStage.collected_of_ofCompiled? hv).2⟩
      · exact ⟨(LinkStage.collected_of_ofCompiled? hf).1, (LinkStage.collected_of_ofCompiled? hf).2⟩
    have hstages : ∀ stage, (stages stage).shader.SamplersApart := by
      rintro (_ | _)
      · exact hapart c (.inl rfl)
      · exact hapart d (.inr rfl)
    exact ProgramReflection.wellFormed_of_placeBindings hcollected hstages hmodules
  · refine ⟨c, i, inputs, rfl, hi, hlayout, ?_, ?_⟩
    · rw [PlacedProgram.attribs_reflection, List.map_map]
      refine List.map_congr_left fun v hv => ?_
      have hlocation := hlayout.toNat_location hcapacity (List.mem_of_mem_filter hv)
      simp [ProgramReflection.attribOf, hlocation]
    · rw [PlacedProgram.attribs_reflection, List.map_map]
      exact (hlayout.nodup_location hcapacity).sublist (List.filter_sublist.map _)

/-- Both stages have a block, and the vertex stage has a texture and an input that is
not used. -/
theorem reflection_wellFormed_of_link_of_two_blocks :
    let vec4 : ShaderType := .vector .four .f32
    let block (name : String) : ShaderType := .struct none [.mk (some name) vec4 0] 16
    let vertex : ShaderModule := {
      globals := [⟨some "spare", vec4, .perInvocation, none⟩,
        ⟨some "compat_texture_map", .image .d2 false (.texels .float), .handle, none⟩,
        ⟨some "compat_sampler_map", .sampler false, .handle, none⟩,
        ⟨some "compat_VertexUniforms", block "scale", .uniform, none⟩]
      functions := [⟨"main", [1, 3], [], []⟩]
      entry := some { stage := .vertex, result := .none, body := ⟨"", [], [], [0]⟩
                      arguments := [⟨some "spare", vec4, .location 0, .byType⟩,
                        ⟨some "position", vec4, .location 1, .byType⟩] } }
    let fragment : ShaderModule := {
      globals := [⟨some "compat_FragmentUniforms", block "tint", .uniform, none⟩]
      functions := [⟨"main", [0], [], []⟩]
      entry := some { stage := .fragment, arguments := [], result := .none
                      body := ⟨"", [], [], [0]⟩ } }
    let backend : Backend := ⟨fun _ => .ok (), fun _ _ => .ok [], fun _ => .error ""⟩
    let member (name : String) (index : UInt32) (stage : Stage) : UniformInfo :=
      ⟨name, .floatVec4, 1, some index, 0, none, 0, 0, stage⟩
    let reflection : ProgramReflection := {
      attribs := [⟨"position", .floatVec4, 0⟩]
      uniformBlocks := [⟨1, 16, .vertex⟩, ⟨2, 16, .fragment⟩]
      uniforms := [⟨"map", .sampler2D, 1, none, 0, some 0, 0, 0, .vertex⟩, member "scale" 0 .vertex,
        member "tint" 1 .fragment] }
    let linked : LinkedProgram := ⟨⟨[], none⟩, ⟨[], none⟩, reflection⟩
    (link backend (some ⟨.vertex, vertex⟩) (some ⟨.fragment, fragment⟩) [] {}).result = .ok linked ∧
      reflection.WellFormed ∧ (reflection.attribs.map (·.location)).Nodup := by
  intro vec4 block vertex fragment backend member reflection linked
  have hlink : (link backend (some ⟨.vertex, vertex⟩) (some ⟨.fragment, fragment⟩) [] {}).result =
      .ok linked := by decide +kernel
  have hapart : ∀ c : CompiledShader,
      some ⟨.vertex, vertex⟩ = some c ∨ some ⟨.fragment, fragment⟩ = some c →
        c.shader.SamplersApart := by
    rintro c (h | h)
    · obtain rfl := Option.some.inj h
      decide
    · obtain rfl := Option.some.inj h
      decide
  obtain ⟨hwell, c, i, placed, -, -, -, -, hlocations⟩ :=
    reflection_wellFormed_of_link backend _ _ [] {} linked (by decide) hapart hlink
  exact ⟨hlink, hwell, hlocations⟩

end LegacyShader
