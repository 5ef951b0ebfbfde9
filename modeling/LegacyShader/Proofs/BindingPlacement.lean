import LegacyShader.Proofs.LinkSteps
import Mathlib.Data.List.Nodup

/-!
# Placement of bindings

The resources of both stages are bound one after the other from one pool.  Each
takes one number, so they get the numbers from zero on in the order in which they
are bound (`bindResources_eq_ok_iff`).  Binding a resource writes to one global of
its module, or to two if it is a texture with a sampler.

What is bound in the end is a question about these writes alone
(`ShaderModule.bindAll`).  A global that no write goes to keeps its binding.  A
global has the binding of a write to it if no other write to it says otherwise.
The writes to the global of a resource all say the same, because no two resources
share a global, and because a sampler is not the global of a resource unless that
global is named like a sampler.

`BindingLayout` says how both modules are bound, given their resources in order.
-/

namespace LegacyShader

/-! ## Writing bindings -/

namespace ShaderModule

variable {m : ShaderModule} {index other group binding : Nat}

/-- A module apart from how its globals are bound. -/
def unbound (m : ShaderModule) : ShaderModule :=
  { m with globals := m.globals.map fun g => { g with binding := none } }

@[simp] theorem unbound_bindGlobal :
    (m.bindGlobal index group binding).unbound = m.unbound := by
  simp only [unbound, bindGlobal, mk.injEq, and_self, and_true]
  refine List.ext_getElem? fun i => ?_
  rw [List.getElem?_map, List.getElem?_map, List.getElem?_modify]
  cases m.globals[i]? with
  | none => rfl
  | some g => by_cases h : index = i <;> simp [h]

theorem binding?_bindGlobal_self (h : index < m.globals.length) :
    (m.bindGlobal index group binding).binding? index = some ⟨group, binding⟩ := by
  simp [binding?, bindGlobal, h]

theorem binding?_bindGlobal_of_ne (h : index ≠ other) :
    (m.bindGlobal index group binding).binding? other = m.binding? other := by
  simp [binding?, bindGlobal, List.getElem?_modify_ne _ _ h]

/-- Modules that differ only in bindings have the same number of globals. -/
theorem length_globals_of_unbound {m m' : ShaderModule} (h : m'.unbound = m.unbound) :
    m'.globals.length = m.globals.length := by
  have hlength := congrArg (fun m => m.globals.length) h
  simpa [unbound] using hlength

/-- Writes bindings to globals, one after the other. -/
def bindAll (m : ShaderModule) (writes : List (Nat × ResourceBinding)) : ShaderModule :=
  writes.foldl (fun m w => m.bindGlobal w.1 w.2.group w.2.binding) m

@[simp] theorem bindAll_nil (m : ShaderModule) : m.bindAll [] = m := rfl

@[simp] theorem bindAll_cons (m : ShaderModule) (w : Nat × ResourceBinding)
    (writes : List (Nat × ResourceBinding)) :
    m.bindAll (w :: writes) = (m.bindGlobal w.1 w.2.group w.2.binding).bindAll writes := rfl

theorem bindAll_append (m : ShaderModule) (writes more : List (Nat × ResourceBinding)) :
    m.bindAll (writes ++ more) = (m.bindAll writes).bindAll more := List.foldl_append

variable {writes : List (Nat × ResourceBinding)} {b : ResourceBinding}

@[simp] theorem unbound_bindAll : (m.bindAll writes).unbound = m.unbound := by
  induction writes generalizing m with
  | nil => rfl
  | cons w writes ih => rw [bindAll_cons, ih, unbound_bindGlobal]

/-- A global that nothing is written to keeps its binding. -/
theorem binding?_bindAll_of_not_written (h : ∀ w ∈ writes, w.1 ≠ index) :
    (m.bindAll writes).binding? index = m.binding? index := by
  induction writes generalizing m with
  | nil => rfl
  | cons w writes ih =>
      obtain ⟨hw, hrest⟩ := List.forall_mem_cons.mp h
      rw [bindAll_cons, ih hrest, binding?_bindGlobal_of_ne hw]

/-- A global has the binding that is written to it, if no other one is. -/
theorem binding?_bindAll_of_written (hindex : index < m.globals.length)
    (hwritten : (index, b) ∈ writes) (honly : ∀ b', (index, b') ∈ writes → b' = b) :
    (m.bindAll writes).binding? index = some b := by
  induction writes generalizing m with
  | nil => cases hwritten
  | cons w writes ih =>
      rw [bindAll_cons]
      have hnext : index < (m.bindGlobal w.1 w.2.group w.2.binding).globals.length := by
        rwa [length_globals_of_unbound unbound_bindGlobal]
      by_cases hlater : (index, b) ∈ writes
      · exact ih hnext hlater fun b' hb' => honly b' (List.mem_cons_of_mem _ hb')
      · have hunwritten : ∀ w' ∈ writes, w'.1 ≠ index := by
          rintro ⟨i, b'⟩ hw' rfl
          exact hlater (honly b' (List.mem_cons_of_mem _ hw') ▸ hw')
        obtain rfl : w = (index, b) := by
          rcases List.mem_cons.mp hwritten with hw | hw
          · exact hw.symm
          · exact absurd hw hlater
        rw [binding?_bindAll_of_not_written hunwritten, binding?_bindGlobal_self hindex]

end ShaderModule

/-- The bindings that are written when a resource is bound. -/
def ResourceVar.writes (r : ResourceVar) (number : Nat) : List (Nat × ResourceBinding) :=
  (r.global, ⟨0, number⟩) :: r.sampler.toList.map fun index => (index, ⟨samplerGroup, number⟩)

theorem ResourceVar.mem_writes {r : ResourceVar} {number index : Nat} {b : ResourceBinding} :
    (index, b) ∈ r.writes number ↔
      (r.global = index ∧ b = ⟨0, number⟩) ∨
        (r.sampler = some index ∧ b = ⟨samplerGroup, number⟩) := by
  simp [writes, eq_comm]

theorem ShaderModule.applyBinding_eq_bindAll (m : ShaderModule) (r : ResourceVar) (number : Nat) :
    m.applyBinding r number = m.bindAll (r.writes number) := by
  unfold applyBinding ResourceVar.writes
  cases r.sampler <;> rfl

/-! ## Both modules -/

/-- The module of a stage. -/
def ModulePair.get (p : ModulePair) : Stage → ShaderModule
  | .vertex => p.vertex
  | .fragment => p.fragment

theorem ModulePair.get_modify (p : ModulePair) (changed stage : Stage)
    (f : ShaderModule → ShaderModule) :
    (p.modify changed f).get stage = if changed = stage then f (p.get stage) else p.get stage := by
  cases changed <;> cases stage <;> rfl

/-- Binds resources to the numbers from `next` on. -/
def ModulePair.bindFrom (p : ModulePair) (next : Nat) : List (Stage × ResourceVar) → ModulePair
  | [] => p
  | (stage, r) :: rest => (p.modify stage fun m => m.applyBinding r next).bindFrom (next + 1) rest

/-- The writes to the module of one stage when resources are bound to the numbers
from `next` on. -/
def stageWrites (stage : Stage) (next : Nat) :
    List (Stage × ResourceVar) → List (Nat × ResourceBinding)
  | [] => []
  | (s, r) :: rest => (if s = stage then r.writes next else []) ++ stageWrites stage (next + 1) rest

theorem mem_stageWrites {stage : Stage} {next index : Nat} {b : ResourceBinding}
    {resources : List (Stage × ResourceVar)} :
    (index, b) ∈ stageWrites stage next resources ↔
      ∃ (k : Nat) (r : ResourceVar),
        resources[k]? = some (stage, r) ∧ (index, b) ∈ r.writes (next + k) := by
  induction resources generalizing next with
  | nil => simp [stageWrites]
  | cons x rest ih =>
      obtain ⟨s, r⟩ := x
      rw [stageWrites, List.mem_append, ih]
      constructor
      · rintro (hhead | ⟨k, r', hk, hmem⟩)
        · split at hhead
          next hs => exact ⟨0, r, by simp [hs], hhead⟩
          next => cases hhead
        · exact ⟨k + 1, r', by simpa using hk, by rwa [← Nat.add_right_comm, Nat.add_assoc] at hmem⟩
      · rintro ⟨k, r', hk, hmem⟩
        cases k with
        | zero =>
            obtain ⟨rfl, rfl⟩ := Prod.mk.inj (Option.some.inj hk)
            exact .inl (by simpa using hmem)
        | succ k =>
            refine .inr ⟨k, r', by simpa using hk, ?_⟩
            rwa [Nat.add_right_comm, Nat.add_assoc]

theorem ModulePair.get_bindFrom (p : ModulePair) (next : Nat)
    (resources : List (Stage × ResourceVar)) (stage : Stage) :
    (p.bindFrom next resources).get stage =
      (p.get stage).bindAll (stageWrites stage next resources) := by
  induction resources generalizing p next with
  | nil => rfl
  | cons x rest ih =>
      obtain ⟨s, r⟩ := x
      rw [bindFrom, ih, get_modify, stageWrites, ShaderModule.bindAll_append]
      split
      next => rw [ShaderModule.applyBinding_eq_bindAll]
      next => rw [ShaderModule.bindAll_nil]

/-! ## Numbers from one pool -/

section

variable {pool : LocationPool} {next capacity : Nat}

/-- A pool that has all slots from one on gives that slot. -/
theorem LocationPool.Holds.allocate?_one (h : pool.Holds (Set.Ico next capacity))
    (hlt : next < capacity) :
    ∃ left, pool.allocate? 1 = some (next, left) ∧ left.Holds (Set.Ico (next + 1) capacity) := by
  have hfree : Set.Ico next (next + 1) ⊆ Set.Ico next capacity := by
    rintro slot ⟨hle, hslot⟩
    exact ⟨hle, by omega⟩
  cases hallocate : pool.allocate? 1 with
  | none => exact absurd hfree ((h.allocate?_eq_none_iff Nat.one_pos).mp hallocate next)
  | some found =>
      obtain ⟨location, left⟩ := found
      obtain ⟨hleast, hleft⟩ := h.of_allocate? Nat.one_pos hallocate
      obtain rfl : location = next := by
        have hle : location ≤ next := hleast.2 hfree
        have hge := (hleast.1 (show location ∈ Set.Ico location (location + 1) by simp)).1
        omega
      refine ⟨left, rfl, ?_⟩
      have hrest : Set.Ico location capacity \ Set.Ico location (location + 1) =
          Set.Ico (location + 1) capacity := by
        ext slot
        simp only [Set.mem_sdiff, Set.mem_Ico]
        omega
      exact hrest ▸ hleft

/-- A pool without slots refuses. -/
theorem LocationPool.Holds.allocate?_one_of_le (h : pool.Holds (Set.Ico next capacity))
    (hle : capacity ≤ next) : pool.allocate? 1 = none := by
  refine (h.allocate?_eq_none_iff Nat.one_pos).mpr fun l hsub => ?_
  obtain ⟨hl, hlt⟩ := hsub (show l ∈ Set.Ico l (l + 1) by simp)
  omega

/-- Resources are bound exactly if the numbers are enough, and then to the numbers
in order. -/
theorem bindResources_eq_ok_iff {p q : ModulePair} {resources : List (Stage × ResourceVar)}
    (h : pool.Holds (Set.Ico next capacity)) (hle : next ≤ capacity) :
    bindResources pool p resources = .ok q ↔
      next + resources.length ≤ capacity ∧ q = p.bindFrom next resources := by
  induction resources generalizing pool next p with
  | nil =>
      simp only [bindResources, ModulePair.bindFrom, Except.ok.injEq, List.length_nil,
        Nat.add_zero, hle, true_and, eq_comm]
  | cons x rest ih =>
      obtain ⟨stage, r⟩ := x
      rcases Nat.lt_or_ge next capacity with hlt | hge
      · obtain ⟨left, hallocate, hleft⟩ := h.allocate?_one hlt
        simp only [bindResources, hallocate, ih hleft hlt, ModulePair.bindFrom, List.length_cons]
        rw [Nat.add_right_comm, Nat.add_assoc]
      · simp only [bindResources, h.allocate?_one_of_le hge, List.length_cons, reduceCtorEq,
          false_iff, not_and]
        intro henough
        omega

end

/-! ## Collected resources -/

/-- A mark is found exactly in front of a text. -/
theorem StageInterface.afterMark?_eq_some_iff {mark name rest : String} :
    afterMark? mark name = some rest ↔ name = mark ++ rest := by
  unfold afterMark?
  rw [← String.toList_inj, String.toList_append]
  constructor
  · intro h
    obtain ⟨hfront, hrest⟩ := Option.ite_none_right_eq_some.mp h
    obtain ⟨tail, htail⟩ := List.isPrefixOf_iff_prefix.mp hfront
    rw [← Option.some.inj hrest, ← htail, List.drop_left, String.toList_ofList]
  · intro h
    have hfront : mark.toList.isPrefixOf name.toList = true :=
      List.isPrefixOf_iff_prefix.mpr ⟨rest.toList, h.symm⟩
    rw [if_pos hfront, h, List.drop_left, String.ofList_toList]

/-- A global is a texture or a uniform block. -/
def GlobalVariable.IsResource (g : GlobalVariable) : Prop :=
  (g.space = .handle ∧ g.type.isImage = true) ∨ g.space = .uniform

instance (g : GlobalVariable) : Decidable g.IsResource := inferInstanceAs (Decidable (_ ∨ _))

/-- No texture and no uniform block is named like a sampler. -/
def ShaderModule.SamplersApart (m : ShaderModule) : Prop :=
  ∀ g ∈ m.globals, g.IsResource → ∀ name, g.name ≠ some (Modern.samplerMark ++ name)

theorem ShaderModule.samplersApart_iff {m : ShaderModule} :
    m.SamplersApart ↔ ∀ g ∈ m.globals, g.IsResource →
      g.name.bind (StageInterface.afterMark? Modern.samplerMark) = none := by
  refine forall₃_congr fun g _ _ => ?_
  simp only [Option.eq_none_iff_forall_ne_some, ne_eq, Option.bind_eq_some_iff,
    StageInterface.afterMark?_eq_some_iff]
  constructor
  · rintro h rest ⟨name, hname, rfl⟩
    exact h rest hname
  · intro h name hname
    exact h name ⟨_, hname, rfl⟩

instance (m : ShaderModule) : Decidable m.SamplersApart :=
  decidable_of_iff' _ ShaderModule.samplersApart_iff

namespace StageInterface

variable {m : ShaderModule} {r : ResourceVar}

theorem global_textureOf (m : ShaderModule) (g : GlobalVariable) (index : Nat) :
    (textureOf m g index).global = index := by
  unfold textureOf
  dsimp only
  split <;> rfl

theorem mem_texturesOf :
    r ∈ texturesOf m ↔ ∃ g, m.globals[r.global]? = some g ∧
      (g.space = .handle ∧ g.type.isImage = true) ∧ r = textureOf m g r.global := by
  simp only [texturesOf, List.mem_filterMap, Prod.exists, List.mk_mem_zipIdx_iff_getElem?]
  constructor
  · rintro ⟨g, index, hg, hr⟩
    obtain ⟨htexture, ⟨⟩⟩ := Option.ite_none_right_eq_some.mp hr
    rw [global_textureOf]
    exact ⟨g, hg, htexture, rfl⟩
  · rintro ⟨g, hg, htexture, hr⟩
    exact ⟨g, r.global, hg, by rw [if_pos htexture, ← hr]⟩

theorem mem_blocksOf :
    r ∈ blocksOf m ↔ ∃ g, m.globals[r.global]? = some g ∧ g.space = .uniform ∧
      r = blockOf g r.global := by
  simp only [blocksOf, List.mem_filterMap, Prod.exists, List.mk_mem_zipIdx_iff_getElem?]
  constructor
  · rintro ⟨g, index, hg, hr⟩
    obtain ⟨hblock, ⟨⟩⟩ := Option.ite_none_right_eq_some.mp hr
    exact ⟨g, hg, hblock, rfl⟩
  · rintro ⟨g, hg, hblock, hr⟩
    exact ⟨g, r.global, hg, by rw [if_pos hblock, ← hr]⟩

theorem active_of_mem_texturesOf (hr : r ∈ texturesOf m) : r.active = true := by
  obtain ⟨g, -, -, heq⟩ := mem_texturesOf.mp hr
  rw [heq, textureOf]
  split <;> rfl

theorem active_of_mem_blocksOf (hr : r ∈ blocksOf m) : r.active = true := by
  obtain ⟨g, -, -, heq⟩ := mem_blocksOf.mp hr
  rw [heq, blockOf]

/-- The sampler of a texture is a global that is named after it. -/
theorem exists_sampler_of_mem_texturesOf (hr : r ∈ texturesOf m) {index : Nat}
    (hsampler : r.sampler = some index) :
    ∃ g, m.globals[index]? = some g ∧ g.name = some (Modern.samplerMark ++ r.name) := by
  obtain ⟨g, -, -, heq⟩ := mem_texturesOf.mp hr
  rw [textureOf] at heq
  split at heq
  next name hmark =>
    rw [heq] at hsampler ⊢
    obtain ⟨hlt, hname, -⟩ := List.findIdx?_eq_some_iff_getElem.mp hsampler
    exact ⟨_, List.getElem?_eq_getElem hlt, by simpa using hname⟩
  next =>
    rw [heq] at hsampler
    cases hsampler

/-- Resources that are found at different globals are different ones. -/
theorem nodup_global_filterMap {f : GlobalVariable × Nat → Option ResourceVar}
    (hf : ∀ x r, f x = some r → r.global = x.2) (globals : List GlobalVariable) :
    ((globals.zipIdx.filterMap f).map (·.global)).Nodup := by
  have hindices : (globals.zipIdx.map Prod.snd).Nodup := by
    rw [List.zipIdx_map_snd]
    exact List.nodup_range'
  rw [List.nodup_iff_pairwise_ne, List.pairwise_map] at hindices ⊢
  refine List.pairwise_filterMap.mpr (hindices.imp fun {x y} hne r hr r' hr' => ?_)
  rw [hf x r hr, hf y r' hr']
  exact hne

/-- No two resources of a module share a global. -/
theorem nodup_global_texturesOf_append_blocksOf (m : ShaderModule) :
    ((texturesOf m ++ blocksOf m).map (·.global)).Nodup := by
  rw [List.map_append, List.nodup_append]
  refine ⟨nodup_global_filterMap (fun x r hr => ?_) _,
    nodup_global_filterMap (fun x r hr => ?_) _, ?_⟩
  · obtain ⟨g, index⟩ := x
    obtain ⟨-, ⟨⟩⟩ := Option.ite_none_right_eq_some.mp hr
    exact global_textureOf m g index
  · obtain ⟨g, index⟩ := x
    obtain ⟨-, ⟨⟩⟩ := Option.ite_none_right_eq_some.mp hr
    rfl
  · intro i hi j hj
    obtain ⟨t, ht, rfl⟩ := List.mem_map.mp hi
    obtain ⟨b, hb, rfl⟩ := List.mem_map.mp hj
    obtain ⟨g, hg, ⟨hspace, -⟩, -⟩ := mem_texturesOf.mp ht
    obtain ⟨g', hg', hspace', -⟩ := mem_blocksOf.mp hb
    intro heq
    rw [heq, hg', Option.some.injEq] at hg
    rw [hg, hspace] at hspace'
    cases hspace'

end StageInterface

/-- A resource as it is collected, before its use is known. -/
def ResourceVar.asCollected (r : ResourceVar) : ResourceVar := { r with active := true }

/-- What is found out about the use of collected resources can be forgotten again. -/
theorem ResourceVar.map_asCollected_map {resources : List ResourceVar}
    (h : ∀ r ∈ resources, r.active = true) (active : ResourceVar → Bool) :
    (resources.map fun r => { r with active := active r }).map asCollected = resources := by
  rw [List.map_map]
  refine (List.map_congr_left fun r hr => ?_).trans (List.map_id resources)
  have hactive := h r hr
  cases r
  simp_all [asCollected]

/-- The resources of a stage are those of its module, used or not. -/
structure LinkStage.Collected (s : LinkStage) : Prop where
  /-- The textures are those of the module. -/
  textures : s.interface.textures.map ResourceVar.asCollected = StageInterface.texturesOf s.shader
  /-- The uniform blocks are those of the module. -/
  uniformBlocks :
    s.interface.uniformBlocks.map ResourceVar.asCollected = StageInterface.blocksOf s.shader

namespace LinkStage

open StageInterface

/-- Stages of a link have the resources of their modules. -/
theorem collected_of_ofCompiled? {shader : Option CompiledShader} {stage : Stage}
    {s : LinkStage} (h : ofCompiled? shader stage = some s) : s.Collected := by
  obtain ⟨c, i, -, hi, rfl⟩ := ofCompiled?_eq_some_iff.mp h
  obtain ⟨-, e, -, rfl⟩ := CompiledShader.interface?_eq_some_iff.mp hi
  exact ⟨ResourceVar.map_asCollected_map (fun r => active_of_mem_texturesOf) _,
    ResourceVar.map_asCollected_map (fun r => active_of_mem_blocksOf) _⟩

variable {s : LinkStage} {r r' : ResourceVar} {index : Nat}

theorem Collected.resources (h : s.Collected) :
    s.interface.resources.map ResourceVar.asCollected =
      texturesOf s.shader ++ blocksOf s.shader := by
  rw [StageInterface.resources, List.map_append, h.textures, h.uniformBlocks]

/-- Every resource has a global. -/
theorem Collected.exists_global (h : s.Collected) (hr : r ∈ s.interface.resources) :
    ∃ g, s.shader.globals[r.global]? = some g ∧ g.IsResource := by
  have hmem : r.asCollected ∈ texturesOf s.shader ++ blocksOf s.shader :=
    h.resources ▸ List.mem_map_of_mem hr
  rcases List.mem_append.mp hmem with hmem | hmem
  · obtain ⟨g, hg, htexture, -⟩ := mem_texturesOf.mp hmem
    exact ⟨g, hg, .inl htexture⟩
  · obtain ⟨g, hg, hblock, -⟩ := mem_blocksOf.mp hmem
    exact ⟨g, hg, .inr hblock⟩

/-- No two resources share a global. -/
theorem Collected.nodup_global (h : s.Collected) :
    (s.interface.resources.map (·.global)).Nodup := by
  have hnodup := nodup_global_texturesOf_append_blocksOf s.shader
  rw [← h.resources, List.map_map] at hnodup
  exact hnodup

/-- A resource with a sampler is a texture, and the sampler is named after it. -/
theorem Collected.exists_sampler (h : s.Collected) (hr : r ∈ s.interface.resources)
    (hsampler : r.sampler = some index) :
    r ∈ s.interface.textures ∧
      ∃ g, s.shader.globals[index]? = some g ∧ g.name = some (Modern.samplerMark ++ r.name) := by
  rcases List.mem_append.mp hr with hr | hr
  · have hmem : r.asCollected ∈ texturesOf s.shader := h.textures ▸ List.mem_map_of_mem hr
    exact ⟨hr, exists_sampler_of_mem_texturesOf hmem hsampler⟩
  · have hmem : r.asCollected ∈ blocksOf s.shader := h.uniformBlocks ▸ List.mem_map_of_mem hr
    obtain ⟨g, -, -, heq⟩ := mem_blocksOf.mp hmem
    have hnone : r.sampler = none := congrArg ResourceVar.sampler heq
    rw [hnone] at hsampler
    cases hsampler

/-- The sampler of a texture is not the global of a resource, unless that global is
named like a sampler. -/
theorem Collected.sampler_ne_global (h : s.Collected) (hapart : s.shader.SamplersApart)
    (hr : r ∈ s.interface.resources) (hr' : r' ∈ s.interface.resources) :
    r.sampler ≠ some r'.global := by
  intro hsampler
  obtain ⟨-, g, hg, hname⟩ := h.exists_sampler hr hsampler
  obtain ⟨g', hg', hresource⟩ := h.exists_global hr'
  obtain rfl := Option.some.inj (hg.symm.trans hg')
  exact hapart g (List.mem_of_getElem? hg) hresource r.name hname

end LinkStage

/-! ## The order of binding -/

/-- The resources of both stages, active ones first, then the vertex stage before
the fragment stage, and textures before uniform blocks. -/
def mergedResources (vertex fragment : StageInterface) : List (Stage × ResourceVar) :=
  let part (stage : Stage) (active : Bool) (resources : List ResourceVar) :=
    (resources.filter (·.active == active)).map fun r => (stage, r)
  part .vertex true vertex.textures ++ part .vertex true vertex.uniformBlocks ++
    part .fragment true fragment.textures ++ part .fragment true fragment.uniformBlocks ++
    part .vertex false vertex.textures ++ part .vertex false vertex.uniformBlocks ++
    part .fragment false fragment.textures ++ part .fragment false fragment.uniformBlocks

theorem bindingOrder_eq_mergedResources (vertex fragment : StageInterface) :
    bindingOrder vertex fragment = mergedResources vertex fragment := by
  simp [bindingOrder, mergedResources, StageInterface.resources]

/-- The resources of one stage, with the stage. -/
def StageInterface.tagged (i : StageInterface) (stage : Stage) : List (Stage × ResourceVar) :=
  i.resources.map fun r => (stage, r)

/-- The order of binding is that of the stages, with what is active moved to the front. -/
theorem bindingOrder_eq_partition (vertex fragment : StageInterface) :
    bindingOrder vertex fragment =
      (vertex.tagged .vertex ++ fragment.tagged .fragment).filter (·.2.active) ++
        (vertex.tagged .vertex ++ fragment.tagged .fragment).filter (!·.2.active) := by
  simp [bindingOrder, StageInterface.tagged, List.filter_map, Function.comp_def]

theorem bindingOrder_perm (vertex fragment : StageInterface) :
    (bindingOrder vertex fragment).Perm (vertex.tagged .vertex ++ fragment.tagged .fragment) := by
  rw [bindingOrder_eq_partition]
  exact List.filter_append_perm _ _

theorem bindingOrder_eq_active_append (vertex fragment : StageInterface) :
    bindingOrder vertex fragment =
      (bindingOrder vertex fragment).filter (·.2.active) ++
        (bindingOrder vertex fragment).filter (!·.2.active) := by
  rw [bindingOrder_eq_partition]
  simp [List.filter_append, List.filter_filter]

/-! ## Two stages -/

/-- Two stages by their names. -/
def stagesOf (vertex fragment : LinkStage) : Stage → LinkStage
  | .vertex => vertex
  | .fragment => fragment

/-- The modules of two stages. -/
def modulesOf (stages : Stage → LinkStage) : ModulePair :=
  ⟨(stages .vertex).shader, (stages .fragment).shader⟩

@[simp] theorem get_modulesOf (stages : Stage → LinkStage) (stage : Stage) :
    (modulesOf stages).get stage = (stages stage).shader := by
  cases stage <;> rfl

/-- The resources of two stages in the order in which they are bound. -/
def resourcesOf (stages : Stage → LinkStage) : List (Stage × ResourceVar) :=
  mergedResources (stages .vertex).interface (stages .fragment).interface

section

variable {stages : Stage → LinkStage} {placed : ModulePair} {stage : Stage} {r r' : ResourceVar}
variable {j k index : Nat}

theorem mem_resourcesOf :
    (stage, r) ∈ resourcesOf stages ↔ r ∈ (stages stage).interface.resources := by
  rw [resourcesOf, ← bindingOrder_eq_mergedResources, (bindingOrder_perm _ _).mem_iff]
  cases stage <;> simp [StageInterface.tagged]

theorem mem_resources_of_getElem? (h : (resourcesOf stages)[k]? = some (stage, r)) :
    r ∈ (stages stage).interface.resources :=
  mem_resourcesOf.mp (List.mem_of_getElem? h)

/-- No two resources of both stages share a global. -/
theorem nodup_global_resourcesOf (hcollected : ∀ stage, (stages stage).Collected) :
    ((resourcesOf stages).map fun x => (x.1, x.2.global)).Nodup := by
  rw [resourcesOf, ← bindingOrder_eq_mergedResources, ((bindingOrder_perm _ _).map _).nodup_iff]
  simp only [StageInterface.tagged, List.map_append, List.map_map, Function.comp_def]
  have htagged : ∀ stage : Stage,
      ((stages stage).interface.resources.map fun r => (stage, r.global)).Nodup := by
    intro stage
    have hinjective : Function.Injective fun global : Nat => (stage, global) :=
      Prod.mk_right_injective stage
    have hnodup := (hcollected stage).nodup_global.map hinjective
    rwa [List.map_map] at hnodup
  refine List.nodup_append.mpr ⟨htagged .vertex, htagged .fragment, ?_⟩
  intro x hx y hy
  obtain ⟨r, -, rfl⟩ := List.mem_map.mp hx
  obtain ⟨r', -, rfl⟩ := List.mem_map.mp hy
  simp

/-- A resource stands at one place only. -/
theorem place_eq_of_global_eq (hcollected : ∀ stage, (stages stage).Collected)
    (hj : (resourcesOf stages)[j]? = some (stage, r))
    (hk : (resourcesOf stages)[k]? = some (stage, r')) (hglobal : r.global = r'.global) :
    j = k := by
  have hnodup := nodup_global_resourcesOf hcollected
  obtain ⟨hlt, -⟩ := List.getElem?_eq_some_iff.mp hj
  refine (List.getElem?_inj (by rwa [List.length_map]) hnodup).mp ?_
  rw [List.getElem?_map, List.getElem?_map, hj, hk, Option.map_some, Option.map_some, hglobal]

/-- Bindings are placed exactly if the numbers are enough, and then in order. -/
theorem placeBindings_eq_ok_iff :
    placeBindings (modulesOf stages) (stages .vertex).interface (stages .fragment).interface =
        .ok placed ↔
      (resourcesOf stages).length ≤ wordMax ∧
        placed = (modulesOf stages).bindFrom 0 (resourcesOf stages) := by
  rw [placeBindings, bindingOrder_eq_mergedResources,
    bindResources_eq_ok_iff (LocationPool.ofCapacity_holds wordMax) (Nat.zero_le _), Nat.zero_add]
  rfl

theorem get_bindFrom_resourcesOf (stages : Stage → LinkStage) (stage : Stage) :
    ((modulesOf stages).bindFrom 0 (resourcesOf stages)).get stage =
      (stages stage).shader.bindAll (stageWrites stage 0 (resourcesOf stages)) := by
  rw [ModulePair.get_bindFrom, get_modulesOf]

/-- The resource at a place is in group zero and has the place as its number. -/
theorem binding?_global_resourcesOf (hcollected : ∀ stage, (stages stage).Collected)
    (hapart : ∀ stage, (stages stage).shader.SamplersApart)
    (hk : (resourcesOf stages)[k]? = some (stage, r)) :
    (((modulesOf stages).bindFrom 0 (resourcesOf stages)).get stage).binding? r.global =
      some ⟨0, k⟩ := by
  rw [get_bindFrom_resourcesOf]
  have hr := mem_resources_of_getElem? hk
  obtain ⟨g, hg, -⟩ := (hcollected stage).exists_global hr
  obtain ⟨hlt, -⟩ := List.getElem?_eq_some_iff.mp hg
  refine ShaderModule.binding?_bindAll_of_written hlt ?_ fun b' hb' => ?_
  · exact mem_stageWrites.mpr ⟨k, r, hk, ResourceVar.mem_writes.mpr (.inl ⟨rfl, by simp⟩)⟩
  · obtain ⟨j, r', hj, hwrite⟩ := mem_stageWrites.mp hb'
    have hr' := mem_resources_of_getElem? hj
    rcases ResourceVar.mem_writes.mp hwrite with ⟨hglobal, rfl⟩ | ⟨hsampler, -⟩
    · rw [place_eq_of_global_eq hcollected hj hk hglobal, Nat.zero_add]
    · exact absurd hsampler ((hcollected stage).sampler_ne_global (hapart stage) hr' hr)

/-- The sampler of a texture is in group one and shares the number of the texture.  No other
texture writes to it, since its name gives the name of the texture. -/
theorem binding?_sampler_resourcesOf (hcollected : ∀ stage, (stages stage).Collected)
    (hapart : ∀ stage, (stages stage).shader.SamplersApart)
    (hnames : ∀ stage, ((stages stage).interface.textures.map (·.name)).Nodup)
    (hk : (resourcesOf stages)[k]? = some (stage, r)) (hsampler : r.sampler = some index) :
    (((modulesOf stages).bindFrom 0 (resourcesOf stages)).get stage).binding? index =
      some ⟨samplerGroup, k⟩ := by
  rw [get_bindFrom_resourcesOf]
  have hr := mem_resources_of_getElem? hk
  obtain ⟨htexture, g, hg, hname⟩ := (hcollected stage).exists_sampler hr hsampler
  obtain ⟨hlt, -⟩ := List.getElem?_eq_some_iff.mp hg
  refine ShaderModule.binding?_bindAll_of_written hlt ?_ fun b' hb' => ?_
  · exact mem_stageWrites.mpr ⟨k, r, hk, ResourceVar.mem_writes.mpr (.inr ⟨hsampler, by simp⟩)⟩
  · obtain ⟨j, r', hj, hwrite⟩ := mem_stageWrites.mp hb'
    have hr' := mem_resources_of_getElem? hj
    rcases ResourceVar.mem_writes.mp hwrite with ⟨hglobal, -⟩ | ⟨hsampler', rfl⟩
    · exact absurd (hglobal ▸ hsampler) ((hcollected stage).sampler_ne_global (hapart stage) hr hr')
    · obtain ⟨htexture', g', hg', hname'⟩ := (hcollected stage).exists_sampler hr' hsampler'
      obtain rfl := Option.some.inj (hg.symm.trans hg')
      have hsame : r'.name = r.name := by
        rw [hname, Option.some.injEq, String.append_right_inj] at hname'
        exact hname'.symm
      obtain rfl := List.inj_on_of_nodup_map (hnames stage) htexture' htexture hsame
      rw [place_eq_of_global_eq hcollected hj hk rfl, Nat.zero_add]

/-- A global of no resource keeps its binding. -/
theorem binding?_other_resourcesOf
    (hother : ∀ r, (stage, r) ∈ resourcesOf stages → r.global ≠ index ∧ r.sampler ≠ some index) :
    (((modulesOf stages).bindFrom 0 (resourcesOf stages)).get stage).binding? index =
      (stages stage).shader.binding? index := by
  rw [get_bindFrom_resourcesOf]
  refine ShaderModule.binding?_bindAll_of_not_written ?_
  rintro ⟨i, b⟩ hw rfl
  obtain ⟨k, r, hk, hwrite⟩ := mem_stageWrites.mp hw
  obtain ⟨hglobal, hsampler⟩ := hother r (List.mem_of_getElem? hk)
  rcases ResourceVar.mem_writes.mp hwrite with ⟨heq, -⟩ | ⟨heq, -⟩
  · exact hglobal heq
  · exact hsampler heq

end

/-! ## Layouts -/

/-- Resources are bound in the order of a list, and nothing else is changed. -/
structure BindingLayout (before : ModulePair) (resources : List (Stage × ResourceVar))
    (after : ModulePair) : Prop where
  /-- Only bindings differ. -/
  unbound : ∀ stage, (after.get stage).unbound = (before.get stage).unbound
  /-- The resource at a place is in group zero and has the place as its number. -/
  atPlace : ∀ (k : Nat) (stage : Stage) (r : ResourceVar), resources[k]? = some (stage, r) →
    (after.get stage).binding? r.global = some ⟨0, k⟩
  /-- Its sampler, if it has one, is in group one and has the same number. -/
  sampler : ∀ (k : Nat) (stage : Stage) (r : ResourceVar), resources[k]? = some (stage, r) →
    ∀ index, r.sampler = some index → (after.get stage).binding? index = some ⟨1, k⟩
  /-- No two resources of both stages have the same binding. -/
  distinct : resources.Pairwise fun x y =>
    (after.get x.1).binding? x.2.global ≠ (after.get y.1).binding? y.2.global
  /-- The active ones have the lowest numbers, without a gap. -/
  active : (resources.filter (·.2.active)).map (fun x => (after.get x.1).binding? x.2.global) =
    (List.range (resources.countP (·.2.active))).map fun k => some ⟨0, k⟩
  /-- Every other global keeps its binding. -/
  others : ∀ stage index,
    (∀ r, (stage, r) ∈ resources → r.global ≠ index ∧ r.sampler ≠ some index) →
    (after.get stage).binding? index = (before.get stage).binding? index

section

variable {resources : List (Stage × ResourceVar)} {after : ModulePair}

/-- Resources that have their places as numbers have different numbers. -/
theorem pairwise_binding?_ne
    (h : ∀ (k : Nat) (stage : Stage) (r : ResourceVar), resources[k]? = some (stage, r) →
      (after.get stage).binding? r.global = some ⟨0, k⟩) :
    resources.Pairwise fun x y =>
      (after.get x.1).binding? x.2.global ≠ (after.get y.1).binding? y.2.global := by
  refine List.pairwise_iff_getElem.mpr fun j k hj hk hlt heq => ?_
  have hfirst := h j _ _ (List.getElem?_eq_getElem hj)
  have hsecond := h k _ _ (List.getElem?_eq_getElem hk)
  cases hfirst.symm.trans (heq.trans hsecond)
  exact absurd hlt (lt_irrefl _)

/-- Resources at the front of a list have the lowest numbers. -/
theorem map_binding?_eq_range {front back : List (Stage × ResourceVar)}
    (hsplit : resources = front ++ back)
    (h : ∀ (k : Nat) (stage : Stage) (r : ResourceVar), resources[k]? = some (stage, r) →
      (after.get stage).binding? r.global = some ⟨0, k⟩) :
    front.map (fun x => (after.get x.1).binding? x.2.global) =
      (List.range front.length).map fun k => some ⟨0, k⟩ := by
  refine List.ext_getElem (by simp) fun k hk _ => ?_
  rw [List.length_map] at hk
  rw [List.getElem_map, List.getElem_map, List.getElem_range]
  refine h k _ _ ?_
  rw [hsplit, List.getElem?_append_left hk, List.getElem?_eq_getElem hk]

end

/-- Placing the bindings of two stages succeeds if the numbers are enough.  It binds
the resources of both stages in order and changes nothing else, whatever the use of
the resources. -/
theorem bindingLayout_of_placeBindings (stages : Stage → LinkStage)
    (hcollected : ∀ stage, (stages stage).Collected)
    (hnames : ∀ stage, ((stages stage).interface.textures.map (·.name)).Nodup)
    (hapart : ∀ stage, (stages stage).shader.SamplersApart)
    (hlength : (resourcesOf stages).length ≤ wordMax) :
    ∃ placed,
      placeBindings (modulesOf stages) (stages .vertex).interface (stages .fragment).interface =
        .ok placed ∧
      BindingLayout (modulesOf stages) (resourcesOf stages) placed := by
  refine ⟨_, placeBindings_eq_ok_iff.mpr ⟨hlength, rfl⟩, ?_⟩
  have hatPlace : ∀ (k : Nat) (stage : Stage) (r : ResourceVar),
      (resourcesOf stages)[k]? = some (stage, r) → _ :=
    fun k stage r hk => binding?_global_resourcesOf hcollected hapart hk
  have hsplit :=
    bindingOrder_eq_active_append (stages .vertex).interface (stages .fragment).interface
  rw [bindingOrder_eq_mergedResources] at hsplit
  refine ⟨?_, hatPlace, ?_, pairwise_binding?_ne hatPlace, ?_, ?_⟩
  · intro stage
    rw [get_bindFrom_resourcesOf, ShaderModule.unbound_bindAll, get_modulesOf]
  · intro k stage r hk index hsampler
    exact binding?_sampler_resourcesOf hcollected hapart hnames hk hsampler
  · rw [List.countP_eq_length_filter]
    exact map_binding?_eq_range hsplit hatPlace
  · intro stage index hother
    rw [binding?_other_resourcesOf hother, get_modulesOf]

/-- A vertex stage with an idle block in front of a texture with a sampler, and a
fragment stage with a texture that has none.  A sampler of no texture keeps its binding. -/
theorem bindingLayout_of_placeBindings_of_idle_block :
    let image : ShaderType := .image .d2 false (.texels .float)
    let vertex : ShaderModule := {
      globals := [⟨some "compat_VertexUniforms", .struct none [] 16, .uniform, none⟩,
        ⟨some "compat_texture_map", image, .handle, none⟩,
        ⟨some "compat_sampler_map", .sampler false, .handle, none⟩,
        ⟨some "loose", .sampler false, .handle, some ⟨0, 7⟩⟩]
      functions := []
      entry := none }
    let fragment : ShaderModule :=
      { globals := [⟨some "map", image, .handle, none⟩], functions := [], entry := none }
    let stages := stagesOf
      ⟨.vertex, vertex, [], [], [⟨"map", 1, some 2, true⟩],
        [⟨"compat_VertexUniforms", 0, none, false⟩]⟩
      ⟨.fragment, fragment, [], [], [⟨"map", 0, none, true⟩], []⟩
    ∃ placed,
      placeBindings (modulesOf stages) (stages .vertex).interface (stages .fragment).interface =
        .ok placed ∧
      placed.vertex.binding? 1 = some ⟨0, 0⟩ ∧ placed.vertex.binding? 2 = some ⟨1, 0⟩ ∧
      placed.fragment.binding? 0 = some ⟨0, 1⟩ ∧ placed.vertex.binding? 0 = some ⟨0, 2⟩ ∧
      placed.vertex.binding? 3 = some ⟨0, 7⟩ := by
  intro image vertex fragment stages
  have hcollected : ∀ stage, (stages stage).Collected := by
    rintro (_ | _)
    · exact ⟨by decide, by decide⟩
    · exact ⟨by decide, by decide⟩
  have hnames : ∀ stage, ((stages stage).interface.textures.map (·.name)).Nodup := by
    rintro (_ | _) <;> decide
  have hapart : ∀ stage, (stages stage).shader.SamplersApart := by
    rintro (_ | _) <;> decide
  obtain ⟨placed, hplaced, hlayout⟩ :=
    bindingLayout_of_placeBindings stages hcollected hnames hapart (by decide)
  refine ⟨placed, hplaced, ?_, ?_, ?_, ?_, ?_⟩
  · exact hlayout.atPlace 0 .vertex ⟨"map", 1, some 2, true⟩ rfl
  · exact hlayout.sampler 0 .vertex ⟨"map", 1, some 2, true⟩ rfl 2 rfl
  · exact hlayout.atPlace 1 .fragment ⟨"map", 0, none, true⟩ rfl
  · exact hlayout.atPlace 2 .vertex ⟨"compat_VertexUniforms", 0, none, false⟩ rfl
  · refine hlayout.others .vertex 3 fun r hr => ?_
    obtain rfl | rfl : r = ⟨"map", 1, some 2, true⟩ ∨
        r = ⟨"compat_VertexUniforms", 0, none, false⟩ := by
      simpa [stages, stagesOf, StageInterface.resources] using mem_resourcesOf.mp hr
    all_goals decide

end LegacyShader
