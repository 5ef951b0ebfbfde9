import LegacyShader.Proofs.ProvisionalNumbers
import LegacyShader.Proofs.ReflectionWellFormed
import LegacyShader.Proofs.TypeTable

/-!
# Patched modules

Locations are written into a module one variable after the other, each at the slot of its
variable.  What is read back at a slot is what was written there last
(`InterfaceVar.movedBy`), and a slot that is a built-in value takes no location.

No two variables of an entry point share a slot (`StageInterface.nodup_slots`).  So
variables that are moved and written back are all read back where they were moved to
(`map_movedBy`), and the interface of a patched module is the one it was patched with
(`interface?_patchedWith`).  In a link, this is how the locations of a reflection come to
be those of the module that is written out.

A module that keeps its types in a table is patched in the same way, as long as its result
becomes no other type of the table (`StoredEntry.Shows.exists_patched`).
-/

namespace LegacyShader

/-! ## What is read back -/

/-- A variable at the location that some variables write to its slot. -/
def InterfaceVar.movedBy (vars : List InterfaceVar) (v : InterfaceVar) : InterfaceVar :=
  { v with
    location := vars.foldl (fun n w => if w.slot = v.slot then w.location else n) v.location }

namespace StageInterface

variable {e : EntryPoint} {v : InterfaceVar}

/-- A decoration is located behind writes where they have moved it to.  A built-in value is
not located, before or after a write. -/
theorem located_foldl_relocate (vars : List InterfaceVar) (name : Option String)
    (type : ShaderType) (slot : LocationSlot) (d : Decoration) :
    located name type slot (vars.foldl (fun d v => EntryPoint.relocate v slot d) d) =
      (located name type slot d).map (InterfaceVar.movedBy vars) := by
  induction vars generalizing d with
  | nil => cases d <;> rfl
  | cons w vars ih =>
      rw [List.foldl_cons, ih]
      by_cases hslot : w.slot = slot
      · cases d <;> simp [EntryPoint.relocate, located, Decoration.withLocation,
          Decoration.location?, InterfaceVar.movedBy, hslot]
      · cases d <;> simp [EntryPoint.relocate, located, Decoration.location?,
          InterfaceVar.movedBy, hslot]

theorem inputsOf_foldl_setLocation (vars : List InterfaceVar) :
    inputsOf (vars.foldl EntryPoint.setLocation e) =
      (inputsOf e).map (InterfaceVar.movedBy vars) := by
  rw [EntryPoint.foldl_setLocation_eq_mapDecorations]
  exact inputsOf_mapDecorations fun _ _ _ _ => located_foldl_relocate vars _ _ _ _

theorem outputsOf_foldl_setLocation (vars : List InterfaceVar) :
    outputsOf (vars.foldl EntryPoint.setLocation e) =
      (outputsOf e).map (InterfaceVar.movedBy vars) := by
  rw [EntryPoint.foldl_setLocation_eq_mapDecorations]
  exact outputsOf_mapDecorations (located_foldl_relocate vars)

/-! ## Slots of an entry point -/

/-- Variables that are collected by position are at different slots. -/
theorem nodup_slots_of_zipIdx {α : Type} (l : List α) {slotAt : Nat → LocationSlot}
    (hinjective : ∀ i j, slotAt i = slotAt j → i = j) {collect : α × Nat → Option InterfaceVar}
    (hcollect : ∀ x v, collect x = some v → v.slot = slotAt x.2) :
    ((l.zipIdx.filterMap collect).map (·.slot)).Nodup := by
  have hindices : l.zipIdx.Pairwise fun x y => x.2 ≠ y.2 := by
    rw [← List.pairwise_map, List.zipIdx_map_snd]
    exact List.nodup_range'
  rw [List.nodup_iff_pairwise_ne, List.pairwise_map, List.pairwise_filterMap]
  refine hindices.imp fun {x y} hne v hv w hw hslot => hne (hinjective _ _ ?_)
  rw [← hcollect x v hv, ← hcollect y w hw, hslot]

theorem slot_of_located {name : Option String} {type : ShaderType} {slot : LocationSlot}
    {d : Decoration} (h : located name type slot d = some v) : v.slot = slot := by
  obtain ⟨n, -, rfl⟩ := located_eq_some_iff.mp h
  rfl

theorem slot_of_mem_inputsOf (h : v ∈ inputsOf e) : ∃ i, v.slot = .argument i := by
  obtain ⟨i, a, n, -, -, rfl⟩ := mem_inputsOf_iff.mp h
  exact ⟨i, rfl⟩

theorem slot_of_mem_outputsOf (h : v ∈ outputsOf e) (i : Nat) : v.slot ≠ .argument i := by
  unfold outputsOf at h
  split at h
  · cases h
  · rw [slot_of_located (Option.mem_toList.mp h)]
    exact LocationSlot.noConfusion
  · obtain ⟨x, -, hx⟩ := List.mem_filterMap.mp h
    rw [slot_of_located hx]
    exact LocationSlot.noConfusion

theorem nodup_slots_inputsOf (e : EntryPoint) : ((inputsOf e).map (·.slot)).Nodup :=
  nodup_slots_of_zipIdx _ (fun _ _ => LocationSlot.argument.inj) fun _ _ => slot_of_located

theorem nodup_slots_outputsOf (e : EntryPoint) : ((outputsOf e).map (·.slot)).Nodup := by
  unfold outputsOf
  split
  · exact .nil
  · next type d _ => cases d <;> simp [located, Decoration.location?]
  · exact nodup_slots_of_zipIdx _ (fun _ _ => LocationSlot.resultMember.inj)
      fun _ _ => slot_of_located

/-- No two variables of an entry point share a slot. -/
theorem nodup_slots (e : EntryPoint) : ((inputsOf e ++ outputsOf e).map (·.slot)).Nodup := by
  rw [List.map_append]
  refine (nodup_slots_inputsOf e).append (nodup_slots_outputsOf e) ?_
  rw [List.disjoint_left]
  intro slot hin hout
  obtain ⟨v, hv, rfl⟩ := List.mem_map.mp hin
  obtain ⟨w, hw, heq⟩ := List.mem_map.mp hout
  obtain ⟨i, hi⟩ := slot_of_mem_inputsOf hv
  exact slot_of_mem_outputsOf hw i (heq.trans hi)

end StageInterface

/-! ## Variables that are moved -/

section

variable {vars us : List InterfaceVar}

/-- Among variables at different slots, the one at a slot gives the location there. -/
theorem foldl_location_of_mem {w : InterfaceVar} (hnodup : (vars.map (·.slot)).Nodup)
    (hw : w ∈ vars) (n : Nat) :
    vars.foldl (fun n u => if u.slot = w.slot then u.location else n) n = w.location := by
  induction vars generalizing n with
  | nil => cases hw
  | cons u vars ih =>
      obtain ⟨hfresh, hrest⟩ := List.nodup_cons.mp hnodup
      rw [List.foldl_cons]
      rcases List.mem_cons.mp hw with rfl | hw
      · rw [if_pos rfl]
        exact foldl_write_of_not_written
          (fun x hx heq => hfresh (List.mem_map.mpr ⟨x, hx, heq⟩)) _
      · exact ih hrest hw _

/-- Variables that are moved and written back are read back where they were moved to. -/
theorem map_movedBy (hnodup : (vars.map (·.slot)).Nodup)
    (h : vars.map InterfaceVar.unplaced = us.map InterfaceVar.unplaced) :
    us.map (InterfaceVar.movedBy vars) = vars := by
  have hlength : vars.length = us.length := by simpa using congrArg List.length h
  refine List.ext_getElem (by simp [hlength]) fun i hi hi' => ?_
  have hunplaced : vars[i].unplaced = us[i].unplaced := by
    have hget := congrArg (·[i]?) h
    simpa [hi', hlength ▸ hi'] using hget
  obtain ⟨-, -, hslot, -⟩ := InterfaceVar.mk.inj hunplaced
  have hlocation : (us[i].movedBy vars).location = vars[i].location := by
    rw [InterfaceVar.movedBy, ← hslot]
    exact foldl_location_of_mem hnodup (List.getElem_mem hi') _
  rw [List.getElem_map]
  exact InterfaceVar.eq_of_unplaced (w := us[i].movedBy vars) hunplaced.symm hlocation

end

/-! ## Patched modules -/

/-- An entry point with every location set to zero.  Nothing else of it changes. -/
def EntryPoint.unlocated (e : EntryPoint) : EntryPoint :=
  e.mapDecorations fun _ d => d.withLocation 0

/-- A module with every location of its entry point set to zero. -/
def ShaderModule.unlocated (m : ShaderModule) : ShaderModule := m.mapEntry EntryPoint.unlocated

theorem EntryPoint.unlocated_foldl_setLocation (e : EntryPoint) (vars : List InterfaceVar) :
    (vars.foldl setLocation e).unlocated = e.unlocated := by
  rw [foldl_setLocation_eq_mapDecorations, unlocated, mapDecorations_mapDecorations]
  exact mapDecorations_congr fun slot d _ => withLocation_zero_foldl_relocate vars slot d

section

variable {m : ShaderModule} {e : EntryPoint} {i : StageInterface}
variable {inputs outputs : List InterfaceVar} {writes : List (Nat × ResourceBinding)}

/-- Locations are all that is written. -/
theorem ShaderModule.unlocated_applyLocations (m : ShaderModule) (vars : List InterfaceVar) :
    (m.applyLocations vars).unlocated = m.unlocated := by
  simp only [unlocated, applyLocations, mapEntry, Option.map_map, mk.injEq, true_and, and_true]
  congr 1
  funext e
  exact e.unlocated_foldl_setLocation vars

/-- The variables of an entry point are read back where they were moved to, also under
marks that do not depend on where they are. -/
theorem map_mark_foldl_setLocation (mark : InterfaceVar → InterfaceVar)
    (hslot : ∀ v, (mark v).slot = v.slot)
    (hmoved : ∀ vars v, mark (v.movedBy vars) = (mark v).movedBy vars)
    (hinputs : inputs.map InterfaceVar.unplaced =
      ((StageInterface.inputsOf e).map mark).map InterfaceVar.unplaced)
    (houtputs : outputs.map InterfaceVar.unplaced =
      ((StageInterface.outputsOf e).map mark).map InterfaceVar.unplaced) :
    let patched := (inputs ++ outputs).foldl EntryPoint.setLocation e
    (StageInterface.inputsOf patched).map mark = inputs ∧
      (StageInterface.outputsOf patched).map mark = outputs := by
  intro patched
  have hall : (inputs ++ outputs).map InterfaceVar.unplaced =
      ((StageInterface.inputsOf e ++ StageInterface.outputsOf e).map mark).map
        InterfaceVar.unplaced := by
    simp only [List.map_append, hinputs, houtputs]
  have hslots : ((inputs ++ outputs).map (·.slot)).Nodup := by
    rw [slots_of_map_unplaced hall, List.map_map]
    simpa only [Function.comp_def, hslot] using StageInterface.nodup_slots e
  have hread := map_movedBy hslots hall
  have hlength : inputs.length = (StageInterface.inputsOf e).length := by
    simpa using congrArg List.length hinputs
  rw [List.map_append, List.map_append] at hread
  obtain ⟨hin, hout⟩ := List.append_inj hread (by simp [hlength])
  have hmark (vs : List InterfaceVar) :
      (vs.map (InterfaceVar.movedBy (inputs ++ outputs))).map mark =
        (vs.map mark).map (InterfaceVar.movedBy (inputs ++ outputs)) := by
    simp only [List.map_map, Function.comp_def, hmoved]
  constructor
  · rw [StageInterface.inputsOf_foldl_setLocation, hmark, hin]
  · rw [StageInterface.outputsOf_foldl_setLocation, hmark, hout]

namespace ShaderModule

theorem entry_patchedWith :
    (m.patchedWith writes inputs outputs).entry =
      m.entry.map ((inputs ++ outputs).foldl EntryPoint.setLocation) := by
  rw [patchedWith_eq]

theorem unbound_globals_patchedWith :
    (m.patchedWith writes inputs outputs).unbound.globals = m.unbound.globals := by
  have hbound : (m.bindAll writes).unbound = m.unbound := unbound_bindAll
  rw [← hbound, patchedWith_eq]
  rfl

theorem isUsed_patchedWith : (m.patchedWith writes inputs outputs).isUsed = m.isUsed := by
  funext index
  refine isUsed_congr (by rw [patchedWith_eq]) ?_ index
  rw [entry_patchedWith, Option.map_map]
  congr 1
  funext e
  rw [Function.comp_apply, EntryPoint.foldl_setLocation_eq_mapDecorations]
  rfl

theorem variableActive_patchedWith :
    StageInterface.variableActive (m.patchedWith writes inputs outputs) =
      StageInterface.variableActive m :=
  StageInterface.variableActive_congr unbound_globals_patchedWith isUsed_patchedWith

end ShaderModule

/-- Inputs that were collected are at arguments, wherever they are moved to. -/
theorem argument_of_mem_inputs {v : InterfaceVar}
    (hinputs : inputs.map InterfaceVar.unplaced =
      (StageInterface.inputsOf e).map InterfaceVar.unplaced) (hv : v ∈ inputs) :
    ∃ i, v.slot = .argument i ∧ i < e.arguments.length := by
  have hslot : v.slot ∈ (StageInterface.inputsOf e).map (·.slot) :=
    slots_of_map_unplaced hinputs ▸ List.mem_map_of_mem hv
  obtain ⟨w, hw, hwv⟩ := List.mem_map.mp hslot
  obtain ⟨i, a, n, ha, -, rfl⟩ := StageInterface.mem_inputsOf_iff.mp hw
  exact ⟨i, hwv.symm, (List.getElem?_eq_some_iff.mp ha).1⟩

theorem slot_ne_argument_of_mem_outputs {v : InterfaceVar}
    (houtputs : outputs.map InterfaceVar.unplaced =
      (StageInterface.outputsOf e).map InterfaceVar.unplaced) (hv : v ∈ outputs) (i : Nat) :
    v.slot ≠ .argument i := by
  have hslot : v.slot ∈ (StageInterface.outputsOf e).map (·.slot) :=
    slots_of_map_unplaced houtputs ▸ List.mem_map_of_mem hv
  obtain ⟨w, hw, hwv⟩ := List.mem_map.mp hslot
  exact hwv ▸ StageInterface.slot_of_mem_outputsOf hw i

/-- Inputs and then outputs are written into what is stored as into the entry point. -/
theorem StoredEntry.Shows.exists_patched {s : StoredEntry} (h : s.Shows e)
    (hapart : s.Apart outputs)
    (hinputs : inputs.map InterfaceVar.unplaced =
      (StageInterface.inputsOf e).map InterfaceVar.unplaced)
    (houtputs : outputs.map InterfaceVar.unplaced =
      (StageInterface.outputsOf e).map InterfaceVar.unplaced) :
    ∃ t, (s.applyLocations? inputs).bind (·.applyLocations? outputs) = some t ∧
      t.Shows ((inputs ++ outputs).foldl EntryPoint.setLocation e) ∧
      t.unlocated = s.unlocated := by
  have hindex : ∀ v ∈ inputs, ∀ i, v.slot = .argument i → i < e.arguments.length := by
    intro v hv i hi
    obtain ⟨j, hj, hlt⟩ := argument_of_mem_inputs hinputs hv
    rw [hj, LocationSlot.argument.injEq] at hi
    exact hi ▸ hlt
  have hnomember : ∀ v ∈ inputs, ∀ i, v.slot ≠ .resultMember i := by
    intro v hv i hi
    obtain ⟨j, hj, -⟩ := argument_of_mem_inputs hinputs hv
    rw [hj] at hi
    cases hi
  obtain ⟨hfirst, hshows⟩ := h.applyLocations?_eq
    (fun _ t _ _ hne => absurd (StoredType.mapDecorations_relocateBy hnomember t) hne) hindex
    (slots_of_map_unplaced hinputs ▸ StageInterface.nodup_slots_inputsOf e)
  obtain ⟨hsecond, hpatched⟩ := hshows.applyLocations?_eq
    (hapart.mapDecorations_relocateBy hnomember)
    (fun v hv i hi => absurd hi (slot_ne_argument_of_mem_outputs houtputs hv i))
    (slots_of_map_unplaced houtputs ▸ StageInterface.nodup_slots_outputsOf e)
  refine ⟨_, by rw [hfirst, Option.bind_some, hsecond], List.foldl_append ▸ hpatched, ?_⟩
  rw [StoredEntry.unlocated_mapDecorations_relocateBy,
    StoredEntry.unlocated_mapDecorations_relocateBy]

/-- What is collected from a patched module is what it was patched with. -/
theorem StageInterface.collect?_patchedWith (writes : List (Nat × ResourceBinding))
    (h : collect? m = some i)
    (hinputs : inputs.map InterfaceVar.unplaced = i.inputs.map InterfaceVar.unplaced)
    (houtputs : outputs.map InterfaceVar.unplaced = i.outputs.map InterfaceVar.unplaced) :
    collect? (m.patchedWith writes inputs outputs) = some { i with inputs, outputs } := by
  obtain ⟨e, he, rfl⟩ := Option.map_eq_some_iff.mp h
  have hid (vs : List InterfaceVar) : vs.map InterfaceVar.unplaced =
      (vs.map id).map InterfaceVar.unplaced := by rw [List.map_id]
  obtain ⟨hin, hout⟩ := map_mark_foldl_setLocation id (fun _ => rfl) (fun _ _ => rfl)
    (hinputs.trans (hid _)) (houtputs.trans (hid _))
  rw [List.map_id] at hin hout
  simp only [collect?, ShaderModule.entry_patchedWith, he, Option.map_some, hin, hout,
    texturesOf_congr ShaderModule.unbound_globals_patchedWith,
    blocksOf_congr ShaderModule.unbound_globals_patchedWith]

/-- The interface of a patched module is the one it was patched with. -/
theorem CompiledShader.interface?_patchedWith {c : CompiledShader} {stage : Stage}
    (h : c.interface? stage = some i)
    (hinputs : inputs.map InterfaceVar.unplaced = i.inputs.map InterfaceVar.unplaced)
    (houtputs : outputs.map InterfaceVar.unplaced = i.outputs.map InterfaceVar.unplaced) :
    (⟨stage, c.shader.patchedWith writes inputs outputs⟩ : CompiledShader).interface? stage =
      some { i with inputs, outputs } := by
  obtain ⟨-, e, he, rfl⟩ := interface?_eq_some_iff.mp h
  refine interface?_eq_some_iff.mpr
    ⟨rfl, (inputs ++ outputs).foldl EntryPoint.setLocation e, ?_, ?_⟩
  · rw [ShaderModule.entry_patchedWith, he]
    rfl
  · obtain ⟨hin, hout⟩ := map_mark_foldl_setLocation
      (fun v => { v with active := StageInterface.variableActive c.shader v })
      (fun _ => rfl) (fun _ _ => rfl) hinputs houtputs
    simp only [StageInterface.markActivity, StageInterface.resourceActive,
      ShaderModule.variableActive_patchedWith, ShaderModule.isUsed_patchedWith, hin, hout,
      StageInterface.texturesOf_congr ShaderModule.unbound_globals_patchedWith,
      StageInterface.blocksOf_congr ShaderModule.unbound_globals_patchedWith]

end

/-! ## Links -/

/-- An attribute is at an argument of an entry point, under its name and at its location. -/
def EntryPoint.Carries (e : EntryPoint) (index : Nat) (a : AttribInfo) : Prop :=
  ∃ argument, e.arguments[index]? = some argument ∧ a.name = argument.name.getD "" ∧
    a.kind = .ofType argument.type ∧ argument.decoration = .location a.location.toNat

section

variable {vertex fragment : Option CompiledShader} {pins : Pins} {options : LinkOptions}
variable {p : PlacedProgram}

/-- The modules that a link writes out have the interfaces that it has placed. -/
theorem interface?_of_prepareLink (h : prepareLink vertex fragment pins options = .ok p) :
    (⟨.vertex, p.vertex.patched⟩ : CompiledShader).interface? .vertex =
        some p.vertex.interface ∧
      (⟨.fragment, p.fragment.patched⟩ : CompiledShader).interface? .fragment =
        some p.fragment.interface := by
  obtain ⟨v, f, hv, hf, hplace⟩ := prepareLink_eq_ok_iff.mp h
  obtain ⟨c, i, rfl, hi, rfl⟩ := LinkStage.ofCompiled?_eq_some_iff.mp hv
  obtain ⟨d, j, rfl, hj, rfl⟩ := LinkStage.ofCompiled?_eq_some_iff.mp hf
  obtain ⟨placed, hplaced, rfl⟩ := bound_of_placeProgram hplace
  obtain ⟨inputs, outputs, fragmentInputs, hinputs, houtputs, hfragmentInputs, rfl⟩ :=
    placeLocations_cases hplaced
  rw [(PlacedProgram.patched_bound _ _ _).1, (PlacedProgram.patched_bound _ _ _).2]
  exact ⟨CompiledShader.interface?_patchedWith hi hinputs houtputs,
    CompiledShader.interface?_patchedWith hj hfragmentInputs rfl⟩

/-- Placed attributes have locations of 32 bits. -/
theorem toNat_location_of_prepareLink (h : prepareLink vertex fragment pins options = .ok p)
    (hcapacity : options.attribCapacity ≤ wordMax) {v : InterfaceVar}
    (hv : v ∈ p.vertex.interface.inputs) : v.location.toUInt32.toNat = v.location := by
  obtain ⟨_, _, -, -, hplace⟩ := prepareLink_eq_ok_iff.mp h
  obtain ⟨inputs, _, _, _, _, hinputs, -, -, -, rfl⟩ := placeProgram_eq_ok_iff.mp hplace
  exact (AttribLayout.of_placeAttribs hinputs).toNat_location hcapacity hv

/-- The reflected attributes are at the active arguments of the module that is written out,
one by one. -/
theorem carries_of_prepareLink (h : prepareLink vertex fragment pins options = .ok p)
    (hcapacity : options.attribCapacity ≤ wordMax) :
    ∃ e, p.vertex.patched.entry = some e ∧
      List.Forall₂ (fun a v => ∃ index, v.slot = .argument index ∧ e.Carries index a)
        p.reflection.attribs
        ((StageInterface.inputsOf e).filter
          (StageInterface.variableActive p.vertex.patched)) := by
  obtain ⟨-, e, he, hinterface⟩ :=
    CompiledShader.interface?_eq_some_iff.mp (interface?_of_prepareLink h).1
  have hinputs : p.vertex.interface.inputs = (StageInterface.inputsOf e).map fun v =>
      { v with active := StageInterface.variableActive p.vertex.patched v } := by
    rw [hinterface]
    rfl
  refine ⟨e, he, ?_⟩
  rw [PlacedProgram.attribs_reflection, hinputs, List.filter_map, List.map_map,
    List.forall₂_map_left_iff]
  refine List.forall₂_same.mpr fun v hv => ?_
  have hmem : v ∈ StageInterface.inputsOf e := List.mem_of_mem_filter hv
  have hlocation := toNat_location_of_prepareLink h hcapacity
    (hinputs ▸ List.mem_map_of_mem hmem)
  obtain ⟨i, a, n, ha, hn, rfl⟩ := StageInterface.mem_inputsOf_iff.mp hmem
  refine ⟨i, rfl, a, ha, rfl, rfl, ?_⟩
  rw [hn]
  exact congrArg Decoration.location hlocation.symm

end

/-- Patching a module is exact.  Whatever locations are given to the variables that were
collected from it, the same variables are collected from the patched module, at these
locations, and nothing else of the module has changed.  The loop that keeps a copy of the
members of a result and replaces their type in the table of types does not fault, and
stores the patched entry point.  So each attribute that a link reflects is at the location
of its argument in the module that is written out. -/
theorem patched_locations_exact :
    (∀ m i inputs outputs, StageInterface.collect? m = some i →
      inputs.map InterfaceVar.unplaced = i.inputs.map InterfaceVar.unplaced →
      outputs.map InterfaceVar.unplaced = i.outputs.map InterfaceVar.unplaced →
      let patched := (m.applyLocations inputs).applyLocations outputs
      StageInterface.collect? patched = some { i with inputs, outputs } ∧
        patched.unlocated = m.unlocated ∧
        ∀ s e, m.entry = some e → StoredEntry.Shows s e → s.Apart outputs →
          ∃ t e', (s.applyLocations? inputs).bind (·.applyLocations? outputs) = some t ∧
            patched.entry = some e' ∧ t.Shows e' ∧ t.unlocated = s.unlocated) ∧
    ∀ backend vertex fragment pins options linked, options.attribCapacity ≤ wordMax →
      (link backend vertex fragment pins options).result = .ok linked →
      ∃ p e, prepareLink vertex fragment pins options = .ok p ∧
        backend.validate p.vertex.patched = .ok () ∧
        backend.spirv options.spirvVersion p.vertex.patched = .ok linked.vertex.words ∧
        p.vertex.patched.entry = some e ∧
        List.Forall₂ (fun a v => ∃ index, v.slot = .argument index ∧ e.Carries index a)
          linked.reflection.attribs
          ((StageInterface.inputsOf e).filter
            (StageInterface.variableActive p.vertex.patched)) := by
  constructor
  · intro m i inputs outputs hcollect hinputs houtputs patched
    refine ⟨StageInterface.collect?_patchedWith [] hcollect hinputs houtputs, ?_, ?_⟩
    · rw [ShaderModule.unlocated_applyLocations, ShaderModule.unlocated_applyLocations]
    · intro s e he hs hapart
      obtain ⟨e', he', rfl⟩ := Option.map_eq_some_iff.mp hcollect
      obtain rfl : e' = e := Option.some.inj (he'.symm.trans he)
      obtain ⟨t, hrun, hshows, hunlocated⟩ := hs.exists_patched hapart hinputs houtputs
      have hentry : (m.patchedWith [] inputs outputs).entry = _ := ShaderModule.entry_patchedWith
      rw [he] at hentry
      exact ⟨t, _, hrun, hentry, hshows, hunlocated⟩
  · intro backend vertex fragment pins options linked hcapacity hlink
    obtain ⟨v, f, p, hv, hf, hplace, hemit⟩ := link_eq_ok_iff.mp hlink
    obtain ⟨_, _, _, _, hvertex, -, rfl⟩ := emitProgram_eq_ok_iff.mp hemit
    have hp := prepareLink_eq_ok_iff.mpr ⟨v, f, hv, hf, hplace⟩
    obtain ⟨hvalid, hwords⟩ := valid_of_emitStage hvertex
    obtain ⟨e, he, hcarries⟩ := carries_of_prepareLink hp hcapacity
    exact ⟨p, e, hp, hvalid, hwords, he, hcarries⟩

/-- Built-in values stand in front of the located arguments and members, and other types in
front of and behind the type of the result. -/
theorem patched_locations_exact_behind_builtIns :
    let float : ShaderType := .scalar .f32
    let argument (name : String) (location : Nat) : EntryArgument :=
      ⟨some name, float, .location location, .byType⟩
    let e : EntryPoint := {
      stage := .vertex
      arguments := [⟨none, float, .builtIn .vertexIndex, .byType⟩, argument "size" 0,
        argument "tint" 1]
      result := .struct [⟨none, float, 0, .builtIn .position, .byType⟩,
        ⟨some "uv", float, 16, .location 0, .byType⟩] 32
      body := ⟨"main", [], [], []⟩ }
    let m : ShaderModule := { globals := [], functions := [], entry := some e }
    let stored (size tint uv : Nat) : StoredEntry := {
      types := [⟨none, .other float⟩,
        ⟨none, .struct [⟨none, float, 0, some (.builtIn .position), .byType⟩,
          ⟨some "uv", float, 16, some (.location uv), .byType⟩] 32⟩,
        ⟨some "Light", .struct [⟨some "uv", float, 0, none, .byType⟩] 16⟩]
      arguments := [⟨none, float, some (.builtIn .vertexIndex), .byType⟩,
        ⟨some "size", float, some (.location size), .byType⟩,
        ⟨some "tint", float, some (.location tint), .byType⟩]
      result := some ⟨1, none⟩ }
    let fragment : ShaderModule := {
      globals := [], functions := []
      entry := some {
        stage := .fragment, arguments := [argument "uv" 0], result := .none
        body := ⟨"main", [], [], []⟩ } }
    let input (name : String) (index location : Nat) : InterfaceVar :=
      ⟨name, float, .argument index, location, true⟩
    let inputs := [input "size" 1 7, input "tint" 2 4]
    let outputs : List InterfaceVar := [⟨"uv", float, .resultMember 1, 9, true⟩]
    let patched := (m.applyLocations inputs).applyLocations outputs
    let backend : Backend := ⟨fun _ => .ok (), fun _ _ => .ok [], fun _ => .error ""⟩
    let stages : Option CompiledShader × Option CompiledShader :=
      (some ⟨.vertex, m⟩, some ⟨.fragment, fragment⟩)
    let linked : LinkedProgram :=
      ⟨⟨[], none⟩, ⟨[], none⟩, { attribs := [⟨"size", .float, 3⟩, ⟨"tint", .float, 0⟩] }⟩
    (∃ i, StageInterface.collect? m = some i ∧
      StageInterface.collect? patched = some { i with inputs, outputs }) ∧
    patched.unlocated = m.unlocated ∧
    ((stored 0 1 0).Shows e ∧ (stored 0 1 0).Apart outputs ∧
      ((stored 0 1 0).applyLocations? inputs).bind (·.applyLocations? outputs) =
        some (stored 7 4 9) ∧
      ∃ e', patched.entry = some e' ∧ (stored 7 4 9).Shows e') ∧
    (link backend stages.1 stages.2 [("size", 3)] {}).result = .ok linked ∧
    ∃ p e, prepareLink stages.1 stages.2 [("size", 3)] {} = .ok p ∧
      p.vertex.patched.entry = some e ∧
      List.Forall₂ (fun a v => ∃ index, v.slot = .argument index ∧ e.Carries index a)
        linked.reflection.attribs
        ((StageInterface.inputsOf e).filter
          (StageInterface.variableActive p.vertex.patched)) := by
  intro float argument e m stored fragment input inputs outputs patched backend stages linked
  obtain ⟨hpatched, hlinks⟩ := patched_locations_exact
  obtain ⟨hcollect, hunlocated, hstored⟩ := hpatched m _ inputs outputs rfl rfl rfl
  have hshows : (stored 0 1 0).Shows e := ⟨rfl, .struct rfl⟩
  have hapart : (stored 0 1 0).Apart outputs := by
    rintro r t ⟨⟩ ⟨⟩ -
    decide +kernel
  obtain ⟨t, e', hrun, he', ht, -⟩ := hstored _ e rfl hshows hapart
  have hvalue : ((stored 0 1 0).applyLocations? inputs).bind (·.applyLocations? outputs) =
      some (stored 7 4 9) := by
    decide +kernel
  obtain rfl : t = stored 7 4 9 := Option.some.inj (hrun.symm.trans hvalue)
  have hlink : (link backend stages.1 stages.2 [("size", 3)] {}).result = .ok linked := by
    decide +kernel
  obtain ⟨p, e, hp, -, -, he, hcarries⟩ := hlinks _ _ _ _ _ _ (by decide) hlink
  exact ⟨⟨_, rfl, hcollect⟩, hunlocated, ⟨hshows, hapart, hvalue, e', he', ht⟩, hlink, p, e, hp,
    he, hcarries⟩

end LegacyShader
