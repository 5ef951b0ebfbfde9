import LegacyShader.Proofs.BindingPlacement

/-!
# Modules without provisional numbers

A module is compiled with numbers that linking replaces: the locations of its inputs, the
locations of its outputs unless it is a fragment stage, and the bindings of its textures,
uniform blocks and the samplers of its textures.  Stripping a module takes these numbers
away and leaves all else.

The interface of a stripped module is that of the module with the same numbers taken away
(`interface?_stripped`): what is collected and what is in use do not depend on them.
Writing locations over the ones that were taken away gives the same as writing them over
the old ones (`foldl_setLocation_stripped`), and so do bindings
(`globals_bindAll_stripped`).
-/

namespace LegacyShader

/-! ## Decorations -/

/-- A result with a change to each decoration. -/
def EntryResult.mapDecorations (f : LocationSlot → Decoration → Decoration) :
    EntryResult → EntryResult
  | .none => .none
  | .value type decoration => .value type (f .result decoration)
  | .struct members span =>
      .struct (members.mapIdx fun i m =>
        { m with decoration := f (.resultMember i) m.decoration }) span

namespace EntryPoint

/-- An entry point with a change to each decoration. -/
def mapDecorations (f : LocationSlot → Decoration → Decoration) (e : EntryPoint) : EntryPoint :=
  { e with
    arguments := e.arguments.mapIdx fun i a => { a with decoration := f (.argument i) a.decoration }
    result := e.result.mapDecorations f }

/-- The decoration at a slot. -/
def decorationAt? (e : EntryPoint) : LocationSlot → Option Decoration
  | .argument i => e.arguments[i]?.map (·.decoration)
  | .result =>
      match e.result with
      | .value _ decoration => some decoration
      | _ => none
  | .resultMember i =>
      match e.result with
      | .struct members _ => members[i]?.map (·.decoration)
      | _ => none

variable {e : EntryPoint} {f g : LocationSlot → Decoration → Decoration}

theorem mapDecorations_mapDecorations :
    (e.mapDecorations f).mapDecorations g = e.mapDecorations fun slot d => g slot (f slot d) := by
  obtain ⟨stage, arguments, result, body, earlyTests, groupSize⟩ := e
  simp only [mapDecorations, List.mapIdx_mapIdx, mk.injEq, true_and, and_true]
  refine ⟨rfl, ?_⟩
  cases result with
  | none => rfl
  | value type decoration => rfl
  | struct members span =>
      simp only [EntryResult.mapDecorations, List.mapIdx_mapIdx]
      rfl

/-- Only what is done to the decorations that are there counts. -/
theorem mapDecorations_congr
    (h : ∀ slot d, e.decorationAt? slot = some d → f slot d = g slot d) :
    e.mapDecorations f = e.mapDecorations g := by
  obtain ⟨stage, arguments, result, body, earlyTests, groupSize⟩ := e
  simp only [mapDecorations, mk.injEq, true_and, and_true]
  constructor
  · refine List.mapIdx_eq_mapIdx_iff.mpr fun i hi => ?_
    have hd := h (.argument i) arguments[i].decoration (by simp [decorationAt?, hi])
    rw [hd]
  · cases result with
    | none => rfl
    | value type decoration =>
        simp only [EntryResult.mapDecorations, h .result decoration rfl]
    | struct members span =>
        simp only [EntryResult.mapDecorations, EntryResult.struct.injEq, and_true]
        refine List.mapIdx_eq_mapIdx_iff.mpr fun i hi => ?_
        have hd := h (.resultMember i) members[i].decoration (by simp [decorationAt?, hi])
        rw [hd]

theorem mapDecorations_id : (e.mapDecorations fun _ d => d) = e := by
  obtain ⟨stage, arguments, result, body, earlyTests, groupSize⟩ := e
  cases result <;> simp [mapDecorations, EntryResult.mapDecorations, List.mapIdx_eq_zipIdx_map]

/-- What a variable does to the decoration at a slot. -/
def relocate (v : InterfaceVar) (slot : LocationSlot) (d : Decoration) : Decoration :=
  if v.slot = slot then d.withLocation v.location else d

/-- Writing a location changes the decoration at its slot and no other. -/
theorem setLocation_eq_mapDecorations (e : EntryPoint) (v : InterfaceVar) :
    e.setLocation v = e.mapDecorations (relocate v) := by
  obtain ⟨name, type, slot, location, active⟩ := v
  obtain ⟨stage, arguments, result, body, earlyTests, groupSize⟩ := e
  cases slot with
  | argument index =>
      simp only [setLocation, mapDecorations, mk.injEq, true_and, and_true]
      constructor
      · refine List.ext_getElem? fun j => ?_
        rw [List.getElem?_modify, List.getElem?_mapIdx]
        by_cases hj : index = j <;> simp [relocate, hj]
      · cases result <;> simp [EntryResult.mapDecorations, relocate, List.mapIdx_eq_zipIdx_map]
  | result =>
      cases result <;>
        simp [setLocation, mapDecorations, EntryResult.mapDecorations, relocate,
          List.mapIdx_eq_zipIdx_map]
  | resultMember index =>
      cases result with
      | none => simp [setLocation, mapDecorations, EntryResult.mapDecorations, relocate,
          List.mapIdx_eq_zipIdx_map]
      | value type decoration => simp [setLocation, mapDecorations, EntryResult.mapDecorations,
          relocate, List.mapIdx_eq_zipIdx_map]
      | struct members span =>
          simp only [setLocation, mapDecorations, EntryResult.mapDecorations, mk.injEq, true_and,
            and_true, EntryResult.struct.injEq]
          constructor
          · simp [relocate, List.mapIdx_eq_zipIdx_map]
          · refine List.ext_getElem? fun j => ?_
            rw [List.getElem?_modify, List.getElem?_mapIdx]
            by_cases hj : index = j <;> simp [relocate, hj]

/-- Locations that are written one after the other. -/
theorem foldl_setLocation_eq_mapDecorations (e : EntryPoint) (vars : List InterfaceVar) :
    vars.foldl setLocation e =
      e.mapDecorations fun slot d => vars.foldl (fun d v => relocate v slot d) d := by
  induction vars generalizing e with
  | nil => exact mapDecorations_id.symm
  | cons v vars ih =>
      rw [List.foldl_cons, ih, setLocation_eq_mapDecorations, mapDecorations_mapDecorations]
      rfl

end EntryPoint

/-! ## Located variables -/

namespace StageInterface

variable {e : EntryPoint} {v : InterfaceVar} {slot : LocationSlot}

theorem located_eq_some_iff {name : Option String} {type : ShaderType} {d : Decoration} :
    located name type slot d = some v ↔
      ∃ n, d = .location n ∧ v = ⟨name.getD "", type, slot, n, true⟩ := by
  cases d <;> simp [located, Decoration.location?, eq_comm]

/-- An input is an argument with a location. -/
theorem mem_inputsOf_iff :
    v ∈ inputsOf e ↔ ∃ i a n, e.arguments[i]? = some a ∧ a.decoration = .location n ∧
      v = ⟨a.name.getD "", a.type, .argument i, n, true⟩ := by
  simp only [inputsOf, List.mem_filterMap, Prod.exists, List.mk_mem_zipIdx_iff_getElem?,
    located_eq_some_iff]
  constructor
  · rintro ⟨a, i, ha, n, hn, rfl⟩
    exact ⟨i, a, n, ha, hn, rfl⟩
  · rintro ⟨i, a, n, ha, hn, rfl⟩
    exact ⟨a, i, ha, n, hn, rfl⟩

/-- An output has the location that is written at its slot. -/
theorem decorationAt?_of_mem_outputsOf (h : v ∈ outputsOf e) :
    e.decorationAt? v.slot = some (.location v.location) := by
  unfold outputsOf at h
  unfold EntryPoint.decorationAt?
  cases hresult : e.result with
  | none =>
      rw [hresult] at h
      cases h
  | value type d =>
      rw [hresult] at h
      obtain ⟨n, rfl, rfl⟩ := located_eq_some_iff.mp (Option.mem_toList.mp h)
      rfl
  | struct members span =>
      rw [hresult] at h
      simp only [List.mem_filterMap, Prod.exists, List.mk_mem_zipIdx_iff_getElem?,
        located_eq_some_iff] at h
      obtain ⟨m, i, hm, n, hn, rfl⟩ := h
      simp [hm, hn]

/-- Every location of an entry point belongs to a variable. -/
theorem exists_mem_of_decorationAt? {n : Nat} (h : e.decorationAt? slot = some (.location n)) :
    ∃ v ∈ inputsOf e ++ outputsOf e, v.slot = slot := by
  cases slot with
  | argument i =>
      obtain ⟨a, ha, hn⟩ := Option.map_eq_some_iff.mp h
      exact ⟨_, List.mem_append_left _ (mem_inputsOf_iff.mpr ⟨i, a, n, ha, hn, rfl⟩), rfl⟩
  | result =>
      unfold EntryPoint.decorationAt? at h
      cases hresult : e.result with
      | value type d =>
          rw [hresult] at h
          obtain rfl := Option.some.inj h
          refine ⟨⟨"", type, .result, n, true⟩, List.mem_append_right _ ?_, rfl⟩
          simp [outputsOf, hresult, located, Decoration.location?]
      | none =>
          rw [hresult] at h
          cases h
      | struct members span =>
          rw [hresult] at h
          cases h
  | resultMember i =>
      unfold EntryPoint.decorationAt? at h
      cases hresult : e.result with
      | struct members span =>
          rw [hresult] at h
          obtain ⟨m, hm, hn⟩ := Option.map_eq_some_iff.mp h
          refine ⟨⟨m.name.getD "", m.type, .resultMember i, n, true⟩,
            List.mem_append_right _ ?_, rfl⟩
          simp only [outputsOf, hresult, List.mem_filterMap, Prod.exists,
            List.mk_mem_zipIdx_iff_getElem?, located_eq_some_iff]
          exact ⟨m, i, hm, n, hn, rfl⟩
      | none =>
          rw [hresult] at h
          cases h
      | value type d =>
          rw [hresult] at h
          cases h

end StageInterface

/-! ## Stripping -/

/-- Whether linking a stage replaces the location at a slot. -/
def LocationSlot.isReplaced (stage : Stage) : LocationSlot → Bool
  | .argument _ => true
  | .result => stage == .vertex
  | .resultMember _ => stage == .vertex

theorem LocationSlot.isReplaced_vertex (slot : LocationSlot) : slot.isReplaced .vertex = true := by
  cases slot <;> rfl

/-- An entry point without the locations that linking replaces. -/
def EntryPoint.stripped (e : EntryPoint) (stage : Stage) : EntryPoint :=
  e.mapDecorations fun slot d => if slot.isReplaced stage then d.withLocation 0 else d

/-- Whether linking replaces the binding of a global: of a texture, a uniform block or the
sampler of a texture. -/
def ShaderModule.isReplaced (m : ShaderModule) (index : Nat) : Bool :=
  m.globals[index]?.any (fun g => decide g.IsResource) ||
    (StageInterface.texturesOf m).any fun t => t.sampler == some index

/-- A module without the numbers that linking replaces. -/
def ShaderModule.stripped (m : ShaderModule) (stage : Stage) : ShaderModule :=
  { m with
    globals := m.globals.mapIdx fun i g => if m.isReplaced i then { g with binding := none } else g
    entry := m.entry.map fun e => e.stripped stage }

/-- A compiled shader whose module is stripped. -/
def CompiledShader.stripped (c : CompiledShader) (stage : Stage) : CompiledShader :=
  { c with shader := c.shader.stripped stage }

/-- An interface without the locations that linking replaces. -/
def StageInterface.stripped (i : StageInterface) (stage : Stage) : StageInterface :=
  { i with
    inputs := i.inputs.map InterfaceVar.unplaced
    outputs := if stage = .vertex then i.outputs.map InterfaceVar.unplaced else i.outputs }

/-! ## The interface of a stripped module -/

theorem zipIdx_mapIdx {α β : Type} (l : List α) (f : Nat → α → β) :
    (l.mapIdx f).zipIdx = l.zipIdx.map fun x => (f x.2 x.1, x.2) := by
  refine List.ext_getElem? fun i => ?_
  simp [List.getElem?_zipIdx, List.getElem?_mapIdx, Function.comp_def]

namespace StageInterface

section

variable {e : EntryPoint} {f : LocationSlot → Decoration → Decoration}
variable {g : InterfaceVar → InterfaceVar}

/-- A change to the decorations of arguments is a change to the inputs. -/
theorem inputsOf_mapDecorations
    (h : ∀ name type i d, located name type (.argument i) (f (.argument i) d) =
      (located name type (.argument i) d).map g) :
    inputsOf (e.mapDecorations f) = (inputsOf e).map g := by
  simp only [inputsOf, EntryPoint.mapDecorations, zipIdx_mapIdx, List.filterMap_map,
    List.map_filterMap]
  congr 1
  funext x
  exact h _ _ _ _

/-- A change to the decorations of the result is a change to the outputs. -/
theorem outputsOf_mapDecorations
    (h : ∀ name type slot d, located name type slot (f slot d) =
      (located name type slot d).map g) :
    outputsOf (e.mapDecorations f) = (outputsOf e).map g := by
  simp only [outputsOf, EntryPoint.mapDecorations]
  cases e.result with
  | none => rfl
  | value type d => simp only [EntryResult.mapDecorations, h, Option.toList_map]
  | struct members span =>
      simp only [EntryResult.mapDecorations, zipIdx_mapIdx, List.filterMap_map, List.map_filterMap]
      congr 1
      funext x
      exact h _ _ _ _

end

theorem located_withLocation_zero (name : Option String) (type : ShaderType) (slot : LocationSlot)
    (d : Decoration) :
    located name type slot (d.withLocation 0) =
      (located name type slot d).map InterfaceVar.unplaced := by
  cases d <;> rfl

theorem inputsOf_stripped (e : EntryPoint) (stage : Stage) :
    inputsOf (e.stripped stage) = (inputsOf e).map InterfaceVar.unplaced :=
  inputsOf_mapDecorations fun _ _ _ _ => located_withLocation_zero _ _ _ _

theorem outputsOf_stripped_vertex (e : EntryPoint) :
    outputsOf (e.stripped .vertex) = (outputsOf e).map InterfaceVar.unplaced := by
  refine outputsOf_mapDecorations fun name type slot d => ?_
  rw [slot.isReplaced_vertex, if_pos rfl, located_withLocation_zero]

theorem outputsOf_stripped_fragment (e : EntryPoint) :
    outputsOf (e.stripped .fragment) = outputsOf e := by
  simp only [outputsOf, EntryPoint.stripped, EntryPoint.mapDecorations]
  cases e.result with
  | none => rfl
  | value type d => rfl
  | struct members span =>
      simp only [EntryResult.mapDecorations, zipIdx_mapIdx, List.filterMap_map]
      congr 1

end StageInterface

/-! Globals are found without a look at how they are bound. -/

section

variable {m m' : ShaderModule}

theorem ShaderModule.findGlobal?_congr (h : m'.unbound.globals = m.unbound.globals)
    {test : GlobalVariable → Bool} (htest : ∀ g, test { g with binding := none } = test g) :
    m'.findGlobal? test = m.findGlobal? test := by
  have heq (m : ShaderModule) : m.findGlobal? test = m.unbound.globals.findIdx? test := by
    rw [unbound, List.findIdx?_map]
    exact congrArg (m.globals.findIdx? ·) (funext fun g => (htest g).symm)
  rw [heq, heq, h]

theorem StageInterface.texturesOf_congr (h : m'.unbound.globals = m.unbound.globals) :
    texturesOf m' = texturesOf m := by
  have hnamed (name : String) : m'.globalNamed? name = m.globalNamed? name :=
    ShaderModule.findGlobal?_congr h fun _ => rfl
  have htexture : textureOf m' = textureOf m := by
    funext g index
    simp only [textureOf, hnamed]
  have heq (m : ShaderModule) : texturesOf m = m.unbound.globals.zipIdx.filterMap fun x =>
      if x.1.space = .handle ∧ x.1.type.isImage then some (textureOf m x.1 x.2) else none := by
    rw [texturesOf, ShaderModule.unbound, List.zipIdx_map, List.filterMap_map]
    rfl
  rw [heq, heq, h, htexture]

theorem StageInterface.blocksOf_congr (h : m'.unbound.globals = m.unbound.globals) :
    blocksOf m' = blocksOf m := by
  have heq (m : ShaderModule) : blocksOf m = m.unbound.globals.zipIdx.filterMap fun x =>
      if x.1.space = .uniform then some (blockOf x.1 x.2) else none := by
    rw [blocksOf, ShaderModule.unbound, List.zipIdx_map, List.filterMap_map]
    rfl
  rw [heq, heq, h]

theorem ShaderModule.isReplaced_congr (h : m'.unbound.globals = m.unbound.globals) (index : Nat) :
    m'.isReplaced index = m.isReplaced index := by
  have hget (m : ShaderModule) : m.globals[index]?.any (fun g => decide g.IsResource) =
      m.unbound.globals[index]?.any (fun g => decide g.IsResource) := by
    rw [unbound, List.getElem?_map, Option.any_map]
    rfl
  rw [isReplaced, isReplaced, StageInterface.texturesOf_congr h, hget m', hget m, h]

/-- What a module uses depends on its functions and on the body of its entry point. -/
theorem ShaderModule.isUsed_congr (hfunctions : m'.functions = m.functions)
    (hbody : m'.entry.map (·.body) = m.entry.map (·.body)) (index : Nat) :
    m'.isUsed index = m.isUsed index := by
  have hreachable (steps : Nat) (seen : List Nat) :
      m'.reachable steps seen = m.reachable steps seen := by
    induction steps generalizing seen with
    | zero => rfl
    | succ steps ih => simp only [reachable, hfunctions, ih]
  simp only [isUsed, mainFunction?, functionNamed?, uses, callees, hfunctions, hbody, hreachable]

/-- Whether a variable is active depends on the globals and on what is used. -/
theorem StageInterface.variableActive_congr (hglobals : m'.unbound.globals = m.unbound.globals)
    (hused : m'.isUsed = m.isUsed) : variableActive m' = variableActive m := by
  funext v
  have hprivate : m'.privateNamed? v.name = m.privateNamed? v.name :=
    ShaderModule.findGlobal?_congr hglobals fun _ => rfl
  simp only [variableActive, hprivate, hused]

end

namespace ShaderModule

variable (m : ShaderModule) (stage : Stage)

@[simp] theorem unbound_globals_stripped :
    (m.stripped stage).unbound.globals = m.unbound.globals := by
  refine List.ext_getElem? fun i => ?_
  simp only [unbound, stripped, List.getElem?_map, List.getElem?_mapIdx, Option.map_map]
  congr 1
  funext g
  dsimp only [Function.comp_apply]
  split <;> rfl

theorem isUsed_stripped : (m.stripped stage).isUsed = m.isUsed := by
  funext index
  have hfunctions : (m.stripped stage).functions = m.functions := rfl
  refine isUsed_congr hfunctions ?_ index
  rw [stripped, Option.map_map]
  rfl

theorem variableActive_stripped :
    StageInterface.variableActive (m.stripped stage) = StageInterface.variableActive m :=
  StageInterface.variableActive_congr (m.unbound_globals_stripped stage) (m.isUsed_stripped stage)

end ShaderModule

/-- The use of variables is marked alike, whatever their locations. -/
theorem map_active_unplaced (m : ShaderModule) (vars : List InterfaceVar) :
    (vars.map InterfaceVar.unplaced).map (fun v =>
        { v with active := StageInterface.variableActive m v }) =
      (vars.map fun v => { v with active := StageInterface.variableActive m v }).map
        InterfaceVar.unplaced := by
  rw [List.map_map, List.map_map]
  rfl

/-- A stripped module has the interface of the module, stripped. -/
theorem CompiledShader.interface?_stripped (c : CompiledShader) (stage : Stage) :
    (c.stripped stage).interface? stage =
      (c.interface? stage).map fun i => i.stripped stage := by
  have hstage : (c.stripped stage).stage = c.stage := rfl
  have hglobals := c.shader.unbound_globals_stripped stage
  have hentry : (c.shader.stripped stage).entry = c.shader.entry.map fun e => e.stripped stage :=
    rfl
  unfold interface? StageInterface.collect?
  rw [hstage]
  split
  · rw [stripped, hentry]
    cases c.shader.entry with
    | none => rfl
    | some e =>
        simp only [Option.map_some, Option.some.injEq, StageInterface.markActivity,
          StageInterface.stripped, StageInterface.mk.injEq]
        rw [StageInterface.texturesOf_congr hglobals, StageInterface.blocksOf_congr hglobals,
          ShaderModule.variableActive_stripped]
        refine ⟨?_, ?_, ?_, ?_⟩
        · rw [StageInterface.inputsOf_stripped, map_active_unplaced]
        · cases stage with
          | vertex =>
              rw [StageInterface.outputsOf_stripped_vertex, map_active_unplaced]
              rfl
          | fragment =>
              rw [StageInterface.outputsOf_stripped_fragment]
              rfl
        · simp only [StageInterface.resourceActive, ShaderModule.isUsed_stripped]
        · simp only [ShaderModule.isUsed_stripped]
  · rfl

/-! ## Writing over what was taken away -/

/-- Steps that each overwrite a value or leave it alone forget it, if one overwrites it. -/
theorem foldl_eq_of_overwritten {α β : Type} {step : β → α → β} {b b' : β} {l : List α}
    (h : ∀ a ∈ l, step b a = step b' a ∨ (step b a = b ∧ step b' a = b'))
    (hsome : ∃ a ∈ l, step b a = step b' a) : l.foldl step b = l.foldl step b' := by
  induction l with
  | nil =>
      obtain ⟨a, ha, -⟩ := hsome
      cases ha
  | cons a l ih =>
      obtain ⟨ha, hrest⟩ := List.forall_mem_cons.mp h
      rw [List.foldl_cons, List.foldl_cons]
      rcases ha with heq | ⟨hb, hb'⟩
      · rw [heq]
      · rw [hb, hb']
        obtain ⟨w, hw, heq⟩ := hsome
        rcases List.mem_cons.mp hw with rfl | hw
        · rw [← hb, ← hb', heq]
        · exact ih hrest ⟨w, hw, heq⟩

/-- Writes to other places leave a value alone. -/
theorem foldl_write_of_not_written {α β κ : Type} [DecidableEq κ] {key : α → κ} {value : α → β}
    {l : List α} {k : κ} (h : ∀ a ∈ l, key a ≠ k) (b : β) :
    l.foldl (fun b a => if key a = k then value a else b) b = b := by
  induction l with
  | nil => rfl
  | cons a l ih =>
      obtain ⟨ha, hrest⟩ := List.forall_mem_cons.mp h
      rw [List.foldl_cons, if_neg ha, ih hrest]

namespace EntryPoint

variable {e : EntryPoint} {stage : Stage} {vars : List InterfaceVar}

/-- Locations are written alike over an entry point and over the stripped one, if all that
was taken away is written. -/
theorem foldl_setLocation_stripped
    (hcover : ∀ slot n, slot.isReplaced stage = true → e.decorationAt? slot = some (.location n) →
      ∃ v ∈ vars, v.slot = slot) :
    vars.foldl setLocation (e.stripped stage) = vars.foldl setLocation e := by
  rw [foldl_setLocation_eq_mapDecorations, foldl_setLocation_eq_mapDecorations, stripped,
    mapDecorations_mapDecorations]
  refine mapDecorations_congr fun slot d hd => ?_
  split
  · next hreplaced =>
    cases d with
    | builtIn value => rfl
    | location n =>
        refine foldl_eq_of_overwritten (fun v _ => ?_) ?_
        · by_cases hslot : v.slot = slot
          · exact .inl (by simp [relocate, hslot, Decoration.withLocation])
          · exact .inr ⟨if_neg hslot, if_neg hslot⟩
        · obtain ⟨v, hv, hslot⟩ := hcover slot n hreplaced hd
          exact ⟨v, hv, by simp [relocate, hslot, Decoration.withLocation]⟩
  · rfl

theorem withLocation_zero_foldl_relocate (vars : List InterfaceVar) (slot : LocationSlot)
    (d : Decoration) :
    (vars.foldl (fun d v => relocate v slot d) d).withLocation 0 = d.withLocation 0 := by
  induction vars generalizing d with
  | nil => rfl
  | cons v vars ih =>
      rw [List.foldl_cons, ih, relocate]
      split
      · cases d <;> rfl
      · rfl

/-- Writing locations keeps what is left of an entry point, if every other location is
written as it is. -/
theorem stripped_foldl_setLocation
    (hkeep : ∀ v ∈ vars, v.slot.isReplaced stage = true ∨
      e.decorationAt? v.slot = some (.location v.location)) :
    (vars.foldl setLocation e).stripped stage = e.stripped stage := by
  rw [foldl_setLocation_eq_mapDecorations, stripped, mapDecorations_mapDecorations]
  refine mapDecorations_congr fun slot d hd => ?_
  split
  · exact withLocation_zero_foldl_relocate vars slot d
  · next hnot =>
    induction vars with
    | nil => rfl
    | cons v vars ih =>
        obtain ⟨hv, hrest⟩ := List.forall_mem_cons.mp hkeep
        have hsame : relocate v slot d = d := by
          unfold relocate
          split
          · next hslot =>
            rw [hslot, hd, Option.some.injEq] at hv
            rcases hv with hreplaced | rfl
            · exact absurd hreplaced hnot
            · rfl
          · rfl
        rw [List.foldl_cons, hsame, ih hrest]

end EntryPoint

namespace ShaderModule

variable {m : ShaderModule} {stage : Stage} {writes : List (Nat × ResourceBinding)}

/-- The binding of a global behind some writes. -/
def rebound (writes : List (Nat × ResourceBinding)) (index : Nat) (b : Option ResourceBinding) :
    Option ResourceBinding :=
  writes.foldl (fun b w => if w.1 = index then some w.2 else b) b

theorem globals_bindAll :
    (m.bindAll writes).globals =
      m.globals.mapIdx fun i g => { g with binding := rebound writes i g.binding } := by
  induction writes generalizing m with
  | nil => simp [rebound, List.mapIdx_eq_zipIdx_map]
  | cons w writes ih =>
      rw [bindAll_cons, ih]
      refine List.ext_getElem? fun i => ?_
      rw [List.getElem?_mapIdx, List.getElem?_mapIdx, bindGlobal, List.getElem?_modify]
      by_cases hi : w.1 = i <;> simp [hi, rebound, Function.comp_def]

theorem rebound_of_not_written {index : Nat} {b : Option ResourceBinding}
    (h : ∀ w ∈ writes, w.1 ≠ index) : rebound writes index b = b :=
  foldl_write_of_not_written h b

/-- Bindings are written alike over a module and over the stripped one, if all that was
taken away is written. -/
theorem globals_bindAll_stripped
    (hcover : ∀ index, m.isReplaced index = true → ∃ w ∈ writes, w.1 = index) :
    ((m.stripped stage).bindAll writes).globals = (m.bindAll writes).globals := by
  rw [globals_bindAll, globals_bindAll, stripped, List.mapIdx_mapIdx]
  refine List.mapIdx_eq_mapIdx_iff.mpr fun i hi => ?_
  dsimp only [Function.comp_apply]
  split
  · next hreplaced =>
    have hsame : rebound writes i none = rebound writes i m.globals[i].binding := by
      refine foldl_eq_of_overwritten (fun w _ => ?_) ?_
      · by_cases hw : w.1 = i
        · exact .inl (by rw [if_pos hw, if_pos hw])
        · exact .inr ⟨if_neg hw, if_neg hw⟩
      · obtain ⟨w, hw, hindex⟩ := hcover i hreplaced
        exact ⟨w, hw, by rw [if_pos hindex, if_pos hindex]⟩
    rw [hsame]
  · rfl

/-- Writing bindings keeps what is left of a module, if nothing else is written. -/
theorem globals_stripped_bindAll
    (hkeep : ∀ w ∈ writes, m.isReplaced w.1 = true) :
    ((m.bindAll writes).stripped stage).globals = (m.stripped stage).globals := by
  have hreplaced : (m.bindAll writes).isReplaced = m.isReplaced :=
    funext fun index => isReplaced_congr (by rw [unbound_bindAll]) index
  simp only [stripped, hreplaced, globals_bindAll, List.mapIdx_mapIdx]
  refine List.mapIdx_eq_mapIdx_iff.mpr fun i hi => ?_
  dsimp only [Function.comp_apply]
  split
  · rfl
  · next hnot =>
    rw [rebound_of_not_written]
    rintro w hw rfl
    exact hnot (hkeep w hw)

end ShaderModule

end LegacyShader
