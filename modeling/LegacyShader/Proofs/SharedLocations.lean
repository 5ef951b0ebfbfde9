import LegacyShader.Proofs.PatchedModules

/-!
# Fragment inputs that share a location

Fragment inputs go where the vertex output of their name is, or to slots that nothing else
occupies.  Outputs do not meet, so two inputs start at the same slot only if they go to the
same output (`VaryingLayout.location_eq_iff`).  That takes a name that both of them and an
output have.

What a link writes out has the locations that were placed, so the inputs of a linked fragment
stage coincide for no other reason (`inputsCoincide_iff_of_prepareLink`).  A module in which
inputs coincide is not valid (`not_coincide_of_validate`).  If the fragment stage is refused
for nothing else, a link fails at it exactly if two inputs have the name of one output.
-/

namespace LegacyShader

/-! ## Locations of inputs -/

section

variable {capacity : Nat} {outputs inputs placed : List InterfaceVar} {v w : InterfaceVar}

theorem LastNamed.location_unique {name : String} (hv : LastNamed outputs name v)
    (hw : LastNamed outputs name w) : v.location = w.location := by
  have hlocation := varyingLocation?_eq_some_iff.mpr ⟨v, hv, rfl⟩
  rw [varyingLocation?_eq_some_iff.mpr ⟨w, hw, rfl⟩] at hlocation
  exact (Option.some.inj hlocation).symm

/-- An input without an output starts at no slot of an output. -/
theorem VaryingLayout.location_ne (h : VaryingLayout capacity outputs inputs placed)
    (hv : v ∈ placed) (hunmatched : unmatched outputs v = true) (hw : w ∈ outputs) :
    v.location ≠ w.location :=
  InterfaceVar.location_ne_of_disjoint (h.apart v hv (unmatched_iff.mp hunmatched) w hw)

theorem exists_name_iff : (∃ o ∈ outputs, o.name = v.name) ↔ unmatched outputs v = false := by
  rw [← Bool.not_eq_true, unmatched_iff]
  push Not
  rfl

/-- Two inputs start at the same slot exactly if they have the name of one output.  Outputs
do not meet, so the slot is one of a single output. -/
theorem VaryingLayout.location_eq_iff (h : VaryingLayout capacity outputs inputs placed)
    (hdisjoint : outputs.Pairwise fun v w => Disjoint v.slots w.slots)
    (hv : v ∈ placed) (hw : w ∈ placed)
    (hapart : unmatched outputs v = true → unmatched outputs w = true →
      Disjoint v.slots w.slots) :
    v.location = w.location ↔ v.name = w.name ∧ ∃ o ∈ outputs, o.name = v.name := by
  cases hvMatch : unmatched outputs v with
  | true =>
      have hnone : ¬ ∃ o ∈ outputs, o.name = v.name := by
        rw [exists_name_iff, hvMatch]
        exact Bool.noConfusion
      refine iff_of_false (fun heq => ?_) fun hnames => hnone hnames.2
      cases hwMatch : unmatched outputs w with
      | true => exact InterfaceVar.location_ne_of_disjoint (hapart hvMatch hwMatch) heq
      | false =>
          obtain ⟨o, ho, hlocation⟩ := h.matched w hw (exists_name_iff.mpr hwMatch)
          exact h.location_ne hv hvMatch ho.mem (heq.trans hlocation)
  | false =>
      have hsome := exists_name_iff.mpr hvMatch
      obtain ⟨o, ho, hvLocation⟩ := h.matched v hv hsome
      cases hwMatch : unmatched outputs w with
      | true =>
          refine iff_of_false (fun heq => ?_) fun hnames => ?_
          · exact h.location_ne hw hwMatch ho.mem (heq.symm.trans hvLocation)
          · rw [hnames.1, exists_name_iff, hwMatch] at hsome
            cases hsome
      | false =>
          obtain ⟨p, hp, hwLocation⟩ := h.matched w hw (exists_name_iff.mpr hwMatch)
          rw [hvLocation, hwLocation]
          constructor
          · intro heq
            have hop : o = p := by
              by_contra hne
              exact InterfaceVar.location_ne_of_disjoint
                (InterfaceVar.disjoint_of_pairwise hdisjoint ho.mem hp.mem hne) heq
            subst hop
            exact ⟨ho.name_eq.symm.trans hp.name_eq, hsome⟩
          · rintro ⟨hname, -⟩
            rw [hname] at ho
            exact ho.location_unique hp

theorem VaryingLayout.pairwise_location_eq_iff
    (h : VaryingLayout capacity outputs inputs placed)
    (hdisjoint : outputs.Pairwise fun v w => Disjoint v.slots w.slots) :
    placed.Pairwise fun v w => v.location = w.location ↔
      v.name = w.name ∧ ∃ o ∈ outputs, o.name = v.name :=
  (List.pairwise_filter.mp h.disjoint).imp_of_mem fun hv hw hapart =>
    h.location_eq_iff hdisjoint hv hw hapart

end

/-- Two inputs, one before the other, have the name of one output. -/
def RepeatedName (outputs inputs : List InterfaceVar) : Prop :=
  ∃ v w, [v, w].Sublist inputs ∧ v.name = w.name ∧ ∃ o ∈ outputs, o.name = v.name

section

variable {capacity : Nat} {outputs outputs' inputs inputs' placed : List InterfaceVar}

theorem repeatedName_iff :
    RepeatedName outputs inputs ↔
      ¬ (inputs.map (·.name)).Pairwise fun a b => ¬ (a = b ∧ a ∈ outputs.map (·.name)) := by
  rw [List.pairwise_map, List.pairwise_iff_forall_sublist]
  simp only [List.mem_map]
  push Not
  rfl

theorem repeatedName_congr (houtputs : outputs'.map (·.name) = outputs.map (·.name))
    (hinputs : inputs'.map (·.name) = inputs.map (·.name)) :
    RepeatedName outputs' inputs' ↔ RepeatedName outputs inputs := by
  rw [repeatedName_iff, repeatedName_iff, houtputs, hinputs]

/-- The inputs of a layout have different locations, unless two of them have the name of one
output. -/
theorem VaryingLayout.not_nodup_location_iff
    (h : VaryingLayout capacity outputs inputs placed)
    (hdisjoint : outputs.Pairwise fun v w => Disjoint v.slots w.slots) :
    ¬ (placed.map (·.location)).Nodup ↔ RepeatedName outputs placed := by
  have hpairs {v w : InterfaceVar} (hsub : [v, w].Sublist placed) :=
    List.pairwise_iff_forall_sublist.mp (h.pairwise_location_eq_iff hdisjoint) hsub
  rw [List.nodup_iff_pairwise_ne, List.pairwise_map, List.pairwise_iff_forall_sublist]
  constructor
  · intro hsame
    push Not at hsame
    obtain ⟨v, w, hsub, hlocation⟩ := hsame
    exact ⟨v, w, hsub, (hpairs hsub).mp hlocation⟩
  · rintro ⟨v, w, hsub, hname⟩ hdifferent
    exact hdifferent hsub ((hpairs hsub).mpr hname)

end

/-! ## Validity -/

/-- The locations of the arguments of an entry point. -/
def EntryPoint.inputLocations (e : EntryPoint) : List Nat :=
  e.arguments.filterMap fun a => a.decoration.location?

/-- Two arguments of the entry point of a module have the same location. -/
def ShaderModule.InputsCoincide (m : ShaderModule) : Prop :=
  ∃ e, m.entry = some e ∧ ¬ e.inputLocations.Nodup

theorem map_location_inputsOf (e : EntryPoint) :
    (StageInterface.inputsOf e).map (·.location) = e.inputLocations := by
  have hlocated (name : Option String) (type : ShaderType) (slot : LocationSlot)
      (d : Decoration) :
      (StageInterface.located name type slot d).map (·.location) = d.location? := by
    cases d <;> rfl
  simp only [StageInterface.inputsOf, List.map_filterMap, hlocated]
  rw [EntryPoint.inputLocations, ← List.zipIdx_map_fst 0 e.arguments, List.filterMap_map]
  simp only [List.zipIdx_map_fst, Function.comp_def]

/-- The inputs of a valid entry point have different locations. -/
theorem nodup_inputLocations_of_validEntry {m : ShaderModule} {e : EntryPoint}
    (h : m.validEntry e = true) : e.inputLocations.Nodup := by
  simp only [ShaderModule.validEntry, validVaryings, Bool.and_eq_true, decide_eq_true_eq] at h
  obtain ⟨⟨⟨⟨-, -, hnodup⟩, -⟩, -⟩, -⟩ := h
  have hdecorations : e.inputLocations =
      (e.inputs.map (·.decoration)).filterMap Decoration.location? := by
    rw [EntryPoint.inputs, List.map_map, List.filterMap_map]
    rfl
  rw [hdecorations]
  refine hnodup.filterMap fun d d' n hd hd' => ?_
  cases d <;> cases d' <;> simp_all [Decoration.location?]

/-- The entry point of a valid module is valid. -/
theorem validEntry_of_validate {m : ShaderModule} {e : EntryPoint} (h : m.validate = .ok ())
    (he : m.entry = some e) : m.validEntry e = true := by
  have hcode : ∃ types, m.validateCode types = .ok () := by
    simp only [ShaderModule.validate, bind_eq_ok_iff] at h
    obtain ⟨-, -, -, -, h⟩ := h
    split at h
    · simp only [pure_bind, bind_eq_ok_iff] at h
      obtain ⟨-, -, -, -, hcode⟩ := h
      exact ⟨_, hcode⟩
    · cases h
  obtain ⟨types, hcode⟩ := hcode
  simp only [ShaderModule.validateCode, bind_eq_ok_iff, he] at hcode
  obtain ⟨known, -, hentry⟩ := hcode
  split at hentry
  · next hvalid => exact (Bool.and_eq_true_iff.mp hvalid).2
  · cases hentry

theorem not_coincide_of_validate {m : ShaderModule} (h : m.validate = .ok ()) :
    ¬ m.InputsCoincide := by
  rintro ⟨e, he, hsame⟩
  exact hsame (nodup_inputLocations_of_validEntry (validEntry_of_validate h he))

theorem standard_refuses_of_coincide {m : ShaderModule} (h : m.InputsCoincide) :
    ∃ message, Backend.standard.validate m = .error message := by
  cases hvalid : m.validate with
  | error e => exact ⟨e.message, by simp only [Backend.standard, hvalid, Except.mapError]⟩
  | ok => exact absurd h (not_coincide_of_validate hvalid)

/-! ## Links -/

section

variable {backend : Backend} {pins : Pins} {options : LinkOptions} {p : PlacedProgram}

/-- Behind a vertex stage that is written out, a link refuses the fragment stage exactly if
it is not valid.  A valid stage may still have no words, but that is another error. -/
theorem link_refuses_fragment_iff {vertex fragment : Option CompiledShader}
    (hp : prepareLink vertex fragment pins options = .ok p)
    (hvalid : backend.validate p.vertex.patched = .ok ()) {words : List UInt32}
    (hwords : backend.spirv options.spirvVersion p.vertex.patched = .ok words) :
    (∃ message, (link backend vertex fragment pins options).result =
        .error (.validation .fragment message)) ↔
      ∃ message, backend.validate p.fragment.patched = .error message := by
  obtain ⟨_, _, hvertex⟩ := emitStage_of_written hvalid hwords
  have hlink : link backend vertex fragment pins options = emitProgram backend options p := by
    simp only [link, hp]
  have hstage := (stage_of_prepareLink hp).2
  simp only [hlink, emitProgram_eq_error_iff, hvertex, reduceCtorEq, false_or,
    Except.ok.injEq, exists_eq_left']
  constructor
  · rintro ⟨message, hmessage⟩
    cases hfragment : backend.validate p.fragment.patched with
    | error message => exact ⟨message, rfl⟩
    | ok =>
        cases hwritten : backend.spirv options.spirvVersion p.fragment.patched with
        | error message => cases hmessage.symm.trans (emitStage_of_unwritable hfragment hwritten)
        | ok words =>
            obtain ⟨_, _, hok⟩ := emitStage_of_written hfragment hwritten
            cases hmessage.symm.trans hok
  · rintro ⟨message, hmessage⟩
    exact ⟨message, hstage ▸ emitStage_of_invalid hmessage⟩

/-- The inputs of a linked fragment stage coincide exactly if two of them have the name of
one vertex output. -/
theorem inputsCoincide_iff_of_prepareLink {c d : CompiledShader} {i j : StageInterface}
    (hc : c.interface? .vertex = some i) (hd : d.interface? .fragment = some j)
    (hp : prepareLink (some c) (some d) pins options = .ok p) :
    p.fragment.patched.InputsCoincide ↔ RepeatedName i.outputs j.inputs := by
  obtain ⟨-, e, he, hinterface⟩ :=
    CompiledShader.interface?_eq_some_iff.mp (interface?_of_prepareLink hp).2
  have hlocations : p.fragment.interface.inputs.map (·.location) = e.inputLocations := by
    rw [hinterface, ← map_location_inputsOf, StageInterface.markActivity, List.map_map]
    rfl
  have hcoincide : p.fragment.patched.InputsCoincide ↔
      ¬ (p.fragment.interface.inputs.map (·.location)).Nodup := by
    dsimp only at he
    simp only [ShaderModule.InputsCoincide, he, Option.some.injEq, exists_eq_left', hlocations]
  rw [hcoincide]
  obtain ⟨v, f, hv, hf, hplace⟩ := prepareLink_eq_ok_iff.mp hp
  obtain ⟨_, i', ⟨⟩, hi, rfl⟩ := LinkStage.ofCompiled?_eq_some_iff.mp hv
  obtain ⟨_, j', ⟨⟩, hj, rfl⟩ := LinkStage.ofCompiled?_eq_some_iff.mp hf
  cases hc.symm.trans hi
  cases hd.symm.trans hj
  obtain ⟨_, pool, outputs, inputs, _, -, houtputs, hinputs, -, rfl⟩ :=
    placeProgram_eq_ok_iff.mp hplace
  obtain ⟨hunplaced, -, hpool⟩ := inTurn_of_placeVaryings houtputs
  have hlayout := (resolveInputs_eq_ok_iff_varyingLayout hpool).mp hinputs
  rw [hlayout.not_nodup_location_iff (disjoint_of_placeVaryings houtputs)]
  exact repeatedName_congr (InterfaceVar.map_name_of_map_unplaced hunplaced)
    (InterfaceVar.map_name_of_map_unplaced hlayout.unplaced)

end

/-- Two fragment inputs end at the same location exactly if they have the name of one vertex
output.  So, if the vertex stage is valid and written out and the fragment stage is refused
for nothing but inputs that coincide, a link fails at the fragment stage exactly on such
interfaces.  The backend of this library does refuse inputs that coincide. -/
theorem shared_location_iff_repeated_name :
    (∀ capacity outputs pool placedOutputs inputs placed,
      placeVaryings capacity outputs = .ok (pool, placedOutputs) →
      resolveInputs placedOutputs pool inputs = .ok placed →
      placed.map InterfaceVar.unplaced = inputs.map InterfaceVar.unplaced ∧
      placed.Pairwise fun v w => v.location = w.location ↔
        v.name = w.name ∧ ∃ o ∈ outputs, o.name = v.name) ∧
    (∀ backend c d i j pins options p, CompiledShader.interface? c .vertex = some i →
      CompiledShader.interface? d .fragment = some j →
      prepareLink (some c) (some d) pins options = .ok p →
      backend.validate p.vertex.patched = .ok () →
      (∃ words, backend.spirv options.spirvVersion p.vertex.patched = .ok words) →
      ((∃ message, backend.validate p.fragment.patched = .error message) ↔
        p.fragment.patched.InputsCoincide) →
      ((∃ message, (link backend (some c) (some d) pins options).result =
          .error (.validation .fragment message)) ↔
        RepeatedName i.outputs j.inputs)) ∧
    ∀ m, m.InputsCoincide → ∃ message, Backend.standard.validate m = .error message := by
  refine ⟨?_, ?_, fun m => standard_refuses_of_coincide⟩
  · intro capacity outputs pool placedOutputs inputs placed houtputs hinputs
    obtain ⟨hunplaced, -, hpool⟩ := inTurn_of_placeVaryings houtputs
    have hlayout := (resolveInputs_eq_ok_iff_varyingLayout hpool).mp hinputs
    have hpairs := hlayout.pairwise_location_eq_iff (disjoint_of_placeVaryings houtputs)
    have hnames (name : String) : (∃ o ∈ placedOutputs, o.name = name) ↔
        ∃ o ∈ outputs, o.name = name := by
      rw [← List.mem_map, ← List.mem_map, InterfaceVar.map_name_of_map_unplaced hunplaced]
    simp only [hnames] at hpairs
    exact ⟨hlayout.unplaced, hpairs⟩
  · rintro backend c d i j pins options p hc hd hp hvalid ⟨words, hwords⟩ hrefuses
    rw [link_refuses_fragment_iff hp hvalid hwords, hrefuses,
      inputsCoincide_iff_of_prepareLink hc hd hp]

/-- A fragment stage has two inputs.  If both are named `uv`, they are at the location of
one output, and the stage is refused.  If the second is named `color`, it is not. -/
theorem shared_location_iff_repeated_name_of_two_inputs :
    let vec4 : ShaderType := .vector .four .f32
    let vertex : CompiledShader := ⟨.vertex, {
      globals := [], functions := []
      entry := some {
        stage := .vertex, arguments := []
        result := .struct [⟨none, vec4, 0, .builtIn .position, .byType⟩,
          ⟨some "uv", vec4, 16, .location 0, .byType⟩,
          ⟨some "color", vec4, 32, .location 1, .byType⟩] 48
        body := ⟨"main", [], [], []⟩ } }⟩
    let fragment (second : String) : CompiledShader := ⟨.fragment, {
      globals := [], functions := []
      entry := some {
        stage := .fragment, result := .none
        arguments := [⟨some "uv", vec4, .location 0, .byType⟩,
          ⟨some second, vec4, .location 1, .byType⟩]
        body := ⟨"main", [], [], []⟩ } }⟩
    let linked (second : String) :=
      (link Backend.standard (some vertex) (some (fragment second)) [] {}).result
    let output (name : String) (index location : Nat) : InterfaceVar :=
      ⟨name, vec4, .resultMember index, location, true⟩
    let input (name : String) (index location : Nat) : InterfaceVar :=
      ⟨name, vec4, .argument index, location, true⟩
    let outputs := [output "uv" 1 0, output "color" 2 1]
    let inputs := [input "uv" 0 0, input "color" 1 0, input "uv" 2 0]
    let placed := [input "uv" 0 0, input "color" 1 1, input "uv" 2 0]
    placeVaryings 2 outputs = .ok (⟨[]⟩, outputs) ∧
      resolveInputs outputs ⟨[]⟩ inputs = .ok placed ∧
      (placed.Pairwise fun v w => v.location = w.location ↔
        v.name = w.name ∧ ∃ o ∈ outputs, o.name = v.name) ∧
      (∃ message, linked "uv" = .error (.validation .fragment message)) ∧
      ¬ ∃ message, linked "color" = .error (.validation .fragment message) := by
  intro vec4 vertex fragment linked output input outputs inputs placed
  obtain ⟨hpairs, hlinks, -⟩ := shared_location_iff_repeated_name
  refine ⟨rfl, rfl, (hpairs 2 outputs ⟨[]⟩ outputs inputs placed rfl rfl).2, ?_, ?_⟩
  · refine (hlinks Backend.standard vertex (fragment "uv") _ _ [] {} _ rfl rfl rfl
      (by decide +kernel) ⟨_, rfl⟩ (iff_of_true ⟨_, rfl⟩ ⟨_, rfl, by decide⟩)).mpr ?_
    exact ⟨_, _, List.Sublist.refl _, rfl, _, List.mem_cons_self, rfl⟩
  · refine (not_congr (hlinks Backend.standard vertex (fragment "color") _ _ [] {} _ rfl rfl rfl
      (by decide +kernel) ⟨_, rfl⟩ (iff_of_false ?_ ?_))).mpr ?_
    · rintro ⟨message, hmessage⟩
      cases (show Except.ok () = .error message from hmessage)
    · rintro ⟨e, he, hsame⟩
      obtain rfl := Option.some.inj he
      exact hsame (by decide)
    · rw [repeatedName_iff]
      decide

end LegacyShader
