import LegacyShader.Linker
import LegacyShader.Proofs.AttribPlacement

/-!
# The steps of a link

A link finds two stages, numbers their variables and writes both stages out.  The
statements here say when each of these steps succeeds and what it gives, so that
facts about links follow from facts about the steps.

The pins of a link matter only as a map from names to locations
(`link_congr_pins`).
-/

namespace LegacyShader

/-! ## Stages -/

/-- The stage of a link has the module and the interface of its shader. -/
theorem LinkStage.ofCompiled?_eq_some_iff {shader : Option CompiledShader} {stage : Stage}
    {s : LinkStage} :
    ofCompiled? shader stage = some s ↔
      ∃ c i, shader = some c ∧ c.interface? stage = some i ∧ s = ⟨stage, c.shader, i⟩ := by
  cases shader with
  | none => simp [ofCompiled?]
  | some c =>
      cases hi : c.interface? stage with
      | none => simp [ofCompiled?, hi]
      | some i => simp [ofCompiled?, hi, eq_comm]

/-- The interface of a shader is what is collected from its module, with the use of
everything marked. -/
theorem CompiledShader.interface?_eq_some_iff {c : CompiledShader} {stage : Stage}
    {i : StageInterface} :
    c.interface? stage = some i ↔
      c.stage = stage ∧ ∃ e, c.shader.entry = some e ∧
        i = StageInterface.markActivity
          { inputs := StageInterface.inputsOf e
            outputs := StageInterface.outputsOf e
            textures := StageInterface.texturesOf c.shader
            uniformBlocks := StageInterface.blocksOf c.shader } c.shader := by
  unfold interface? StageInterface.collect?
  cases c.shader.entry <;> simp [eq_comm]

/-! ## Numbering -/

section

variable {vertex fragment : LinkStage} {pins pins' : Pins} {options : LinkOptions}
variable {p : PlacedProgram}

/-- The stages of a numbered program have new locations and the modules with new
bindings. -/
theorem placeProgram_eq_ok_iff :
    placeProgram vertex fragment pins options = .ok p ↔
      ∃ inputs pool outputs fragmentInputs modules,
        placeAttribs pins options.attribCapacity vertex.interface.inputs = .ok inputs ∧
        placeVaryings options.varyingCapacity vertex.interface.outputs = .ok (pool, outputs) ∧
        resolveInputs outputs pool fragment.interface.inputs = .ok fragmentInputs ∧
        placeBindings ⟨vertex.shader, fragment.shader⟩ { vertex.interface with inputs, outputs }
          { fragment.interface with inputs := fragmentInputs } = .ok modules ∧
        p = ⟨⟨.vertex, modules.vertex, { vertex.interface with inputs, outputs }⟩,
          ⟨.fragment, modules.fragment, { fragment.interface with inputs := fragmentInputs }⟩⟩ := by
  simp only [placeProgram, bind_eq_ok_iff, Prod.exists]
  constructor
  · rintro ⟨inputs, hinputs, pool, outputs, houtputs, fragmentInputs, hresolve, modules, hmodules,
      hpure⟩
    cases hpure
    exact ⟨inputs, pool, outputs, fragmentInputs, modules, hinputs, houtputs, hresolve, hmodules,
      rfl⟩
  · rintro ⟨inputs, pool, outputs, fragmentInputs, modules, hinputs, houtputs, hresolve, hmodules,
      rfl⟩
    exact ⟨inputs, hinputs, pool, outputs, houtputs, fragmentInputs, hresolve, modules, hmodules,
      rfl⟩

theorem placeProgram_congr_pins (hpins : ∀ name, pins'.get? name = pins.get? name) :
    placeProgram vertex fragment pins' options = placeProgram vertex fragment pins options := by
  unfold placeProgram
  rw [placeAttribs_congr fun v _ => hpins v.name]

end

/-! ## Writing out -/

section

variable {backend : Backend} {options : LinkOptions} {p : PlacedProgram} {linked : LinkedProgram}

theorem emitStage_of_invalid {s : LinkStage} {message : String}
    (h : backend.validate s.patched = .error message) :
    emitStage backend options s = .error (.validation s.stage message) := by
  simp only [emitStage, h]
  rfl

theorem emitStage_of_unwritable {s : LinkStage} {message : String}
    (hvalid : backend.validate s.patched = .ok ())
    (h : backend.spirv options.spirvVersion s.patched = .error message) :
    emitStage backend options s = .error (.spirv s.stage message) := by
  simp only [emitStage, hvalid, h]
  rfl

/-- A valid stage with words is written out, whether or not it has a text. -/
theorem emitStage_of_written {s : LinkStage} {words : List UInt32}
    (hvalid : backend.validate s.patched = .ok ())
    (h : backend.spirv options.spirvVersion s.patched = .ok words) :
    ∃ warnings wgsl, emitStage backend options s = .ok (warnings, ⟨words, wgsl⟩) := by
  simp only [emitStage, hvalid, h]
  cases options.emitWgsl with
  | false => exact ⟨_, _, rfl⟩
  | true =>
      dsimp only [Except.mapError, bind, Except.bind]
      cases backend.wgsl s.patched with
      | error message => exact ⟨_, _, rfl⟩
      | ok text => exact ⟨_, _, rfl⟩

/-- A stage that is written out is valid, and its words are those of its patched module. -/
theorem valid_of_emitStage {s : LinkStage} {warnings : List String} {emitted : EmittedStage}
    (h : emitStage backend options s = .ok (warnings, emitted)) :
    backend.validate s.patched = .ok () ∧
      backend.spirv options.spirvVersion s.patched = .ok emitted.words := by
  cases hvalid : backend.validate s.patched with
  | error message => cases h.symm.trans (emitStage_of_invalid hvalid)
  | ok =>
      cases hwords : backend.spirv options.spirvVersion s.patched with
      | error message => cases h.symm.trans (emitStage_of_unwritable hvalid hwords)
      | ok words =>
          obtain ⟨_, _, hok⟩ := emitStage_of_written hvalid hwords
          cases h.symm.trans hok
          exact ⟨rfl, rfl⟩

theorem emitProgram_eq_error_iff {e : LinkError} :
    (emitProgram backend options p).result = .error e ↔
      emitStage backend options p.vertex = .error e ∨
      ∃ first, emitStage backend options p.vertex = .ok first ∧
        emitStage backend options p.fragment = .error e := by
  unfold emitProgram
  cases emitStage backend options p.vertex with
  | error e => simp
  | ok first => cases emitStage backend options p.fragment <;> simp

theorem emitProgram_eq_ok_iff :
    (emitProgram backend options p).result = .ok linked ↔
      ∃ vertexWarnings vertex fragmentWarnings fragment,
        emitStage backend options p.vertex = .ok (vertexWarnings, vertex) ∧
        emitStage backend options p.fragment = .ok (fragmentWarnings, fragment) ∧
        linked = ⟨vertex, fragment, p.reflection⟩ := by
  unfold emitProgram
  cases emitStage backend options p.vertex with
  | error e => simp
  | ok first =>
      obtain ⟨vertexWarnings, vertex⟩ := first
      cases emitStage backend options p.fragment with
      | error e => simp
      | ok second =>
          obtain ⟨fragmentWarnings, fragment⟩ := second
          simp [eq_comm]

end

/-! ## Links -/

section

variable {backend : Backend} {vertex fragment : Option CompiledShader} {pins pins' : Pins}
variable {options : LinkOptions} {linked : LinkedProgram}

theorem link_eq_ok_iff :
    (link backend vertex fragment pins options).result = .ok linked ↔
      ∃ v f p, LinkStage.ofCompiled? vertex .vertex = some v ∧
        LinkStage.ofCompiled? fragment .fragment = some f ∧
        placeProgram v f pins options = .ok p ∧
        (emitProgram backend options p).result = .ok linked := by
  unfold link prepareLink
  cases LinkStage.ofCompiled? vertex .vertex with
  | none => simp [throw, throwThe, MonadExceptOf.throw]
  | some v =>
      cases LinkStage.ofCompiled? fragment .fragment with
      | none => simp [throw, throwThe, MonadExceptOf.throw]
      | some f =>
          cases hplace : placeProgram v f pins options with
          | error e => simp [Except.mapError, hplace]
          | ok p => simp [Except.mapError, hplace]

/-- Pins count only as a map. -/
theorem link_congr_pins (hpins : ∀ name, pins'.get? name = pins.get? name) :
    link backend vertex fragment pins' options = link backend vertex fragment pins options := by
  unfold link prepareLink
  simp only [placeProgram_congr_pins hpins]

end

end LegacyShader
