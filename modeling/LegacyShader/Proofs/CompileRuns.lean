import LegacyShader.CommandLine.Run
import LegacyShader.Proofs.ProgramFileFormat
import LegacyShader.Proofs.SidePaths
import LegacyShader.Proofs.StoredFiles

/-!
# Runs that compile

A run of the command either has a product or leaves the files alone.  Its reading changes
nothing, so the files are still the same when the product is there or has failed.  From then on
only the steps of the delivery change files, and what fails there is the storing of a file.

A run that ends well has stored the reflection first, then the stages in WGSL and the program
file last.  So the program file is always there afterwards.  The reflection is there too, unless
its path leads to one of the files behind it.
-/

namespace LegacyShader.CommandLine

/-! ## Products -/

section Logged

variable {α β : Type} {x : Logged α} {f : α → Logged β} {log log' : List Record} {b : β}

/-- A logged computation with a first step succeeds exactly if both parts do. -/
theorem logged_bind_eq_ok_iff :
    (x >>= f) log = .ok b log' ↔ ∃ a mid, x log = .ok a mid ∧ f a mid = .ok b log' := by
  show EStateM.bind x f log = _ ↔ _
  cases hx : x log with
  | ok a mid => simp [EStateM.bind, hx]
  | error e mid => simp [EStateM.bind, hx]

end Logged

/-- What is found at a path, as text. -/
def FileTree.text (t : FileTree) (p : Path) : Except FileError (List Char) := t.read p >>= textOf

/-- What the metadata of a program are, by what is found at their path: what the text says, or
the default if there is no text. -/
inductive Metadata.Found : Except FileError (List Char) → Metadata → Prop
  | parsed {text : List Char} {m : Metadata} : Metadata.parse text = .ok m → Found (.ok text) m
  | missing {e : FileError} : Found (.error e) {}

/-- A product holds the program that the shaders of a file tree are linked to, and goes where the
arguments say. -/
structure Made (front : FrontEnd) (backend : Backend) (a : CompileArguments) (t : FileTree)
    (product : Product) : Prop where
  /-- The program is linked from shaders that are there and compile. -/
  program : ∃ metadata vertex fragment,
    Metadata.Found (t.text (metadataPath a.vertex)) metadata ∧
    t.text a.vertex = .ok vertex ∧ (Shader.compile front {} .vertex vertex).succeeded = true ∧
    t.text a.fragment = .ok fragment ∧
    (Shader.compile front {} .fragment fragment).succeeded = true ∧
    product.emitWgsl = (a.emitWgsl || metadata.emitWgsl) ∧
    (link backend (Shader.compile front {} .vertex vertex).shader.compiled
      (Shader.compile front {} .fragment fragment).shader.compiled metadata.attribLocations
      { emitWgsl := product.emitWgsl }).result = .ok product.program
  /-- The program file goes to the output. -/
  output : product.output = a.outputPath t.workingDirectory
  /-- The reflection goes where the arguments say. -/
  reflection : product.reflection = a.reflection

theorem found_of_readMetadata {vertex : Path} {found : Except FileError (List Char)}
    {m : Metadata} {log log' : List Record} (h : readMetadata vertex found log = .ok m log') :
    Metadata.Found found m := by
  cases found with
  | error e =>
    cases e <;>
      · cases h
        exact .missing
  | ok text =>
    cases hparse : Metadata.parse text with
    | error e =>
      simp only [readMetadata, hparse] at h
      cases h
    | ok m' =>
      simp only [readMetadata, hparse] at h
      cases h
      exact .parsed hparse

theorem compile_of_compileShader {front : FrontEnd} {stage : Stage} {path : Path}
    {source : Except FileError (List Char)} {shader : Shader} {log log' : List Record}
    (h : compileShader front stage path source log = .ok shader log') :
    ∃ text, source = .ok text ∧ (Shader.compile front {} stage text).succeeded = true ∧
      shader = (Shader.compile front {} stage text).shader := by
  cases source with
  | error e => cases h
  | ok text =>
    obtain ⟨-, mid, -, h⟩ := logged_bind_eq_ok_iff.mp h
    split at h
    · next hsucceeded =>
      cases h
      exact ⟨text, rfl, hsucceeded, rfl⟩
    · cases h

theorem result_of_linkShaders {backend : Backend} {a : CompileArguments} {options : LinkOptions}
    {pins : Pins} {vertex fragment : Shader} {linked : LinkedProgram} {log log' : List Record}
    (h : linkShaders backend a { options, pins } vertex fragment log = .ok linked log') :
    (link backend vertex.compiled fragment.compiled pins options).result = .ok linked := by
  obtain ⟨-, mid, -, h⟩ := logged_bind_eq_ok_iff.mp h
  cases hresult : (link backend vertex.compiled fragment.compiled pins options).result with
  | ok program =>
    have hlinked : (Program.link backend { options, pins } vertex fragment).program.linked =
        some program := by simp [Program.link, hresult]
    rw [hlinked] at h
    cases h
    rfl
  | error e =>
    have hlinked : (Program.link backend { options, pins } vertex fragment).program.linked =
        none := by simp [Program.link, Program.logError, hresult]
    rw [hlinked] at h
    cases h

/-- What a file tree has where the arguments point to. -/
def FileTree.findings (t : FileTree) (a : CompileArguments) : Findings :=
  ⟨t.workingDirectory, t.isThere (a.outputPath t.workingDirectory),
    t.text (metadataPath a.vertex), t.text a.vertex, t.text a.fragment⟩

theorem made_of_makeProduct {front : FrontEnd} {backend : Backend} {a : CompileArguments}
    {t : FileTree} {product : Product} {log log' : List Record}
    (h : makeProduct front backend a (t.findings a) log = .ok product log') :
    Made front backend a t product := by
  obtain ⟨-, _, -, h⟩ := logged_bind_eq_ok_iff.mp h
  obtain ⟨-, _, -, h⟩ := logged_bind_eq_ok_iff.mp h
  obtain ⟨metadata, _, hmetadata, h⟩ := logged_bind_eq_ok_iff.mp h
  obtain ⟨vertex, _, hvertex, h⟩ := logged_bind_eq_ok_iff.mp h
  obtain ⟨fragment, _, hfragment, h⟩ := logged_bind_eq_ok_iff.mp h
  obtain ⟨program, _, hprogram, h⟩ := logged_bind_eq_ok_iff.mp h
  obtain ⟨-, _, -, h⟩ := logged_bind_eq_ok_iff.mp h
  cases h
  obtain ⟨vertexText, hvertexText, hvertexDone, rfl⟩ := compile_of_compileShader hvertex
  obtain ⟨fragmentText, hfragmentText, hfragmentDone, rfl⟩ := compile_of_compileShader hfragment
  exact ⟨⟨metadata, vertexText, fragmentText, found_of_readMetadata hmetadata,
    hvertexText, hvertexDone, hfragmentText, hfragmentDone, rfl,
    result_of_linkShaders hprogram⟩, rfl, rfl⟩

/-! ## Deliveries -/

/-- Whether a failure comes from storing a file. -/
def Failure.isStore : Failure → Bool
  | .store _ _ => true
  | _ => false

/-- The file that a step stores. -/
def Step.file? : Step → Option (Path × List UInt8)
  | .log _ => none
  | .store _ path bytes => some (path, bytes)

namespace World

/-- A computation in a world with a first step goes on in the world that the step leaves. -/
theorem bind_eq_iff {α β : Type} {x : StateM World α} {f : α → StateM World β} {w w' : World}
    {b : β} : (x >>= f) w = (b, w') ↔ ∃ a mid, x w = (a, mid) ∧ f a mid = (b, w') := by
  show f (x w).1 (x w).2 = _ ↔ _
  constructor
  · intro h
    exact ⟨(x w).1, (x w).2, rfl, h⟩
  · rintro ⟨a, mid, hx, h⟩
    rw [hx]
    exact h

section Store

variable {w w' : World} {p : Path} {bytes : List UInt8}

theorem files_of_change {f : FileTree → Except FileError FileTree}
    (h : change f w = (.ok (), w')) : f w.files = .ok w'.files := by
  cases hf : f w.files with
  | error e =>
    simp only [change, hf] at h
    cases h
  | ok files =>
    simp only [change, hf] at h
    cases h
    rfl

theorem files_of_write {f : FileError → StoreError}
    (h : (host.write p bytes >>= fun written => pure (written.mapError f)) w = (.ok (), w')) :
    w.files.write p bytes = .ok w'.files := by
  obtain ⟨written, mid, hwrite, h⟩ := bind_eq_iff.mp h
  cases written with
  | error e => cases h
  | ok u =>
    cases h
    exact files_of_change (f := (·.write p bytes)) hwrite

/-- Storing a file in a world makes the directories around it and then writes it. -/
theorem stored_of_store (h : host.store p bytes w = (.ok (), w')) :
    w.files.Stored p bytes w'.files := by
  cases hparent : p.parent? with
  | none =>
    simp only [Host.store, hparent] at h
    exact ⟨w.files, .refl _, files_of_write h⟩
  | some directory =>
    cases directory with
    | nil =>
      simp only [Host.store, hparent] at h
      exact ⟨w.files, .refl _, files_of_write h⟩
    | cons c directory =>
      simp only [Host.store, hparent] at h
      obtain ⟨made, grown, hmade, h⟩ := bind_eq_iff.mp h
      cases made with
      | error e => cases h
      | ok u =>
        have hgrown := files_of_change (f := (·.makeDirectories (c :: directory))) hmade
        exact ⟨grown.files, FileTree.grows_makeDirectories hgrown, files_of_write h⟩

end Store

/-- A delivery that ends well has stored the files of its steps one after another. -/
theorem stores_of_deliver {steps : List Step} {w w' : World}
    (h : host.deliver steps w = (.ok (), w')) :
    w.files.Stores (steps.filterMap Step.file?) w'.files := by
  induction steps generalizing w with
  | nil =>
    cases h
    exact .nil
  | cons step steps ih =>
    cases step with
    | log r => exact ih (w := { w with log := w.log ++ [r] }) h
    | store purpose path bytes =>
      obtain ⟨stored, mid, hstore, h⟩ := bind_eq_iff.mp h
      cases stored with
      | error e => cases h
      | ok u => exact .cons (stored_of_store hstore) (ih h)

/-- A delivery fails only because a file cannot be stored. -/
theorem isStore_of_deliver {steps : List Step} {w w' : World} {failure : Failure}
    (h : host.deliver steps w = (.error failure, w')) : failure.isStore = true := by
  induction steps generalizing w with
  | nil => cases h
  | cons step steps ih =>
    cases step with
    | log r => exact ih (w := { w with log := w.log ++ [r] }) h
    | store purpose path bytes =>
      obtain ⟨stored, mid, hstore, h⟩ := bind_eq_iff.mp h
      cases stored with
      | error e =>
        cases h
        rfl
      | ok u => exact ih h

/-! ## Compilations -/

/-- A compilation in a world: how it ends, and the world afterwards. -/
def compile (w : World) (front : FrontEnd) (backend : Backend) (a : CompileArguments) :
    Except Failure Unit × World :=
  (host.compile front backend a).run w

/-- A world with more in its log. -/
def logged (w : World) (log : List Record) : World := { w with log := w.log ++ log }

theorem forM_tell (w : World) (log : List Record) : log.forM host.tell w = ((), w.logged log) := by
  induction log generalizing w with
  | nil =>
    show ((), w) = _
    simp [logged]
  | cons r log ih =>
    show log.forM host.tell (w.logged [r]) = _
    rw [ih]
    simp [logged]

section Compile

variable {w w' : World} {front : FrontEnd} {backend : Backend} {a : CompileArguments}

/-- A compilation without a product only adds to the log. -/
theorem compile_of_error {failure : Failure} {log : List Record}
    (h : makeProduct front backend a (w.files.findings a) [] = .error failure log) :
    w.compile front backend a = (.error failure, w.logged log) := by
  refine bind_eq_iff.mpr ⟨w.files.findings a, w, rfl, ?_⟩
  rw [EStateM.run, h]
  exact bind_eq_iff.mpr ⟨(), w.logged log, forM_tell w log, rfl⟩

/-- A compilation with a product delivers it. -/
theorem compile_of_ok {product : Product} {log : List Record}
    (h : makeProduct front backend a (w.files.findings a) [] = .ok product log) :
    w.compile front backend a = host.deliver product.steps (w.logged log) := by
  refine bind_eq_iff.mpr ⟨w.files.findings a, w, rfl, ?_⟩
  rw [EStateM.run, h]
  exact bind_eq_iff.mpr ⟨(), w.logged log, forM_tell w log, rfl⟩

/-- A compilation that fails before anything is stored leaves the files alone. -/
theorem files_of_compile_error {failure : Failure}
    (h : w.compile front backend a = (.error failure, w')) (hstore : failure.isStore = false) :
    w'.files = w.files := by
  cases hproduct : makeProduct front backend a (w.files.findings a) [] with
  | error failure' log =>
    rw [compile_of_error hproduct] at h
    cases h
    rfl
  | ok product log =>
    rw [compile_of_ok hproduct] at h
    have := isStore_of_deliver h
    simp [hstore] at this

/-- A compilation that ends well has stored the files of a product. -/
theorem stores_of_compile (h : w.compile front backend a = (.ok (), w')) :
    ∃ product, Made front backend a w.files product ∧
      w.files.Stores (product.steps.filterMap Step.file?) w'.files := by
  cases hproduct : makeProduct front backend a (w.files.findings a) [] with
  | error failure log =>
    rw [compile_of_error hproduct] at h
    cases h
  | ok product log =>
    rw [compile_of_ok hproduct] at h
    have hstores := stores_of_deliver h
    exact ⟨product, made_of_makeProduct hproduct, hstores⟩

end Compile

end World

/-! ## Delivered files -/

/-- A product is in a file tree: its program file, which can be read back, and its reflection,
unless the path of that leads to the output or to a side path. -/
structure Delivered (product : Product) (t : FileTree) : Prop where
  /-- The program file holds the words of both stages and the reflection. -/
  programFile : ∃ bytes, t.read product.output = .ok bytes ∧
    (bytes.length < ProgramFile.byteBound 8 →
      ProgramFile.decode bytes = .ok ⟨.v1, product.program.vertex.words,
        product.program.fragment.words, product.program.reflection⟩)
  /-- The reflection is at its path. -/
  reflection : ∀ path, product.reflection = some path →
    (∀ other ∈ product.output.withSides, ¬ t.SameFile path other) →
      t.read path = .ok (Text.encodeUtf8 product.program.reflection.pretty)

/-- The files that a delivery stores behind the reflection. -/
def Product.laterFiles (product : Product) : List (Path × List UInt8) :=
  product.wgslSteps.filterMap Step.file? ++ [(product.output, product.file.encode)]

theorem filterMap_file?_steps (product : Product) :
    product.steps.filterMap Step.file? =
      product.reflectionSteps.filterMap Step.file? ++ product.laterFiles := by
  simp [Product.steps, Product.laterFiles, Step.file?]

theorem path_mem_withSides {product : Product} {file : Path × List UInt8}
    (h : file ∈ product.laterFiles) : file.1 ∈ product.output.withSides := by
  rw [Product.laterFiles, List.mem_append, List.mem_singleton] at h
  obtain h | rfl := h
  · obtain ⟨step, hstep, hfile⟩ := List.mem_filterMap.mp h
    rw [Product.wgslSteps] at hstep
    split at hstep
    · obtain ⟨stage, hstage, rfl⟩ := List.mem_map.mp hstep
      rw [Product.wgslStep] at hfile
      split at hfile
      · cases hfile
        exact List.mem_cons_of_mem _ (List.mem_map_of_mem hstage)
      · cases hfile
    · cases hstep
  · exact List.mem_cons_self

/-- Once the files of a product are stored one after another, the product is delivered.  The
program file is the last one, so nothing is stored over it. -/
theorem delivered_of_stores {product : Product} {t t' : FileTree}
    (h : t.Stores (product.steps.filterMap Step.file?) t') : Delivered product t' := by
  rw [filterMap_file?_steps] at h
  obtain ⟨mid, hfirst, hlater⟩ := h.split
  constructor
  · obtain ⟨before, -, hlast⟩ := hlater.split
    cases hlast with
    | cons hstored hnil =>
      cases hnil
      obtain ⟨place, hfile⟩ := hstored.fileAt
      refine ⟨product.file.encode, hfile.read, fun hlt => ?_⟩
      have hdecode := ProgramFile.decode_encode_append (ProgramFile.storable_of_length_lt hlt) []
      rwa [List.append_nil] at hdecode
  · intro path hpath hdiffer
    rw [Product.reflectionSteps, hpath] at hfirst
    cases hfirst with
    | cons hstored hnil =>
      cases hnil
      obtain ⟨place, hfile⟩ := hstored.fileAt
      have hkept := hfile.of_stores hlater fun file hmem => hdiffer file.1 (path_mem_withSides hmem)
      exact hkept.read

/-! ## Runs -/

/-- A run leaves the files alone unless it has a product, and delivers the product if it ends
well. -/
structure AllOrNothing (front : FrontEnd) (backend : Backend) (w : World)
    (arguments : List String) : Prop where
  /-- Arguments that cannot be used change nothing. -/
  misused : ∀ e, parseArguments arguments = .error e → w.run front backend arguments = (2, w)
  /-- A failure that does not come from storing a file only adds to the log. -/
  refused : ∀ a failure w', parseArguments arguments = .ok (.compile a) →
    w.compile front backend a = (.error failure, w') → failure.isStore = false →
      w.run front backend arguments = (1, w'.logged [failure.record]) ∧ w'.files = w.files
  /-- A success delivers what the shaders are linked to. -/
  delivered : ∀ a w', parseArguments arguments = .ok (.compile a) →
    w.compile front backend a = (.ok (), w') →
      w.run front backend arguments = (0, w') ∧
        ∃ product, Made front backend a w.files product ∧ Delivered product w'.files

namespace World

variable {w w' : World} {front : FrontEnd} {backend : Backend} {arguments : List String}
  {a : CompileArguments}

theorem run_of_compile_ok (harguments : parseArguments arguments = .ok (.compile a))
    (h : w.compile front backend a = (.ok (), w')) : w.run front backend arguments = (0, w') := by
  simp only [run, Host.run, harguments]
  exact bind_eq_iff.mpr ⟨.ok (), w', h, rfl⟩

theorem run_of_compile_error {failure : Failure}
    (harguments : parseArguments arguments = .ok (.compile a))
    (h : w.compile front backend a = (.error failure, w')) :
    w.run front backend arguments = (1, w'.logged [failure.record]) := by
  simp only [run, Host.run, harguments]
  exact bind_eq_iff.mpr ⟨.error failure, w', h, rfl⟩

end World

/-- Every run is all or nothing.  Where an output has a file name, it and its side paths are
pairwise different unless that name is two dots and an extension. -/
theorem all_or_nothing_and_side_paths (front : FrontEnd) (backend : Backend) (w : World)
    (arguments : List String) :
    AllOrNothing front backend w arguments ∧
      ∀ output : Path, output.fileName?.isSome →
        (output.withSides.Nodup ↔ ¬ output.Dotted) ∧
          (¬ output.Dotted → (output.withSides.map Path.lastName).Nodup) := by
  refine ⟨⟨?_, ?_, ?_⟩, ?_⟩
  · intro e harguments
    simp only [World.run, Host.run, harguments]
    rfl
  · intro a failure w' harguments hcompile hstore
    exact ⟨World.run_of_compile_error harguments hcompile,
      World.files_of_compile_error hcompile hstore⟩
  · intro a w' harguments hcompile
    obtain ⟨product, hmade, hstores⟩ := World.stores_of_compile hcompile
    exact ⟨World.run_of_compile_ok harguments hcompile, product, hmade,
      delivered_of_stores hstores⟩
  · intro output hname
    exact ⟨Path.nodup_withSides_iff hname, Path.nodup_lastNames hname⟩

/-- A front end that finds the same in every source: an attribute in a vertex stage. -/
def plainFront : FrontEnd where
  parse stage _ := .ok
    { globals := []
      functions := []
      entry := some
        { stage
          arguments := if stage = .vertex then
            [⟨some "corner", .vector .four ⟨.float, 4⟩, .location 0, .byType⟩] else []
          result := .value (.vector .four ⟨.float, 4⟩) (.builtIn .position)
          body := ⟨"main", [], [0], []⟩ } }
  validate _ := .ok ()

/-- A backend that writes the same for every module. -/
def plainBackend : Backend :=
  ⟨fun _ => .ok (), fun _ _ => .ok [0x07230203, 65536], fun _ => .ok "fn main() \x7b\x7d"⟩

/-- A world with two shaders. -/
def plainWorld : World where
  files := .ofFiles "/work".toList
    [("a.vert".toList, Text.encodeUtf8 "void main() \x7b\x7d\n".toList),
      ("a.frag".toList, Text.encodeUtf8 "void main() \x7b\x7d\n".toList)]

/-- Arguments that ask for all files of a program. -/
def plainArguments : List String :=
  ["a.vert", "a.frag", "out.res", "--reflection", "r.json", "--wgsl"]

/-- What those arguments say. -/
def plainOrder : CompileArguments :=
  ⟨"a.vert".toList, "a.frag".toList, some "out.res".toList, some "r.json".toList, true⟩

theorem all_or_nothing_and_side_paths_of_plainWorld :
    let ended := plainWorld.run plainFront plainBackend plainArguments
    ended.1 = 0 ∧
      (∃ program : LinkedProgram,
        ended.2.files.read "r.json".toList = .ok (Text.encodeUtf8 program.reflection.pretty) ∧
        ∃ bytes, ended.2.files.read "out.res".toList = .ok bytes ∧ ProgramFile.decode bytes =
          .ok ⟨.v1, program.vertex.words, program.fragment.words, program.reflection⟩) ∧
      ¬ Path.Dotted "out.res".toList := by
  obtain ⟨hrun, hsides⟩ :=
    all_or_nothing_and_side_paths plainFront plainBackend plainWorld plainArguments
  have harguments : parseArguments plainArguments = .ok (.compile plainOrder) := by decide +kernel
  have hshort : ((plainWorld.run plainFront plainBackend plainArguments).2.files.read
      "out.res".toList).toOption.all
        (fun bytes => decide (bytes.length < ProgramFile.byteBound 8)) = true := by decide +kernel
  have hplaces : ∀ other ∈ Path.withSides "out.res".toList,
      let t := (plainWorld.run plainFront plainBackend plainArguments).2.files
      t.place (t.namesFrom other) ≠ t.place (t.namesFrom "r.json".toList) := by decide +kernel
  have hok : (plainWorld.compile plainFront plainBackend plainOrder).1 = .ok () := by
    decide +kernel
  cases hcompile : plainWorld.compile plainFront plainBackend plainOrder with
  | mk outcome w' =>
    rw [hcompile] at hok
    obtain rfl : outcome = .ok () := hok
    obtain ⟨heq, product, hmade, hdelivered⟩ := hrun.delivered plainOrder w' harguments hcompile
    have houtput : product.output = "out.res".toList := hmade.output
    obtain ⟨bytes, hread, hdecode⟩ := hdelivered.programFile
    rw [houtput] at hread
    rw [heq] at hshort hplaces ⊢
    refine ⟨rfl, ⟨product.program, ?_, bytes, hread, hdecode ?_⟩, ?_⟩
    · refine hdelivered.reflection _ hmade.reflection fun other hother => ?_
      rintro ⟨place, hleads, hplace⟩
      rw [houtput] at hother
      exact hplaces other hother (hplace.trans hleads.symm)
    · rw [hread] at hshort
      simpa [Except.toOption] using hshort
    · exact (hsides _ (by decide +kernel)).1.mp (by decide +kernel)

/-- Both side paths of `..foo` are the directory above, so the stages cannot be stored. -/
theorem not_nodup_withSides_of_two_dots :
    let output := "..foo".toList
    let ended := plainWorld.run plainFront plainBackend ["a.vert", "a.frag", "..foo", "--wgsl"]
    (Path.fileName? output).isSome = true ∧ ¬ (Path.withSides output).Nodup ∧ ended.1 = 1 ∧
      ended.2.log.getLast? =
        some (Failure.store (.wgsl .vertex) (.file "..".toList .isDirectory)).record := by
  decide +kernel

end LegacyShader.CommandLine
