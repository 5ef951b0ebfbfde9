import LegacyShader.Glsl.TypeWord
import LegacyShader.Proofs.BlockPlacement
import LegacyShader.Proofs.FlatNames
import LegacyShader.Proofs.ReflectionWellFormed
import LegacyShader.Shader

/-!
# Legacy names in reflections

Modern source declares a legacy uniform under a name that a reflection takes apart again.
The two sides share only the words in front of the name.

The preamble and the block declare what they should (`declarationsIn_pairLines`,
`declarationsIn_memberLine`).  A module that keeps these declarations (`Keeps`,
`KeepsBlock`) has an entry for each of them in the reflection of a link, under the legacy
name (`legacy_name_of_link`).  A member that is no small matrix loses its name and its type
there exactly if the name starts with the word for small matrices (`undone_iff`).
-/

namespace LegacyShader

namespace Modern

/-! ## What modern source declares -/

/-- The two words in front of the semicolon of a line: a type and a name. -/
def declaredIn (line : List Char) : List Char × List Char :=
  let front := (line.takeWhile (· != ';')).reverse
  ((((front.dropWhile Text.isWordChar).dropWhile isSpace).takeWhile Text.isWordChar).reverse,
    (front.takeWhile Text.isWordChar).reverse)

/-- The types and names that the lines of a text declare. -/
def declarationsIn (text : List Char) : List (List Char × List Char) :=
  ((text.splitOn '\n').filter (·.contains ';')).map declaredIn

theorem Parted.stops_reverse {cs : List Char} (h : Parted cs) :
    Stops Text.isWordChar cs.reverse := by
  intro c hc
  rw [List.head?_reverse] at hc
  exact h c hc

/-- A line with one declaration declares the two words in front of its semicolon. -/
theorem declaredIn_line {before type name : List Char} (hbefore : ';' ∉ before)
    (hparted : Parted before) (htype : IsWord type) (hname : IsWord name) :
    declaredIn (before ++ (type ++ ' ' :: (name ++ [';']))) = (type, name) := by
  have hfront : (before ++ (type ++ ' ' :: (name ++ [';']))).takeWhile (· != ';') =
      before ++ (type ++ ' ' :: name) := by
    have hrun : ∀ c ∈ before ++ (type ++ ' ' :: name), (c != ';') = true := by
      intro c hc
      rw [bne_iff_ne]
      rintro rfl
      simp [hbefore, htype.not_mem (rfl : Text.isWordChar ';' = false),
        hname.not_mem (rfl : Text.isWordChar ';' = false)] at hc
    have hline : before ++ (type ++ ' ' :: (name ++ [';'])) =
        before ++ (type ++ ' ' :: name) ++ [';'] := by simp
    rw [hline, takeWhile_run hrun (stops_cons.mpr rfl)]
  have hreverse : (before ++ (type ++ ' ' :: name)).reverse =
      name.reverse ++ ([' '] ++ (type.reverse ++ before.reverse)) := by simp
  have hnames : ∀ c ∈ name.reverse, Text.isWordChar c = true := fun c hc =>
    hname.2 c (List.mem_reverse.mp hc)
  have htypes : ∀ c ∈ type.reverse, Text.isWordChar c = true := fun c hc =>
    htype.2 c (List.mem_reverse.mp hc)
  have hspace : Stops Text.isWordChar ([' '] ++ (type.reverse ++ before.reverse)) :=
    stops_cons.mpr rfl
  have hword : Stops isSpace (type.reverse ++ before.reverse) :=
    IsWord.stops_isSpace ⟨by simpa using htype.1, htypes⟩
  have hgap : ∀ c ∈ [' '], isSpace c = true := List.forall_mem_singleton.mpr (by decide)
  rw [declaredIn, hfront, hreverse, dropWhile_run hnames hspace, takeWhile_run hnames hspace,
    dropWhile_run hgap hword, takeWhile_run htypes hparted.stops_reverse, List.reverse_reverse,
    List.reverse_reverse]

/-- The declaration of a line stands in front of those of the lines behind it. -/
theorem declarationsIn_append_newline {before type name : List Char} (hbefore : ';' ∉ before)
    (hline : '\n' ∉ before) (hparted : Parted before) (htype : IsWord type)
    (hname : IsWord name) (rest : List Char) :
    declarationsIn (before ++ (type ++ ' ' :: (name ++ [';'])) ++ '\n' :: rest) =
      (type, name) :: declarationsIn rest := by
  have hnot : '\n' ∉ before ++ (type ++ ' ' :: (name ++ [';'])) := by
    simp [hline, htype.not_mem (rfl : Text.isWordChar '\n' = false),
      hname.not_mem (rfl : Text.isWordChar '\n' = false)]
  have hcontains : (before ++ (type ++ ' ' :: (name ++ [';']))).contains ';' = true := by simp
  rw [declarationsIn, splitOn_append_newline hnot, List.filter_cons, if_pos hcontains,
    List.map_cons, declaredIn_line hbefore hparted htype hname]
  rfl

theorem IsWord.append {front word : List Char} (hfront : IsWord front) (hword : IsWord word) :
    IsWord (front ++ word) :=
  ⟨by simp [hfront.1], fun c hc => (List.mem_append.mp hc).elim (hfront.2 c) (hword.2 c)⟩

theorem declarationsIn_nil : declarationsIn [] = [] := by decide +kernel

section

variable {d : UniformDecl}

theorem isWord_storedType (htype : IsWord d.type) : IsWord (storedType d) := by
  unfold storedType
  split
  · decide +kernel
  · exact htype

theorem isWord_storedName (hname : IsWord d.name) : IsWord (storedName d) := by
  unfold storedName
  split
  · exact IsWord.append (by decide +kernel) hname
  · exact hname

/-- The line of a uniform in the block declares it as it is stored. -/
theorem declarationsIn_memberLine (htype : IsWord d.type) (hname : IsWord d.name)
    (hsuffix : d.suffix = []) :
    declarationsIn (memberLine d) = [(storedType d, storedName d)] := by
  have hline : memberLine d =
      ['\t'] ++ (storedType d ++ ' ' :: (storedName d ++ [';'])) ++ '\n' :: [] := by
    rw [memberLine, memberText_eq_member fun _ => hsuffix, UniformDecl.member, hsuffix]
    simp
  rw [hline, declarationsIn_append_newline (by decide) (by decide) (by decide)
    (isWord_storedType htype) (isWord_storedName hname), declarationsIn_nil]

/-- The lines of a combined sampler declare its two halves. -/
theorem declarationsIn_pairLines (hname : IsWord d.name) :
    declarationsIn (pairLines d) =
      [((textureType d).toList, textureMark.toList ++ d.name),
        ("sampler".toList, samplerMark.toList ++ d.name)] := by
  have htype : IsWord (textureType d).toList := by
    unfold textureType
    split <;> decide +kernel
  have hlines : pairLines d =
      "layout(set = 0, binding = 0) uniform ".toList ++ ((textureType d).toList ++
        ' ' :: (textureMark.toList ++ d.name ++ [';'])) ++ '\n' ::
      ("layout(set = 1, binding = 0) uniform ".toList ++ ("sampler".toList ++
        ' ' :: (samplerMark.toList ++ d.name ++ [';'])) ++ '\n' :: []) := by
    simp [pairLines, String.toList_append]
  rw [hlines, declarationsIn_append_newline (by decide +kernel) (by decide +kernel)
      (by decide +kernel) htype (IsWord.append (by decide +kernel) hname),
    declarationsIn_append_newline (by decide +kernel) (by decide +kernel) (by decide +kernel)
      (by decide +kernel) (IsWord.append (by decide +kernel) hname), declarationsIn_nil]

end

end Modern

/-! ## Modules that keep declarations -/

namespace Modern

/-- The name and the type that a declaration gives. -/
def asDeclared (meaning : List Char → ShaderType) (x : List Char × List Char) :
    Option String × ShaderType := (some (String.ofList x.2), meaning x.1)

/-- The first globals of a module are those that the preamble declares. -/
structure Keeps (meaning : List Char → ShaderType) (decls : List UniformDecl)
    (m : ShaderModule) : Prop where
  /-- Words that are types mean these types. -/
  words : ∀ word type, Glsl.typeOfWord? word = some type → meaning word.toList = type
  /-- The globals start with the textures and samplers of the preamble, in order. -/
  pairs : ∃ others, m.globals.map (fun g => (g.name, g.type)) =
    ((decls.filter (·.isOpaque)).flatMap fun d =>
      (declarationsIn (pairLines d)).map (asDeclared meaning)) ++ others
  /-- Images are handles. -/
  handles : ∀ g ∈ m.globals, g.type.isImage = true → g.space = .handle

/-- A global of a module is the block that modern source declares.  Each line of the block
is some of its members, and a line without a suffix is the one that it declares. -/
structure KeepsBlock (meaning : List Char → ShaderType) (decls : List UniformDecl)
    (m : ShaderModule) (block : Nat) (members : List StructMember) : Prop where
  /-- The global is a struct of these members. -/
  type : ∃ name span, m.globalType? block = some (.struct name members span)
  /-- The members come from the lines of the block, in order. -/
  lines : ∃ membersOf : UniformDecl → List StructMember,
    members = (decls.filter (!·.isOpaque)).flatMap membersOf ∧
      ∀ d ∈ decls.filter (!·.isOpaque), d.suffix = [] →
        (membersOf d).map (fun x => (x.name, x.type)) =
          (declarationsIn (memberLine d)).map (asDeclared meaning)

section

variable {meaning : List Char → ShaderType} {decls : List UniformDecl} {m : ShaderModule}

theorem getElem?_flatMap_pair {α β : Type} (first second : α → β) (xs : List α) (k : Nat) :
    (xs.flatMap fun x => [first x, second x])[2 * k]? = xs[k]?.map first ∧
      (xs.flatMap fun x => [first x, second x])[2 * k + 1]? = xs[k]?.map second := by
  induction xs generalizing k with
  | nil => simp
  | cons x xs ih =>
      cases k with
      | zero => simp
      | succ k => exact ih k

theorem length_flatMap_pair {α β : Type} (first second : α → β) (xs : List α) :
    (xs.flatMap fun x => [first x, second x]).length = 2 * xs.length := by
  induction xs with
  | nil => rfl
  | cons x xs ih =>
      simp only [List.flatMap_cons, List.length_append, List.length_cons, List.length_nil, ih]
      omega

/-- The halves of a combined sampler, by its place among them. -/
theorem Keeps.getElem? (h : Keeps meaning decls m)
    (hwords : ∀ d ∈ decls, d.isOpaque = true → IsWord d.name) {k : Nat} {d : UniformDecl}
    (hd : (decls.filter (·.isOpaque))[k]? = some d) :
    m.globals[2 * k]?.map (fun g => (g.name, g.type)) =
        some (some (textureMark ++ String.ofList d.name), meaning (textureType d).toList) ∧
      m.globals[2 * k + 1]?.map (fun g => (g.name, g.type)) =
        some (some (samplerMark ++ String.ofList d.name), meaning "sampler".toList) := by
  obtain ⟨others, hglobals⟩ := h.pairs
  have hpairs : ((decls.filter (·.isOpaque)).flatMap fun d =>
      (declarationsIn (pairLines d)).map (asDeclared meaning)) =
      (decls.filter (·.isOpaque)).flatMap fun d =>
        [(some (textureMark ++ String.ofList d.name), meaning (textureType d).toList),
          (some (samplerMark ++ String.ofList d.name), meaning "sampler".toList)] := by
    refine List.flatMap_congr fun d hd => ?_
    obtain ⟨hmem, hsampled⟩ := List.mem_filter.mp hd
    rw [declarationsIn_pairLines (hwords d hmem hsampled)]
    simp [asDeclared, String.ofList_append]
  obtain ⟨hlt, -⟩ := List.getElem?_eq_some_iff.mp hd
  rw [hpairs] at hglobals
  rw [← List.getElem?_map, ← List.getElem?_map, hglobals,
    List.getElem?_append_left (by rw [length_flatMap_pair]; omega),
    List.getElem?_append_left (by rw [length_flatMap_pair]; omega),
    (getElem?_flatMap_pair _ _ _ k).1, (getElem?_flatMap_pair _ _ _ k).2, hd]
  exact ⟨rfl, rfl⟩

/-- No texture has the name of a sampler. -/
theorem textureMark_append_ne (name other : String) :
    textureMark ++ name ≠ samplerMark ++ other := by
  intro heq
  have hlists := congrArg String.toList heq
  rw [String.toList_append, String.toList_append] at hlists
  exact absurd (List.append_inj_left hlists (by decide +kernel)) (by decide +kernel)

/-- The sampler that is found for a name is the half of the first combined sampler of that
name.  In front of it are textures, and halves of other names. -/
theorem Keeps.globalNamed? (h : Keeps meaning decls m)
    (hwords : ∀ d ∈ decls, d.isOpaque = true → IsWord d.name) {d : UniformDecl}
    (hd : d ∈ decls.filter (·.isOpaque)) :
    m.globalNamed? (samplerMark ++ String.ofList d.name) =
      some (2 * (decls.filter (·.isOpaque)).findIdx (fun e => e.name == d.name) + 1) := by
  have hexists : ∃ e ∈ decls.filter (·.isOpaque), (e.name == d.name) = true :=
    ⟨d, hd, beq_self_eq_true _⟩
  have hlt := List.findIdx_lt_length_of_exists hexists
  have hfound := List.findIdx_getElem (w := hlt)
  obtain ⟨g, hg, hname⟩ := Option.map_eq_some_iff.mp
    (h.getElem? hwords (List.getElem?_eq_getElem hlt)).2
  obtain ⟨hindex, rfl⟩ := List.getElem?_eq_some_iff.mp hg
  rw [ShaderModule.globalNamed?, ShaderModule.findGlobal?, List.findIdx?_eq_some_iff_getElem]
  refine ⟨hindex, ?_, fun i hi => ?_⟩
  · rw [(Prod.mk.inj hname).1, eq_of_beq hfound]
    exact beq_self_eq_true _
  · obtain ⟨a, ha⟩ : ∃ a, i = 2 * a ∨ i = 2 * a + 1 := ⟨i / 2, by omega⟩
    have halt : a < (decls.filter (·.isOpaque)).length := by omega
    obtain ⟨htexture, hsampler⟩ := h.getElem? hwords (List.getElem?_eq_getElem halt)
    have hi' : i < m.globals.length := by omega
    rw [beq_iff_eq]
    intro hsame
    rcases ha with rfl | rfl
    · rw [List.getElem?_eq_getElem hi', Option.map_some, Option.some.injEq, Prod.mk.injEq, hsame,
        Option.some.injEq] at htexture
      exact textureMark_append_ne _ _ htexture.1.symm
    · rw [List.getElem?_eq_getElem hi', Option.map_some, Option.some.injEq, Prod.mk.injEq, hsame,
        Option.some.injEq, String.append_right_inj, String.ofList_inj] at hsampler
      have hbefore : a < (decls.filter (·.isOpaque)).findIdx (fun e => e.name == d.name) := by
        omega
      have hnot := List.not_of_lt_findIdx hbefore
      rw [← hsampler.1, beq_self_eq_true] at hnot
      cases hnot

/-- The texture of a combined sampler, by its place among them. -/
def textureAt (decls : List UniformDecl) (k : Nat) (d : UniformDecl) : ResourceVar :=
  ⟨String.ofList d.name, 2 * k,
    some (2 * (decls.filter (·.isOpaque)).findIdx (fun e => e.name == d.name) + 1), true⟩

/-- The kind of a combined sampler. -/
def opaqueKind (d : UniformDecl) : VariableKind :=
  if d.type = "samplerCube".toList then .samplerCube else .sampler2D

/-- The texture of a combined sampler is an image, and is reported under the kind of the
sampler. -/
theorem Keeps.meaning_textureType (h : Keeps meaning decls m) (d : UniformDecl) :
    (meaning (textureType d).toList).isImage = true ∧
      VariableKind.ofType (meaning (textureType d).toList) = opaqueKind d := by
  unfold textureType opaqueKind
  split
  · rw [h.words "textureCube" (.image .cube false (.texels .float)) rfl]
    exact ⟨rfl, rfl⟩
  · rw [h.words "texture2D" (.image .d2 false (.texels .float)) rfl]
    exact ⟨rfl, rfl⟩

/-- A combined sampler is collected under its legacy name, with its sampler half. -/
theorem Keeps.mem_texturesOf (h : Keeps meaning decls m)
    (hwords : ∀ d ∈ decls, d.isOpaque = true → IsWord d.name) {k : Nat} {d : UniformDecl}
    (hd : (decls.filter (·.isOpaque))[k]? = some d) :
    textureAt decls k d ∈ StageInterface.texturesOf m ∧
      (m.globalType? (2 * k)).map VariableKind.ofType = some (opaqueKind d) := by
  obtain ⟨g, hg, heq⟩ := Option.map_eq_some_iff.mp (h.getElem? hwords hd).1
  obtain ⟨hname, htype⟩ := Prod.mk.inj heq
  obtain ⟨himage, hkind⟩ := h.meaning_textureType d
  rw [← htype] at himage hkind
  refine ⟨StageInterface.mem_texturesOf.mpr ⟨g, hg, ⟨h.handles g (List.mem_of_getElem? hg) himage,
    himage⟩, ?_⟩, ?_⟩
  · have hmark : StageInterface.afterMark? textureMark (g.name.getD "") =
        some (String.ofList d.name) :=
      StageInterface.afterMark?_eq_some_iff.mpr (by rw [hname, Option.getD_some])
    rw [StageInterface.textureOf, hmark]
    simp only [textureAt, h.globalNamed? hwords (List.mem_of_getElem? hd)]
  · rw [ShaderModule.globalType?, hg, Option.map_some, Option.map_some, hkind]

/-- A loose uniform without a suffix is a member of the block, as it is stored. -/
theorem KeepsBlock.exists_member {block : Nat} {members : List StructMember}
    (h : KeepsBlock meaning decls m block members) {d : UniformDecl}
    (hd : d ∈ decls.filter (!·.isOpaque)) (hwords : IsWord d.type ∧ IsWord d.name)
    (hsuffix : d.suffix = []) :
    ∃ offset, StructMember.mk (some (String.ofList (storedName d))) (meaning (storedType d))
      offset ∈ members := by
  obtain ⟨membersOf, rfl, hlines⟩ := h.lines
  have hdeclared := hlines d hd hsuffix
  rw [declarationsIn_memberLine hwords.1 hwords.2 hsuffix] at hdeclared
  obtain ⟨x, hmembers, hx⟩ := List.map_eq_singleton_iff.mp hdeclared
  obtain ⟨name, type, offset⟩ := x
  obtain ⟨rfl, rfl⟩ := Prod.mk.inj hx
  exact ⟨offset, List.mem_flatMap.mpr ⟨d, hd, by rw [hmembers]; exact List.mem_singleton_self _⟩⟩

end

end Modern

/-! ## Links -/

/-- The shader that a link is given for a stage. -/
def shaderFor (vertex fragment : Option CompiledShader) : Stage → Option CompiledShader
  | .vertex => vertex
  | .fragment => fragment

theorem ShaderModule.globalType?_of_unbound {m m' : ShaderModule} (h : m'.unbound = m.unbound)
    (k : Nat) : m'.globalType? k = m.globalType? k := by
  have htype : ∀ m : ShaderModule, m.globalType? k = m.unbound.globalType? k := by
    intro m
    rw [globalType?, globalType?, unbound, List.getElem?_map, Option.map_map]
    rfl
  rw [htype, h, ← htype]

section

variable {backend : Backend} {vertex fragment : Option CompiledShader} {pins : Pins}
variable {options : LinkOptions} {linked : LinkedProgram} {stage : Stage} {c : CompiledShader}

/-- A link reflects the textures and the block of each stage, as they are collected from its
module.  Their types are those of the module. -/
theorem exists_entries_of_link
    (hlink : (link backend vertex fragment pins options).result = .ok linked)
    (hc : shaderFor vertex fragment stage = some c) :
    ∃ (m : ShaderModule) (i : StageInterface) (index : Nat),
      (∀ k, m.globalType? k = c.shader.globalType? k) ∧
      i.textures = (StageInterface.texturesOf c.shader).map (fun r =>
        { r with active := StageInterface.resourceActive c.shader r }) ∧
      i.uniformBlocks = (StageInterface.blocksOf c.shader).map (fun r =>
        { r with active := c.shader.isUsed r.global }) ∧
      ∀ u ∈ ProgramReflection.textureEntries stage m i ++
          ProgramReflection.memberEntries stage m i index, u ∈ linked.reflection.uniforms := by
  obtain ⟨v, f, p, hv, hf, hplace, hemit⟩ := link_eq_ok_iff.mp hlink
  obtain ⟨-, -, -, -, -, -, rfl⟩ := emitProgram_eq_ok_iff.mp hemit
  obtain ⟨cv, iv, rfl, hiv, rfl⟩ := LinkStage.ofCompiled?_eq_some_iff.mp hv
  obtain ⟨cf, jf, rfl, hjf, rfl⟩ := LinkStage.ofCompiled?_eq_some_iff.mp hf
  obtain ⟨-, ev, -, hiv⟩ := CompiledShader.interface?_eq_some_iff.mp hiv
  obtain ⟨-, ef, -, hjf⟩ := CompiledShader.interface?_eq_some_iff.mp hjf
  obtain ⟨inputs, pool, outputs, fragmentInputs, modules, -, -, -, hmodules, rfl⟩ :=
    placeProgram_eq_ok_iff.mp hplace
  let stages := stagesOf ⟨.vertex, cv.shader, { iv with inputs, outputs }⟩
    ⟨.fragment, cf.shader, { jf with inputs := fragmentInputs }⟩
  have hplaced : _ ∧ modules = (modulesOf stages).bindFrom 0 (resourcesOf stages) :=
    placeBindings_eq_ok_iff.mp hmodules
  have htypes : ∀ stage k, (modules.get stage).globalType? k =
      (stages stage).shader.globalType? k := by
    intro stage
    refine ShaderModule.globalType?_of_unbound ?_
    rw [hplaced.2, get_bindFrom_resourcesOf, ShaderModule.unbound_bindAll]
  let first := ProgramReflection.addStage {} .vertex
    (LinkStage.patched ⟨.vertex, modules.vertex, { iv with inputs, outputs }⟩)
    { iv with inputs, outputs }
  simp only [PlacedProgram.reflection, ProgramReflection.uniforms_addStage, List.nil_append]
  cases stage with
  | vertex =>
      obtain rfl := Option.some.inj hc
      refine ⟨_, { iv with inputs, outputs }, 0, htypes .vertex, by rw [hiv]; rfl,
        by rw [hiv]; rfl, fun u hu => ?_⟩
      exact List.mem_append_left _ (List.mem_append_left _ hu)
  | fragment =>
      obtain rfl := Option.some.inj hc
      refine ⟨_, { jf with inputs := fragmentInputs }, first.uniformBlocks.length,
        htypes .fragment, by rw [hjf]; rfl, by rw [hjf]; rfl, fun u hu => ?_⟩
      rw [List.append_assoc]
      exact List.mem_append_right _ hu

/-- The first block that is used is reflected with all members. -/
theorem memberEntries_eq {m : ShaderModule} {i : StageInterface} {index block : Nat}
    (htypes : ∀ k, m.globalType? k = c.shader.globalType? k)
    (hblocks : i.uniformBlocks = (StageInterface.blocksOf c.shader).map fun r =>
      { r with active := c.shader.isUsed r.global })
    (hfirst : ((StageInterface.blocksOf c.shader).find? fun r => c.shader.isUsed r.global).map
      (·.global) = some block)
    {name : Option String} {members : List StructMember} {span : Nat}
    (htype : c.shader.globalType? block = some (.struct name members span)) :
    ProgramReflection.memberEntries stage m i index =
      (FlatMember.ofMembers "" 0 members).map fun f => f.toUniform stage index := by
  obtain ⟨r, hr, rfl⟩ := Option.map_eq_some_iff.mp hfirst
  have hfind : i.uniformBlocks.find? (·.active) =
      some { r with active := c.shader.isUsed r.global } := by
    rw [hblocks, List.find?_map]
    exact Option.map_eq_some_iff.mpr ⟨r, hr, rfl⟩
  simp [ProgramReflection.memberEntries, ProgramReflection.reflectedBlock?, hfind, htypes, htype]

end

/-! ## Legacy names -/

/-- A type has no members and no elements. -/
def ShaderType.isPlain : ShaderType → Bool
  | .struct .. | .array .. => false
  | _ => true

theorem FlatMember.ofType_of_isPlain {type : ShaderType} (h : type.isPlain = true) (name : String)
    (offset : Nat) : ofType name offset type = [⟨name, type, offset, 1, 0⟩] := by
  cases type with
  | struct => cases h
  | array => cases h
  | _ => rfl

namespace Glsl

variable {cs : List Char} {type : ShaderType}

theorem isPlain_of_vectorWord? (h : vectorWord? cs = some type) : type.isPlain = true := by
  simp only [vectorWord?, bind, Option.bind_eq_some_iff] at h
  obtain ⟨parts, -, scalar, -, h⟩ := h
  split at h
  · simp only [Option.bind_eq_some_iff] at h
    obtain ⟨size, -, h⟩ := h
    obtain rfl := Option.some.inj h
    rfl
  · cases h

theorem isPlain_of_matrixWord? (h : matrixWord? cs = some type) : type.isPlain = true := by
  simp only [matrixWord?, bind, Option.bind_eq_some_iff] at h
  obtain ⟨parts, -, scalar, -, size, -, h⟩ := h
  obtain rfl := Option.some.inj h
  rfl

theorem isPlain_of_textureWord? (h : textureWord? cs = some type) : type.isPlain = true := by
  simp only [textureWord?, bind, Option.bind_eq_some_iff] at h
  obtain ⟨parts, -, kind, -, h⟩ := h
  split at h
  · obtain rfl := Option.some.inj h
    rfl
  · obtain rfl := Option.some.inj h
    rfl
  · simp only [Option.bind_eq_some_iff] at h
    obtain ⟨shape, -, h⟩ := h
    obtain rfl := Option.some.inj h
    rfl

theorem isPlain_of_imageWord? (h : imageWord? cs = some type) : type.isPlain = true := by
  simp only [imageWord?, bind, Option.bind_eq_some_iff] at h
  obtain ⟨parts, -, kind, -, shape, -, h⟩ := h
  split at h
  · cases h
  · obtain rfl := Option.some.inj h
    rfl

/-- Types that need no declaration are plain. -/
theorem isPlain_of_typeOfWord? {word : String} (h : typeOfWord? word = some type) :
    type.isPlain = true := by
  unfold typeOfWord? at h
  split at h
  case h_8 =>
    simp only [Option.orElse_eq_orElse, Option.orElse_eq_or, Option.or_eq_some_iff] at h
    rcases h with h | ⟨-, h | ⟨-, h | ⟨-, h⟩⟩⟩
    · exact isPlain_of_vectorWord? h
    · exact isPlain_of_matrixWord? h
    · exact isPlain_of_textureWord? h
    · exact isPlain_of_imageWord? h
  all_goals
    obtain rfl := Option.some.inj h
    rfl

end Glsl

namespace Modern

/-- What a reflection should tell of an entry of a loose uniform: the legacy name and kind of
a small matrix, and else the name and the kind of the entry. -/
def Undone (d : UniformDecl) (f : FlatMember) (u : UniformInfo) : Prop :=
  if d.isMat2 then u.name = String.ofList d.name ∧ u.kind = .floatMat2
  else u.name = f.name ∧ u.kind = .ofType f.type

/-- It does so for a small matrix, and for any other uniform whose name does not start with
the mark of one.  Such a name would lose the mark, which is not empty. -/
theorem undone_iff {meaning : List Char → ShaderType} {d : UniformDecl}
    (hwords : ∀ word type, Glsl.typeOfWord? word = some type → meaning word.toList = type)
    (hname : IsWord d.name) {offset : Nat} {f : FlatMember}
    (hf : f ∈ FlatMember.ofType (String.ofList (storedName d)) offset (meaning (storedType d)))
    (stage : Stage) (index : Nat) :
    Undone d f (f.toUniform stage index) ↔ d.isMat2 = true ∨ ¬ mat2Mark.toList <+: d.name := by
  unfold Undone
  by_cases hmat2 : d.isMat2 = true
  · have htype : d.type = "mat2".toList := beq_iff_eq.mp hmat2
    rw [storedType, storedName, if_pos htype, if_pos htype,
      hwords "mat2x4" (.matrix .two .four .f32) rfl, FlatMember.ofType_of_isPlain rfl,
      List.mem_singleton] at hf
    have hmark : f.name = mat2Mark ++ String.ofList d.name := by
      rw [hf, String.ofList_append, String.ofList_toList]
      rfl
    rw [if_pos hmat2]
    exact iff_of_true (FlatMember.toUniform_of_mark stage index hmark) (.inl hmat2)
  · have htype : ¬ d.type = "mat2".toList := fun heq => hmat2 (beq_iff_eq.mpr heq)
    rw [storedName, if_neg htype] at hf
    have hne : String.ofList d.name ≠ "" := by
      intro hempty
      rw [String.ofList_eq_empty_iff] at hempty
      exact hname.1 hempty
    have hunder := FlatMember.under_ofType hne hf
    have hmark := FlatMember.mark_prefix_iff hunder
    rw [String.toList_ofList] at hmark
    rw [if_neg hmat2]
    by_cases hmarked : mat2Mark.toList <+: d.name
    · refine iff_of_false ?_ (by simp [hmat2, hmarked])
      obtain ⟨rest, hrest⟩ := hmark.mpr hmarked
      have hentry : f.name = mat2Mark ++ String.ofList rest := by
        rw [← String.toList_inj, String.toList_append, String.toList_ofList, hrest]
      rintro ⟨hsame, -⟩
      rw [(FlatMember.toUniform_of_mark stage index hentry).1, hentry] at hsame
      have hlength := congrArg (fun s => s.toList.length) hsame
      rw [String.toList_append, List.length_append] at hlength
      have hpos : 0 < mat2Mark.toList.length := by decide +kernel
      omega
    · exact iff_of_true (FlatMember.toUniform_of_not_mark stage index (mt hmark.mp hmarked))
        (.inr hmarked)

theorem isWord_of_mem_rewritten {source : List Char} {d : UniformDecl}
    (hd : d ∈ rewritten source) : IsWord d.type ∧ IsWord d.name :=
  isWord_of_parseDecl? (parseDecl?_of_mem_decls (List.mem_filter.mp hd).1)

/-- The sampler of a combined sampler is its own half if no earlier one has its name. -/
theorem sampler_textureAt_iff {decls : List UniformDecl} {k : Nat} {d : UniformDecl}
    (hd : (decls.filter (·.isOpaque))[k]? = some d) :
    (textureAt decls k d).sampler = some (2 * k + 1) ↔
      ∀ e ∈ (decls.filter (·.isOpaque)).take k, e.name ≠ d.name := by
  obtain ⟨hlt, hget⟩ := List.getElem?_eq_some_iff.mp hd
  have hindex : (textureAt decls k d).sampler = some (2 * k + 1) ↔
      (decls.filter (·.isOpaque)).findIdx (fun e => e.name == d.name) = k := by
    simp only [textureAt, Option.some.injEq]
    omega
  rw [hindex, List.findIdx_eq hlt, hget]
  simp only [beq_self_eq_true, true_and, beq_eq_false_iff_ne]
  constructor
  · intro h e he
    obtain ⟨j, hj, rfl⟩ := List.mem_iff_getElem.mp he
    rw [List.length_take] at hj
    rw [List.getElem_take]
    exact h j (by omega)
  · intro h j hj
    refine h _ (List.mem_iff_getElem.mpr ⟨j, ?_, List.getElem_take⟩)
    rw [List.length_take]
    omega

/-- A reflection tells a combined sampler under its legacy name, with the sampler half of the
first one of that name.  A loose uniform is a member of the block as it is stored, and a
reflection undoes that exactly for small matrices and for names that do not start with the
mark of one. -/
theorem legacy_name_of_link (backend : Backend) (vertex fragment : Option CompiledShader)
    (pins : Pins) (options : LinkOptions) (linked : LinkedProgram)
    (hlink : (link backend vertex fragment pins options).result = .ok linked) (stage : Stage)
    (c : CompiledShader) (hc : shaderFor vertex fragment stage = some c) (source : List Char)
    (meaning : List Char → ShaderType) (hkeeps : Keeps meaning (rewritten source) c.shader) :
    (∀ k d, ((rewritten source).filter (·.isOpaque))[k]? = some d →
      let r := textureAt (rewritten source) k d
      declarationsIn (pairLines d) =
          [((textureType d).toList, textureMark.toList ++ d.name),
            ("sampler".toList, samplerMark.toList ++ d.name)] ∧
        r ∈ StageInterface.texturesOf c.shader ∧ r.name = String.ofList d.name ∧
        (r.sampler = some (2 * k + 1) ↔
          ∀ e ∈ ((rewritten source).filter (·.isOpaque)).take k, e.name ≠ d.name) ∧
        (StageInterface.resourceActive c.shader r = true →
          ∃ u ∈ linked.reflection.uniforms, u.stage = stage ∧ u.blockIndex = none ∧
            u.name = String.ofList d.name ∧ u.kind = opaqueKind d)) ∧
    ∀ block members, KeepsBlock meaning (rewritten source) c.shader block members →
      ((StageInterface.blocksOf c.shader).find? fun r => c.shader.isUsed r.global).map
        (·.global) = some block →
      ∀ d ∈ rewritten source, d.isOpaque = false → d.suffix = [] →
        declarationsIn (memberLine d) = [(storedType d, storedName d)] ∧
        ∃ offset index,
          ((Glsl.typeOfWord? (String.ofList (storedType d))).isSome = true →
            FlatMember.ofType (String.ofList (storedName d)) offset (meaning (storedType d)) =
              [⟨String.ofList (storedName d), meaning (storedType d), offset, 1, 0⟩]) ∧
          ∀ f ∈ FlatMember.ofType (String.ofList (storedName d)) offset (meaning (storedType d)),
            FlatMember.Under (String.ofList (storedName d)) f.name ∧
            f.toUniform stage index ∈ linked.reflection.uniforms ∧
            (Undone d f (f.toUniform stage index) ↔
              d.isMat2 = true ∨ ¬ mat2Mark.toList <+: d.name) := by
  obtain ⟨m, i, index, htypes, htextures, hblocks, hentries⟩ := exists_entries_of_link hlink hc
  constructor
  · intro k d hd r
    have hwords : ∀ d ∈ rewritten source, d.isOpaque = true → IsWord d.name :=
      fun d hd _ => (isWord_of_mem_rewritten hd).2
    have hmem := (List.mem_filter.mp (List.mem_of_getElem? hd)).1
    obtain ⟨hr, hkind⟩ := hkeeps.mem_texturesOf hwords hd
    refine ⟨declarationsIn_pairLines (isWord_of_mem_rewritten hmem).2, hr, rfl,
      sampler_textureAt_iff hd, fun hactive => ?_⟩
    have hentry : ProgramReflection.textureUniform stage m { r with active := true } ∈
        ProgramReflection.textureEntries stage m i := by
      refine List.mem_map_of_mem (List.mem_filter.mpr ⟨?_, rfl⟩)
      rw [htextures]
      exact List.mem_map.mpr ⟨r, hr, by rw [hactive]⟩
    refine ⟨_, hentries _ (List.mem_append_left _ hentry), rfl, rfl, rfl, ?_⟩
    have htype := htypes (2 * k)
    simp only [ProgramReflection.textureUniform]
    rw [show r.global = 2 * k from rfl, htype, hkind, Option.getD_some]
  · intro block members hblock hfirst d hd hloose hsuffix
    have hwords := isWord_of_mem_rewritten hd
    obtain ⟨name, span, htype⟩ := hblock.type
    have hmem : d ∈ (rewritten source).filter (!·.isOpaque) :=
      List.mem_filter.mpr ⟨hd, by rw [hloose]; rfl⟩
    obtain ⟨offset, hmember⟩ := hblock.exists_member hmem hwords hsuffix
    refine ⟨declarationsIn_memberLine hwords.1 hwords.2 hsuffix, offset, index, fun hword => ?_,
      fun f hf => ?_⟩
    · obtain ⟨type, htype⟩ := Option.isSome_iff_exists.mp hword
      have hmeaning := hkeeps.words _ _ htype
      rw [String.toList_ofList] at hmeaning
      rw [hmeaning, FlatMember.ofType_of_isPlain (Glsl.isPlain_of_typeOfWord? htype)]
    · have hne : String.ofList (storedName d) ≠ "" := by
        rw [ne_eq, String.ofList_eq_empty_iff]
        exact (isWord_storedName hwords.2).1
      refine ⟨FlatMember.under_ofType hne hf, ?_, undone_iff hkeeps.words hwords.2 hf stage index⟩
      have hflat : f ∈ FlatMember.ofMembers "" 0 members :=
        FlatMember.mem_ofMembers hmember (by
          rwa [FlatMember.memberName, if_pos rfl, Option.getD_some, Nat.zero_add])
      refine hentries _ (List.mem_append_right _ ?_)
      rw [memberEntries_eq htypes hblocks hfirst htype]
      exact List.mem_map_of_mem hflat

/-- A texture, a small matrix and a vector that is named like a stored matrix. -/
def threeUniforms : List Char :=
  ("uniform sampler2D map;\nuniform mat2 turn;\nuniform vec4 compat_mat2_x;\n" ++
    "void main() \x7b\x7d\n").toList

/-- The type of a word, if it needs no declaration. -/
def wordMeaning (word : List Char) : ShaderType :=
  (Glsl.typeOfWord? (String.ofList word)).getD (.scalar .f32)

theorem asDeclared_wordMeaning {word : String} {type : ShaderType}
    (h : Glsl.typeOfWord? word = some type) (name : String) :
    asDeclared wordMeaning (word.toList, name.toList) = (some name, type) := by
  rw [asDeclared, wordMeaning, String.ofList_toList, String.ofList_toList, h, Option.getD_some]

/-- Three uniforms of different kinds are found under their legacy names. -/
theorem legacy_name_of_link_of_threeUniforms :
    let members : List StructMember := [.mk (some "compat_mat2_turn") (.matrix .two .four .f32) 0,
      .mk (some "compat_mat2_x") (.vector .four .f32) 32]
    let shader : ShaderModule := {
      globals := [
        ⟨some "compat_texture_map", .image .d2 false (.texels .float), .handle, none⟩,
        ⟨some "compat_sampler_map", .sampler false, .handle, none⟩,
        ⟨some "compat_FragmentUniforms", .struct none members 48, .uniform, none⟩]
      functions := [⟨"main", [0, 2], [], []⟩]
      entry := some { stage := .fragment, arguments := [], result := .none
                      body := ⟨"", [], [], [0]⟩ } }
    let vertex : ShaderModule := {
      globals := [], functions := []
      entry := some { stage := .vertex, arguments := [], result := .none
                      body := ⟨"", [], [], []⟩ } }
    let backend : Backend := ⟨fun _ => .ok (), fun _ _ => .ok [], fun _ => .error ""⟩
    ∃ linked, (link backend (some ⟨.vertex, vertex⟩) (some ⟨.fragment, shader⟩) [] {}).result =
        .ok linked ∧
      Keeps wordMeaning (rewritten threeUniforms) shader ∧
      KeepsBlock wordMeaning (rewritten threeUniforms) shader 2 members ∧
      (∃ u ∈ linked.reflection.uniforms, u.name = "map" ∧ u.kind = .sampler2D) ∧
      (∃ u ∈ linked.reflection.uniforms, u.name = "turn" ∧ u.kind = .floatMat2) := by
  intro members shader vertex backend
  let map : UniformDecl := ⟨0, 22, none, "sampler2D".toList, "map".toList, []⟩
  let turn : UniformDecl := ⟨23, 18, none, "mat2".toList, "turn".toList, []⟩
  let marked : UniformDecl := ⟨42, 27, none, "vec4".toList, "compat_mat2_x".toList, []⟩
  have hdecls : rewritten threeUniforms = [map, turn, marked] := by decide +kernel
  have hsampled : (rewritten threeUniforms).filter (·.isOpaque) = [map] := by
    rw [hdecls]
    decide +kernel
  have hloose : (rewritten threeUniforms).filter (!·.isOpaque) = [turn, marked] := by
    rw [hdecls]
    decide +kernel
  have hkeeps : Keeps wordMeaning (rewritten threeUniforms) shader := by
    refine ⟨fun word type hword => ?_, ⟨[(some "compat_FragmentUniforms", .struct none members 48)],
      ?_⟩, ?_⟩
    · rw [wordMeaning, String.ofList_toList, hword, Option.getD_some]
    · have hdeclared : declarationsIn (pairLines map) =
          [("texture2D".toList, "compat_texture_map".toList),
            ("sampler".toList, "compat_sampler_map".toList)] := by decide +kernel
      have htexture : asDeclared wordMeaning ("texture2D".toList, "compat_texture_map".toList) =
          (some "compat_texture_map", .image .d2 false (.texels .float)) :=
        asDeclared_wordMeaning rfl _
      have hsampler : asDeclared wordMeaning ("sampler".toList, "compat_sampler_map".toList) =
          (some "compat_sampler_map", .sampler false) := asDeclared_wordMeaning rfl _
      rw [hsampled, List.flatMap_cons, List.flatMap_nil, List.append_nil, hdeclared]
      simp only [shader, List.map_cons, List.map_nil, htexture, hsampler, List.cons_append,
        List.nil_append]
    · simp [shader, ShaderType.isImage]
  have hblock : KeepsBlock wordMeaning (rewritten threeUniforms) shader 2 members := by
    refine ⟨⟨none, 48, rfl⟩, fun d => if d = turn then members.take 1 else members.drop 1, ?_, ?_⟩
    · rw [hloose]
      rfl
    · have hturn : declarationsIn (memberLine turn) =
          [("mat2x4".toList, "compat_mat2_turn".toList)] := by decide +kernel
      have hmarked : declarationsIn (memberLine marked) =
          [("vec4".toList, "compat_mat2_x".toList)] := by decide +kernel
      rw [hloose]
      intro d hd _
      rcases List.mem_cons.mp hd with rfl | hd
      · rw [hturn]
        exact congrArg (fun x => [x]) (asDeclared_wordMeaning rfl _).symm
      · obtain rfl := List.mem_singleton.mp hd
        rw [hmarked]
        exact congrArg (fun x => [x]) (asDeclared_wordMeaning rfl _).symm
  obtain ⟨linked, hlinked⟩ : ∃ linked,
      (link backend (some ⟨.vertex, vertex⟩) (some ⟨.fragment, shader⟩) [] {}).result =
        .ok linked := ⟨_, rfl⟩
  obtain ⟨htextures, hmembers⟩ := legacy_name_of_link backend _ _ [] {} linked hlinked .fragment
    ⟨.fragment, shader⟩ rfl threeUniforms wordMeaning hkeeps
  refine ⟨linked, hlinked, hkeeps, hblock, ?_, ?_⟩
  · obtain ⟨-, -, -, -, hactive⟩ := htextures 0 map (by rw [hsampled]; rfl)
    obtain ⟨u, hu, -, -, hname, hkind⟩ := hactive (by rw [hdecls]; decide +kernel)
    exact ⟨u, hu, hname, hkind⟩
  · obtain ⟨-, offset, index, hplain, hentries⟩ :=
      hmembers 2 members hblock (by decide +kernel) turn (by rw [hdecls]; simp)
        (by decide +kernel) rfl
    obtain ⟨-, hu, hundone⟩ := hentries _ (hplain (by decide +kernel) ▸ List.mem_singleton_self _)
    exact ⟨_, hu, hundone.mpr (.inl (by decide +kernel))⟩

/-- A vector that is named like a stored matrix. -/
def markedVector : List Char :=
  "uniform vec4 compat_mat2_x;\nvoid main() \x7b gl_Position = compat_mat2_x; \x7d\n".toList

/-- A fragment shader without uniforms. -/
def plainFragment : List Char := "void main() \x7b gl_FragColor = vec4(1.0); \x7d\n".toList

/-- The vector is reflected under another name and as a small matrix. -/
theorem not_undone_of_markedVector :
    let vertex := (Shader.compile .standard {} .vertex markedVector).shader.compiled
    let fragment := (Shader.compile .standard {} .fragment plainFragment).shader.compiled
    let linked := (link .standard vertex fragment [] {}).result.toOption
    (rewritten markedVector).map (fun d => (d.type, d.name, d.suffix)) =
        [("vec4".toList, "compat_mat2_x".toList, [])] ∧
      (linked.map fun p => p.reflection.uniforms.map fun u => (u.name, u.kind)) =
        some [("x", .floatMat2)] := by
  decide +kernel

end Modern

end LegacyShader
