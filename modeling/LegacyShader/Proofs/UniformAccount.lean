import LegacyShader.Proofs.DeclarationExtent
import LegacyShader.Proofs.DeclarationReadings
import LegacyShader.Proofs.OutputArray

/-!
# What becomes of uniforms

Every `uniform` of a preprocessed text is found as a declaration or as an unrecognized use.
A declaration becomes a member of the block, or a texture and a sampler with a macro in the
preamble, or it is kept and reported (`Fate`).  An unrecognized use is kept and reported too.

`CarriedOver` says where each of them stands in the output, word by word: the lines of the
preamble (`preambleLines`), those of the block (`blockLines` of each `UniformDecl.member`) and
the body around it.  `Reported` says that nothing else is reported but the uses of the output
array.  `uniforms_accounted` is both for every source that can be preprocessed.
-/

namespace LegacyShader.Modern

open LegacyShader.Preprocess (Token)

/-! ## Fates -/

/-- What becomes of a declaration. -/
inductive Fate where
  /-- It is a member of the block. -/
  | member
  /-- It is a texture and a sampler. -/
  | pair
  /-- It is left in the text and reported. -/
  | kept
  deriving DecidableEq

/-- The fate of a declaration. -/
def UniformDecl.fate (d : UniformDecl) : Fate :=
  if d.isUnsupportedArray then .kept else if d.isOpaque then .pair else .member

/-- The declarations of a text with a fate. -/
def declsOf (text : List Char) (fate : Fate) : List UniformDecl :=
  (scanUniforms text).decls.filter (·.fate = fate)

/-- The declarations of a text that are taken out of it. -/
def takenOut (text : List Char) : List UniformDecl :=
  (scanUniforms text).decls.filter (·.fate ≠ .kept)

namespace UniformDecl

/-- The type of a declaration is one of the two for textures. -/
def IsTexture (d : UniformDecl) : Prop :=
  d.type = "sampler2D".toList ∨ d.type = "samplerCube".toList

variable {d : UniformDecl}

theorem isOpaque_iff : d.isOpaque = true ↔ d.IsTexture := by
  simp [isOpaque, IsTexture]

theorem isMat2_iff : d.isMat2 = true ↔ d.type = "mat2".toList := beq_iff_eq

/-- A declaration becomes a member if it is no texture and no array of small matrices. -/
theorem fate_eq_member_iff :
    d.fate = .member ↔ ¬ d.IsTexture ∧ ¬ (d.type = "mat2".toList ∧ d.suffix ≠ []) := by
  rw [← isOpaque_iff, ← isMat2_iff]
  unfold fate isUnsupportedArray
  cases d.isOpaque <;> cases d.isMat2 <;> cases d.suffix <;> simp

/-- A declaration becomes a pair if it is a single texture. -/
theorem fate_eq_pair_iff : d.fate = .pair ↔ d.IsTexture ∧ d.suffix = [] := by
  rw [← isOpaque_iff]
  unfold fate isUnsupportedArray
  cases d.isOpaque <;> cases d.isMat2 <;> cases d.suffix <;> simp

/-- A declaration is kept if it is an array of textures or of small matrices. -/
theorem fate_eq_kept_iff :
    d.fate = .kept ↔ (d.IsTexture ∨ d.type = "mat2".toList) ∧ d.suffix ≠ [] := by
  rw [← isOpaque_iff, ← isMat2_iff]
  unfold fate isUnsupportedArray
  cases d.isOpaque <;> cases d.isMat2 <;> cases d.suffix <;> simp

/-- What is written for a member of the block is its member text. -/
theorem memberText_of_fate (h : d.fate = .member) : memberText d = d.member := by
  refine memberText_eq_member fun hmat2 => ?_
  obtain ⟨-, hsingle⟩ := fate_eq_member_iff.mp h
  by_contra hsuffix
  exact hsingle ⟨isMat2_iff.mp hmat2, hsuffix⟩

end UniformDecl

section

variable {text : List Char} {d : UniformDecl}

theorem mem_declsOf_iff {fate : Fate} :
    d ∈ declsOf text fate ↔ d ∈ (scanUniforms text).decls ∧ d.fate = fate := by
  simp [declsOf]

/-- The declarations that are rewritten are those that are taken out. -/
theorem rewritten_eq_takenOut (text : List Char) : rewritten text = takenOut text := by
  refine List.filter_congr fun d _ => ?_
  unfold UniformDecl.fate
  cases d.isUnsupportedArray <;> cases d.isOpaque <;> rfl

theorem mem_takenOut_iff :
    d ∈ takenOut text ↔ d ∈ (scanUniforms text).decls ∧ d.fate ≠ .kept := by
  simp [takenOut]

theorem filter_isUnsupportedArray_decls (text : List Char) :
    (scanUniforms text).decls.filter (·.isUnsupportedArray) = declsOf text .kept := by
  refine List.filter_congr fun d _ => ?_
  unfold UniformDecl.fate
  cases d.isUnsupportedArray <;> cases d.isOpaque <;> rfl

theorem filter_isOpaque_takenOut (text : List Char) :
    (takenOut text).filter (·.isOpaque) = declsOf text .pair := by
  rw [takenOut, List.filter_filter]
  refine List.filter_congr fun d _ => ?_
  unfold UniformDecl.fate
  cases d.isUnsupportedArray <;> cases d.isOpaque <;> rfl

theorem filter_loose_takenOut (text : List Char) :
    (takenOut text).filter (!·.isOpaque) = declsOf text .member := by
  rw [takenOut, List.filter_filter]
  refine List.filter_congr fun d _ => ?_
  unfold UniformDecl.fate
  cases d.isUnsupportedArray <;> cases d.isOpaque <;> rfl

/-- Only textures are taken out exactly if there are no members. -/
theorem all_isOpaque_takenOut (text : List Char) :
    (takenOut text).all (·.isOpaque) = (declsOf text .member).isEmpty := by
  rw [← filter_loose_takenOut, Bool.eq_iff_iff, List.isEmpty_iff, List.filter_eq_nil_iff]
  simp

end

/-! ## The preamble -/

/-- The lines that declare a texture and its sampler. -/
def pairDeclarations (d : UniformDecl) : List (List Char) :=
  [(if d.type = "samplerCube".toList then
      "layout(set = 0, binding = 0) uniform textureCube compat_texture_".toList
    else "layout(set = 0, binding = 0) uniform texture2D compat_texture_".toList) ++
      (d.name ++ [';']),
    "layout(set = 1, binding = 0) uniform sampler compat_sampler_".toList ++ (d.name ++ [';'])]

/-- The macro that joins a texture and its sampler under the legacy name. -/
def pairDefinition (d : UniformDecl) : List Char :=
  "#define ".toList ++ (d.name ++ ' ' :: (d.type ++ ("(compat_texture_".toList ++
    (d.name ++ (", compat_sampler_".toList ++ (d.name ++ [')']))))))

/-- The macro that reads a stored matrix under the legacy name. -/
def matrixDefinition (d : UniformDecl) : List Char :=
  "#define ".toList ++ (d.name ++ (" mat2(compat_mat2_".toList ++ (d.name ++ [')'])))

/-- The macros that do not depend on uniforms, and the color output of a fragment shader. -/
def stageDefinitions (stage : Stage) : List (List Char) :=
  ["#define texture2D texture".toList, "#define texture2DLod textureLod".toList,
    "#define texture2DProj textureProj".toList, "#define textureCube texture".toList,
    "#define textureCubeLod textureLod".toList] ++
  match stage with
  | .vertex =>
      ["#define attribute layout(location = 0) in".toList,
        "#define varying layout(location = 0) out".toList]
  | .fragment =>
      ["#define varying layout(location = 0) in".toList,
        "#define gl_FragColor compat_FragColor".toList,
        "layout(location = 0) out vec4 compat_FragColor;".toList]

/-- The lines of a preamble for pairs of textures and samplers and for members of the block. -/
def preambleLines (stage : Stage) (pairs members : List UniformDecl) : List (List Char) :=
  "#version 450".toList :: (pairs.flatMap pairDeclarations ++ (stageDefinitions stage ++
    (pairs.map pairDefinition ++
      (members.filter (·.type = "mat2".toList)).map matrixDefinition)))

section

variable {d : UniformDecl}

/-- The lines written for a texture and its sampler are these two. -/
theorem pairLines_eq (d : UniformDecl) :
    pairLines d = (pairDeclarations d).flatMap (· ++ ['\n']) := by
  have hcube : ("layout(set = 0, binding = 0) uniform " ++ "textureCube" ++ " " ++
      textureMark).toList =
        "layout(set = 0, binding = 0) uniform textureCube compat_texture_".toList := rfl
  have hflat : ("layout(set = 0, binding = 0) uniform " ++ "texture2D" ++ " " ++
      textureMark).toList =
        "layout(set = 0, binding = 0) uniform texture2D compat_texture_".toList := rfl
  have hsampler : ("layout(set = 1, binding = 0) uniform sampler " ++ samplerMark).toList =
      "layout(set = 1, binding = 0) uniform sampler compat_sampler_".toList := rfl
  unfold pairLines pairDeclarations textureType
  rw [hsampler]
  split
  · rw [hcube]
    simp only [List.flatMap_cons, List.flatMap_nil, List.append_nil, List.append_assoc]
    rfl
  · rw [hflat]
    simp only [List.flatMap_cons, List.flatMap_nil, List.append_nil, List.append_assoc]
    rfl

theorem pairMacro_eq (d : UniformDecl) : pairMacro d = pairDefinition d ++ ['\n'] := by
  have htexture : "(compat_texture_".toList = '(' :: textureMark.toList := by decide +kernel
  have hsampler : ", compat_sampler_".toList = ", ".toList ++ samplerMark.toList := by
    decide +kernel
  unfold pairMacro pairDefinition defineLine
  rw [htexture, hsampler]
  simp only [List.append_assoc, List.cons_append]

theorem mat2Macro_eq (d : UniformDecl) : mat2Macro d = matrixDefinition d ++ ['\n'] := by
  have hmatrix : " mat2(compat_mat2_".toList = ' ' :: ("mat2(".toList ++ mat2Mark.toList) := by
    decide +kernel
  unfold mat2Macro matrixDefinition defineLine
  rw [hmatrix]
  simp only [List.append_assoc, List.cons_append]

theorem stageLines_eq (stage : Stage) :
    samplingMacros.flatMap (fun x => defineLine x.1.toList x.2.toList) ++ stageLines stage =
      (stageDefinitions stage).flatMap (· ++ ['\n']) := by
  cases stage <;> decide +kernel

theorem preamble_eq (stage : Stage) (decls : List UniformDecl) :
    preamble stage decls =
      (preambleLines stage (decls.filter (·.isOpaque)) (decls.filter (!·.isOpaque))).flatMap
        (· ++ ['\n']) := by
  have hversion : ("#version " ++ toString targetVersion ++ "\n").toList =
      "#version 450".toList ++ ['\n'] := rfl
  have hmat2 : (fun d : UniformDecl => decide (d.type = "mat2".toList)) = (·.isMat2) :=
    funext fun d => Bool.eq_iff_iff.mpr (decide_eq_true_iff.trans UniformDecl.isMat2_iff.symm)
  unfold preamble preambleLines
  rw [hmat2]
  rw [hversion, List.flatMap_cons, List.flatMap_append, List.flatMap_append, List.flatMap_append,
    ← stageLines_eq, List.flatMap_assoc, List.flatMap_map, List.flatMap_map,
    funext pairLines_eq, funext pairMacro_eq, funext mat2Macro_eq]
  simp only [List.append_assoc]

/-- The parts of a declaration are on one line. -/
structure OneLine (d : UniformDecl) : Prop where
  /-- The type has no line break. -/
  type : '\n' ∉ d.type
  /-- The name has none. -/
  name : '\n' ∉ d.name
  /-- The brackets have none. -/
  suffix : '\n' ∉ d.suffix

/-- A declaration that is found has no line break in its parts: two of them are words, and
the brackets end on their line. -/
theorem oneLine_of_mem_decls {text : List Char} (hd : d ∈ (scanUniforms text).decls) :
    OneLine d := by
  have hkey := (startsKeyword_iff.mp (keywordAt_of_mem_decls hd)).1
  obtain ⟨r, rest, -, heq⟩ :=
    (parseDecl?_eq_some_iff_reading hkey).mp (parseDecl?_of_mem_decls hd)
  rw [heq]
  refine ⟨r.words.type.property.not_mem rfl, r.words.name.property.not_mem rfl, ?_⟩
  have hsuffix : '\n' ∉ r.tail.suffix := by
    unfold DeclTail.suffix
    split
    · simp
    · next b _ => simp [b.oneLine]
  exact hsuffix

theorem newline_not_mem_memberText (h : OneLine d) : '\n' ∉ memberText d := by
  unfold memberText
  split
  · exact List.not_mem_append (by decide +kernel) h.name
  · simp [h.type, h.name, h.suffix]

theorem newline_not_mem_pairDeclarations (h : OneLine d) :
    ∀ line ∈ pairDeclarations d, '\n' ∉ line := by
  have hend : '\n' ∉ d.name ++ [';'] := by simp [h.name]
  have htexture : '\n' ∉ (if d.type = "samplerCube".toList then
      "layout(set = 0, binding = 0) uniform textureCube compat_texture_".toList
    else "layout(set = 0, binding = 0) uniform texture2D compat_texture_".toList) := by
    split <;> decide +kernel
  have hsampler :
      '\n' ∉ "layout(set = 1, binding = 0) uniform sampler compat_sampler_".toList := by
    decide +kernel
  intro line hline
  rcases List.mem_pair.mp hline with rfl | rfl
  · exact List.not_mem_append htexture hend
  · exact List.not_mem_append hsampler hend

theorem newline_not_mem_pairDefinition (h : OneLine d) : '\n' ∉ pairDefinition d := by
  have hsampler : '\n' ∉ ", compat_sampler_".toList ++ (d.name ++ [')']) :=
    List.not_mem_append (by decide +kernel) (by simp [h.name])
  have htexture : '\n' ∉ "(compat_texture_".toList ++
      (d.name ++ (", compat_sampler_".toList ++ (d.name ++ [')']))) :=
    List.not_mem_append (by decide +kernel) (List.not_mem_append h.name hsampler)
  refine List.not_mem_append (by decide +kernel) (List.not_mem_append h.name ?_)
  exact List.not_mem_cons_of_ne_of_not_mem (by decide) (List.not_mem_append h.type htexture)

theorem newline_not_mem_matrixDefinition (h : OneLine d) : '\n' ∉ matrixDefinition d := by
  have hend : '\n' ∉ d.name ++ [')'] := by simp [h.name]
  exact List.not_mem_append (by decide +kernel)
    (List.not_mem_append h.name (List.not_mem_append (by decide +kernel) hend))

theorem newline_not_mem_preambleLines (stage : Stage) {pairs members : List UniformDecl}
    (hpairs : ∀ d ∈ pairs, OneLine d) (hmembers : ∀ d ∈ members, OneLine d) :
    ∀ line ∈ preambleLines stage pairs members, '\n' ∉ line := by
  have hstage : ∀ line ∈ stageDefinitions stage, '\n' ∉ line := by
    have hall : ((stageDefinitions stage).all fun line => !line.contains '\n') = true := by
      cases stage <;> decide +kernel
    simpa using hall
  simp only [preambleLines, List.forall_mem_cons, List.forall_mem_append, List.forall_mem_map,
    List.forall_mem_flatMap]
  refine ⟨by decide +kernel, fun d hd => newline_not_mem_pairDeclarations (hpairs d hd), hstage,
    fun d hd => newline_not_mem_pairDefinition (hpairs d hd), fun d hd => ?_⟩
  exact newline_not_mem_matrixDefinition (hmembers d (List.mem_of_mem_filter hd))

end

/-! ## Uses of the keyword -/

/-- Each place of the keyword is inside of a declaration or an unrecognized use. -/
def KeywordsFound (text : List Char) : Prop :=
  ∀ n, KeywordAt text n →
    (∃ d ∈ (scanUniforms text).decls, d.offset ≤ n ∧ n < d.stop) ∨
      ∃ u ∈ (scanUniforms text).unrecognized, u.offset = n

section

variable {text : List Char} {d : UniformDecl} {u : UnrecognizedUniform}

/-- Every keyword is found: a place that is not inside of a use is where one starts. -/
theorem keywordsFound (text : List Char) : KeywordsFound text := by
  intro n hkey
  have huses := uses_scanAt text (Nat.zero_le text.length)
  obtain ⟨v, hv, hle, hlt⟩ : ∃ v ∈ scanAt text 0, v.offset ≤ n ∧ n < v.stop := by
    by_cases hinside : ∃ v ∈ scanAt text 0, v.offset < n ∧ n < v.stop
    · obtain ⟨v, hv, hoffset, hstop⟩ := hinside
      exact ⟨v, hv, hoffset.le, hstop⟩
    · have hmem := (huses.exact n (Nat.zero_le n)).mpr ⟨hkey, by simpa using hinside⟩
      obtain ⟨v, hv, rfl⟩ := List.mem_map.mp hmem
      exact ⟨v, hv, Nat.le_refl _, (huses.inside v hv).2.1⟩
  cases v with
  | declared d => exact .inl ⟨d, mem_decls_iff.mpr hv, hle, hlt⟩
  | unrecognized u =>
      exact .inr ⟨u, mem_unrecognized_iff.mpr hv, Nat.le_antisymm hle (Nat.le_of_lt_succ hlt)⟩

/-- Two uses do not overlap. -/
theorem apart_of_mem_scanAt {v w : UniformUse} (hv : v ∈ scanAt text 0) (hw : w ∈ scanAt text 0)
    (hne : v ≠ w) : v.stop ≤ w.offset ∨ w.stop ≤ v.offset := by
  have hapart : (scanAt text 0).Pairwise fun v w => v.stop ≤ w.offset ∨ w.stop ≤ v.offset :=
    (uses_scanAt text (Nat.zero_le text.length)).apart.imp Or.inl
  have : Std.Symm fun v w : UniformUse => v.stop ≤ w.offset ∨ w.stop ≤ v.offset :=
    ⟨fun _ _ => Or.symm⟩
  exact hapart.forall hv hw hne

theorem placed_takenOut (text : List Char) : Placed text (takenOut text) :=
  rewritten_eq_takenOut text ▸ placed_rewritten text

/-- A declaration that is kept stands in the output with all of its text. -/
theorem textIn_prefix_of_kept (block : List Char) (hd : d ∈ declsOf text .kept) :
    d.textIn text <+: (spliceFrom block 0 text (takenOut text)).drop
      (movedPlace block (takenOut text) d.offset) := by
  obtain ⟨hd, hfate⟩ := mem_declsOf_iff.mp hd
  have hinside := (placed_scanUniforms text).inside d hd
  refine (placed_takenOut text).take_prefix_movedPlace block (by omega) fun e he => ?_
  obtain ⟨he, hother⟩ := mem_takenOut_iff.mp he
  refine apart_of_mem_scanAt (mem_decls_iff.mp hd) (mem_decls_iff.mp he) ?_
  intro heq
  cases heq
  exact hother hfate

/-- The keyword of an unrecognized use stands in the output.  It is not inside of a
declaration that is taken out, since two keywords do not overlap. -/
theorem keyword_prefix_of_unrecognized (block : List Char)
    (hu : u ∈ (scanUniforms text).unrecognized) :
    keyword <+: (spliceFrom block 0 text (takenOut text)).drop
      (movedPlace block (takenOut text) u.offset) := by
  have huse := mem_unrecognized_iff.mp hu
  have hkey : KeywordAt text u.offset := keywordAt_of_mem_scanAt huse
  have hword := (startsKeyword_iff.mp hkey).1
  rw [List.prefix_iff_eq_take.mp hword]
  refine (placed_takenOut text).take_prefix_movedPlace block hkey.lt_length.le fun d hd => ?_
  obtain ⟨hd, -⟩ := mem_takenOut_iff.mp hd
  rcases apart_of_mem_scanAt huse (mem_decls_iff.mp hd) nofun with hle | hle
  · refine .inl (Nat.le_of_not_lt fun hlt => ?_)
    have hle : u.offset + 1 ≤ d.offset := hle
    have hother := (startsKeyword_iff.mp (keywordAt_of_mem_decls hd)).1
    refine not_keyword_prefix_drop hword (k := d.offset - u.offset) (by omega) (by omega) ?_
    rwa [List.drop_drop, Nat.add_sub_cancel' (by omega)]
  · exact .inr hle

end

/-! ## Limitations -/

/-- Limitations are reported, each one once and by line.  Those of one line keep their
order. -/
structure Reported (expected reported : List Limitation) : Prop where
  /-- Each expected one is there, and no other. -/
  perm : reported.Perm expected
  /-- Lines do not descend. -/
  ordered : reported.Pairwise fun a b => a.line ≤ b.line
  /-- Those of one line are in the order in which they are expected. -/
  stable : ∀ line, reported.filter (·.line = line) = expected.filter (·.line = line)

/-- Limitations sorted by line are reported.  Those of one line are in order, so sorting leaves
them as they are. -/
theorem reported_mergeSort (ls : List Limitation) :
    Reported ls (ls.mergeSort fun a b => decide (a.line ≤ b.line)) := by
  have hperm := ls.mergeSort_perm fun a b => decide (a.line ≤ b.line)
  have htrans : ∀ a b c : Limitation, decide (a.line ≤ b.line) = true →
      decide (b.line ≤ c.line) = true → decide (a.line ≤ c.line) = true := by
    intro a b c hab hbc
    simp only [decide_eq_true_eq] at *
    omega
  have htotal : ∀ a b : Limitation,
      (decide (a.line ≤ b.line) || decide (b.line ≤ a.line)) = true := by
    intro a b
    simp only [Bool.or_eq_true, decide_eq_true_eq]
    omega
  refine ⟨hperm, ?_, fun line => ?_⟩
  · exact (List.pairwise_mergeSort htrans htotal ls).imp of_decide_eq_true
  · have hline : (ls.filter (·.line = line)).Pairwise
        fun a b => decide (a.line ≤ b.line) = true := by
      refine List.pairwise_of_forall_mem_list fun a ha b hb => ?_
      simp only [List.mem_filter, decide_eq_true_eq] at ha hb
      exact decide_eq_true (ha.2.trans hb.2.symm).le
    have hsub := (List.sublist_mergeSort htrans htotal hline List.filter_sublist).filter
      (·.line = line)
    simp only [List.filter_filter, Bool.and_self] at hsub
    exact (hsub.eq_of_length (hperm.filter _).length_eq.symm).symm

/-- The limitations of a source with its tokens and the text written for them: unrecognized
uses, uses of the output array, and declarations that are kept. -/
def limitationsOf (source : List Char) (stage : Stage) (tokens : List Token) (text : List Char) :
    List Limitation :=
  (scanUniforms text).unrecognized.map
      (fun u => ⟨.uniformDeclaration, lineOf text u.offset, u.text⟩) ++
    ((emissions stage tokens).filter fun e => decide (stage = .fragment) && e.isUse).map
      (fun e => ⟨.fragDataIndex, Text.lineAt source e.token.span.start, fragData.toList⟩) ++
    (declsOf text .kept).map fun d => ⟨.uniformDeclaration, lineOf text d.offset, d.textIn text⟩

/-- The limitations of a text are the expected ones, sorted by line. -/
theorem limitations_eq_mergeSort (source : List Char) (stage : Stage) (tokens : List Token) :
    (modernizePlain (writeTokens source stage tokens) stage).limitations =
      (limitationsOf source stage tokens (writeTokens source stage tokens).source).mergeSort
        fun a b => decide (a.line ≤ b.line) := by
  rw [modernizePlain, limitations, unmapped_writeTokens, filter_isUnsupportedArray_decls,
    List.map_map]
  rfl

/-! ## The account -/

/-- A text in its modern form: a preamble and a body.  The declarations that are not kept are
taken out of the body, and a block stands in the place of one of them.  What is kept is
there. -/
structure CarriedOver (text : List Char) (stage : Stage) (block body output : List Char) :
    Prop where
  /-- The lines of the output are those of the preamble, with a pair for each texture and a
  macro for each stored matrix, and then those of the body. -/
  lines : output.splitOn '\n' =
    preambleLines stage (declsOf text .pair) (declsOf text .member) ++ body.splitOn '\n'
  /-- The block has one line for each member, in the order of their declarations. -/
  members : block.splitOn '\n' = blockLines stage ((declsOf text .member).map UniformDecl.member)
  /-- The body is the text with the declarations that are taken out replaced. -/
  spliced : body = interleave (gaps text (takenOut text)) (replacements block (takenOut text))
  /-- One of them is replaced by the block, if there is a member, and the others by nothing. -/
  once : (replacements block (takenOut text)).filter (!·.isEmpty) =
    if (declsOf text .member).isEmpty then [] else [block]
  /-- A declaration that is kept stands in the body as it is. -/
  kept : ∀ d ∈ declsOf text .kept,
    d.textIn text <+: body.drop (movedPlace block (takenOut text) d.offset)
  /-- So does the keyword of an unrecognized use. -/
  unrecognized : ∀ u ∈ (scanUniforms text).unrecognized,
    keyword <+: body.drop (movedPlace block (takenOut text) u.offset)

/-- The block of a text has the lines of its members. -/
theorem splitOn_blockText_declsOf (text : List Char) (stage : Stage) :
    (blockText stage (declsOf text .member)).splitOn '\n' =
      blockLines stage ((declsOf text .member).map UniformDecl.member) := by
  have hmember : ∀ d ∈ declsOf text .member, memberText d = d.member := fun d hd =>
    UniformDecl.memberText_of_fate (mem_declsOf_iff.mp hd).2
  have honeLine : ∀ d ∈ declsOf text .member, '\n' ∉ memberText d := fun d hd =>
    newline_not_mem_memberText (oneLine_of_mem_decls (mem_declsOf_iff.mp hd).1)
  rw [splitOn_blockText stage honeLine, List.map_congr_left hmember]

theorem carriedOver_modernizePlain (pre : Preprocessed) (stage : Stage) :
    ∃ block body, CarriedOver pre.source stage block body (modernizePlain pre stage).source := by
  let text := pre.source
  have hmembers := filter_loose_takenOut text
  have honeLine : ∀ fate, ∀ d ∈ declsOf text fate, OneLine d := fun fate d hd =>
    oneLine_of_mem_decls (mem_declsOf_iff.mp hd).1
  have hsource : (modernizePlain pre stage).source =
      preamble stage (rewritten text) ++ spliceDecls text (rewritten text) stage := rfl
  rw [hsource, rewritten_eq_takenOut, preamble_eq, filter_isOpaque_takenOut, hmembers]
  refine ⟨blockText stage (declsOf text .member), spliceDecls text (takenOut text) stage,
    ?_, splitOn_blockText_declsOf text stage, ?_, ?_, ?_, ?_⟩
  · exact splitOn_flatMap_newline
      (newline_not_mem_preambleLines stage (honeLine .pair) (honeLine .member)) _
  · rw [← hmembers]
    exact spliceDecls_eq_interleave (placed_takenOut text).inOrder stage
  · rw [← all_isOpaque_takenOut]
    refine filter_replacements fun hloose => isEmpty_blockText stage fun hnone => ?_
    rw [all_isOpaque_takenOut, hnone] at hloose
    cases hloose
  · rw [spliceDecls, hmembers]
    exact fun d hd => textIn_prefix_of_kept _ hd
  · rw [spliceDecls, hmembers]
    exact fun u hu => keyword_prefix_of_unrecognized _ hu

/-- Every `uniform` of a source is accounted for in its modern form.  Each one that is left by
preprocessing is found, and each declaration has one fate: a member of the block, a texture
and a sampler, or text that is kept.  The output has the members in its block, the pairs and
their macros in its preamble, and the text that is kept in its body.  The limitations are
those of the unrecognized uses, of the uses of the output array and of the declarations that
are kept, each one once and by line. -/
theorem uniforms_accounted {source : List Char} {stage : Stage} {out : Modernized}
    (h : modernize source stage = .ok out) :
    ∃ tokens text block body,
      Preprocess.tokens source legacyMacros = .ok tokens ∧
      (writeTokens source stage tokens).source = text ∧
      KeywordsFound text ∧
      (∀ d ∈ (scanUniforms text).decls,
        (d.fate = .member ↔ ¬ d.IsTexture ∧ ¬ (d.type = "mat2".toList ∧ d.suffix ≠ [])) ∧
        (d.fate = .pair ↔ d.IsTexture ∧ d.suffix = []) ∧
        (d.fate = .kept ↔ (d.IsTexture ∨ d.type = "mat2".toList) ∧ d.suffix ≠ [])) ∧
      CarriedOver text stage block body out.source ∧
      Reported (limitationsOf source stage tokens text) out.limitations := by
  unfold modernize preprocess at h
  split at h
  · next tokens htokens =>
    obtain rfl := Except.ok.inj h
    obtain ⟨block, body, hcarried⟩ :=
      carriedOver_modernizePlain (writeTokens source stage tokens) stage
    refine ⟨tokens, _, block, body, htokens, rfl, keywordsFound _, fun d _ => ?_, hcarried, ?_⟩
    · exact ⟨UniformDecl.fate_eq_member_iff, UniformDecl.fate_eq_pair_iff,
        UniformDecl.fate_eq_kept_iff⟩
    · rw [limitations_eq_mergeSort]
      exact reported_mergeSort _
  · cases h

/-- Uniforms of each fate, a list of uniforms and a use of the output array. -/
def eachFate : List Char :=
  ("uniform mat2 m;\nuniform samplerCube t;\nuniform mat2 n[2];\nuniform float b, c;\n" ++
    "uniform vec4 v[3];\ngl_FragData[1];").toList

namespace eachFate

/-- The tokens of the source. -/
def tokens : List Token := (Preprocess.tokens eachFate legacyMacros).toOption.getD []

theorem tokens_eq : Preprocess.tokens eachFate legacyMacros = .ok tokens := by decide +kernel

/-- There is nothing to preprocess. -/
theorem text_eq : (writeTokens eachFate .fragment tokens).source = eachFate := by decide +kernel

/-- The declarations of the source. -/
def decls : List UniformDecl :=
  [⟨0, 15, none, "mat2".toList, ['m'], []⟩, ⟨16, 22, none, "samplerCube".toList, ['t'], []⟩,
    ⟨39, 18, none, "mat2".toList, ['n'], ['[', '2', ']']⟩,
    ⟨78, 18, none, "vec4".toList, ['v'], ['[', '3', ']']⟩]

/-- They are found, and the list of uniforms is not recognized. -/
theorem scan_eq :
    scanUniforms eachFate = ⟨decls, [⟨58, "uniform float b, c;".toList⟩]⟩ := by
  decide +kernel

/-- The block of the source. -/
def block : List Char :=
  ("layout(std140, binding = 0) uniform compat_FragmentUniforms\n\x7b\n" ++
    "\tmat2x4 compat_mat2_m;\n\tvec4 v[3];\n\x7d;\n").toList

/-- The source with the block in the place of the last member. -/
def body : List Char :=
  "\n\nuniform mat2 n[2];\nuniform float b, c;\n".toList ++ (block ++ "\ngl_FragData[1];".toList)

/-- The lines of the preamble. -/
def preamble : List (List Char) :=
  ["#version 450", "layout(set = 0, binding = 0) uniform textureCube compat_texture_t;",
    "layout(set = 1, binding = 0) uniform sampler compat_sampler_t;",
    "#define texture2D texture", "#define texture2DLod textureLod",
    "#define texture2DProj textureProj", "#define textureCube texture",
    "#define textureCubeLod textureLod", "#define varying layout(location = 0) in",
    "#define gl_FragColor compat_FragColor", "layout(location = 0) out vec4 compat_FragColor;",
    "#define t samplerCube(compat_texture_t, compat_sampler_t)",
    "#define m mat2(compat_mat2_m)"].map String.toList

end eachFate

/-- The matrix and the vectors are in the block, the texture is in the preamble, and the rest
is in the body and reported on its lines. -/
theorem uniforms_accounted_of_eachFate :
    ∃ out, modernize eachFate .fragment = .ok out ∧
      CarriedOver eachFate .fragment eachFate.block eachFate.body out.source ∧
      [Fate.member, .pair, .kept].map
          (fun fate => (declsOf eachFate fate).map fun d => String.ofList d.name) =
        [["m", "v"], ["t"], ["n"]] ∧
      out.source.splitOn '\n' = eachFate.preamble ++ eachFate.body.splitOn '\n' ∧
      (out.limitations.map fun l => (l.line, l.kind)).Perm
        [(4, .uniformDeclaration), (6, .fragDataIndex), (3, .uniformDeclaration)] ∧
      out.limitations.Pairwise fun a b => a.line ≤ b.line := by
  have h : modernize eachFate .fragment =
      .ok (modernizePlain (writeTokens eachFate .fragment eachFate.tokens) .fragment) := by
    rw [modernize, preprocess, eachFate.tokens_eq]
    rfl
  obtain ⟨tokens, text, block, body, htokens, htext, -, -, hcarried, hreported⟩ :=
    uniforms_accounted h
  obtain rfl := Except.ok.inj (eachFate.tokens_eq.symm.trans htokens)
  obtain rfl : eachFate = text := eachFate.text_eq.symm.trans htext
  have hblock : block = eachFate.block := by
    have hjoin : ['\n'].intercalate (block.splitOn '\n') = block := List.intercalate_splitOn '\n'
    rw [← hjoin, hcarried.members, declsOf, eachFate.scan_eq]
    decide +kernel
  have hbody : body = eachFate.body := by
    rw [hcarried.spliced, hblock, takenOut, eachFate.scan_eq]
    decide +kernel
  have hpreamble : preambleLines .fragment (declsOf eachFate .pair) (declsOf eachFate .member) =
      eachFate.preamble := by
    rw [declsOf, declsOf, eachFate.scan_eq]
    decide +kernel
  have hfates : [Fate.member, .pair, .kept].map
      (fun fate => (declsOf eachFate fate).map fun d => String.ofList d.name) =
        [["m", "v"], ["t"], ["n"]] := by
    simp only [declsOf, eachFate.scan_eq]
    decide +kernel
  have hexpected : (limitationsOf eachFate .fragment eachFate.tokens eachFate).map
      (fun l => (l.line, l.kind)) =
        [(4, .uniformDeclaration), (6, .fragDataIndex), (3, .uniformDeclaration)] := by
    rw [limitationsOf, declsOf, eachFate.scan_eq]
    decide +kernel
  rw [hblock, hbody] at hcarried
  refine ⟨_, h, hcarried, hfates, hcarried.lines.trans ?_, ?_, hreported.ordered⟩
  · rw [hpreamble]
  · rw [← hexpected]
    exact hreported.perm.map _

end LegacyShader.Modern
