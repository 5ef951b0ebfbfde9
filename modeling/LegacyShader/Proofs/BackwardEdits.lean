import LegacyShader.Proofs.BlockPlacement
import LegacyShader.Proofs.UniformCoverage

/-!
# Rewriting from the back to the front

Declarations can also be rewritten in place, one at a time, by their byte offsets in the
source.  An edit moves all that stands behind it.  Made from the last to the first, no edit
moves a declaration that is still to be rewritten, so the text up to it is that of the
source, and its offsets are places of the text (`makeBackwards_of_laid`).  The result is
what one pass from the front to the back gives.

Either way, the *gaps* between declarations are kept and each declaration becomes its
replacement (`applyEdits_eq_interleave`).  The gaps are all characters outside of
declarations (`flatten_gapsFrom`), and at most one replacement is not empty
(`filter_replacements`).
-/

namespace LegacyShader.Modern

open Text (byteLength place)

/-! ## Parts of a text -/

/-- The text between two places. -/
def between (source : List Char) (i j : Nat) : List Char := (source.drop i).take (j - i)

section

variable {source : List Char} {i j : Nat}

theorem drop_drop_sub (h : i ≤ j) : (source.drop i).drop (j - i) = source.drop j := by
  rw [List.drop_drop, Nat.add_sub_cancel' h]

theorem take_append_between (h : i ≤ j) : source.take i ++ between source i j = source.take j := by
  rw [between, ← List.take_add, Nat.add_sub_cancel' h]

theorem between_append_drop (h : i ≤ j) : between source i j ++ source.drop j = source.drop i := by
  rw [between, ← drop_drop_sub h, List.take_append_drop]

theorem between_length (i : Nat) : between source i source.length = source.drop i := by
  rw [between, ← List.length_drop, List.take_length]

theorem length_between (hj : j ≤ source.length) : (between source i j).length = j - i := by
  rw [between, List.length_take, List.length_drop]
  omega

/-- The characters from a place on with their places, up to another place and behind it. -/
theorem zipIdx_drop_eq (h : i ≤ j) (hj : j ≤ source.length) :
    (source.drop i).zipIdx i =
      (between source i j).zipIdx i ++ (source.drop j).zipIdx j := by
  rw [← between_append_drop h, List.zipIdx_append, length_between hj, Nat.add_sub_cancel' h]

end

/-! ## Edits in place -/

/-- An edit with its places in bytes. -/
def Edit.inBytes (source : List Char) (e : Edit) : Edit :=
  { e with offset := place source e.offset, stop := place source e.stop }

/-- A text with an edit made in place.  There is none if the byte offsets of the edit are
not places of the text, or not in order. -/
def Edit.make? (text : List Char) (e : Edit) : Option (List Char) :=
  if e.offset ≤ e.stop then do
    let front ← Text.takeBytes? e.offset text
    let back ← Text.dropBytes? e.stop text
    return front ++ e.text ++ back
  else none

/-- A text with edits made in place, from the last to the first. -/
def makeBackwards (text : List Char) (edits : List Edit) : Option (List Char) :=
  edits.reverse.foldlM Edit.make? text

theorem makeBackwards_cons (text : List Char) (e : Edit) (edits : List Edit) :
    makeBackwards text (e :: edits) = (makeBackwards text edits).bind (Edit.make? · e) := by
  simp only [makeBackwards, List.reverse_cons, List.foldlM_append, List.foldlM_cons,
    List.foldlM_nil, bind_pure]
  rfl

/-- An edit at places of a text is made. -/
theorem Edit.make?_append (front middle back text : List Char) :
    Edit.make? (front ++ middle ++ back) ⟨byteLength front, byteLength (front ++ middle), text⟩ =
      some (front ++ text ++ back) := by
  have hle : byteLength front ≤ byteLength (front ++ middle) := by
    rw [Text.byteLength_append]
    exact Nat.le_add_right _ _
  have hdrop := Text.dropBytes?_byteLength (front ++ middle) back
  have htake := Text.takeBytes?_byteLength front (middle ++ back)
  rw [← List.append_assoc] at htake
  simp only [make?, if_pos hle, htake, hdrop]
  rfl

/-- Edits in order are all made, and the text in front of them stays.  Behind the later
edits, the source is still there up to the end of the next one. -/
theorem makeBackwards_of_laid {source : List Char} {edits : List Edit} {start : Nat}
    (h : Laid start source.length edits) :
    makeBackwards source (edits.map (Edit.inBytes source)) =
      some (source.take start ++ applyEdits start (source.drop start) edits) := by
  induction edits generalizing start with
  | nil => simp [makeBackwards, applyEdits]
  | cons e edits ih =>
      cases h with
      | cons hstart hle hedits =>
          have hbytes : e.inBytes source = ⟨byteLength (source.take e.offset),
              byteLength (source.take e.offset ++ between source e.offset e.stop), e.text⟩ := by
            rw [take_append_between hle]
            rfl
          rw [List.map_cons, makeBackwards_cons, ih hedits, Option.bind_some,
            ← take_append_between hle, hbytes, Edit.make?_append, applyEdits,
            drop_drop_sub (Nat.le_trans hstart hle), ← take_append_between hstart]
          simp only [between, List.append_assoc]

/-! ## Gaps -/

/-- The texts in front of spans, between them and behind them, from a place on. -/
def gapsFrom (source : List Char) (start : Nat) (offsets stops : List Nat) : List (List Char) :=
  List.zipWith (between source) (start :: stops) (offsets ++ [source.length])

/-- The texts in front of declarations, between them and behind them. -/
def gaps (source : List Char) (decls : List UniformDecl) : List (List Char) :=
  gapsFrom source 0 (decls.map (·.offset)) (decls.map (·.stop))

/-- Gaps with a replacement behind each but the last. -/
def interleave (gaps replacements : List (List Char)) : List Char :=
  (List.zipWith (· ++ ·) gaps (replacements ++ [[]])).flatten

theorem gapsFrom_cons (source : List Char) (start offset stop : Nat) (offsets stops : List Nat) :
    gapsFrom source start (offset :: offsets) (stop :: stops) =
      between source start offset :: gapsFrom source stop offsets stops := rfl

theorem interleave_cons (gap replacement : List Char) (gaps replacements : List (List Char)) :
    interleave (gap :: gaps) (replacement :: replacements) =
      gap ++ replacement ++ interleave gaps replacements := rfl

/-- Edits keep the gaps between them. -/
theorem applyEdits_eq_interleave {source : List Char} {edits : List Edit} {start : Nat}
    (h : Laid start source.length edits) :
    applyEdits start (source.drop start) edits =
      interleave (gapsFrom source start (edits.map (·.offset)) (edits.map (·.stop)))
        (edits.map (·.text)) := by
  induction edits generalizing start with
  | nil => simp [applyEdits, interleave, gapsFrom, between_length]
  | cons e edits ih =>
      cases h with
      | cons hstart hle hedits =>
          rw [applyEdits, drop_drop_sub (Nat.le_trans hstart hle), ih hedits]
          simp only [List.map_cons, gapsFrom_cons, interleave_cons, between]

/-! ## Replacements -/

/-- The index of the last element that satisfies a test. -/
def lastIndex? {α : Type} (test : α → Bool) : List α → Option Nat
  | [] => none
  | a :: l =>
      match lastIndex? test l with
      | some i => some (i + 1)
      | none => if test a then some 0 else none

/-- What takes the place of each declaration: the block for the last loose one. -/
def replacements (block : List Char) (decls : List UniformDecl) : List (List Char) :=
  decls.mapIdx fun i _ => if lastIndex? (!·.isOpaque) decls = some i then block else []

/-- The edits that put replacements in the places of declarations. -/
def replacing (block : List Char) (decls : List UniformDecl) : List Edit :=
  List.zipWith (fun d text => ⟨d.offset, d.stop, text⟩) decls (replacements block decls)

/-- The source with its declarations rewritten in place, from the last to the first. -/
def rewriteBackwards (source : List Char) (decls : List UniformDecl) (stage : Stage) :
    Option (List Char) :=
  makeBackwards source (replacing (blockText stage (decls.filter (!·.isOpaque))) decls)

theorem lastIndex?_eq_none_iff {α : Type} {test : α → Bool} {l : List α} :
    lastIndex? test l = none ↔ ∀ a ∈ l, test a = false := by
  induction l with
  | nil => simp [lastIndex?]
  | cons a l ih =>
      cases hl : lastIndex? test l with
      | some i =>
          have hnot : ¬ ∀ b ∈ l, test b = false := by simp [← ih, hl]
          simp only [lastIndex?, hl, reduceCtorEq, List.forall_mem_cons, hnot, and_false]
      | none =>
          simp only [lastIndex?, hl, List.forall_mem_cons, and_iff_left (ih.mp hl)]
          cases test a <;> simp

theorem lastIndex?_loose_eq_none_iff {decls : List UniformDecl} :
    lastIndex? (!·.isOpaque) decls = none ↔ decls.all (·.isOpaque) = true := by
  simp [lastIndex?_eq_none_iff]

/-- The first declaration becomes the block if it is loose and no later one is. -/
theorem replacements_cons (block : List Char) (d : UniformDecl) (rest : List UniformDecl) :
    replacements block (d :: rest) =
      (if !d.isOpaque && rest.all (·.isOpaque) then block else []) :: replacements block rest := by
  unfold replacements
  rw [List.mapIdx_cons, lastIndex?]
  cases hrest : lastIndex? (!·.isOpaque) rest with
  | some i =>
      have hall : rest.all (·.isOpaque) = false := by
        rw [Bool.eq_false_iff, ne_eq, ← lastIndex?_loose_eq_none_iff, hrest]
        simp
      simp [hall]
  | none =>
      rw [lastIndex?_loose_eq_none_iff.mp hrest]
      cases d.isOpaque <;> simp

section

variable {source block : List Char} {decls : List UniformDecl} {start : Nat}

/-- Both ways to name the replacements give the same edits. -/
theorem replacing_eq_editsOf (block : List Char) (decls : List UniformDecl) :
    replacing block decls = editsOf block decls := by
  unfold replacing
  induction decls with
  | nil => rfl
  | cons d decls ih => rw [replacements_cons, List.zipWith_cons_cons, ih, editsOf]

theorem map_text_editsOf (block : List Char) (decls : List UniformDecl) :
    (editsOf block decls).map (·.text) = replacements block decls := by
  induction decls with
  | nil => rfl
  | cons d decls ih => rw [editsOf, List.map_cons, ih, replacements_cons]

/-- The edits of declarations are where the declarations are. -/
theorem map_span_editsOf {β : Type} {f : Edit → β} {g : UniformDecl → β}
    (h : ∀ d text, f ⟨d.offset, d.stop, text⟩ = g d) (block : List Char)
    (decls : List UniformDecl) : (editsOf block decls).map f = decls.map g := by
  induction decls with
  | nil => rfl
  | cons d decls ih => rw [editsOf, List.map_cons, List.map_cons, ih, h]

/-- The edits of declarations are the same in bytes. -/
theorem editsOf_map_inBytes (source block : List Char) (decls : List UniformDecl) :
    editsOf block (decls.map (·.inBytes source)) =
      (editsOf block decls).map (Edit.inBytes source) := by
  induction decls with
  | nil => rfl
  | cons d decls ih =>
      have hall : (decls.map (·.inBytes source)).all (·.isOpaque) = decls.all (·.isOpaque) := by
        rw [List.all_map]
        rfl
      rw [List.map_cons, editsOf, editsOf, List.map_cons, ih, hall, UniformDecl.stop_inBytes]
      rfl

theorem blockText_map_inBytes (source : List Char) (decls : List UniformDecl) (stage : Stage) :
    blockText stage ((decls.map (·.inBytes source)).filter (!·.isOpaque)) =
      blockText stage (decls.filter (!·.isOpaque)) := by
  have hfilter : (decls.map (·.inBytes source)).filter (!·.isOpaque) =
      (decls.filter (!·.isOpaque)).map (·.inBytes source) := List.filter_map
  rw [hfilter, blockText, blockText, List.isEmpty_map, List.flatMap_map]
  rfl

/-- Exactly one replacement is the block if there is a loose declaration, and none if not. -/
theorem filter_replacements (hblock : decls.all (·.isOpaque) = false → block.isEmpty = false) :
    (replacements block decls).filter (!·.isEmpty) =
      if decls.all (·.isOpaque) then [] else [block] := by
  induction decls with
  | nil => rfl
  | cons d decls ih =>
      rw [List.all_cons] at hblock
      rw [replacements_cons, List.filter_cons, List.all_cons]
      cases hrest : decls.all (·.isOpaque) with
      | false =>
          have hnonempty := hblock (by rw [hrest, Bool.and_false])
          rw [ih fun _ => hnonempty, hrest]
          simp
      | true =>
          rw [ih (by simp [hrest]), hrest]
          cases hd : d.isOpaque with
          | false =>
              have hnonempty := hblock (by rw [hd, Bool.false_and])
              simp [hnonempty]
          | true => simp

theorem isEmpty_blockText (stage : Stage) {loose : List UniformDecl} (h : loose ≠ []) :
    (blockText stage loose).isEmpty = false := by
  simp [blockText, h]

end

/-! ## Characters outside of declarations -/

/-- Whether a place is inside of a declaration. -/
def UniformDecl.covers (d : UniformDecl) (k : Nat) : Bool :=
  decide (d.offset ≤ k) && decide (k < d.stop)

/-- The characters of a text outside of declarations, in order. -/
def outside (source : List Char) (decls : List UniformDecl) : List Char :=
  (source.zipIdx.filter fun x => !decls.any (·.covers x.2)).map Prod.fst

theorem any_covers_eq_false_iff {decls : List UniformDecl} {k : Nat} :
    decls.any (·.covers k) = false ↔ ∀ d ∈ decls, k < d.offset ∨ d.stop ≤ k := by
  simp only [List.any_eq_false, UniformDecl.covers, Bool.and_eq_true, decide_eq_true_eq]
  exact forall₂_congr fun d _ => by omega

/-- The gaps between declarations are what is outside of them. -/
theorem flatten_gapsFrom {source : List Char} {decls : List UniformDecl} {start : Nat}
    (h : InOrder source.length decls) (hstart : ∀ d ∈ decls, start ≤ d.offset) :
    (gapsFrom source start (decls.map (·.offset)) (decls.map (·.stop))).flatten =
      (((source.drop start).zipIdx start).filter fun x =>
        !decls.any (·.covers x.2)).map Prod.fst := by
  induction decls generalizing start with
  | nil =>
      rw [List.filter_eq_self.mpr (by simp), List.zipIdx_map_fst]
      simp [gapsFrom, between_length]
  | cons d decls ih =>
      obtain ⟨hd, -⟩ := List.forall_mem_cons.mp hstart
      obtain ⟨hbehind, -⟩ := List.pairwise_cons.mp h.apart
      have hstop : d.stop ≤ source.length := h.inside d List.mem_cons_self
      have hle : d.offset ≤ d.stop := Nat.le_add_right _ _
      have hoffset : d.offset ≤ source.length := Nat.le_trans hle hstop
      have hfront : ((between source start d.offset).zipIdx start).filter (fun x =>
          !(d :: decls).any (·.covers x.2)) = (between source start d.offset).zipIdx start := by
        refine List.filter_eq_self.mpr fun x hx => ?_
        have hlt := List.snd_lt_add_of_mem_zipIdx hx
        rw [length_between hoffset] at hlt
        rw [any_covers_eq_false_iff.mpr (List.forall_mem_cons.mpr ⟨by omega, fun e he => ?_⟩)]
        · rfl
        · have := hbehind e he
          omega
      have hinside : ((between source d.offset d.stop).zipIdx d.offset).filter (fun x =>
          !(d :: decls).any (·.covers x.2)) = [] := by
        refine List.filter_eq_nil_iff.mpr fun x hx => ?_
        have hge := List.le_snd_of_mem_zipIdx hx
        have hlt := List.snd_lt_add_of_mem_zipIdx hx
        rw [length_between hstop, Nat.add_sub_cancel' hle] at hlt
        simp [UniformDecl.covers, hge, hlt]
      have hback : ((source.drop d.stop).zipIdx d.stop).filter (fun x =>
          !(d :: decls).any (·.covers x.2)) =
            ((source.drop d.stop).zipIdx d.stop).filter fun x => !decls.any (·.covers x.2) := by
        refine List.filter_congr fun x hx => ?_
        have hge := List.le_snd_of_mem_zipIdx hx
        simp [UniformDecl.covers, hge]
      rw [List.map_cons, List.map_cons, gapsFrom_cons, List.flatten_cons, ih h.tail hbehind,
        zipIdx_drop_eq hd hoffset, zipIdx_drop_eq hle hstop, List.filter_append,
        List.filter_append, hfront, hinside, hback, List.nil_append, List.map_append,
        List.zipIdx_map_fst]

/-- Declarations in order are all rewritten in place, and the result is that of one pass. -/
theorem rewriteBackwards_of_inOrder {source : List Char} {decls : List UniformDecl}
    (h : InOrder source.length decls) (stage : Stage) :
    rewriteBackwards source (decls.map (·.inBytes source)) stage =
      some (spliceDecls source decls stage) := by
  have hlaid := h.laid_editsOf (blockText stage (decls.filter (!·.isOpaque)))
    (fun d _ => Nat.zero_le d.offset) (Nat.zero_le _)
  rw [rewriteBackwards, replacing_eq_editsOf, blockText_map_inBytes, editsOf_map_inBytes,
    makeBackwards_of_laid hlaid, spliceDecls, spliceFrom_eq_applyEdits]
  rfl

/-- One pass keeps the gaps between declarations. -/
theorem spliceDecls_eq_interleave {source : List Char} {decls : List UniformDecl}
    (h : InOrder source.length decls) (stage : Stage) :
    spliceDecls source decls stage = interleave (gaps source decls)
      (replacements (blockText stage (decls.filter (!·.isOpaque))) decls) := by
  have hlaid := h.laid_editsOf (blockText stage (decls.filter (!·.isOpaque)))
    (fun d _ => Nat.zero_le d.offset) (Nat.zero_le _)
  have hgaps := applyEdits_eq_interleave hlaid
  rw [map_span_editsOf fun _ _ => rfl, map_span_editsOf fun _ _ => rfl, map_text_editsOf] at hgaps
  rw [spliceDecls, spliceFrom_eq_applyEdits]
  exact hgaps

/-- Rewriting declarations in place, from the last to the first, gives what one pass from the
front gives, and no edit is out of bounds.  All that is outside of the declarations is kept in
order.  The last loose declaration becomes the block, and the others become nothing.  This
holds for all declarations in order, and so for those that a scan finds, whichever of them are
rewritten. -/
theorem rewriteBackwards_eq_splice :
    (∀ source decls stage, InOrder source.length decls →
      let block := blockText stage (decls.filter (!·.isOpaque))
      rewriteBackwards source (decls.map (·.inBytes source)) stage =
          some (spliceDecls source decls stage) ∧
        spliceDecls source decls stage =
          interleave (gaps source decls) (replacements block decls) ∧
        (gaps source decls).flatten = outside source decls ∧
        (replacements block decls).filter (!·.isEmpty) =
          if decls.all (·.isOpaque) then [] else [block]) ∧
    (∀ source kept, kept.Sublist (scanUniforms source).decls → InOrder source.length kept) ∧
    ∀ p stage, ∃ body,
      rewriteBackwards p.source ((rewritten p.source).map (·.inBytes p.source)) stage =
          some body ∧
        (modernizePlain p stage).source = preamble stage (rewritten p.source) ++ body := by
  refine ⟨?_, ?_, ?_⟩
  · intro source decls stage h block
    refine ⟨rewriteBackwards_of_inOrder h stage, spliceDecls_eq_interleave h stage,
      flatten_gapsFrom h fun d _ => Nat.zero_le d.offset, filter_replacements fun hloose => ?_⟩
    refine isEmpty_blockText stage fun hnone => ?_
    have hall : decls.all (·.isOpaque) = true := by simpa using hnone
    rw [hall] at hloose
    cases hloose
  · intro source kept hkept
    exact ((placed_scanUniforms source).sublist hkept).inOrder
  · intro p stage
    exact ⟨_, rewriteBackwards_of_inOrder (placed_rewritten p.source).inOrder stage, rfl⟩

/-- Letters of two bytes stand in front of both declarations. -/
theorem rewriteBackwards_eq_splice_of_two_bytes :
    let source := "é uniform sampler2D t;ü uniform float a;ö".toList
    let decls := (scanUniforms source).decls
    decls.map (fun d => (d.offset, (d.inBytes source).offset)) = [(2, 3), (24, 26)] ∧
      InOrder source.length decls ∧
      rewriteBackwards source (decls.map (·.inBytes source)) .vertex =
        some ("é ü " ++ "layout(std140, binding = 0) uniform compat_VertexUniforms\n\x7b\n" ++
          "\tfloat a;\n\x7d;\nö").toList := by
  intro source decls
  obtain ⟨hsplice, hscan, -⟩ := rewriteBackwards_eq_splice
  have horder := hscan source decls (List.Sublist.refl _)
  refine ⟨by decide +kernel, horder, ?_⟩
  rw [(hsplice source decls .vertex horder).1]
  decide +kernel

end LegacyShader.Modern
