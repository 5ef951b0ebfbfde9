import LegacyShader.Modern.Modernize
import LegacyShader.Proofs.UniformSpelling
import Mathlib.Algebra.GroupWithZero.Nat

/-!
# Where the uniform block stands

Rewriting declarations is a list of edits of a text: the last loose declaration becomes
the block, and all others become nothing (`editsOf`).  Edits can be made apart in front of
a place and behind it, if the place is not inside of one (`applyEdits_append`).  So every
place outside of the declarations has a place in the output, which only the edits in front
of it decide (`movedPlace`).

A use of a uniform behind its declaration is still a word of its own there.  It stands
behind the block exactly if it stands behind the last loose declaration, and in front of
the block if not.
-/

namespace LegacyShader.Modern

/-! ## Edits -/

/-- A part of a text and what takes its place. -/
structure Edit where
  /-- Where the part begins. -/
  offset : Nat
  /-- Where it ends. -/
  stop : Nat
  /-- What takes its place. -/
  text : List Char

/-- A text that starts at an offset, with edits made. -/
def applyEdits (start : Nat) (text : List Char) : List Edit → List Char
  | [] => text
  | e :: edits =>
      text.take (e.offset - start) ++ e.text ++
        applyEdits e.stop (text.drop (e.stop - start)) edits

/-- Edits lie one after the other between two places. -/
inductive Laid : Nat → Nat → List Edit → Prop
  | nil {start stop : Nat} (hle : start ≤ stop) : Laid start stop []
  | cons {start stop : Nat} {e : Edit} {edits : List Edit} (hstart : start ≤ e.offset)
      (hle : e.offset ≤ e.stop) (hedits : Laid e.stop stop edits) : Laid start stop (e :: edits)

/-- The number of characters that edits remove. -/
def removed (edits : List Edit) : Nat := (edits.map fun e => e.stop - e.offset).sum

/-- The number of characters that edits add. -/
def added (edits : List Edit) : Nat := (edits.map fun e => e.text.length).sum

section

variable {start stop k : Nat} {text : List Char} {front back edits : List Edit}

theorem Laid.le (h : Laid start stop edits) : start ≤ stop := by
  induction h with
  | nil hle => exact hle
  | cons hstart hle _ ih => omega

theorem Laid.bounds (h : Laid start stop edits) {e : Edit} (he : e ∈ edits) :
    start ≤ e.offset ∧ e.offset ≤ e.stop ∧ e.stop ≤ stop := by
  induction h with
  | nil => cases he
  | cons hstart hle hedits ih =>
      rcases List.mem_cons.mp he with rfl | he
      · exact ⟨hstart, hle, hedits.le⟩
      · obtain ⟨h₁, h₂, h₃⟩ := ih he
        exact ⟨by omega, h₂, h₃⟩

/-- Edits are laid in front of a place and behind it, if none lies across. -/
theorem Laid.split (h : Laid start stop (front ++ back)) (hstart : start ≤ k) (hstop : k ≤ stop)
    (hfront : ∀ e ∈ front, e.stop ≤ k) (hback : ∀ e ∈ back, k ≤ e.offset) :
    Laid start k front ∧ Laid k stop back := by
  induction front generalizing start with
  | nil =>
      refine ⟨.nil hstart, ?_⟩
      cases h with
      | nil => exact .nil hstop
      | cons _ hle hedits => exact .cons (hback _ List.mem_cons_self) hle hedits
  | cons e front ih =>
      cases h with
      | cons he hle hedits =>
          obtain ⟨hk, hfront⟩ := List.forall_mem_cons.mp hfront
          obtain ⟨h₁, h₂⟩ := ih hedits hk hfront
          exact ⟨.cons he hle h₁, h₂⟩

/-- Edits in front of a place and behind it are made apart. -/
theorem applyEdits_append (hfront : Laid start k front)
    (hback : Laid k (start + text.length) back) :
    applyEdits start text (front ++ back) =
      applyEdits start (text.take (k - start)) front ++
        applyEdits k (text.drop (k - start)) back := by
  induction front generalizing start text with
  | nil =>
      have hk := hfront.le
      cases back with
      | nil => simp [applyEdits]
      | cons e back =>
          cases hback with
          | cons he hle _ =>
              have htake : text.take (e.offset - start) =
                  text.take (k - start) ++ (text.drop (k - start)).take (e.offset - k) := by
                rw [← List.take_add]
                congr 1
                omega
              have hdrop : (text.drop (k - start)).drop (e.stop - k) =
                  text.drop (e.stop - start) := by
                rw [List.drop_drop]
                congr 1
                omega
              simp only [applyEdits, List.nil_append, htake, hdrop, List.append_assoc]
  | cons e front ih =>
      cases hfront with
      | cons he hle hfront =>
          have hk := hfront.le
          have hend := hback.le
          have htext : e.stop + (text.drop (e.stop - start)).length = start + text.length := by
            rw [List.length_drop]
            omega
          have hsplit := ih hfront (htext ▸ hback)
          have htake : (text.take (k - start)).take (e.offset - start) =
              text.take (e.offset - start) := by
            rw [List.take_take, Nat.min_eq_left (by omega)]
          have hmiddle : (text.take (k - start)).drop (e.stop - start) =
              (text.drop (e.stop - start)).take (k - e.stop) := by
            rw [List.drop_take]
            congr 1
            omega
          have hrest : (text.drop (e.stop - start)).drop (k - e.stop) = text.drop (k - start) := by
            rw [List.drop_drop]
            congr 1
            omega
          simp only [List.cons_append, applyEdits, hsplit, htake, hmiddle, hrest,
            List.append_assoc]

/-- Edits leave what stands in front of them. -/
theorem take_prefix_applyEdits {n : Nat} (h : ∀ e ∈ edits, start + n ≤ e.offset) :
    text.take n <+: applyEdits start text edits := by
  cases edits with
  | nil => exact List.take_prefix n text
  | cons e edits =>
      have hle : n ≤ e.offset - start := by
        have := h e List.mem_cons_self
        omega
      rw [applyEdits, List.append_assoc]
      exact (List.take_prefix_take_left hle).trans (List.prefix_append _ _)

/-- A text grows by what is added and shrinks by what is removed. -/
theorem length_applyEdits (h : Laid start (start + text.length) edits) :
    (applyEdits start text edits).length + removed edits = text.length + added edits := by
  induction edits generalizing start text with
  | nil => rfl
  | cons e edits ih =>
      cases h with
      | cons he hle hedits =>
          have hend := hedits.le
          have hlength : (text.drop (e.stop - start)).length = start + text.length - e.stop := by
            rw [List.length_drop]
            omega
          have hrest := ih (show Laid e.stop (e.stop + (text.drop (e.stop - start)).length) edits by
            rwa [hlength, Nat.add_sub_cancel' hend])
          simp only [applyEdits, removed, added, List.map_cons, List.sum_cons, List.length_append,
            List.length_take] at hrest ⊢
          omega

/-- Edited text does not end in a word, if words stop where an edit starts. -/
theorem parted_applyEdits (h : Laid start (start + text.length) edits) (htext : Parted text)
    (hedits : ∀ e ∈ edits, Parted (text.take (e.offset - start)) ∧ Parted e.text) :
    Parted (applyEdits start text edits) := by
  induction edits generalizing start text with
  | nil => exact htext
  | cons e edits ih =>
      cases h with
      | cons he hle hrest =>
          obtain ⟨⟨hfront, hadded⟩, hedits⟩ := List.forall_mem_cons.mp hedits
          have hend := hrest.le
          have hdrop : ∀ n, Parted (text.take n) →
              Parted ((text.take n).drop (e.stop - start)) := by
            intro n hn c hc
            rw [List.getLast?_drop] at hc
            split at hc
            · cases hc
            · exact hn c hc
          refine (hfront.append hadded).append (ih ?_ ?_ fun e' he' => ⟨?_, (hedits e' he').2⟩)
          · rw [List.length_drop]
            convert hrest using 1
            omega
          · have := hdrop text.length (by rwa [List.take_length])
            rwa [List.take_length] at this
          · have hbounds := hrest.bounds he'
            have := hdrop _ (hedits e' he').1
            rwa [List.drop_take, show e'.offset - start - (e.stop - start) = e'.offset - e.stop by
              omega] at this

end

/-! ## Declarations as edits -/

/-- The edits of declarations: the block for the last loose one, nothing for the others. -/
def editsOf (block : List Char) : List UniformDecl → List Edit
  | [] => []
  | d :: rest =>
      ⟨d.offset, d.stop, if !d.isOpaque && rest.all (·.isOpaque) then block else []⟩ ::
        editsOf block rest

/-- To rewrite declarations is to make their edits. -/
theorem spliceFrom_eq_applyEdits (block text : List Char) (start : Nat) (decls : List UniformDecl) :
    spliceFrom block start text decls = applyEdits start text (editsOf block decls) := by
  induction decls generalizing start text with
  | nil => rfl
  | cons d decls ih => simp only [spliceFrom, editsOf, applyEdits, ih]

/-- The last declaration that is no texture. -/
def lastLoose? (decls : List UniformDecl) : Option UniformDecl :=
  (decls.filter (!·.isOpaque)).getLast?

theorem lastLoose?_eq_some {decls : List UniformDecl} {last : UniformDecl}
    (h : lastLoose? decls = some last) :
    ∃ front back, decls = front ++ last :: back ∧ last.isOpaque = false ∧
      ∀ d ∈ back, d.isOpaque = true := by
  obtain ⟨others, hfilter⟩ := List.getLast?_eq_some_iff.mp h
  obtain ⟨front, tail, rfl, -, htail⟩ := List.filter_eq_append_iff.mp hfilter
  obtain ⟨between, back, rfl, -, hlast, hback⟩ := List.filter_eq_cons_iff.mp htail
  refine ⟨front ++ between, back, by simp, by simpa using hlast, fun d hd => ?_⟩
  simpa using List.filter_eq_nil_iff.mp hback d hd

theorem exists_lastLoose {decls : List UniformDecl} {u : UniformDecl} (hu : u ∈ decls)
    (hloose : u.isOpaque = false) : ∃ last, lastLoose? decls = some last := by
  have hmem : u ∈ decls.filter (!·.isOpaque) := List.mem_filter.mpr ⟨hu, by rw [hloose]; rfl⟩
  exact ⟨_, List.getLast?_eq_some_getLast (List.ne_nil_of_mem hmem)⟩

/-- Declarations lie one after the other in a text of some characters. -/
structure InOrder (size : Nat) (decls : List UniformDecl) : Prop where
  /-- No declaration ends behind the text. -/
  inside : ∀ d ∈ decls, d.stop ≤ size
  /-- Each ends in front of the next ones. -/
  apart : decls.Pairwise fun d e => d.stop ≤ e.offset

theorem InOrder.tail {size : Nat} {d : UniformDecl} {decls : List UniformDecl}
    (h : InOrder size (d :: decls)) : InOrder size decls :=
  ⟨fun e he => h.inside e (List.mem_cons_of_mem d he), (List.pairwise_cons.mp h.apart).2⟩

theorem InOrder.laid_editsOf {size start : Nat} {decls : List UniformDecl}
    (h : InOrder size decls) (block : List Char) (hstart : ∀ d ∈ decls, start ≤ d.offset)
    (hle : start ≤ size) : Laid start size (editsOf block decls) := by
  induction decls generalizing start with
  | nil => exact .nil hle
  | cons d decls ih =>
      obtain ⟨hbehind, -⟩ := List.pairwise_cons.mp h.apart
      exact .cons (hstart d List.mem_cons_self) (Nat.le_add_right _ _)
        (ih h.tail hbehind (h.inside d List.mem_cons_self))

/-- Declarations lie one after the other in a text, each at the keyword as a word. -/
structure Placed (source : List Char) (decls : List UniformDecl) : Prop where
  /-- No declaration is empty or ends behind the text. -/
  inside : ∀ d ∈ decls, d.offset < d.stop ∧ d.stop ≤ source.length
  /-- Each ends in front of the next ones. -/
  apart : decls.Pairwise fun d e => d.stop ≤ e.offset
  /-- Each begins with the keyword. -/
  keyword : ∀ d ∈ decls, KeywordAt source d.offset

namespace Placed

variable {source : List Char} {decls : List UniformDecl}

theorem sublist {kept : List UniformDecl} (h : Placed source decls) (hkept : kept.Sublist decls) :
    Placed source kept :=
  ⟨fun d hd => h.inside d (hkept.subset hd), h.apart.sublist hkept,
    fun d hd => h.keyword d (hkept.subset hd)⟩

theorem inOrder (h : Placed source decls) : InOrder source.length decls :=
  ⟨fun d hd => (h.inside d hd).2, h.apart⟩

/-- No word goes on where a declaration starts. -/
theorem parted_take (h : Placed source decls) {d : UniformDecl} (hd : d ∈ decls) :
    Parted (source.take d.offset) :=
  (startsKeyword_iff.mp (h.keyword d hd)).2.1

end Placed

/-- The declarations that a scan finds are placed. -/
theorem placed_scanUniforms (source : List Char) : Placed source (scanUniforms source).decls := by
  have huses : Uses source 0 (scanFrom 0 none source) := uses_scanAt source (Nat.zero_le _)
  refine ⟨fun d hd => (huses.inside _ (mem_decls_iff.mp hd)).2, ?_,
    fun d hd => keywordAt_of_mem_decls hd⟩
  refine List.Pairwise.filterMap _ ?_ huses.apart
  intro u v huv d hd e he
  cases u with
  | unrecognized => cases hd
  | declared =>
      cases v with
      | unrecognized => cases he
      | declared =>
          obtain rfl := Option.some.inj hd
          obtain rfl := Option.some.inj he
          exact huv

/-- The declarations that are rewritten. -/
def rewritten (source : List Char) : List UniformDecl :=
  (scanUniforms source).decls.filter (!·.isUnsupportedArray)

theorem placed_rewritten (source : List Char) : Placed source (rewritten source) :=
  (placed_scanUniforms source).sublist List.filter_sublist

/-! ## Places in the output -/

/-- The number of characters of declarations in front of a place. -/
def removedBefore (decls : List UniformDecl) (k : Nat) : Nat :=
  ((decls.filter fun d => decide (d.stop ≤ k)).map (·.length)).sum

/-- The place in the output of a place outside of declarations: they have moved it to the
front, and the block, if it comes before, to the back. -/
def movedPlace (block : List Char) (decls : List UniformDecl) (k : Nat) : Nat :=
  k - removedBefore decls k +
    if (lastLoose? decls).any fun d => decide (d.stop ≤ k) then block.length else 0

/-- The place of the block in the output. -/
def blockPlace (decls : List UniformDecl) : Nat :=
  (lastLoose? decls).elim 0 fun d => d.offset - removedBefore decls d.offset

section

variable {source : List Char} {decls front back : List UniformDecl} {j k : Nat}

theorem editsOf_append (block : List Char) (front back : List UniformDecl) :
    editsOf block (front ++ back) =
      editsOf (if back.all (·.isOpaque) then block else []) front ++ editsOf block back := by
  induction front with
  | nil => rfl
  | cons d front ih =>
      simp only [List.cons_append, editsOf, ih, List.all_append]
      cases back.all (·.isOpaque) <;> simp

theorem mem_editsOf {block : List Char} {e : Edit} (he : e ∈ editsOf block decls) :
    ∃ d ∈ decls, e.offset = d.offset ∧ e.stop = d.stop ∧ (e.text = block ∨ e.text = []) := by
  induction decls with
  | nil => cases he
  | cons d decls ih =>
      rcases List.mem_cons.mp he with rfl | he
      · exact ⟨d, List.mem_cons_self, rfl, rfl, ite_eq_or_eq _ _ _⟩
      · obtain ⟨d', hd', heq⟩ := ih he
        exact ⟨d', List.mem_cons_of_mem d hd', heq⟩

theorem removed_editsOf (block : List Char) (decls : List UniformDecl) :
    removed (editsOf block decls) = (decls.map (·.length)).sum := by
  induction decls with
  | nil => rfl
  | cons d decls ih =>
      rw [removed] at ih
      simp only [removed, editsOf, List.map_cons, List.sum_cons, ih, UniformDecl.stop]
      omega

/-- The block is added once, if there is a loose declaration at all. -/
theorem added_editsOf (block : List Char) (decls : List UniformDecl) :
    added (editsOf block decls) = if decls.all (·.isOpaque) then 0 else block.length := by
  induction decls with
  | nil => rfl
  | cons d decls ih =>
      rw [added] at ih
      simp only [added, editsOf, List.map_cons, List.sum_cons, ih, List.all_cons]
      rcases Bool.eq_false_or_eq_true d.isOpaque with hd | hd <;>
        rcases Bool.eq_false_or_eq_true (decls.all (·.isOpaque)) with hall | hall <;>
          simp [hd, hall]

/-- Declarations lie in front of a place or behind it, if it is outside of all of them. -/
theorem Placed.exists_split (h : Placed source decls)
    (houtside : ∀ d ∈ decls, k ≤ d.offset ∨ d.stop ≤ k) :
    ∃ front back, decls = front ++ back ∧ (∀ d ∈ front, d.stop ≤ k) ∧
      ∀ d ∈ back, k ≤ d.offset := by
  induction decls with
  | nil => exact ⟨[], [], rfl, by simp, by simp⟩
  | cons d decls ih =>
      obtain ⟨hd, houtside⟩ := List.forall_mem_cons.mp houtside
      obtain ⟨hbehind, -⟩ := List.pairwise_cons.mp h.apart
      obtain ⟨hlt, -⟩ := h.inside d List.mem_cons_self
      rcases hd with hle | hle
      · refine ⟨[], d :: decls, rfl, by simp, List.forall_mem_cons.mpr ⟨hle, fun e he => ?_⟩⟩
        have := hbehind e he
        omega
      · obtain ⟨front, back, rfl, hfront, hback⟩ :=
          ih (h.sublist (List.sublist_cons_self d decls)) houtside
        exact ⟨d :: front, back, rfl, List.forall_mem_cons.mpr ⟨hle, hfront⟩, hback⟩

theorem removedBefore_append (hinside : ∀ d ∈ back, d.offset < d.stop)
    (hfront : ∀ d ∈ front, d.stop ≤ k) (hback : ∀ d ∈ back, k ≤ d.offset) :
    removedBefore (front ++ back) k = (front.map (·.length)).sum := by
  have hall : (front.filter fun d => decide (d.stop ≤ k)) = front :=
    List.filter_eq_self.mpr fun d hd => decide_eq_true (hfront d hd)
  have hnone : (back.filter fun d => decide (d.stop ≤ k)) = [] := by
    refine List.filter_eq_nil_iff.mpr fun d hd => ?_
    have hlt := hinside d hd
    have hle := hback d hd
    simp only [decide_eq_true_eq]
    omega
  rw [removedBefore, List.filter_append, hall, hnone, List.append_nil]

/-- Between two places there is room for the declarations there. -/
theorem Placed.sum_length_le (h : Placed source decls) (hstart : ∀ d ∈ decls, j ≤ d.offset) :
    removedBefore decls k ≤ k - j := by
  induction decls generalizing j with
  | nil => exact Nat.zero_le _
  | cons d decls ih =>
      obtain ⟨hj, hstart⟩ := List.forall_mem_cons.mp hstart
      obtain ⟨hbehind, -⟩ := List.pairwise_cons.mp h.apart
      have hrest := h.sublist (List.sublist_cons_self d decls)
      rw [removedBefore, List.filter_cons]
      split
      · next hk =>
        have hle : d.stop ≤ k := of_decide_eq_true hk
        have hsum := ih hrest hbehind
        rw [removedBefore] at hsum
        rw [UniformDecl.stop] at hle hsum
        rw [List.map_cons, List.sum_cons]
        omega
      · exact ih hrest hstart

/-- No declaration ends inside of a part of the text that none meets. -/
theorem Placed.removedBefore_add (h : Placed source decls) {n : Nat}
    (houtside : ∀ d ∈ decls, k + n ≤ d.offset ∨ d.stop ≤ k) :
    removedBefore decls (k + n) = removedBefore decls k := by
  unfold removedBefore
  congr 2
  refine List.filter_congr fun d hd => decide_eq_decide.mpr ⟨fun hle => ?_, fun hle => by omega⟩
  have hlt := (h.inside d hd).1
  have := houtside d hd
  omega

/-- Places outside of declarations keep their order. -/
theorem Placed.sub_removedBefore_le (h : Placed source decls)
    (houtside : ∀ d ∈ decls, j ≤ d.offset ∨ d.stop ≤ j) (hle : j ≤ k) :
    removedBefore decls j ≤ j ∧
      j - removedBefore decls j ≤ k - removedBefore decls k := by
  obtain ⟨front, back, rfl, hfront, hback⟩ := h.exists_split houtside
  have hj : removedBefore (front ++ back) j ≤ j - 0 :=
    h.sum_length_le fun d _ => Nat.zero_le d.offset
  have hsum := (h.sublist (List.sublist_append_right front back)).sum_length_le (k := k) hback
  have hk : removedBefore (front ++ back) k =
      removedBefore (front ++ back) j + removedBefore back k := by
    have hall : (front.filter fun d => decide (d.stop ≤ k)) = front :=
      List.filter_eq_self.mpr fun d hd => decide_eq_true ((hfront d hd).trans hle)
    rw [removedBefore_append (fun d hd => (h.inside d (by simp [hd])).1) hfront hback,
      removedBefore, removedBefore, List.filter_append, hall, List.map_append, List.sum_append]
  omega

theorem Placed.applyEdits_split (h : Placed source (front ++ back)) (block : List Char)
    (hk : k ≤ source.length) (hfront : ∀ d ∈ front, d.stop ≤ k)
    (hback : ∀ d ∈ back, k ≤ d.offset) :
    Laid 0 k (editsOf (if back.all (·.isOpaque) then block else []) front) ∧
      spliceFrom block 0 source (front ++ back) =
        applyEdits 0 (source.take k)
            (editsOf (if back.all (·.isOpaque) then block else []) front) ++
          applyEdits k (source.drop k) (editsOf block back) := by
  have hlaid : Laid 0 source.length (editsOf block (front ++ back)) :=
    h.inOrder.laid_editsOf block (by simp) (Nat.zero_le _)
  rw [editsOf_append] at hlaid
  obtain ⟨h₁, h₂⟩ := hlaid.split (Nat.zero_le k) hk
    (fun e he => by
      obtain ⟨d, hd, -, hstop, -⟩ := mem_editsOf he
      exact hstop ▸ hfront d hd)
    (fun e he => by
      obtain ⟨d, hd, hoffset, -⟩ := mem_editsOf he
      exact hoffset ▸ hback d hd)
  refine ⟨h₁, ?_⟩
  rw [spliceFrom_eq_applyEdits, editsOf_append,
    applyEdits_append h₁ (by rwa [Nat.zero_add]), Nat.sub_zero]

end

/-! ## Uses of uniforms -/

/-- A word stands at a place of a text as a whole word. -/
structure WordAt (text word : List Char) (k : Nat) : Prop where
  /-- The word stands there. -/
  here : word <+: text.drop k
  /-- No character of a word stands in front of it. -/
  before : Parted (text.take k)
  /-- No character of a word follows. -/
  behind : Stops Text.isWordChar (text.drop (k + word.length))

/-- A use of a uniform behind its declaration and outside of all declarations. -/
structure UseAt (source : List Char) (decls : List UniformDecl) (u : UniformDecl) (k : Nat) :
    Prop where
  /-- The name stands there as a whole word. -/
  word : WordAt source u.name k
  /-- The declaration ends in front of it. -/
  later : u.stop ≤ k
  /-- It touches no declaration. -/
  outside : ∀ d ∈ decls, k + u.name.length ≤ d.offset ∨ d.stop ≤ k

/-- Decided along the text, so that uses can be searched for. -/
instance (p : Char → Bool) (rest : List Char) : Decidable (Stops p rest) :=
  rest.head?.decidableForallMem

instance (text word : List Char) (k : Nat) : Decidable (WordAt text word k) :=
  decidable_of_iff
    (word <+: text.drop k ∧ Parted (text.take k) ∧
      Stops Text.isWordChar (text.drop (k + word.length)))
    ⟨fun h => ⟨h.1, h.2.1, h.2.2⟩, fun h => ⟨h.here, h.before, h.behind⟩⟩

instance (source : List Char) (decls : List UniformDecl) (u : UniformDecl) (k : Nat) :
    Decidable (UseAt source decls u k) :=
  decidable_of_iff
    (WordAt source u.name k ∧ u.stop ≤ k ∧
      ∀ d ∈ decls, k + u.name.length ≤ d.offset ∨ d.stop ≤ k)
    ⟨fun h => ⟨h.1, h.2.1, h.2.2⟩, fun h => ⟨h.word, h.later, h.outside⟩⟩

theorem WordAt.add_length_le {text word : List Char} {k : Nat} (h : WordAt text word k)
    (hne : word ≠ []) : k + word.length ≤ text.length := by
  have hpos := List.length_pos_iff.mpr hne
  have hle := h.here.length_le
  rw [List.length_drop] at hle
  omega

/-- Words do not stop inside of a word. -/
theorem WordAt.not_parted {text word : List Char} {k : Nat} (h : WordAt text word k)
    (hword : IsWord word) : ¬ Parted (text.take (k + word.length)) := by
  intro hparted
  obtain ⟨rest, hrest⟩ := h.here
  have htake : text.take (k + word.length) = text.take k ++ word := by
    rw [List.take_add, ← hrest, List.take_left]
  have hlast := List.getLast?_eq_some_getLast hword.1
  have hnot := hparted (word.getLast hword.1) (by
    rw [htake, List.getLast?_append, hlast]
    rfl)
  rw [hword.2 _ (List.getLast_mem hword.1)] at hnot
  cases hnot

section

variable {source : List Char} {decls : List UniformDecl} {u last : UniformDecl} {k : Nat}

theorem parted_blockText (stage : Stage) (loose : List UniformDecl) :
    Parted (blockText stage loose) := by
  intro c hc
  unfold blockText at hc
  split at hc
  · cases hc
  · have hend : ("\x7d;\n".toList).getLast? = some '\n' := rfl
    rw [List.getLast?_append, hend] at hc
    obtain rfl := Option.some.inj hc
    rfl

theorem memberLine_infix_blockText (stage : Stage) {loose : List UniformDecl} (hu : u ∈ loose) :
    memberLine u <:+: blockText stage loose := by
  obtain ⟨before, behind, rfl⟩ := List.append_of_mem hu
  have hne : (before ++ u :: behind).isEmpty = false := by simp
  rw [blockText, hne, List.flatMap_append, List.flatMap_cons]
  exact ⟨("layout(std140, binding = 0) uniform " ++ blockName stage ++ "\n\x7b\n").toList ++
    before.flatMap memberLine, behind.flatMap memberLine ++ "\x7d;\n".toList, by simp⟩

/-- No array of small matrices is rewritten. -/
theorem suffix_eq_nil_of_mem_rewritten (hu : u ∈ rewritten source) (hmat2 : u.isMat2 = true) :
    u.suffix = [] := by
  have hsupported := (List.mem_filter.mp hu).2
  rw [UniformDecl.isUnsupportedArray, hmat2, Bool.or_true, Bool.true_and, Bool.not_not,
    List.isEmpty_iff] at hsupported
  exact hsupported

/-- A loose uniform that is rewritten has its member in the block. -/
theorem member_infix_blockText (stage : Stage) (hu : u ∈ rewritten source)
    (hloose : u.isOpaque = false) :
    '\t' :: (u.member ++ [';', '\n']) <:+:
      blockText stage ((rewritten source).filter (!·.isOpaque)) := by
  rw [← memberText_eq_member (suffix_eq_nil_of_mem_rewritten hu)]
  exact memberLine_infix_blockText stage (List.mem_filter.mpr ⟨hu, by rw [hloose]; rfl⟩)

theorem lastLoose?_eq_none_iff : lastLoose? decls = none ↔ decls.all (·.isOpaque) = true := by
  rw [lastLoose?, List.getLast?_eq_none_iff, List.filter_eq_nil_iff, List.all_eq_true]
  simp

theorem mem_of_lastLoose? (h : lastLoose? decls = some last) :
    last ∈ decls ∧ last.isOpaque = false := by
  obtain ⟨front, back, rfl, hloose, -⟩ := lastLoose?_eq_some h
  exact ⟨by simp, hloose⟩

/-- The block comes before a place if loose declarations do and none comes behind. -/
theorem any_lastLoose?_append {front back : List UniformDecl}
    (hinside : ∀ d ∈ back, d.offset < d.stop) (hfront : ∀ d ∈ front, d.stop ≤ k)
    (hback : ∀ d ∈ back, k ≤ d.offset) :
    ((lastLoose? (front ++ back)).any fun d => decide (d.stop ≤ k)) =
      (!front.all (·.isOpaque) && back.all (·.isOpaque)) := by
  have hor : lastLoose? (front ++ back) = (lastLoose? back).or (lastLoose? front) := by
    rw [lastLoose?, List.filter_append, List.getLast?_append]
    rfl
  rw [hor]
  cases hb : lastLoose? back with
  | some last =>
      obtain ⟨hmem, hloose⟩ := mem_of_lastLoose? hb
      have hall : back.all (·.isOpaque) = false := by
        rw [Bool.eq_false_iff, ne_eq, ← lastLoose?_eq_none_iff, hb]
        simp
      have hlt := hinside last hmem
      have hle := hback last hmem
      rw [hall, Bool.and_false]
      simp only [Option.some_or, Option.any_some, decide_eq_false_iff_not]
      omega
  | none =>
      rw [lastLoose?_eq_none_iff.mp hb, Bool.and_true, Option.none_or]
      cases hf : lastLoose? front with
      | none => rw [lastLoose?_eq_none_iff.mp hf]; rfl
      | some last =>
          have hall : front.all (·.isOpaque) = false := by
            rw [Bool.eq_false_iff, ne_eq, ← lastLoose?_eq_none_iff, hf]
            simp
          rw [hall]
          simp [hfront last (mem_of_lastLoose? hf).1]

theorem Placed.length_front {front back : List UniformDecl} (h : Placed source (front ++ back))
    (block : List Char) (hk : k ≤ source.length) (hfront : ∀ d ∈ front, d.stop ≤ k)
    (hback : ∀ d ∈ back, k ≤ d.offset) :
    (applyEdits 0 (source.take k)
      (editsOf (if back.all (·.isOpaque) then block else []) front)).length =
        movedPlace block (front ++ back) k := by
  have hinside : ∀ d ∈ back, d.offset < d.stop := fun d hd => (h.inside d (by simp [hd])).1
  have hlaid := (h.applyEdits_split block hk hfront hback).1
  rw [← Nat.zero_add k, ← List.length_take_of_le hk] at hlaid
  have hlength := length_applyEdits hlaid
  rw [removed_editsOf, added_editsOf, List.length_take, Nat.min_eq_left hk] at hlength
  rw [movedPlace, removedBefore_append hinside hfront hback,
    any_lastLoose?_append hinside hfront hback]
  have hroom : removedBefore (front ++ back) k ≤ k - 0 :=
    h.sum_length_le fun d _ => Nat.zero_le d.offset
  rw [removedBefore_append hinside hfront hback] at hroom
  cases hf : front.all (·.isOpaque) <;> cases hb : back.all (·.isOpaque) <;>
    simp [hf, hb] at hlength ⊢ <;> omega

/-- The block stands at its place in the output. -/
theorem Placed.block_prefix (h : Placed source decls) (block : List Char)
    (hlast : lastLoose? decls = some last) :
    block <+: (spliceFrom block 0 source decls).drop (blockPlace decls) := by
  have hinside := h.inside last (mem_of_lastLoose? hlast).1
  have hplace : blockPlace decls = movedPlace block decls last.offset := by
    have hnot : ¬ last.stop ≤ last.offset := by omega
    simp [blockPlace, movedPlace, hlast, hnot]
  obtain ⟨front, back, rfl, hloose, hback⟩ := lastLoose?_eq_some hlast
  obtain ⟨-, hpair, hcross⟩ := List.pairwise_append.mp h.apart
  obtain ⟨hbehind, -⟩ := List.pairwise_cons.mp hpair
  have hfront : ∀ d ∈ front, d.stop ≤ last.offset := fun d hd => hcross d hd last List.mem_cons_self
  have hoffset : ∀ d ∈ last :: back, last.offset ≤ d.offset :=
    List.forall_mem_cons.mpr ⟨le_rfl, fun d hd => by
      have := hbehind d hd
      omega⟩
  have hall : back.all (·.isOpaque) = true := List.all_eq_true.mpr hback
  rw [hplace, ← h.length_front block (by omega) hfront hoffset,
    (h.applyEdits_split block (by omega) hfront hoffset).2, List.drop_left]
  simp [editsOf, applyEdits, hloose, hall]

/-- A place of a character outside of declarations. -/
def Outside (decls : List UniformDecl) (k : Nat) : Prop :=
  ∀ d ∈ decls, k + 1 ≤ d.offset ∨ d.stop ≤ k

/-- Places of characters outside of declarations become places of the same characters of a
text, in the same order. -/
structure Moves (source : List Char) (decls : List UniformDecl) (output : List Char)
    (place : Nat → Nat) : Prop where
  /-- The same character is at the new place. -/
  same : ∀ k < source.length, Outside decls k → output[place k]? = source[k]?
  /-- Of two places, the first one stays the first. -/
  order : ∀ j k, j < k → Outside decls j → Outside decls k → place j < place k

theorem Outside.place (h : Outside decls k) : ∀ d ∈ decls, k ≤ d.offset ∨ d.stop ≤ k :=
  fun d hd => (h d hd).imp_left Nat.le_of_succ_le

/-- A part of the text that no declaration meets stands in the output. -/
theorem Placed.take_prefix_movedPlace (h : Placed source decls) (block : List Char) {n : Nat}
    (hk : k ≤ source.length) (houtside : ∀ d ∈ decls, k + n ≤ d.offset ∨ d.stop ≤ k) :
    (source.drop k).take n <+:
      (spliceFrom block 0 source decls).drop (movedPlace block decls k) := by
  obtain ⟨front, back, rfl, hfront, hback⟩ := h.exists_split (k := k) fun d hd =>
    (houtside d hd).imp_left fun hle => by omega
  have hroom : ∀ e ∈ editsOf block back, k + n ≤ e.offset := fun e he => by
    obtain ⟨d, hd, hoffset, -⟩ := mem_editsOf he
    have hmem : d ∈ front ++ back := by simp [hd]
    have hlt := (h.inside d hmem).1
    have hle := hback d hd
    have := houtside d hmem
    omega
  rw [(h.applyEdits_split block hk hfront hback).2, ← h.length_front block hk hfront hback,
    List.drop_left]
  exact take_prefix_applyEdits hroom

/-- Characters outside of declarations are kept in order.  A block in front of one of them
is in front of all later ones. -/
theorem Placed.moves_movedPlace (h : Placed source decls) (block : List Char) :
    Moves source decls (spliceFrom block 0 source decls) (movedPlace block decls) where
  same := by
    intro k hk houtside
    obtain ⟨rest, hrest⟩ := h.take_prefix_movedPlace block hk.le houtside
    have hout := congrArg (·[0]?) hrest
    simp only [List.getElem?_drop, Nat.add_zero] at hout
    rw [← hout, List.drop_eq_getElem_cons hk, List.getElem?_eq_getElem hk]
    rfl
  order := by
    intro j k hlt hj hk
    have hkept := h.sub_removedBefore_le (j := j + 1) (k := k)
      (fun d hd => (hj d hd).imp_right fun hle => by omega) hlt
    rw [h.removedBefore_add hj] at hkept
    have hroom : removedBefore decls j ≤ j - 0 := h.sum_length_le fun d _ => Nat.zero_le d.offset
    have hblock :
        (if (lastLoose? decls).any fun d => decide (d.stop ≤ j) then block.length else 0) ≤
        if (lastLoose? decls).any fun d => decide (d.stop ≤ k) then block.length else 0 := by
      cases lastLoose? decls with
      | none => exact le_rfl
      | some last =>
          simp only [Option.any_some, decide_eq_true_eq]
          split
          · next hle => rw [if_pos (by omega)]
          · exact Nat.zero_le _
    unfold movedPlace
    omega

/-- A use is a use in the output.  Where the word ends, no declaration starts, since that is
no place for the keyword. -/
theorem Placed.wordAt_movedPlace (h : Placed source decls) {block : List Char}
    (hblock : Parted block) (hword : IsWord u.name) (huse : UseAt source decls u k) :
    WordAt (spliceFrom block 0 source decls) u.name (movedPlace block decls k) := by
  have hend := huse.word.add_length_le hword.1
  have hk : k ≤ source.length := by omega
  obtain ⟨front, back, rfl, hfront, hback⟩ := h.exists_split (k := k) fun d hd => by
    rcases huse.outside d hd with hle | hle
    · exact .inl (by omega)
    · exact .inr hle
  obtain ⟨hlaid, hsplit⟩ := h.applyEdits_split block hk hfront hback
  have hroom : ∀ d ∈ back, k + u.name.length < d.offset := by
    intro d hd
    have hmem : d ∈ front ++ back := by simp [hd]
    have hlt := (h.inside d hmem).1
    have hle := hback d hd
    have hne : k + u.name.length ≠ d.offset := fun heq =>
      huse.word.not_parted hword (heq ▸ h.parted_take hmem)
    have := huse.outside d hmem
    omega
  obtain ⟨rest, hrest⟩ : (source.drop k).take (u.name.length + 1) <+:
      applyEdits k (source.drop k) (editsOf block back) :=
    take_prefix_applyEdits fun e he => by
      obtain ⟨d, hd, hoffset, -⟩ := mem_editsOf he
      exact hoffset ▸ hroom d hd
  obtain ⟨tail, htail⟩ := huse.word.here
  have hlength := h.length_front block hk hfront hback
  have hout : (spliceFrom block 0 source (front ++ back)).drop
      (movedPlace block (front ++ back) k) = u.name ++ (tail.take 1 ++ rest) := by
    rw [hsplit, ← hlength, List.drop_left, ← hrest, ← htail, List.take_append, List.append_assoc,
      List.take_of_length_le (Nat.le_succ _), Nat.add_sub_cancel_left]
  refine ⟨?_, ?_, ?_⟩
  · rw [hout]
    exact List.prefix_append _ _
  · rw [hsplit, ← hlength, List.take_left]
    refine parted_applyEdits (by rwa [List.length_take, Nat.min_eq_left hk, Nat.zero_add])
      huse.word.before fun e he => ?_
    obtain ⟨d, hd, hoffset, -, htext⟩ := mem_editsOf he
    have hmem : d ∈ front ++ back := by simp [hd]
    have hlt := (h.inside d hmem).1
    have hle := hfront d hd
    refine ⟨?_, ?_⟩
    · rw [List.take_take, Nat.min_eq_left (by omega), Nat.sub_zero, hoffset]
      exact h.parted_take hmem
    · have hnil : Parted [] := by simp [Parted]
      rcases htext with htext | htext <;> rw [htext]
      · split <;> assumption
      · exact hnil
  · have hstops := huse.word.behind
    rw [← List.drop_drop, ← htail, List.drop_left] at hstops
    rw [← List.drop_drop, hout, List.drop_left]
    cases tail with
    | cons c tail => exact stops_cons.mpr (stops_cons.mp hstops)
    | nil =>
        have hback : back = [] := List.eq_nil_iff_forall_not_mem.mpr fun d hd => by
          have hlt := hroom d hd
          have hinside := h.inside d (by simp [hd])
          have hlast := congrArg List.length htail
          rw [List.append_nil, List.length_drop] at hlast
          omega
        rw [hback, editsOf, applyEdits, ← htail, List.append_nil,
          List.take_of_length_le (Nat.le_succ _)] at hrest
        have hnil : rest = [] := by simpa using hrest
        rw [hnil]
        exact stops_nil

/-- A use stands behind the block if it stands behind the last loose declaration, and in
front of the block if not. -/
theorem Placed.movedPlace_cases (h : Placed source decls) (block : List Char)
    (hlast : lastLoose? decls = some last) (huse : UseAt source decls u k) :
    (last.stop ≤ k ∧ blockPlace decls + block.length ≤ movedPlace block decls k) ∨
      (k < last.stop ∧ movedPlace block decls k + u.name.length ≤ blockPlace decls) := by
  obtain ⟨hmem, -⟩ := mem_of_lastLoose? hlast
  obtain ⟨hlt, hstop⟩ := h.inside last hmem
  have hplace : blockPlace decls = last.offset - removedBefore decls last.offset := by
    rw [blockPlace, hlast, Option.elim_some]
  have hoffset : ∀ d ∈ decls, last.offset ≤ d.offset ∨ d.stop ≤ last.offset := by
    obtain ⟨front, back, rfl, -, -⟩ := lastLoose?_eq_some hlast
    obtain ⟨-, hpair, hcross⟩ := List.pairwise_append.mp h.apart
    obtain ⟨hbehind, -⟩ := List.pairwise_cons.mp hpair
    intro d hd
    rcases List.mem_append.mp hd with hd | hd
    · exact .inr (hcross d hd last List.mem_cons_self)
    · rcases List.mem_cons.mp hd with rfl | hd
      · exact .inl le_rfl
      · have := hbehind d hd
        exact .inl (by omega)
  rcases Nat.lt_or_ge k last.stop with hk | hk
  · right
    have hroom : k + u.name.length ≤ last.offset := by
      have := huse.outside last hmem
      omega
    have hafter : ∀ d ∈ decls, k + u.name.length ≤ d.offset ∨ d.stop ≤ k + u.name.length :=
      fun d hd => (huse.outside d hd).imp_right fun hle => by omega
    have hsame := h.removedBefore_add huse.outside
    have hkept := h.sub_removedBefore_le hafter hroom
    have hfront : removedBefore decls k ≤ k - 0 :=
      h.sum_length_le fun d _ => Nat.zero_le d.offset
    have hnot : ¬ last.stop ≤ k := by omega
    refine ⟨hk, ?_⟩
    simp only [movedPlace, hlast, Option.any_some, decide_eq_false hnot, Bool.false_eq_true,
      if_false, hplace]
    omega
  · left
    have hkept := h.sub_removedBefore_le hoffset (k := k) (by omega)
    refine ⟨hk, ?_⟩
    simp only [movedPlace, hlast, Option.any_some, decide_eq_true hk, if_true, hplace]
    omega

end

/-- Every use of a loose uniform behind its declaration stands behind the block. -/
def DeclaredBeforeUse (source : List Char) (stage : Stage) : Prop :=
  ∀ u ∈ rewritten source, u.isOpaque = false → ∀ k, UseAt source (rewritten source) u k →
    let block := blockText stage ((rewritten source).filter (!·.isOpaque))
    blockPlace (rewritten source) + block.length ≤ movedPlace block (rewritten source) k

/-- The characters outside of declarations move into the output in their order, and a use
of a loose uniform behind its declaration is the same word there.  It stands behind the
block, which has the member of the uniform, exactly if it stands behind the last loose
declaration.  If it stands in front of that, it stands in front of the block. -/
theorem use_behind_block_iff (source : List Char) (stage : Stage) {u : UniformDecl}
    (hu : u ∈ rewritten source) (hloose : u.isOpaque = false) {k : Nat}
    (huse : UseAt source (rewritten source) u k) :
    let decls := rewritten source
    let block := blockText stage (decls.filter (!·.isOpaque))
    let output := spliceDecls source decls stage
    (∀ p : Preprocessed, p.source = source →
      (modernizePlain p stage).source = preamble stage decls ++ output) ∧
    Moves source decls output (movedPlace block decls) ∧
    WordAt output u.name (movedPlace block decls k) ∧
    '\t' :: (u.member ++ [';', '\n']) <:+: block ∧ block <+: output.drop (blockPlace decls) ∧
    ∃ last, lastLoose? decls = some last ∧
      (blockPlace decls + block.length ≤ movedPlace block decls k ↔ last.stop ≤ k) ∧
      (movedPlace block decls k + u.name.length ≤ blockPlace decls ↔ k < last.stop) := by
  intro decls block output
  have hplaced : Placed source decls := placed_rewritten source
  have hword : IsWord u.name :=
    (isWord_of_parseDecl? (parseDecl?_of_mem_decls (List.mem_filter.mp hu).1)).2
  have hmember : '\t' :: (u.member ++ [';', '\n']) <:+: block :=
    member_infix_blockText stage hu hloose
  obtain ⟨last, hlast⟩ := exists_lastLoose hu hloose
  refine ⟨?_, hplaced.moves_movedPlace block,
    hplaced.wordAt_movedPlace (parted_blockText stage _) hword huse, hmember,
    hplaced.block_prefix block hlast, last, hlast, ?_⟩
  · rintro p rfl
    rfl
  have hpos := List.length_pos_iff.mpr hword.1
  rcases hplaced.movedPlace_cases block hlast huse with ⟨hk, hplace⟩ | ⟨hk, hplace⟩
  · exact ⟨iff_of_true hplace hk, iff_of_false (by omega) (by omega)⟩
  · exact ⟨iff_of_false (by omega) (by omega), iff_of_true hplace hk⟩

/-- A uniform that is used in front of the last declaration and behind it. -/
def usesAroundDecl : List Char :=
  ("uniform float a;\nfloat f() \x7b return a; \x7d\nuniform float b;\n" ++
    "void main() \x7b f() + a; \x7d\n").toList

/-- The block has both uniforms, behind the use in the function and in front of the other. -/
theorem use_behind_block_iff_of_usesAroundDecl :
    let u : UniformDecl := ⟨0, 16, none, "float".toList, "a".toList, []⟩
    let decls := rewritten usesAroundDecl
    let block := ("layout(std140, binding = 0) uniform compat_VertexUniforms\n\x7b\n" ++
      "\tfloat a;\n\tfloat b;\n\x7d;\n").toList
    u ∈ decls ∧ u.isOpaque = false ∧ UseAt usesAroundDecl decls u 36 ∧
      UseAt usesAroundDecl decls u 78 ∧
      blockText .vertex (decls.filter (!·.isOpaque)) = block ∧
      spliceDecls usesAroundDecl decls .vertex =
        "\nfloat f() \x7b return a; \x7d\n".toList ++ block ++
          "\nvoid main() \x7b f() + a; \x7d\n".toList ∧
      "\tfloat a;\n".toList <:+: block ∧
      movedPlace block decls 36 + 1 ≤ blockPlace decls ∧
      blockPlace decls + block.length ≤ movedPlace block decls 78 := by
  intro u decls block
  have hu : u ∈ rewritten usesAroundDecl := by decide +kernel
  have hloose : u.isOpaque = false := by decide +kernel
  have hfront : UseAt usesAroundDecl (rewritten usesAroundDecl) u 36 := by decide +kernel
  have hbehind : UseAt usesAroundDecl (rewritten usesAroundDecl) u 78 := by decide +kernel
  have hlast : ∀ last, lastLoose? decls = some last → 36 < last.stop ∧ last.stop ≤ 78 := by
    decide +kernel
  have hblock : blockText .vertex (decls.filter (!·.isOpaque)) = block := by decide +kernel
  obtain ⟨-, -, -, hmember, -, last, hsome, -, hiff⟩ :=
    use_behind_block_iff usesAroundDecl .vertex hu hloose hfront
  obtain ⟨-, -, -, -, -, last', hsome', hiff', -⟩ :=
    use_behind_block_iff usesAroundDecl .vertex hu hloose hbehind
  rw [hblock] at hmember hiff hiff'
  exact ⟨hu, hloose, hfront, hbehind, hblock, by decide +kernel, hmember,
    hiff.mpr (hlast last hsome).1, hiff'.mpr (hlast last' hsome').2⟩

/-- The use in front of the last declaration comes before the block. -/
theorem not_declaredBeforeUse_of_usesAroundDecl : ¬ DeclaredBeforeUse usesAroundDecl .vertex := by
  intro h
  have hplace := h ⟨0, 16, none, "float".toList, "a".toList, []⟩ (by decide +kernel)
    (by decide +kernel) 36 (by decide +kernel)
  exact absurd hplace (by decide +kernel)

end LegacyShader.Modern
