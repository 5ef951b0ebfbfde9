import LegacyShader.Proofs.OutputArray

/-!
# Gaps between tokens

Tokens that stand one behind the other in a source divide it into their own texts and the
*gaps* between them (`interleave_tokenGaps`).  Written back, every token has its text and
every gap is kept, or reduced to its line breaks if it is not only white space
(`writeTokens_of_inPlace`).  So a source without comments and directives is written as it is.
-/

namespace LegacyShader.Modern

open LegacyShader.Preprocess (Token Span)
open LegacyShader.Text (Stands)

/-! ## Gaps -/

/-- Tokens stand in a source one behind the other. -/
structure InPlace (source : List Char) (tokens : List Token) : Prop where
  /-- A token starts between two characters. -/
  starts : ∀ t ∈ tokens, ∃ behind, Stands source t.span.start behind
  /-- It ends between two characters. -/
  stops : ∀ t ∈ tokens, ∃ behind, Stands source t.span.stop behind
  /-- It does not end before it starts. -/
  ordered : ∀ t ∈ tokens, t.span.start ≤ t.span.stop
  /-- Each token ends before the next ones start. -/
  disjoint : tokens.Pairwise fun t u => t.span.stop ≤ u.span.start

theorem exists_stands_iff {source : List Char} {n : Nat} :
    (∃ behind, Stands source n behind) ↔ (Text.dropBytes? n source).isSome = true := by
  simp only [Option.isSome_iff_exists, Text.dropBytes?_eq_some_iff]

theorem inPlace_iff {source : List Char} {tokens : List Token} :
    InPlace source tokens ↔
      (∀ t ∈ tokens, (Text.dropBytes? t.span.start source).isSome = true ∧
        (Text.dropBytes? t.span.stop source).isSome = true ∧ t.span.start ≤ t.span.stop) ∧
      tokens.Pairwise fun t u => t.span.stop ≤ u.span.start := by
  simp only [← exists_stands_iff]
  constructor
  · intro h
    exact ⟨fun t ht => ⟨h.starts t ht, h.stops t ht, h.ordered t ht⟩, h.disjoint⟩
  · intro h
    exact ⟨fun t ht => (h.1 t ht).1, fun t ht => (h.1 t ht).2.1, fun t ht => (h.1 t ht).2.2, h.2⟩

instance (source : List Char) (tokens : List Token) : Decidable (InPlace source tokens) :=
  decidable_of_iff _ inPlace_iff.symm

/-- The source between two offsets. -/
def cutOut (source : List Char) (start stop : Nat) : List Char :=
  (Text.slice? source start stop).getD []

/-- The source in front of tokens, between them and behind them, from an offset on. -/
def tokenGapsFrom (source : List Char) (start : Nat) (tokens : List Token) : List (List Char) :=
  List.zipWith (cutOut source) (start :: tokens.map (·.span.stop))
    (tokens.map (·.span.start) ++ [Text.byteLength source])

/-- The source in front of tokens, between them and behind them. -/
def tokenGaps (source : List Char) (tokens : List Token) : List (List Char) :=
  tokenGapsFrom source 0 tokens

/-- The source that tokens take up. -/
def tokenParts (source : List Char) (tokens : List Token) : List (List Char) :=
  tokens.map fun t => cutOut source t.span.start t.span.stop

section

variable {source rest : List Char} {n m : Nat} {t : Token} {tokens : List Token}

theorem tokenGapsFrom_cons (source : List Char) (start : Nat) (t : Token) (tokens : List Token) :
    tokenGapsFrom source start (t :: tokens) =
      cutOut source start t.span.start :: tokenGapsFrom source t.span.stop tokens := rfl

theorem InPlace.tail (h : InPlace source (t :: tokens)) : InPlace source tokens where
  starts u hu := h.starts u (List.mem_cons_of_mem t hu)
  stops u hu := h.stops u (List.mem_cons_of_mem t hu)
  ordered u hu := h.ordered u (List.mem_cons_of_mem t hu)
  disjoint := h.disjoint.of_cons

theorem InPlace.le_of_cons (h : InPlace source (t :: tokens)) :
    ∀ u ∈ tokens, t.span.stop ≤ u.span.start :=
  (List.pairwise_cons.mp h.disjoint).1

/-- What stands at an offset is the source up to another offset, and what stands there. -/
theorem eq_cutOut_append (h : Stands source n rest) (hm : ∃ behind, Stands source m behind)
    (hle : n ≤ m) : ∃ behind, rest = cutOut source n m ++ behind ∧ Stands source m behind := by
  obtain ⟨gap, hgap⟩ := exists_slice? ⟨rest, h⟩ hm hle
  obtain ⟨⟨behind, hstands⟩, rfl⟩ := Text.slice?_eq_some_iff.mp hgap
  refine ⟨behind, ?_, ?_⟩
  · rw [cutOut, hgap, h.unique hstands]
    rfl
  · exact hstands.skip gap

theorem cutOut_byteLength (h : Stands source n rest) :
    cutOut source n (Text.byteLength source) = rest := by
  have hslice : Text.slice? source n (Text.byteLength source) = some rest :=
    Text.slice?_eq_some_iff.mpr ⟨⟨[], by rwa [List.append_nil]⟩, h.add_byteLength.symm⟩
  rw [cutOut, hslice]
  rfl

/-- From a place on, the source is the gaps and the parts of the tokens in turn. -/
theorem InPlace.interleave_tokenGapsFrom (h : InPlace source tokens)
    (hstands : Stands source n rest) (hle : ∀ t ∈ tokens, n ≤ t.span.start) :
    rest = interleave (tokenGapsFrom source n tokens) (tokenParts source tokens) := by
  induction tokens generalizing n rest with
  | nil => simp [tokenGapsFrom, tokenParts, interleave, cutOut_byteLength hstands]
  | cons t tokens ih =>
      have hmem : t ∈ t :: tokens := List.mem_cons_self
      obtain ⟨behind, rfl, hstart⟩ := eq_cutOut_append hstands (h.starts t hmem) (hle t hmem)
      obtain ⟨after, rfl, hstop⟩ := eq_cutOut_append hstart (h.stops t hmem) (h.ordered t hmem)
      rw [tokenGapsFrom_cons, tokenParts, List.map_cons, interleave_cons, List.append_assoc]
      exact congrArg _ (congrArg _ (ih h.tail hstop h.le_of_cons))

/-- A source is its gaps with the tokens between them. -/
theorem InPlace.interleave_tokenGaps (h : InPlace source tokens) :
    source = interleave (tokenGaps source tokens) (tokenParts source tokens) :=
  h.interleave_tokenGapsFrom (Text.stands_zero source) fun _ _ => Nat.zero_le _

end

/-! ## Gaps that are written -/

/-- White space stays.  Of any other text its line breaks stay, or one blank if it has none. -/
def keptBreaks (gap : List Char) : List Char :=
  if gap.all Text.isBlank then gap
  else if '\n' ∈ gap then gap.filter (· == '\n')
  else [' ']

/-- What is written for a gap is its line breaks, or one blank. -/
theorem gapText_eq_keptBreaks (gap : List Char) : gapText gap = keptBreaks gap := by
  unfold gapText keptBreaks Text.lineFeeds
  split
  · rfl
  · rw [List.filter_beq]
    split
    · next hzero => rw [if_neg (List.count_eq_zero.mp hzero)]
    · next hzero => rw [if_pos (List.count_pos_iff.mp (Nat.pos_of_ne_zero hzero))]

theorem keptBreaks_ne_nil {gap : List Char} (h : gap ≠ []) : keptBreaks gap ≠ [] := by
  unfold keptBreaks
  split
  · exact h
  · split
    · next hmem =>
      exact List.ne_nil_of_mem (List.mem_filter.mpr ⟨hmem, rfl⟩)
    · exact List.cons_ne_nil _ _

section

variable {source : List Char} {stage : Stage} {tokens : List Token}

/-- Without elements of the output array, each token but the directives is a piece. -/
theorem pieces_of_not_color (h : ∀ i, colorAt stage tokens i = false) :
    pieces stage tokens = (plainTokens tokens).map fun t =>
      { Piece.ofToken t with
        unmapped := decide (t.value = .ident fragData ∧ stage = .fragment) } := by
  induction tokens with
  | nil => rw [pieces]; rfl
  | cons t tokens ih =>
      have hrest := ih fun i => h (i + 1)
      have hdrop : (t :: tokens).drop 0 = t :: tokens := rfl
      have hother := mt (colorAt_of_drop hdrop).mpr (Bool.eq_false_iff.mp (h 0))
      by_cases hdirective : t.value = .directive
      · rw [pieces_of_directive hdirective, hrest, plainTokens, plainTokens,
          List.filter_cons_of_neg (by simpa using hdirective)]
      · rw [pieces_of_other hdirective hother, hrest, plainTokens, plainTokens,
          List.filter_cons_of_pos (by simpa using hdirective), List.map_cons]

/-- Tokens in order are written behind the gaps in front of them. -/
theorem leads_map_ofToken {w : Writer} {unmapped : Token → Bool}
    (hordered : ∀ t ∈ tokens, t.span.start ≤ t.span.stop)
    (hdisjoint : tokens.Pairwise fun t u => t.span.stop ≤ u.span.start)
    (hle : ∀ t ∈ tokens, w.cursor ≤ t.span.start) :
    w.leads source (tokens.map fun t => { Piece.ofToken t with unmapped := unmapped t }) =
      (tokenGapsFrom source w.cursor tokens).map keptBreaks := by
  induction tokens generalizing w with
  | nil => simp [tokenGapsFrom, Writer.leads, separation, cutOut, gapText_eq_keptBreaks]
  | cons t tokens ih =>
      let p : Piece := { Piece.ofToken t with unmapped := unmapped t }
      obtain ⟨hstart, hlater⟩ := List.forall_mem_cons.mp hle
      obtain ⟨hspan, hspans⟩ := List.forall_mem_cons.mp hordered
      obtain ⟨hbefore, htail⟩ := List.pairwise_cons.mp hdisjoint
      have hcursor : (w.write source p).2.cursor = t.span.stop := by
        have hstop : p.stop = t.span.stop := Nat.max_zero _
        rw [Writer.cursor_write_of_le hstart, hstop]
        omega
      have hlead : w.lead source p = keptBreaks (cutOut source w.cursor t.span.start) := by
        rw [← gapText_eq_keptBreaks]
        exact if_pos hstart
      rw [List.map_cons, Writer.leads, tokenGapsFrom_cons, List.map_cons]
      have hrest := ih (w := (w.write source p).2) hspans htail (by rwa [hcursor])
      rw [hcursor] at hrest
      rw [hrest, hlead]

/-- A source is its gaps with the tokens between them.  Written back, each token has its text
and each gap becomes what `keptBreaks` keeps of it: white space, and some where the gap was not
empty, so tokens that a gap divides do not touch.  A source with white space alone between
tokens, each written as it stands, is written as it is. -/
theorem writeTokens_of_inPlace (hplace : InPlace source (plainTokens tokens))
    (hcolor : ∀ i, colorAt stage tokens i = false) :
    source = interleave (tokenGaps source (plainTokens tokens))
      (tokenParts source (plainTokens tokens)) ∧
    (writeTokens source stage tokens).source =
      interleave ((tokenGaps source (plainTokens tokens)).map keptBreaks)
        ((plainTokens tokens).map fun t => t.value.text.toList) ∧
    (∀ gap, (keptBreaks gap).all Text.isBlank = true ∧ (gap ≠ [] → keptBreaks gap ≠ [])) ∧
    ((∀ t ∈ tokens, t.value ≠ .directive) →
      (∀ t ∈ tokens, Text.slice? source t.span.start t.span.stop = some t.value.text.toList) →
      (∀ gap ∈ tokenGaps source tokens, gap.all Text.isBlank = true) →
      (writeTokens source stage tokens).source = source) := by
  have hsource := hplace.interleave_tokenGaps
  have hwritten : (writeTokens source stage tokens).source =
      interleave ((tokenGaps source (plainTokens tokens)).map keptBreaks)
        ((plainTokens tokens).map fun t => t.value.text.toList) := by
    rw [source_writeTokens, emissions_of_not_color hcolor, pieces_of_not_color hcolor,
      leads_map_ofToken hplace.ordered hplace.disjoint fun _ _ => Nat.zero_le _, List.map_map]
    rfl
  refine ⟨hsource, hwritten, fun gap => ⟨?_, keptBreaks_ne_nil⟩, fun hplain htext hblank => ?_⟩
  · rw [← gapText_eq_keptBreaks]
    exact all_isBlank_gapText gap
  · have htokens : plainTokens tokens = tokens :=
      List.filter_eq_self.mpr fun t ht => decide_eq_true (hplain t ht)
    have hparts : tokenParts source tokens = tokens.map fun t => t.value.text.toList :=
      List.map_congr_left fun t ht => by rw [cutOut, htext t ht]; rfl
    have hgaps : (tokenGaps source tokens).map keptBreaks = tokenGaps source tokens :=
      (List.map_congr_left fun gap hgap => if_pos (hblank gap hgap)).trans (List.map_id _)
    rw [htokens, hgaps, ← hparts] at hwritten
    rw [htokens] at hsource
    exact hwritten.trans hsource.symm

end

/-- Behind the last token there is no element of the output array. -/
theorem forall_colorAt_eq_false {stage : Stage} {tokens : List Token}
    (h : ∀ i < tokens.length, colorAt stage tokens i = false) (i : Nat) :
    colorAt stage tokens i = false := by
  rcases Nat.lt_or_ge i tokens.length with hlt | hge
  · exact h i hlt
  · exact colorAt_eq_false_of_le hge

/-- A source with a directive, a comment and white space of two bytes. -/
def commentedSource : List Char := "#version 100\ngl_FragData[1]/*é*/=\u00a0y;\n".toList

/-- Its tokens. -/
def commentedTokens : List Token :=
  [⟨.directive, ⟨0, 12⟩, 1⟩, ⟨.ident fragData, ⟨13, 24⟩, 2⟩, ⟨.punct .leftBracket, ⟨24, 25⟩, 2⟩,
    ⟨.integer ⟨1, true, 32⟩, ⟨25, 26⟩, 2⟩, ⟨.punct .rightBracket, ⟨26, 27⟩, 2⟩,
    ⟨.punct .equal, ⟨33, 34⟩, 2⟩, ⟨.ident "y", ⟨36, 37⟩, 2⟩, ⟨.punct .semicolon, ⟨37, 38⟩, 2⟩]

/-- A source with white space alone between its tokens, in front of them and behind them. -/
def blankSource : List Char := "\r\ngl_FragData [\u00a0x]=y;\t".toList

/-- Its tokens. -/
def blankTokens : List Token :=
  [⟨.ident fragData, ⟨2, 13⟩, 2⟩, ⟨.punct .leftBracket, ⟨14, 15⟩, 2⟩, ⟨.ident "x", ⟨17, 18⟩, 2⟩,
    ⟨.punct .rightBracket, ⟨18, 19⟩, 2⟩, ⟨.punct .equal, ⟨19, 20⟩, 2⟩, ⟨.ident "y", ⟨20, 21⟩, 2⟩,
    ⟨.punct .semicolon, ⟨21, 22⟩, 2⟩]

/-- The comment and the directive become white space, and a source with nothing else between
its tokens is written as it is. -/
theorem writeTokens_of_inPlace_of_comment :
    (InPlace commentedSource (plainTokens commentedTokens) ∧
      (∀ i, colorAt .fragment commentedTokens i = false) ∧
      (writeTokens commentedSource .fragment commentedTokens).source =
        "\ngl_FragData[1] =\u00a0y;\n".toList) ∧
    InPlace blankSource (plainTokens blankTokens) ∧
      (∀ i, colorAt .fragment blankTokens i = false) ∧
      (∀ t ∈ blankTokens, t.value ≠ .directive) ∧
      (∀ t ∈ blankTokens,
        Text.slice? blankSource t.span.start t.span.stop = some t.value.text.toList) ∧
      (∀ gap ∈ tokenGaps blankSource blankTokens, gap.all Text.isBlank = true) ∧
      (writeTokens blankSource .fragment blankTokens).source = blankSource := by
  have hplace : InPlace commentedSource (plainTokens commentedTokens) := by decide +kernel
  have hcolor : ∀ i, colorAt .fragment commentedTokens i = false :=
    forall_colorAt_eq_false (by decide +kernel)
  have hblankPlace : InPlace blankSource (plainTokens blankTokens) := by decide +kernel
  have hblankColor : ∀ i, colorAt .fragment blankTokens i = false :=
    forall_colorAt_eq_false (by decide +kernel)
  have hplain : ∀ t ∈ blankTokens, t.value ≠ .directive := by decide +kernel
  have htext : ∀ t ∈ blankTokens,
      Text.slice? blankSource t.span.start t.span.stop = some t.value.text.toList := by
    decide +kernel
  have hblank : ∀ gap ∈ tokenGaps blankSource blankTokens, gap.all Text.isBlank = true := by
    decide +kernel
  refine ⟨⟨hplace, hcolor, ?_⟩, hblankPlace, hblankColor, hplain, htext, hblank,
    (writeTokens_of_inPlace hblankPlace hblankColor).2.2.2 hplain htext hblank⟩
  rw [(writeTokens_of_inPlace hplace hcolor).2.1]
  decide +kernel

end LegacyShader.Modern
