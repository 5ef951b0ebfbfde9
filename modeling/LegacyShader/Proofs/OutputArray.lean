import LegacyShader.Proofs.BackwardEdits
import LegacyShader.Proofs.LineNumbers

/-!
# Uses of the output array

The first element of the output array takes four tokens: its name and the index `[0]`.  In
a fragment shader the one word for the color output stands for all four, wherever they come
one right after the other.  Every other token is written as it is, but directives are not
written (`emissions`).  What is written between two tokens is white space.

A name of the output array that is written as it is has no counterpart, and its line is
reported.  So no use of the array is lost: it becomes the color output, or it is kept and
reported (`output_array_uses`).

The tokens are written by a loop that goes on by one token or by four (`TokenLoop`).  It
comes to its end, and every index that it looks at is one of the tokens.
-/

namespace LegacyShader.Modern

open LegacyShader.Preprocess (Token TokenValue)

/-! ## Elements -/

/-- The number zero, however it is written. -/
def isZero : TokenValue → Bool
  | .integer n => n.value == 0
  | _ => false

/-- The first element of the output array starts at an index. -/
def elementAt (tokens : List Token) (i : Nat) : Bool :=
  match tokens.drop i with
  | name :: opening :: index :: closing :: _ =>
      name.value == .ident fragData && opening.value == .punct .leftBracket &&
        isZero index.value && closing.value == .punct .rightBracket
  | _ => false

/-- An element starts at an index, and the stage has a color output for it. -/
def colorAt (stage : Stage) (tokens : List Token) (i : Nat) : Bool :=
  decide (stage = .fragment) && elementAt tokens i

/-- A token belongs to the index of an element in front of it. -/
def coveredAt (stage : Stage) (tokens : List Token) (i : Nat) : Bool :=
  (List.range i).any fun j => colorAt stage tokens j && decide (i ≤ j + 3)

/-- A token that is written: as the color output, or as it is. -/
structure Emission where
  /-- The token, which gives the place. -/
  token : Token
  /-- Whether the color output is written for it. -/
  isColor : Bool

namespace Emission

/-- What is written for a token. -/
def text (e : Emission) : List Char :=
  if e.isColor then fragColor.toList else e.token.value.text.toList

/-- A name of the output array that is written as it is. -/
def isUse (e : Emission) : Bool := !e.isColor && e.token.value == .ident fragData

end Emission

/-- What is written for the token at an index. -/
def emissionAt (stage : Stage) (tokens : List Token) (i : Nat) (t : Token) : Option Emission :=
  if colorAt stage tokens i then some ⟨t, true⟩
  else if t.value = .directive ∨ coveredAt stage tokens i then none
  else some ⟨t, false⟩

/-- What is written for the tokens from an index on. -/
def emissionsFrom (stage : Stage) (tokens : List Token) (i : Nat) : List Emission :=
  ((tokens.drop i).zipIdx i).filterMap fun x => emissionAt stage tokens x.2 x.1

/-- What is written for tokens. -/
def emissions (stage : Stage) (tokens : List Token) : List Emission :=
  emissionsFrom stage tokens 0

/-- The tokens without the directives. -/
def plainTokens (tokens : List Token) : List Token := tokens.filter (·.value ≠ .directive)

section

variable {stage : Stage} {tokens rest : List Token} {t : Token} {i : Nat}

theorem drop_succ_of_drop (h : tokens.drop i = t :: rest) : tokens.drop (i + 1) = rest := by
  rw [← List.drop_drop, h]
  rfl

/-- The index `[0]` is three tokens. -/
theorem firstElement?_cons (opening index closing : Token) (rest : List Token) :
    firstElement? (opening :: index :: closing :: rest) =
      if opening.value == .punct .leftBracket && isZero index.value &&
        closing.value == .punct .rightBracket then some (closing, rest) else none := by
  rw [firstElement?]
  by_cases hopening : opening.value = .punct .leftBracket <;>
    by_cases hclosing : closing.value = .punct .rightBracket <;>
      cases hindex : index.value <;> simp [hopening, hclosing, isZero]

/-- The first element of the output array is its name with the element behind it. -/
theorem elementAt_of_drop (h : tokens.drop i = t :: rest) :
    elementAt tokens i = (t.value == .ident fragData && (firstElement? rest).isSome) := by
  rw [elementAt, h]
  rcases rest with _ | ⟨opening, _ | ⟨index, _ | ⟨closing, rest⟩⟩⟩
  · simp [firstElement?]
  · simp [firstElement?]
  · simp [firstElement?]
  · rw [firstElement?_cons]
    dsimp only
    split <;> simp_all

/-- The color output is written for such an element in a fragment stage. -/
theorem colorAt_of_drop (h : tokens.drop i = t :: rest) :
    colorAt stage tokens i = true ↔
      t.value = .ident fragData ∧ stage = .fragment ∧ (firstElement? rest).isSome = true := by
  rw [colorAt, elementAt_of_drop h]
  simp only [Bool.and_eq_true, decide_eq_true_eq, beq_iff_eq]
  tauto

/-! ## What is written -/

/-- No element reaches over an index. -/
def Clear (stage : Stage) (tokens : List Token) (i : Nat) : Prop :=
  ∀ j < i, colorAt stage tokens j = true → j + 4 ≤ i

theorem Clear.coveredAt (h : Clear stage tokens i) : coveredAt stage tokens i = false := by
  simp only [Modern.coveredAt, List.any_eq_false, List.mem_range, Bool.and_eq_true,
    decide_eq_true_eq, not_and]
  intro j hj hcolor
  have := h j hj hcolor
  omega

/-- Behind a token that is written as it is, no element is under way. -/
theorem Clear.succ (h : Clear stage tokens i) (hcolor : colorAt stage tokens i = false) :
    Clear stage tokens (i + 1) := by
  intro j hj hcolor'
  rcases Nat.lt_succ_iff_lt_or_eq.mp hj with hlt | rfl
  · have := h j hlt hcolor'
    omega
  · rw [hcolor] at hcolor'
    cases hcolor'

/-- An element takes four tokens: the name, the bracket, the index and the bracket. -/
theorem exists_of_elementAt (h : elementAt tokens i = true) :
    ∃ name opening index closing rest, tokens.drop i = name :: opening :: index :: closing :: rest ∧
      opening.value = .punct .leftBracket ∧ isZero index.value = true ∧
      closing.value = .punct .rightBracket := by
  unfold elementAt at h
  split at h
  · next name opening index closing rest hdrop =>
    simp only [Bool.and_eq_true, beq_iff_eq] at h
    exact ⟨name, opening, index, closing, rest, hdrop, h.1.1.2, h.1.2, h.2⟩
  · cases h

theorem colorAt_eq_false_of_value (h : tokens.drop i = t :: rest)
    (hvalue : t.value ≠ .ident fragData) : colorAt stage tokens i = false := by
  rw [Bool.eq_false_iff]
  exact fun hcolor => hvalue ((colorAt_of_drop h).mp hcolor).1

theorem colorAt_eq_false_of_le (h : tokens.length ≤ i) : colorAt stage tokens i = false := by
  rw [colorAt, elementAt, List.drop_of_length_le h, Bool.and_false]

/-- No element starts inside of another one. -/
theorem colorAt_inside (hcolor : colorAt stage tokens i = true) {k : Nat} (hlt : i < k)
    (hle : k ≤ i + 3) : colorAt stage tokens k = false := by
  obtain ⟨name, opening, index, closing, rest, hname, hopening, hindex, hclosing⟩ :=
    exists_of_elementAt (Bool.and_eq_true_iff.mp hcolor).2
  have hdrop₁ := drop_succ_of_drop hname
  have hdrop₂ := drop_succ_of_drop hdrop₁
  have hdrop₃ := drop_succ_of_drop hdrop₂
  obtain rfl | rfl | rfl : k = i + 1 ∨ k = i + 2 ∨ k = i + 3 := by omega
  · exact colorAt_eq_false_of_value hdrop₁ (by simp [hopening])
  · exact colorAt_eq_false_of_value hdrop₂ (fun heq => by simp [heq, isZero] at hindex)
  · exact colorAt_eq_false_of_value hdrop₃ (by simp [hclosing])

/-- Behind the four tokens of an element, no element is under way. -/
theorem Clear.add_four (h : Clear stage tokens i) (hcolor : colorAt stage tokens i = true) :
    Clear stage tokens (i + 4) := by
  intro j hj hcolor'
  rcases Nat.lt_trichotomy j i with hlt | rfl | hgt
  · have := h j hlt hcolor'
    omega
  · omega
  · rw [colorAt_inside hcolor hgt (by omega)] at hcolor'
    cases hcolor'

theorem emissionsFrom_of_drop (h : tokens.drop i = t :: rest) :
    emissionsFrom stage tokens i =
      (emissionAt stage tokens i t).toList ++ emissionsFrom stage tokens (i + 1) := by
  rw [emissionsFrom, h, List.zipIdx_cons, List.filterMap_cons, emissionsFrom, drop_succ_of_drop h]
  cases emissionAt stage tokens i t <;> rfl

/-- Nothing is written for the tokens of an index. -/
theorem emissionsFrom_inside (hcolor : colorAt stage tokens i = true) {k : Nat} (hlt : i < k)
    (hle : k ≤ i + 3) : emissionsFrom stage tokens k = emissionsFrom stage tokens (k + 1) := by
  have hcovered : coveredAt stage tokens k = true := by
    simp only [coveredAt, List.any_eq_true, List.mem_range]
    exact ⟨i, hlt, by simp [hcolor, hle]⟩
  cases hdrop : tokens.drop k with
  | nil => rw [emissionsFrom, emissionsFrom, ← List.drop_drop, hdrop]; rfl
  | cons t rest =>
      rw [emissionsFrom_of_drop hdrop, emissionAt, colorAt_inside hcolor hlt hle, hcovered]
      simp

/-- An element is written once, for all of its four tokens. -/
theorem emissionsFrom_of_color (h : tokens.drop i = t :: rest)
    (hcolor : colorAt stage tokens i = true) :
    emissionsFrom stage tokens i = ⟨t, true⟩ :: emissionsFrom stage tokens (i + 4) := by
  rw [emissionsFrom_of_drop h, emissionAt, if_pos hcolor,
    emissionsFrom_inside hcolor (Nat.lt_succ_self i) (by omega),
    emissionsFrom_inside hcolor (by omega) (by omega),
    emissionsFrom_inside hcolor (by omega) (by omega)]
  rfl

theorem emissionsFrom_of_directive (h : tokens.drop i = t :: rest)
    (hdirective : t.value = .directive) :
    emissionsFrom stage tokens i = emissionsFrom stage tokens (i + 1) := by
  rw [emissionsFrom_of_drop h, emissionAt, colorAt_eq_false_of_value h (by simp [hdirective]),
    hdirective]
  simp

/-- Any other token is written as it is. -/
theorem Clear.emissionsFrom (hclear : Clear stage tokens i) (h : tokens.drop i = t :: rest)
    (hcolor : colorAt stage tokens i = false) (hdirective : t.value ≠ .directive) :
    emissionsFrom stage tokens i = ⟨t, false⟩ :: emissionsFrom stage tokens (i + 1) := by
  rw [emissionsFrom_of_drop h, emissionAt, hcolor, hclear.coveredAt]
  simp [hdirective]

/-! ## Pieces -/

theorem pieces_of_directive (h : t.value = .directive) :
    pieces stage (t :: rest) = pieces stage rest := by
  rw [pieces, if_pos h]

/-- The piece of an element reaches to its closing bracket. -/
theorem pieces_of_element {closing : Token} {behind : List Token}
    (hname : t.value = .ident fragData) (hstage : stage = .fragment)
    (h : firstElement? rest = some (closing, behind)) :
    pieces stage (t :: rest) =
      ⟨t.span, fragColor.toList, some closing.span.stop, false⟩ :: pieces stage behind := by
  rw [pieces, if_neg (by simp [hname]), if_pos ⟨hname, hstage⟩]
  split
  · next heq =>
    cases h.symm.trans heq
    rfl
  · next heq => cases h.symm.trans heq

/-- A token that is no part of an element is written as it is. -/
theorem pieces_of_other (hdirective : t.value ≠ .directive)
    (h : ¬ (t.value = .ident fragData ∧ stage = .fragment ∧ (firstElement? rest).isSome = true)) :
    pieces stage (t :: rest) =
      { Piece.ofToken t with unmapped := decide (t.value = .ident fragData ∧ stage = .fragment) } ::
        pieces stage rest := by
  rw [pieces, if_neg hdirective]
  by_cases hdata : t.value = .ident fragData ∧ stage = .fragment
  · rw [if_pos hdata, decide_eq_true hdata]
    split
    · next heq => exact absurd ⟨hdata.1, hdata.2, by rw [heq]; rfl⟩ h
    · rfl
  · rw [if_neg hdata, decide_eq_false hdata]
    rfl

/-- What the output shows of a piece. -/
def Piece.shown (p : Piece) : Preprocess.Span × List Char × Bool := (p.span, p.text, p.unmapped)

/-- What a piece of an emission shows: its place, its text and whether it is reported. -/
def Emission.shown (stage : Stage) (e : Emission) : Preprocess.Span × List Char × Bool :=
  (e.token.span, e.text, decide (stage = .fragment) && e.isUse)

theorem Emission.shown_color (stage : Stage) (t : Token) :
    shown stage ⟨t, true⟩ = (t.span, fragColor.toList, false) := by
  simp [shown, text, isUse]

theorem Emission.shown_asIs (stage : Stage) (t : Token) :
    shown stage ⟨t, false⟩ = (t.span, t.value.text.toList,
      decide (t.value = .ident fragData ∧ stage = .fragment)) := by
  simp [shown, text, isUse, Bool.and_comm, Bool.beq_eq_decide_eq]

theorem exists_of_firstElement?_isSome (h : (firstElement? rest).isSome = true)
    (hdrop : tokens.drop (i + 1) = rest) :
    ∃ closing, firstElement? rest = some (closing, tokens.drop (i + 4)) := by
  obtain ⟨⟨closing, behind⟩, helement⟩ := Option.isSome_iff_exists.mp h
  obtain ⟨opening, index, rfl⟩ := eq_of_firstElement? helement
  have hbehind := drop_succ_of_drop (drop_succ_of_drop (drop_succ_of_drop hdrop))
  exact ⟨closing, by rw [hbehind, helement]⟩

/-- The pieces of tokens are what is written for them.  The induction is on the tokens that
are left, since an element takes four of them. -/
theorem Clear.map_shown_pieces (hclear : Clear stage tokens i) :
    (pieces stage (tokens.drop i)).map Piece.shown =
      (Modern.emissionsFrom stage tokens i).map (Emission.shown stage) := by
  induction hleft : tokens.length - i using Nat.strong_induction_on generalizing i with
  | _ left ih =>
      cases hdrop : tokens.drop i with
      | nil =>
          rw [Modern.emissionsFrom, hdrop, pieces]
          rfl
      | cons t rest =>
          have hlt : i < tokens.length := by
            rw [← Nat.not_le, ← List.drop_eq_nil_iff, hdrop]
            exact List.cons_ne_nil t rest
          have hrest := drop_succ_of_drop hdrop
          by_cases hcolor : colorAt stage tokens i = true
          · obtain ⟨hname, hstage, helement⟩ := (colorAt_of_drop hdrop).mp hcolor
            obtain ⟨closing, helement⟩ := exists_of_firstElement?_isSome helement hrest
            rw [pieces_of_element hname hstage helement, emissionsFrom_of_color hdrop hcolor,
              List.map_cons, List.map_cons, Emission.shown_color,
              ih _ (by omega) (hclear.add_four hcolor) rfl]
            rfl
          · have hnext := ih _ (by omega) (hclear.succ (Bool.eq_false_iff.mpr hcolor)) rfl
            rw [hrest] at hnext
            by_cases hdirective : t.value = .directive
            · rw [pieces_of_directive hdirective, emissionsFrom_of_directive hdrop hdirective,
                hnext]
            · rw [pieces_of_other hdirective (mt (colorAt_of_drop hdrop).mpr hcolor),
                hclear.emissionsFrom hdrop (Bool.eq_false_iff.mpr hcolor) hdirective,
                List.map_cons, List.map_cons, Emission.shown_asIs, hnext]
              rfl

/-- The pieces of all tokens are what is written for them. -/
theorem map_shown_pieces (stage : Stage) (tokens : List Token) :
    (pieces stage tokens).map Piece.shown =
      (emissions stage tokens).map (Emission.shown stage) :=
  Clear.map_shown_pieces (i := 0) fun _ hj => absurd hj (Nat.not_lt_zero _)

theorem map_text_pieces (stage : Stage) (tokens : List Token) :
    (pieces stage tokens).map (·.text) = (emissions stage tokens).map (·.text) := by
  have h := congrArg (List.map (·.2.1)) (map_shown_pieces stage tokens)
  rw [List.map_map, List.map_map] at h
  exact h

/-- The lines that are reported are those of the uses that are written as they are. -/
theorem unmapped_writeTokens (source : List Char) (stage : Stage) (tokens : List Token) :
    (writeTokens source stage tokens).unmapped =
      ((emissions stage tokens).filter fun e => decide (stage = .fragment) && e.isUse).map
        fun e => Text.lineAt source e.token.span.start := by
  have h := congrArg (fun shown => (shown.filter (·.2.2)).map fun x => Text.lineAt source x.1.start)
    (map_shown_pieces stage tokens)
  simp only [List.filter_map, List.map_map] at h
  exact h

/-- Without elements, all tokens but the directives are written as they are. -/
theorem emissions_of_not_color (h : ∀ i, colorAt stage tokens i = false) :
    emissions stage tokens = (plainTokens tokens).map fun t => ⟨t, false⟩ := by
  have hcovered : ∀ i, coveredAt stage tokens i = false := by
    intro i
    simp [coveredAt, h]
  rw [emissions, emissionsFrom, List.drop_zero, plainTokens, ← List.filterMap_eq_map,
    List.filterMap_filter]
  conv_rhs => rw [← List.zipIdx_map_fst 0 tokens, List.filterMap_map]
  refine List.filterMap_congr fun x _ => ?_
  rw [emissionAt, h, hcovered]
  by_cases hdirective : x.1.value = .directive <;> simp [hdirective]

end

/-! ## What stands between -/

/-- Nothing but white space is written for a gap. -/
theorem all_isBlank_gapText (gap : List Char) : (gapText gap).all Text.isBlank = true := by
  unfold gapText
  split
  · assumption
  · split
    · decide
    · rw [List.all_eq_true]
      intro c hc
      rw [List.eq_of_mem_replicate hc]
      decide

namespace Writer

/-- What is written in front of pieces, between them and behind them. -/
def leads (source : List Char) (w : Writer) : List Piece → List (List Char)
  | [] => [separation source w.cursor (Text.byteLength source)]
  | p :: rest => w.lead source p :: leads source (w.write source p).2 rest

theorem length_leads (source : List Char) (w : Writer) (ps : List Piece) :
    (w.leads source ps).length = ps.length + 1 := by
  induction ps generalizing w with
  | nil => rfl
  | cons p ps ih => rw [leads, List.length_cons, ih, List.length_cons]

theorem all_isBlank_lead (source : List Char) (w : Writer) (p : Piece) :
    (w.lead source p).all Text.isBlank = true := by
  unfold lead
  split
  · exact all_isBlank_gapText _
  · split <;> decide

/-- Only white space is written between pieces. -/
theorem all_isBlank_of_mem_leads {source : List Char} {w : Writer} {ps : List Piece}
    {lead : List Char} (h : lead ∈ w.leads source ps) : lead.all Text.isBlank = true := by
  induction ps generalizing w with
  | nil =>
      rw [List.mem_singleton.mp h]
      exact all_isBlank_gapText _
  | cons p ps ih =>
      rcases List.mem_cons.mp h with rfl | h
      · exact all_isBlank_lead source w p
      · exact ih h

end Writer

/-- The output is what stands between the pieces and their texts in turn. -/
theorem writeFrom_eq_interleave (source : List Char) (w : Writer) (ps : List Piece) :
    writeFrom source w ps = interleave (w.leads source ps) (ps.map (·.text)) := by
  induction ps generalizing w with
  | nil => simp [writeFrom, interleave, Writer.leads]
  | cons p ps ih =>
      rw [Writer.leads, List.map_cons, interleave_cons, ← ih, ← Writer.write_fst]
      rfl

/-! ## The loop over tokens -/

/-- How far the loop over tokens is, and what it has written and reported. -/
structure TokenLoop where
  /-- The next token. -/
  index : Nat
  /-- The byte offset up to which the source is used up. -/
  cursor : Nat
  /-- What has been written. -/
  output : List Char
  /-- The lines of output arrays that could not be mapped. -/
  unmapped : List Nat

namespace TokenLoop

/-- Nothing has been written yet. -/
def start : TokenLoop := ⟨0, 0, [], []⟩

/-- Some tokens are done. -/
def advance (n : Nat) (s : TokenLoop) : TokenLoop := { s with index := s.index + n }

/-- A token is written as a text. -/
def write (source : List Char) (t : Token) (text : List Char) (s : TokenLoop) : TokenLoop :=
  if s.cursor ≤ t.span.start then
    { s with
      cursor := max s.cursor t.span.stop
      output := s.output ++ separation source s.cursor t.span.start ++ text }
  else { s with output := s.output ++ (if s.output.isEmpty then [] else [' ']) ++ text }

/-- The source is used up to the end of a token. -/
def skip (t : Token) (s : TokenLoop) : TokenLoop := { s with cursor := max s.cursor t.span.stop }

/-- A use of the output array could not be mapped. -/
def report (source : List Char) (t : Token) (s : TokenLoop) : TokenLoop :=
  { s with unmapped := s.unmapped ++ [Text.lineAt source t.span.start] }

/-- Behind the last token, the rest of the source is written. -/
def finish (source : List Char) (s : TokenLoop) : Preprocessed :=
  ⟨s.output ++ separation source s.cursor (Text.byteLength source), s.unmapped⟩

/-- The tokens from an index on.  There are none from an index past the list. -/
def tokensFrom? (tokens : List Token) (i : Nat) : Option (List Token) :=
  if i ≤ tokens.length then some (tokens.drop i) else none

/-- One turn of the loop.  There is none if an index is past the list. -/
def turn? (source : List Char) (stage : Stage) (tokens : List Token) (s : TokenLoop) :
    Option TokenLoop :=
  match tokens[s.index]? with
  | none => none
  | some t =>
      if t.value = .directive then some (s.advance 1)
      else if t.value = .ident fragData ∧ stage = .fragment then
        match tokensFrom? tokens (s.index + 1) with
        | none => none
        | some rest =>
            match firstElement? rest with
            | some (closing, _) =>
                some (((s.write source t fragColor.toList).skip closing).advance 4)
            | none => some (((s.report source t).write source t t.value.text.toList).advance 1)
      else some ((s.write source t t.value.text.toList).advance 1)

/-- The loop comes to its end from a state, with a result. -/
inductive Finishes (source : List Char) (stage : Stage) (tokens : List Token) :
    TokenLoop → Preprocessed → Prop where
  | done {s : TokenLoop} (h : tokens.length ≤ s.index) :
      Finishes source stage tokens s (s.finish source)
  | turn {s s' : TokenLoop} {result : Preprocessed} (h : s.index < tokens.length)
      (hturn : s.turn? source stage tokens = some s')
      (hresult : Finishes source stage tokens s' result) : Finishes source stage tokens s result

/-- The writer at the same point. -/
def writer (s : TokenLoop) : Writer := ⟨s.cursor, !s.output.isEmpty⟩

/-- What the loop comes to from a state. -/
def result (source : List Char) (stage : Stage) (tokens : List Token) (s : TokenLoop) :
    Preprocessed :=
  let ps := pieces stage (tokens.drop s.index)
  { source := s.output ++ writeFrom source s.writer ps
    unmapped :=
      s.unmapped ++ (ps.filter (·.unmapped)).map fun p => Text.lineAt source p.span.start }

section

variable {source : List Char} {stage : Stage} {tokens : List Token} {s s' : TokenLoop} {t : Token}
  {p : Piece}

/-- The loop writes a token as the writer writes its piece. -/
theorem output_write (source : List Char) (s : TokenLoop) (hspan : p.span = t.span) :
    (s.write source t p.text).output = s.output ++ (s.writer.write source p).1 := by
  rw [Writer.write_fst, Writer.lead, hspan, write, writer]
  by_cases hle : s.cursor ≤ t.span.start
  · simp [hle]
  · by_cases hempty : s.output = [] <;> simp [hle, hempty]

theorem cursor_write (source : List Char) (s : TokenLoop) (hspan : p.span = t.span)
    (text : List Char) :
    max (s.write source t text).cursor (p.covers.getD 0) =
      (s.writer.write source p).2.cursor := by
  unfold write Writer.write writer
  rw [hspan]
  by_cases hle : s.cursor ≤ t.span.start <;> simp [hle]

@[simp] theorem unmapped_write (text : List Char) :
    (s.write source t text).unmapped = s.unmapped := by
  unfold write
  split <;> rfl

@[simp] theorem index_write (text : List Char) : (s.write source t text).index = s.index := by
  unfold write
  split <;> rfl

/-- A turn that writes one piece leaves the result as it was. -/
theorem result_eq_of_pieces
    (hpieces : pieces stage (tokens.drop s.index) = p :: pieces stage (tokens.drop s'.index))
    (houtput : s'.output = s.output ++ (s.writer.write source p).1)
    (hcursor : s'.cursor = (s.writer.write source p).2.cursor)
    (hunmapped : s'.unmapped = s.unmapped ++
      if p.unmapped then [Text.lineAt source p.span.start] else []) :
    s'.result source stage tokens = s.result source stage tokens := by
  have hwriter : s'.writer = (s.writer.write source p).2 := by
    rw [writer, hcursor, houtput]
    cases hwritten : s.output <;> simp [Writer.write, writer, hwritten]
  rw [result, result, hpieces, writeFrom, hwriter, houtput, hunmapped]
  cases hp : p.unmapped <;> simp [hp]

/-- Behind the last token, the loop has the result of the writer. -/
theorem finish_eq_result (h : tokens.length ≤ s.index) :
    s.finish source = s.result source stage tokens := by
  rw [result, List.drop_of_length_le h, pieces]
  simp [finish, writeFrom, writer]

/-- The result stays when an element becomes the color output. -/
theorem result_color {rest : List Token} {closing : Token} (source : List Char)
    (hdrop : tokens.drop s.index = t :: rest) (hname : t.value = .ident fragData)
    (hstage : stage = .fragment)
    (helement : firstElement? rest = some (closing, tokens.drop (s.index + 4))) :
    (((s.write source t fragColor.toList).skip closing).advance 4).result source stage tokens =
      s.result source stage tokens := by
  let p : Piece := ⟨t.span, fragColor.toList, some closing.span.stop, false⟩
  have hspan : p.span = t.span := rfl
  refine result_eq_of_pieces (p := p) ?_ (output_write source s hspan)
    (cursor_write source s hspan p.text) ?_
  · rw [hdrop, pieces_of_element hname hstage helement]
    simp [p, advance, skip]
  · simp [p, advance, skip]

/-- The result stays when a token is written as it is, and reported if it is a use of the
output array. -/
theorem result_asIs {rest : List Token} (source : List Char)
    (hdrop : tokens.drop s.index = t :: rest) (hdirective : t.value ≠ .directive)
    (hother : ¬ (t.value = .ident fragData ∧ stage = .fragment ∧
      (firstElement? rest).isSome = true)) :
    (((if t.value = .ident fragData ∧ stage = .fragment then s.report source t else s).write
      source t t.value.text.toList).advance 1).result source stage tokens =
      s.result source stage tokens := by
  let p : Piece :=
    { Piece.ofToken t with unmapped := decide (t.value = .ident fragData ∧ stage = .fragment) }
  have hspan : p.span = t.span := rfl
  have hpieces : pieces stage (tokens.drop s.index) =
      p :: pieces stage (tokens.drop (s.index + 1)) := by
    rw [hdrop, pieces_of_other hdirective hother, drop_succ_of_drop hdrop]
  split
  · next hdata =>
    refine result_eq_of_pieces (p := p) ?_ (output_write source (s.report source t) hspan)
      ((Nat.max_zero _).symm.trans (cursor_write source (s.report source t) hspan p.text)) ?_
    · simpa [advance, report] using hpieces
    · simp [p, hdata, advance, report, Piece.ofToken]
  · next hdata =>
    refine result_eq_of_pieces (p := p) ?_ (output_write source s hspan)
      ((Nat.max_zero _).symm.trans (cursor_write source s hspan p.text)) ?_
    · simpa [advance] using hpieces
    · simp [p, hdata, advance]

/-- A turn finds all tokens that it looks at.  It goes on, and its result stays. -/
theorem exists_turn (source : List Char) (stage : Stage) (h : s.index < tokens.length) :
    ∃ s', s.turn? source stage tokens = some s' ∧ s.index < s'.index ∧
      s'.result source stage tokens = s.result source stage tokens := by
  have hdrop := List.drop_eq_getElem_cons h
  have hfrom : tokensFrom? tokens (s.index + 1) = some (tokens.drop (s.index + 1)) := if_pos h
  rw [turn?, List.getElem?_eq_getElem h]
  dsimp only
  generalize tokens[s.index] = t at hdrop ⊢
  by_cases hdirective : t.value = .directive
  · refine ⟨s.advance 1, if_pos hdirective, Nat.lt_succ_self _, ?_⟩
    rw [result, result, hdrop, pieces_of_directive hdirective]
    rfl
  rw [if_neg hdirective]
  by_cases hdata : t.value = .ident fragData ∧ stage = .fragment
  · rw [if_pos hdata, hfrom]
    dsimp only
    cases helement : firstElement? (tokens.drop (s.index + 1)) with
    | some found =>
        obtain ⟨closing, hfound⟩ :=
          exists_of_firstElement?_isSome (Option.isSome_of_mem helement) rfl
        obtain rfl := Option.some_injective _ (helement.symm.trans hfound)
        exact ⟨_, rfl, by simp [advance, skip], result_color source hdrop hdata.1 hdata.2 hfound⟩
    | none =>
        have hother : ¬ (t.value = .ident fragData ∧ stage = .fragment ∧
            (firstElement? (tokens.drop (s.index + 1))).isSome = true) := by simp [helement]
        have hresult := result_asIs source hdrop hdirective hother
        rw [if_pos hdata] at hresult
        exact ⟨_, rfl, by simp [advance, report], hresult⟩
  · have hresult := result_asIs source hdrop hdirective
      fun hsome => hdata ⟨hsome.1, hsome.2.1⟩
    rw [if_neg hdata] at hresult ⊢
    exact ⟨_, rfl, by simp [advance], hresult⟩

/-- The loop comes to its end. -/
theorem finishes (source : List Char) (stage : Stage) (tokens : List Token) (s : TokenLoop) :
    Finishes source stage tokens s (s.result source stage tokens) := by
  induction hleft : tokens.length - s.index using Nat.strong_induction_on generalizing s with
  | _ left ih =>
      rcases Nat.lt_or_ge s.index tokens.length with hlt | hge
      · obtain ⟨s', hturn, hindex, hresult⟩ := exists_turn source stage hlt
        rw [← hresult]
        exact .turn hlt hturn (ih _ (by omega) s' rfl)
      · rw [← finish_eq_result hge]
        exact .done hge

/-- The loop has one result. -/
theorem Finishes.unique {result result' : Preprocessed}
    (h : Finishes source stage tokens s result) (h' : Finishes source stage tokens s result') :
    result = result' := by
  induction h with
  | done hge =>
      cases h' with
      | done _ => rfl
      | turn hlt _ _ => omega
  | turn hlt hturn _ ih =>
      cases h' with
      | done hge => omega
      | turn _ hturn' hresult' =>
          cases hturn.symm.trans hturn'
          exact ih hresult'

/-- The loop comes to its end from the start, with what the writer gives. -/
theorem finishes_start_iff {result : Preprocessed} :
    Finishes source stage tokens start result ↔ result = writeTokens source stage tokens := by
  have h : Finishes source stage tokens start (writeTokens source stage tokens) :=
    finishes source stage tokens start
  constructor
  · intro hresult
    exact hresult.unique h
  · rintro rfl
    exact h

end

end TokenLoop

/-! ## Uses of the array -/

/-- The output is white space and what is written for tokens in turn. -/
theorem source_writeTokens (source : List Char) (stage : Stage) (tokens : List Token) :
    (writeTokens source stage tokens).source =
      interleave (Writer.leads source ⟨0, false⟩ (pieces stage tokens))
        ((emissions stage tokens).map (·.text)) := by
  rw [← map_text_pieces]
  exact writeFrom_eq_interleave source ⟨0, false⟩ (pieces stage tokens)

theorem length_emissions (stage : Stage) (tokens : List Token) :
    (emissions stage tokens).length = (pieces stage tokens).length := by
  have h := congrArg List.length (map_text_pieces stage tokens)
  rw [List.length_map, List.length_map] at h
  exact h.symm

/-- The loop over tokens ends without an index past the list, and its one result is the text
written and the lines reported.  The text has what `emissions` says in its order, with white
space in front, between and behind.  In a fragment shader, the lines are those of the uses of
the output array that are written as they are.  In a vertex shader, all tokens but the
directives are written as they are and nothing is reported. -/
theorem output_array_uses (source : List Char) (tokens : List Token) :
    (∀ stage result, TokenLoop.Finishes source stage tokens .start result ↔
      result = writeTokens source stage tokens) ∧
    (∀ stage, ∃ leads : List (List Char),
      leads.length = (emissions stage tokens).length + 1 ∧
      (∀ lead ∈ leads, lead.all Text.isBlank = true) ∧
      (writeTokens source stage tokens).source =
        interleave leads ((emissions stage tokens).map (·.text))) ∧
    (writeTokens source .fragment tokens).unmapped =
      ((emissions .fragment tokens).filter (·.isUse)).map
        (fun e => Text.lineAt source e.token.span.start) ∧
    emissions .vertex tokens = (plainTokens tokens).map (fun t => ⟨t, false⟩) ∧
    (writeTokens source .vertex tokens).unmapped = [] := by
  refine ⟨fun stage result => TokenLoop.finishes_start_iff, fun stage => ?_, ?_, ?_, ?_⟩
  · refine ⟨Writer.leads source ⟨0, false⟩ (pieces stage tokens), ?_,
      fun lead => Writer.all_isBlank_of_mem_leads, source_writeTokens source stage tokens⟩
    rw [Writer.length_leads, length_emissions]
  · rw [unmapped_writeTokens]
    simp
  · exact emissions_of_not_color fun i => rfl
  · rw [unmapped_writeTokens]
    simp

end LegacyShader.Modern
