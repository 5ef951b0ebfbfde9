import LegacyShader.Modern.Modernize
import LegacyShader.Proofs.ReaderPlaces
import LegacyShader.Proofs.UniformScan

/-!
# Line numbers of preprocessed text

The writer keeps the line feeds of the gaps between tokens.  A token that comes from no
macro is behind all that is written before it, so the writer has come no further than its
start (`PiecesInTurn`), and every line feed in front of it has been written or lost.

Line feeds are lost in two ways.  The cursor jumps over those inside of what a piece stands
for (`Writer.overrun`): a token that joined lines run through, or the element of the output
array with its index on another line.  And a gap that cannot be cut out of the source is
dropped as a whole (`Writer.missed`).  `numbered_of_preprocess` says that there is no other
way: the line of a token in the output, and that of a limitation reported there, are those
of the source without the lost line feeds.
-/

namespace LegacyShader.Modern

open LegacyShader.Preprocess (Token TokenValue unmarked)
open LegacyShader.Text (Stands lineFeeds)

/-! ## Line feeds of a source -/

/-- The number of line feeds among the first bytes of a source. -/
def feedsBefore (source : List Char) (n : Nat) : Nat :=
  ((Text.encodeUtf8 source).take n).count (Text.byteOf '\n')

/-- The number of line feeds between two offsets of a source. -/
def feedsBetween (source : List Char) (start stop : Nat) : Nat :=
  feedsBefore source stop - feedsBefore source start

/-- Line feeds can be counted in bytes, since no other character has such a byte. -/
theorem count_encodeUtf8 (cs : List Char) :
    (Text.encodeUtf8 cs).count (Text.byteOf '\n') = lineFeeds cs := by
  induction cs with
  | nil => rfl
  | cons c cs ih =>
      have hlow : '\n'.toNat < 128 := by decide
      rw [Text.encodeUtf8_cons, List.count_append, ih, lineFeeds, lineFeeds, List.count_cons]
      by_cases hc : c = '\n'
      · subst hc
        rw [Text.encodeChar_of_lt hlow, List.count_singleton_self, if_pos (beq_self_eq_true _)]
        exact Nat.add_comm _ _
      · rw [List.count_eq_zero_of_not_mem (mt (Text.byteOf_mem_encodeChar_iff hlow).mp hc),
          if_neg (mt beq_iff_eq.mp hc), Nat.zero_add, Nat.add_zero]

theorem feedsBefore_mono (source : List Char) {n m : Nat} (h : n ≤ m) :
    feedsBefore source n ≤ feedsBefore source m :=
  (List.take_sublist_take_left h).count_le _

theorem feedsBefore_byteLength (front back : List Char) :
    feedsBefore (front ++ back) (Text.byteLength front) = lineFeeds front := by
  rw [feedsBefore, Text.encodeUtf8_append, List.take_left' (Text.length_encodeUtf8 front),
    count_encodeUtf8]

/-- The line feeds up to a place are those up to an earlier one and those between the two.
-/
theorem feedsBefore_of_slice? {source gap : List Char} {n m : Nat}
    (h : Text.slice? source n m = some gap) :
    feedsBefore source m = feedsBefore source n + lineFeeds gap := by
  obtain ⟨⟨back, front, rfl, rfl⟩, rfl⟩ := Text.slice?_eq_some_iff.mp h
  rw [← Text.byteLength_append, feedsBefore_byteLength, ← List.append_assoc,
    feedsBefore_byteLength, lineFeeds, List.count_append]
  rfl

/-- What is written in place of a gap has the line feeds of the gap. -/
theorem lineFeeds_gapText (gap : List Char) : lineFeeds (gapText gap) = lineFeeds gap := by
  unfold gapText
  split
  · rfl
  · split
    · next hzero => exact hzero.symm
    · exact List.count_replicate_self

/-! ## Texts of tokens -/

theorem newline_not_mem_toDigits (n : Nat) : '\n' ∉ Nat.toDigits 10 n := by
  intro hmem
  exact absurd (Nat.isDigit_of_mem_toDigits (by decide) (by decide) hmem) (by decide)

theorem newline_not_mem_repr (n : Int) : '\n' ∉ n.repr.toList := by
  rw [Int.repr_eq_if]
  split <;> simp [newline_not_mem_toDigits]

theorem newline_not_mem_digitChars (d : Decimal.Numeral) : '\n' ∉ d.digitChars := by
  simp [Decimal.Numeral.digitChars, newline_not_mem_toDigits]

/-- A number is written without line feeds. -/
theorem newline_not_mem_positional (d : Decimal.Numeral) : '\n' ∉ d.positional.toList := by
  have hdigits := newline_not_mem_digitChars d
  have htake : ∀ k, '\n' ∉ d.digitChars.take k := fun k => mt List.mem_of_mem_take hdigits
  have hdrop : ∀ k, '\n' ∉ d.digitChars.drop k := fun k => mt List.mem_of_mem_drop hdigits
  unfold Decimal.Numeral.positional
  dsimp only
  split
  · simp [hdigits]
  · split
    · simp [hdigits]
    · simp [htake, hdrop]

theorem newline_not_mem_scientific (d : Decimal.Numeral) : '\n' ∉ (d.scientific "").toList := by
  have hdigits := newline_not_mem_digitChars d
  have htake : '\n' ∉ d.digitChars.take 1 := mt List.mem_of_mem_take hdigits
  have htail : '\n' ∉ d.digitChars.tail := mt List.mem_of_mem_tail hdigits
  unfold Decimal.Numeral.scientific
  dsimp only
  split <;> simp [htake, htail, newline_not_mem_repr]

/-- No token is written over more than one line. -/
theorem newline_not_mem_text {n : Nat} {value : TokenValue} (h : value.Fits n) :
    '\n' ∉ value.text.toList := by
  cases value with
  | ident name => exact h.2
  | integer literal =>
      unfold TokenValue.text
      dsimp only
      split <;> simp [newline_not_mem_toDigits]
  | float x =>
      cases x with
      | infinite => decide
      | finite mantissa scale =>
          unfold TokenValue.text Decimal.Magnitude.literal Decimal.NumeralStyle.write
          dsimp only
          split
          · exact newline_not_mem_positional _
          · exact newline_not_mem_scientific _
  | punct mark => cases mark <;> decide
  | directive => decide

/-! ## Writing a piece -/

/-- The end of what a piece stands for. -/
def Piece.stop (p : Piece) : Nat := max p.span.stop (p.covers.getD 0)

namespace Writer

variable {source : List Char} {w : Writer} {p : Piece}

/-- What is written in front of the text of a piece. -/
def lead (source : List Char) (w : Writer) (p : Piece) : List Char :=
  if w.cursor ≤ p.span.start then separation source w.cursor p.span.start
  else if w.started then [' '] else []

/-- The line feeds that are lost in front of a piece: those of a gap that cannot be cut out
of the source. -/
def missed (source : List Char) (w : Writer) (p : Piece) : Nat :=
  if w.cursor ≤ p.span.start ∧ Text.slice? source w.cursor p.span.start = none then
    feedsBetween source w.cursor p.span.start
  else 0

/-- The line feeds that are lost with a piece: those that the cursor passes over while the
text of the piece is written. -/
def overrun (source : List Char) (w : Writer) (p : Piece) : Nat :=
  feedsBetween source (max w.cursor p.span.start) (w.write source p).2.cursor

/-- A piece is written as what separates it from the text before and its own text. -/
theorem write_fst (source : List Char) (w : Writer) (p : Piece) :
    (w.write source p).1 = w.lead source p ++ p.text := by
  simp only [write, lead, decide_eq_true_eq]

theorem cursor_write_of_le (h : w.cursor ≤ p.span.start) :
    (w.write source p).2.cursor = max w.cursor p.stop := by
  simp only [write, h, decide_true, if_true, Piece.stop, Nat.max_assoc]

theorem cursor_write_of_lt (h : p.span.start < w.cursor) :
    (w.write source p).2.cursor = max w.cursor (p.covers.getD 0) := by
  simp only [write, Nat.not_le_of_lt h, decide_false, Bool.false_eq_true, if_false]

/-- The writer never gets beyond the pieces that it has written. -/
theorem cursor_write_le (source : List Char) (w : Writer) (p : Piece) :
    (w.write source p).2.cursor ≤ max w.cursor p.stop := by
  rcases Nat.lt_or_ge p.span.start w.cursor with h | h
  · rw [cursor_write_of_lt h, Piece.stop]
    omega
  · exact Nat.le_of_eq (cursor_write_of_le h)

/-- A gap is written with its line feeds, or lost with them. -/
theorem lineFeeds_lead (source : List Char) (h : w.cursor ≤ p.span.start) :
    feedsBefore source w.cursor + lineFeeds (w.lead source p) + w.missed source p =
      feedsBefore source p.span.start := by
  have hmono := feedsBefore_mono source h
  rw [lead, if_pos h, separation, lineFeeds_gapText, missed]
  cases hgap : Text.slice? source w.cursor p.span.start with
  | none =>
      rw [if_pos ⟨h, rfl⟩, feedsBetween]
      simp only [Option.getD_none, lineFeeds, List.count_nil]
      omega
  | some gap =>
      rw [if_neg fun hnone => Option.some_ne_none gap hnone.2, feedsBefore_of_slice? hgap]
      rfl

/-- The line feeds up to the cursor are written or lost. -/
theorem lineFeeds_write (source : List Char) (w : Writer) (htext : '\n' ∉ p.text)
    (hspan : p.span.start ≤ p.span.stop) :
    feedsBefore source w.cursor + lineFeeds (w.write source p).1 +
        (w.missed source p + w.overrun source p) =
      feedsBefore source (w.write source p).2.cursor := by
  have hfeeds : lineFeeds (w.write source p).1 = lineFeeds (w.lead source p) := by
    rw [write_fst, lineFeeds, List.count_append, List.count_eq_zero_of_not_mem htext]
    rfl
  rw [hfeeds, overrun, feedsBetween]
  rcases Nat.lt_or_ge p.span.start w.cursor with h | h
  · have hlead : lineFeeds (w.lead source p) = 0 := by
      rw [lead, if_neg (Nat.not_le_of_lt h)]
      split <;> rfl
    have hmissed : w.missed source p = 0 := if_neg fun hle => absurd hle.1 (Nat.not_le_of_lt h)
    have hle : w.cursor ≤ (w.write source p).2.cursor := by
      rw [cursor_write_of_lt h]
      exact Nat.le_max_left _ _
    have hmono := feedsBefore_mono source hle
    rw [hlead, hmissed, Nat.max_eq_left (Nat.le_of_lt h)]
    omega
  · have hlead := lineFeeds_lead source h
    have hle : p.span.start ≤ (w.write source p).2.cursor := by
      rw [cursor_write_of_le h, Piece.stop]
      omega
    have hmono := feedsBefore_mono source hle
    rw [Nat.max_eq_right h]
    omega

/-! ## Runs of a writer -/

/-- What is written in front of the text of a piece that follows others. -/
def textBefore (source : List Char) (w : Writer) : List Piece → Piece → List Char
  | [], p => w.lead source p
  | q :: before, p => (w.write source q).1 ++ textBefore source (w.write source q).2 before p

/-- The line feeds of the source that are lost in front of a piece that follows others. -/
def lostBefore (source : List Char) (w : Writer) : List Piece → Piece → Nat
  | [], p => w.missed source p
  | q :: before, p =>
      w.missed source q + w.overrun source q + lostBefore source (w.write source q).2 before p

/-- A piece stands in the output behind what is written for the pieces before it. -/
theorem exists_writeFrom_eq (source : List Char) (w : Writer) (before : List Piece) (p : Piece)
    (after : List Piece) :
    ∃ back, writeFrom source w (before ++ p :: after) =
      w.textBefore source before p ++ p.text ++ back := by
  induction before generalizing w with
  | nil =>
      refine ⟨writeFrom source (w.write source p).2 after, ?_⟩
      rw [textBefore, ← write_fst]
      rfl
  | cons q before ih =>
      obtain ⟨back, hback⟩ := ih (w.write source q).2
      refine ⟨back, ?_⟩
      rw [List.cons_append, writeFrom, textBefore]
      dsimp only
      rw [hback]
      simp only [List.append_assoc]

end Writer

/-! ## Pieces on one line -/

/-- What a piece stands for is a part of the source that lies on one line. -/
structure Piece.OneLine (source : List Char) (p : Piece) : Prop where
  /-- It starts between two characters. -/
  start : ∃ behind, Stands source p.span.start behind
  /-- It ends between two characters. -/
  stop : ∃ behind, Stands source p.span.stop behind
  /-- So does what it covers. -/
  covers : ∀ n ∈ p.covers, ∃ behind, Stands source n behind
  /-- There is no line feed in it. -/
  feeds : feedsBetween source p.span.start p.stop = 0

section

variable {source : List Char} {n m : Nat} (hn : ∃ behind, Stands source n behind)
  (hm : ∃ behind, Stands source m behind)

include hn hm

theorem stands_max : ∃ behind, Stands source (max n m) behind := by
  rcases Nat.le_total n m with h | h
  · rwa [Nat.max_eq_right h]
  · rwa [Nat.max_eq_left h]

/-- There is a text between two places, since the same number of bytes has the same
characters. -/
theorem exists_slice? (hle : n ≤ m) : ∃ gap, Text.slice? source n m = some gap := by
  obtain ⟨back, front, rfl, rfl⟩ := hn
  obtain ⟨back', front', hsource, rfl⟩ := hm
  have hfront : front <+: front' := by
    rcases List.prefix_or_prefix_of_prefix ⟨back, rfl⟩ ⟨back', hsource.symm⟩ with h | ⟨more, rfl⟩
    · exact h
    · rw [Text.byteLength_append] at hle
      cases more with
      | nil => exact (List.append_nil front').symm ▸ List.prefix_refl front'
      | cons c more =>
          have := Text.byteLength_pos (List.cons_ne_nil c more)
          omega
  obtain ⟨gap, rfl⟩ := hfront
  refine ⟨gap, Text.slice?_eq_some_iff.mpr ⟨⟨back', front, ?_, rfl⟩, Text.byteLength_append _ _⟩⟩
  rw [hsource, List.append_assoc]

end

namespace Writer

variable {source : List Char} {w : Writer} {p : Piece}

/-- A gap between two places of the source can be cut out, so none of its line feeds is
missed. -/
theorem missed_eq_zero (hw : ∃ behind, Stands source w.cursor behind)
    (hp : ∃ behind, Stands source p.span.start behind) : w.missed source p = 0 := by
  refine if_neg fun hnone => ?_
  obtain ⟨gap, hgap⟩ := exists_slice? hw hp hnone.1
  exact Option.some_ne_none gap (hgap.symm.trans hnone.2)

/-- There is no line feed in a piece on one line to run over. -/
theorem overrun_eq_zero (hp : p.OneLine source) : w.overrun source p = 0 := by
  have hfeeds := hp.feeds
  have hcursor := feedsBefore_mono source (cursor_write_le source w p)
  have hstart := feedsBefore_mono source (Nat.le_max_right w.cursor p.span.start)
  have hleft := feedsBefore_mono source (Nat.le_max_left w.cursor p.span.start)
  rw [feedsBetween] at hfeeds
  rw [overrun, feedsBetween]
  rcases Nat.le_total w.cursor p.stop with h | h
  · rw [Nat.max_eq_right h] at hcursor
    omega
  · rw [Nat.max_eq_left h] at hcursor
    omega

/-- Pieces on one line leave the writer at a place of the source. -/
theorem stands_write (hw : ∃ behind, Stands source w.cursor behind) (hp : p.OneLine source) :
    ∃ behind, Stands source (w.write source p).2.cursor behind := by
  have hcovers : ∃ behind, Stands source (p.covers.getD 0) behind := by
    cases hcovers : p.covers with
    | none => exact ⟨source, Text.stands_zero source⟩
    | some n => exact hp.covers n hcovers
  rcases Nat.lt_or_ge p.span.start w.cursor with h | h
  · rw [cursor_write_of_lt h]
    exact stands_max hw hcovers
  · rw [cursor_write_of_le h]
    exact stands_max hw (stands_max hp.stop hcovers)

/-- Nothing is lost with pieces that lie on one line. -/
theorem lostBefore_eq_zero {before : List Piece} (hw : ∃ behind, Stands source w.cursor behind)
    (hbefore : ∀ q ∈ before, q.OneLine source) (hp : ∃ behind, Stands source p.span.start behind) :
    w.lostBefore source before p = 0 := by
  induction before generalizing w with
  | nil => exact missed_eq_zero hw hp
  | cons q before ih =>
      obtain ⟨hq, hbefore⟩ := List.forall_mem_cons.mp hbefore
      rw [lostBefore, missed_eq_zero hw hq.start, overrun_eq_zero hq,
        ih (stands_write hw hq) hbefore]

end Writer

/-! ## Pieces in turn -/

/-- Pieces that come in turn: each marked one starts at a place of the source, behind an
offset and behind the end of every piece in front of it. -/
inductive PiecesInTurn (source : List Char) : Nat → List (Piece × Bool) → Prop where
  | nil {n : Nat} : PiecesInTurn source n []
  | cons {n : Nat} {p : Piece} {direct : Bool} {rest : List (Piece × Bool)} :
      '\n' ∉ p.text → p.span.start ≤ p.span.stop →
      (direct = true → n ≤ p.span.start ∧ ∃ behind, Stands source p.span.start behind) →
      PiecesInTurn source (max n p.stop) rest → PiecesInTurn source n ((p, direct) :: rest)

namespace PiecesInTurn

variable {source : List Char} {n m : Nat} {ps before after : List (Piece × Bool)} {p : Piece}

theorem mono (h : PiecesInTurn source n ps) (hle : m ≤ n) : PiecesInTurn source m ps := by
  induction h generalizing m with
  | nil => exact .nil
  | cons htext hspan hstart _ ih =>
      refine .cons htext hspan (fun hdirect => ?_) (ih (by omega))
      obtain ⟨hn, hplace⟩ := hstart hdirect
      exact ⟨Nat.le_trans hle hn, hplace⟩

/-- Up to a marked piece, the line feeds of the source are written or lost. -/
theorem lineFeeds_textBefore {w : Writer}
    (h : PiecesInTurn source n (before ++ (p, true) :: after)) (hw : w.cursor ≤ n) :
    feedsBefore source w.cursor + lineFeeds (w.textBefore source (unmarked before) p) +
        w.lostBefore source (unmarked before) p =
      feedsBefore source p.span.start := by
  induction before generalizing n w with
  | nil =>
      cases h with
      | cons _ _ hstart _ =>
          exact Writer.lineFeeds_lead source (Nat.le_trans hw (hstart rfl).1)
  | cons q before ih =>
      cases h with
      | @cons _ q _ _ htext hspan _ hrest =>
          have hcursor := Writer.cursor_write_le source w q
          have hstep := Writer.lineFeeds_write source w htext hspan
          have hrun := ih hrest (w := (w.write source q).2) (by omega)
          simp only [unmarked, List.map_cons, Writer.textBefore, Writer.lostBefore, lineFeeds,
            List.count_append] at *
          omega

/-- A piece from the source starts at a place of the source. -/
theorem stands_start (h : PiecesInTurn source n (before ++ (p, true) :: after)) :
    ∃ behind, Stands source p.span.start behind := by
  induction before generalizing n with
  | nil =>
      cases h with
      | cons _ _ hstart _ => exact (hstart rfl).2
  | cons q before ih =>
      cases h with
      | cons _ _ _ hrest => exact ih hrest

end PiecesInTurn

/-! ## Pieces of marked tokens -/

theorem unmarked_cons {α : Type} (a : α) (mark : Bool) (marked : List (α × Bool)) :
    unmarked ((a, mark) :: marked) = a :: unmarked marked := rfl

/-- The pieces of marked tokens, each with the mark of its token. -/
def markedPieces (stage : Stage) : List (Token × Bool) → List (Piece × Bool)
  | [] => []
  | (t, direct) :: rest =>
      if t.value = .directive then markedPieces stage rest
      else if t.value = .ident fragData ∧ stage = .fragment then
        match firstElement? (unmarked rest) with
        | some (closing, _) =>
            (⟨t.span, fragColor.toList, some closing.span.stop, false⟩, direct) ::
              markedPieces stage (rest.drop 3)
        | none => ({ Piece.ofToken t with unmapped := true }, direct) :: markedPieces stage rest
      else (.ofToken t, direct) :: markedPieces stage rest
termination_by marked => marked.length
decreasing_by all_goals (simp only [List.length_cons, List.length_drop]; omega)

/-- An element is made of a bracket, an index and a bracket. -/
theorem eq_of_firstElement? {ts behind : List Token} {closing : Token}
    (h : firstElement? ts = some (closing, behind)) :
    ∃ opening index, ts = opening :: index :: closing :: behind := by
  unfold firstElement? at h
  split at h
  · next opening index closing' rest =>
    refine ⟨opening, index, ?_⟩
    split at h
    · split at h
      · split at h
        · cases h
          rfl
        · cases h
      · cases h
    · cases h
  · cases h

/-- The three tokens of the index `[0]` with their marks. -/
theorem exists_of_firstElement? {marked : List (Token × Bool)} {behind : List Token}
    {closing : Token} (h : firstElement? (unmarked marked) = some (closing, behind)) :
    ∃ opening index mark rest, marked = opening :: index :: (closing, mark) :: rest ∧
      unmarked rest = behind := by
  obtain ⟨opening, index, hts⟩ := eq_of_firstElement? h
  obtain ⟨a, marked, rfl, -, hts⟩ := List.map_eq_cons_iff.mp hts
  obtain ⟨b, marked, rfl, -, hts⟩ := List.map_eq_cons_iff.mp hts
  obtain ⟨⟨c, mark⟩, rest, rfl, rfl, hrest⟩ := List.map_eq_cons_iff.mp hts
  exact ⟨a, b, mark, rest, rfl, hrest⟩

/-- The marks aside, these are the pieces of the tokens. -/
theorem unmarked_markedPieces (stage : Stage) (marked : List (Token × Bool)) :
    unmarked (markedPieces stage marked) = pieces stage (unmarked marked) := by
  fun_induction markedPieces stage marked with
  | case1 => exact pieces.eq_1 stage |>.symm
  | case2 t direct rest hdirective ih =>
      rw [ih, unmarked_cons, pieces, if_pos hdirective]
  | case3 t direct rest hdirective hdata closing behind helement ih =>
      rw [unmarked_cons, unmarked_cons, pieces, if_neg hdirective, if_pos hdata, ih]
      obtain ⟨_, _, _, rest, rfl, rfl⟩ := exists_of_firstElement? helement
      split
      · next closing' behind' heq =>
        cases helement.symm.trans heq
        rfl
      · next heq => cases helement.symm.trans heq
  | case4 t direct rest hdirective hdata helement ih =>
      rw [unmarked_cons, unmarked_cons, pieces, if_neg hdirective, if_pos hdata, ih]
      split
      · next heq => cases helement.symm.trans heq
      · rfl
  | case5 t direct rest hdirective hdata ih =>
      rw [unmarked_cons, unmarked_cons, pieces, if_neg hdirective, if_neg hdata, ih]

/-- Tokens in turn give pieces in turn. -/
theorem piecesInTurn_markedPieces (stage : Stage) {source : List Char} {n : Nat}
    {marked : List (Token × Bool)} (h : Preprocess.InTurn source n marked) :
    PiecesInTurn source n (markedPieces stage marked) := by
  fun_induction markedPieces stage marked generalizing n with
  | case1 => exact .nil
  | case2 t direct rest hdirective ih =>
      cases h with
      | cons _ _ hrest => exact (ih hrest).mono (Nat.le_max_left _ _)
  | case3 t direct rest hdirective hdata closing behind helement ih =>
      obtain ⟨_, _, _, rest, rfl, -⟩ := exists_of_firstElement? helement
      rcases h with _ | ⟨hwithin, hstart, _ | ⟨_, _, _ | ⟨_, _, _ | ⟨_, _, hrest⟩⟩⟩⟩
      have htext : '\n' ∉ fragColor.toList := by decide
      refine .cons htext hwithin.ordered hstart ((ih hrest).mono ?_)
      simp only [Piece.stop, Option.getD_some]
      omega
  | case4 t direct rest hdirective hdata helement ih =>
      cases h with
      | cons hwithin hstart hrest =>
          refine .cons (newline_not_mem_text hwithin.fits) hwithin.ordered hstart ?_
          exact (ih hrest).mono (by simp [Piece.stop, Piece.ofToken])
  | case5 t direct rest hdirective hdata ih =>
      cases h with
      | cons hwithin hstart hrest =>
          refine .cons (newline_not_mem_text hwithin.fits) hwithin.ordered hstart ?_
          exact (ih hrest).mono (by simp [Piece.stop, Piece.ofToken])

/-! ## Lines -/

theorem within_legacyMacros : legacyMacros.Within 0 := by
  have hown : ∀ name body : String, Text.byteLength body.toList ≤ name.length →
      ∀ t ∈ (Preprocess.Macro.ofText body).body, t.Within (max 0 name.length) :=
    fun name body hle t ht =>
      (Preprocess.Macro.within_ofText body t ht).mono (Nat.le_trans hle (Nat.le_max_right _ _))
  simp only [Preprocess.MacroTable.Within, legacyMacros, List.forall_mem_cons]
  exact ⟨hown _ _ (by decide), hown _ _ (by decide), hown _ _ (by decide), nofun⟩

/-- A writer that has written nothing. -/
def Writer.blank : Writer := ⟨0, false⟩

/-- What the output tells of the line of a piece that follows others.  The line feeds in
front of it are those of the source without the lost ones, and so is the line of the
limitation if the piece is an unrecognized `uniform`. -/
structure Numbered (source : List Char) (stage : Stage) (pre : Preprocessed) (before : List Piece)
    (p : Piece) : Prop where
  /-- The piece stands in the output, behind what the others are written as. -/
  text : ∃ back, pre.source = Writer.blank.textBefore source before p ++ p.text ++ back
  /-- Line feeds in front of it are kept or lost. -/
  feeds : ∃ head, Text.takeBytes? p.span.start source = some head ∧
    lineFeeds (Writer.blank.textBefore source before p) +
      Writer.blank.lostBefore source before p = lineFeeds head
  /-- None is lost if each piece before it lies on one line. -/
  kept : (∀ q ∈ before, q.OneLine source) → Writer.blank.lostBefore source before p = 0
  /-- A limitation at the piece has the line of the source, less what is lost. -/
  limitation : ∀ u ∈ (scanUniforms pre.source).unrecognized,
    u.offset = (Writer.blank.textBefore source before p).length →
    ∃ l ∈ (modernizePlain pre stage).limitations, l.kind = .uniformDeclaration ∧ l.text = u.text ∧
      l.line + Writer.blank.lostBefore source before p = Text.lineAt source p.span.start

/-- Every token that comes from no macro has the line number of the source in the output,
and so has the limitation if it is an unrecognized `uniform`. -/
def LinesKept (source : List Char) (stage : Stage) : Prop :=
  ∀ (pre : Preprocessed) (marked : List (Token × Bool)) (before after : List (Piece × Bool))
    (p : Piece), preprocess source stage = .ok pre →
    Preprocess.markedTokens source legacyMacros = marked.map .ok →
    markedPieces stage marked = before ++ (p, true) :: after →
    lineFeeds (Writer.blank.textBefore source (unmarked before) p) + 1 =
        Text.lineAt source p.span.start ∧
      ∀ u ∈ (scanUniforms pre.source).unrecognized,
        u.offset = (Writer.blank.textBefore source (unmarked before) p).length →
        (unrecognizedLimitation pre.source u).line = Text.lineAt source p.span.start

/-- An unrecognized `uniform` is reported as a limitation. -/
theorem mem_limitations {pre : Preprocessed} (stage : Stage) {u : UnrecognizedUniform}
    (h : u ∈ (scanUniforms pre.source).unrecognized) :
    unrecognizedLimitation pre.source u ∈ (modernizePlain pre stage).limitations := by
  refine List.mem_mergeSort.mpr (List.mem_append_left _ (List.mem_append_left _ ?_))
  exact List.mem_map_of_mem h

/-- Pieces in turn are written with the lines that the source has them on. -/
theorem numbered_of_writePieces {source : List Char} (stage : Stage) {pre : Preprocessed}
    {before after : List (Piece × Bool)} {p : Piece}
    (hpre : pre.source = writePieces source (unmarked (before ++ (p, true) :: after)))
    (hturn : PiecesInTurn source 0 (before ++ (p, true) :: after)) :
    Numbered source stage pre (unmarked before) p := by
  obtain ⟨behind, head, hsource, hhead⟩ := hturn.stands_start
  obtain ⟨back, hback⟩ :=
    Writer.blank.exists_writeFrom_eq source (unmarked before) p (unmarked after)
  have htext : pre.source =
      Writer.blank.textBefore source (unmarked before) p ++ p.text ++ back := by
    rw [hpre, ← hback, unmarked, List.map_append]
    rfl
  have htake : Text.takeBytes? p.span.start source = some head :=
    Text.takeBytes?_eq_some_iff.mpr ⟨behind, hsource, hhead⟩
  have hfeeds : lineFeeds (Writer.blank.textBefore source (unmarked before) p) +
      Writer.blank.lostBefore source (unmarked before) p = lineFeeds head := by
    have hrun := hturn.lineFeeds_textBefore (w := Writer.blank) (Nat.le_refl 0)
    have hzero : feedsBefore source Writer.blank.cursor = 0 := rfl
    have hstart : feedsBefore source p.span.start = lineFeeds head := by
      rw [hsource, ← hhead, feedsBefore_byteLength]
    omega
  refine ⟨⟨back, htext⟩, ⟨head, htake, hfeeds⟩, ?_, ?_⟩
  · exact fun hbefore => Writer.lostBefore_eq_zero ⟨source, Text.stands_zero source⟩ hbefore
      hturn.stands_start
  · intro u hu hoffset
    refine ⟨_, mem_limitations stage hu, rfl, rfl, ?_⟩
    rw [unrecognizedLimitation, lineOf, hoffset, htext, List.append_assoc,
      List.take_left, Text.lineAt, htake]
    dsimp only
    omega

/-- Preprocessing keeps the line of every token that comes from no macro, but for the line
feeds that are lost in front of it. -/
theorem numbered_of_preprocess {source : List Char} {stage : Stage} {pre : Preprocessed}
    (h : preprocess source stage = .ok pre) :
    ∃ marked : List (Token × Bool),
      Preprocess.markedTokens source legacyMacros = marked.map .ok ∧
      Preprocess.tokens source legacyMacros = .ok (unmarked marked) ∧
      pre.source = writePieces source (unmarked (markedPieces stage marked)) ∧
      ∀ before p after, markedPieces stage marked = before ++ (p, true) :: after →
        Numbered source stage pre (unmarked before) p := by
  unfold preprocess at h
  split at h
  · next tokens htokens =>
    cases h
    obtain ⟨marked, hmarked, rfl⟩ := Preprocess.exists_marked_of_tokens htokens
    have hpre : (writeTokens source stage (unmarked marked)).source =
        writePieces source (unmarked (markedPieces stage marked)) := by
      rw [unmarked_markedPieces]
      rfl
    have hturn := piecesInTurn_markedPieces stage
      (Preprocess.inTurn_markedTokens within_legacyMacros hmarked)
    refine ⟨marked, hmarked, htokens, hpre, fun before p after hsplit => ?_⟩
    rw [hsplit] at hpre hturn
    exact numbered_of_writePieces stage hpre hturn
  · cases h

/-! ## An index on a line of its own -/

/-- The index of the output array stands on the next line, and a list of uniforms below. -/
def brokenIndex : List Char :=
  "void main() \x7b\n    gl_FragData\n    [0] = vec4(1.0);\n\x7d\nuniform float a, b;\n".toList

namespace brokenIndex

/-- The tokens of the source with their marks. -/
def marked : List (Token × Bool) :=
  (Preprocess.markedTokens brokenIndex legacyMacros).filterMap Except.toOption

/-- What is written for it. -/
def output : Preprocessed := writeTokens brokenIndex .fragment (unmarked marked)

/-- The word `uniform` of the list. -/
def word : Piece := ⟨⟨53, 60⟩, keyword, none, false⟩

/-- The pieces in front of the keyword. -/
def before : List (Piece × Bool) := (markedPieces .fragment marked).take 13

/-- The pieces behind the keyword. -/
def after : List (Piece × Bool) := (markedPieces .fragment marked).drop 14

/-- The tokens of the source, each with its mark. -/
theorem markedTokens_eq :
    Preprocess.markedTokens brokenIndex legacyMacros = marked.map .ok := by decide +kernel

theorem preprocess_eq : preprocess brokenIndex .fragment = .ok output := by
  have htokens : Preprocess.tokens brokenIndex legacyMacros = .ok (unmarked marked) := by
    decide +kernel
  rw [preprocess, htokens, output]

theorem markedPieces_eq : markedPieces .fragment marked = before ++ (word, true) :: after := by
  decide +kernel

end brokenIndex

/-- The `uniform` of the list is on the fifth line of the source and on the fourth of the
output. -/
theorem not_linesKept_of_brokenIndex : ¬ LinesKept brokenIndex .fragment := by
  intro h
  have hlines := (h _ _ _ _ _ brokenIndex.preprocess_eq brokenIndex.markedTokens_eq
    brokenIndex.markedPieces_eq).1
  exact absurd hlines (by decide +kernel)

/-- The line feed in front of the index is lost, and the lines behind it are off by one. -/
theorem numbered_of_preprocess_of_brokenIndex :
    ∃ before after, markedPieces .fragment brokenIndex.marked =
        before ++ (brokenIndex.word, true) :: after ∧
      Numbered brokenIndex .fragment brokenIndex.output (unmarked before) brokenIndex.word ∧
      Writer.blank.lostBefore brokenIndex (unmarked before) brokenIndex.word = 1 := by
  obtain ⟨marked, hmarked, -, -, hnumbered⟩ := numbered_of_preprocess brokenIndex.preprocess_eq
  rw [brokenIndex.markedTokens_eq] at hmarked
  obtain rfl : brokenIndex.marked = marked :=
    List.map_injective_iff.mpr (fun _ _ => Except.ok.inj) hmarked
  exact ⟨_, _, brokenIndex.markedPieces_eq, hnumbered _ _ _ brokenIndex.markedPieces_eq,
    by decide +kernel⟩

end LegacyShader.Modern
