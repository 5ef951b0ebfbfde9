import LegacyShader.Modern.Block
import LegacyShader.Proofs.UniformScan

/-!
# Declarations as they are spelled

A declaration can be spelled in many ways, with any spaces between its parts
(`SpelledDecl`).  A source consists of such declarations and of filler between them,
in which the keyword does not occur.  Filler in front of a declaration does not end in a
word, so that the keyword of the declaration stands alone.

The scan of such a source finds the declarations it is made of, one after the other, and
nothing else.  Two things make that work.  The form without a precision is not mistaken
for the one with a precision, because no word follows its name
(`EndsName.takeNamed?_eq_none`).  And the brackets of a suffix end at their own closing
bracket, because an index is a word (`SpelledDecl.takeTail?_tail`).

The block of these declarations has one line for each of them.
-/

namespace LegacyShader.Modern

/-! ## Spellings -/

/-- Characters of words, at least one. -/
abbrev Word := { word : List Char // IsWord word }

/-- Spaces, at least one. -/
abbrev Gap := { gap : List Char // gap ≠ [] ∧ IsGap gap }

/-- Spaces, or nothing. -/
abbrev Spaces := { gap : List Char // IsGap gap }

/-- A declaration with the spaces between its parts. -/
structure SpelledDecl where
  /-- The spaces behind the keyword. -/
  afterKeyword : Gap
  /-- The precision, and the spaces behind it. -/
  precision : Option (Word × Gap)
  /-- The type. -/
  type : Word
  /-- The spaces behind the type. -/
  afterType : Gap
  /-- The name. -/
  name : Word
  /-- The spaces behind the name. -/
  afterName : Spaces
  /-- The index between the brackets, and the spaces behind them. -/
  index : Option (Word × Spaces)

namespace SpelledDecl

variable (d : SpelledDecl)

/-- The brackets with their index, or nothing. -/
def suffix : List Char :=
  match d.index with
  | none => []
  | some (index, _) => '[' :: (index.val ++ [']'])

/-- What stands behind the name. -/
def tail : List Char :=
  d.afterName.val ++
    match d.index with
    | none => [';']
    | some (index, gap) => '[' :: (index.val ++ ']' :: (gap.val ++ [';']))

/-- The precision with its spaces, or nothing. -/
def precisionText : List Char :=
  match d.precision with
  | none => []
  | some (word, gap) => word.val ++ gap.val

/-- The text of a declaration. -/
def text : List Char :=
  keyword ++ (d.afterKeyword.val ++ (d.precisionText ++ (d.type.val ++ (d.afterType.val ++
    (d.name.val ++ d.tail)))))

/-- The declaration that is found for a spelling at a place. -/
def declAt (offset : Nat) : UniformDecl where
  offset
  length := d.text.length
  precision := d.precision.map fun p => p.1.val
  type := d.type.val
  name := d.name.val
  suffix := d.suffix

end SpelledDecl

/-! ## Words -/

/-- A word that is spelled is taken. -/
theorem takeWord?_word (word : Word) {rest : List Char} (h : Stops Text.isWordChar rest) :
    takeWord? (word.val ++ rest) = some (word.val, rest) :=
  takeWord?_eq_some_iff.mpr ⟨word.property, h, rfl⟩

theorem afterSpaces?_gap (gap : Gap) (word : Word) (rest : List Char) :
    afterSpaces? (gap.val ++ (word.val ++ rest)) = some (word.val ++ rest) :=
  afterSpaces?_eq_some_iff.mpr
    ⟨gap.val, gap.property.1, gap.property.2, word.property.stops_isSpace, rfl⟩

theorem stops_gap (gap : Gap) (rest : List Char) : Stops Text.isWordChar (gap.val ++ rest) :=
  gap.property.2.stops_isWordChar gap.property.1

/-- A text ends a name: its first character that is no space is not one of a word either. -/
def EndsName (tail : List Char) : Prop :=
  ∃ gap c more, IsGap gap ∧ Text.isWordChar c = false ∧ isSpace c = false ∧
    tail = gap ++ c :: more

theorem EndsName.stops {tail : List Char} (h : EndsName tail) : Stops Text.isWordChar tail := by
  obtain ⟨gap, c, more, hgap, hc, -, rfl⟩ := h
  by_cases hne : gap = []
  · rw [hne]
    exact stops_cons.mpr hc
  · exact hgap.stops_isWordChar hne

/-- No name follows a name. -/
theorem EndsName.takeNamed?_eq_none {tail : List Char} (h : EndsName tail) :
    takeNamed? tail = none := by
  obtain ⟨gap, c, more, hgap, hc, hspace, rfl⟩ := h
  rw [Option.eq_none_iff_forall_ne_some]
  rintro ⟨name, suffix, behind⟩ hnamed
  obtain ⟨r₁, r₂, h₁, h₂, -⟩ := takeNamed?_eq_some_iff.mp hnamed
  obtain ⟨gap', -, hgap', hstops, heq⟩ := afterSpaces?_eq_some_iff.mp h₁
  have hr₁ : r₁ = c :: more := by
    rw [← dropWhile_run hgap' hstops, ← heq, dropWhile_run hgap (stops_cons.mpr hspace)]
  rw [hr₁, takeWord?_eq_none_iff.mpr (stops_cons.mpr hc)] at h₂
  cases h₂

/-- A word behind spaces starts no tail. -/
theorem takeTail?_gap_word (gap : Gap) (word : Word) (rest : List Char) :
    takeTail? (gap.val ++ (word.val ++ rest)) = none := by
  obtain ⟨c, chars, hword⟩ := List.exists_cons_of_ne_nil word.property.1
  have hc : Text.isWordChar c = true := word.property.2 c (by simp [hword])
  rw [takeTail?, dropWhile_run gap.property.2 word.property.stops_isSpace, hword, List.cons_append]
  split
  · next heq =>
    rw [(List.cons.inj heq).1] at hc
    cases hc
  · next heq =>
    rw [(List.cons.inj heq).1] at hc
    cases hc
  · rfl

/-- A declaration up to its name, with the spaces between its words. -/
structure DeclWords where
  /-- The space behind the keyword. -/
  afterKeyword : Gap
  /-- The precision and the space behind it, if there is one. -/
  precision : Option (Word × Gap)
  /-- The type. -/
  type : Word
  /-- The space behind the type. -/
  afterType : Gap
  /-- The name. -/
  name : Word

namespace DeclWords

variable (w : DeclWords)

/-- The precision as it is spelled. -/
def precisionText : List Char :=
  match w.precision with
  | none => []
  | some (word, gap) => word.val ++ gap.val

/-- The words as they are spelled. -/
def text : List Char :=
  keyword ++ (w.afterKeyword.val ++ (w.precisionText ++ (w.type.val ++ (w.afterType.val ++
    w.name.val))))

/-- The declaration of these words at a place. -/
def declAt (offset length : Nat) (suffix : List Char) : UniformDecl :=
  ⟨offset, length, w.precision.map fun p => p.1.val, w.type.val, w.name.val, suffix⟩

/-- The words of a declaration are parsed however they are spelled, and its tail decides
whether there is one. -/
theorem parseDecl?_text (offset : Nat) {tail : List Char} (h : EndsName tail) :
    parseDecl? offset (w.text ++ tail) = (takeTail? tail).map fun found =>
      w.declAt offset ((w.text ++ tail).length - found.2.length) found.1 := by
  rw [parseDecl?_eq, text]
  cases hprecision : w.precision with
  | none =>
      simp only [precisionText, hprecision, List.append_assoc, List.nil_append, List.drop_left,
        afterSpaces?_gap, Option.bind_some, takeWord?_word _ (stops_gap _ _),
        takeWord?_word _ h.stops, finishDecl?, h.takeNamed?_eq_none, declAt]
      cases takeTail? tail <;> rfl
  | some precision =>
      obtain ⟨word, gap⟩ := precision
      simp only [precisionText, hprecision, List.append_assoc, List.drop_left,
        afterSpaces?_gap, Option.bind_some, takeWord?_word _ (stops_gap _ _), finishDecl?,
        takeTail?_gap_word, takeNamed?, bind, takeWord?_word _ h.stops, declAt]
      cases takeTail? tail <;> rfl

end DeclWords

/-! ## A spelling is parsed -/

namespace SpelledDecl

variable (d : SpelledDecl) (rest : List Char)

/-- The part up to the name. -/
def words : DeclWords := ⟨d.afterKeyword, d.precision, d.type, d.afterType, d.name⟩

theorem text_eq : d.text = d.words.text ++ d.tail := by
  have hprecision : d.words.precisionText = d.precisionText := rfl
  rw [text, DeclWords.text, hprecision]
  simp only [words, List.append_assoc]

theorem endsName_tail : EndsName (d.tail ++ rest) := by
  unfold tail
  cases d.index with
  | none => exact ⟨d.afterName.val, ';', rest, d.afterName.property, rfl, rfl, by simp⟩
  | some index =>
      exact ⟨d.afterName.val, '[', index.1.val ++ ']' :: (index.2.val ++ ';' :: rest),
        d.afterName.property, rfl, rfl, by simp⟩

/-- What is spelled behind the name is read back.  The brackets end at the first closing
one, since there is none inside of a word. -/
theorem takeTail?_tail : takeTail? (d.tail ++ rest) = some (d.suffix, rest) := by
  rw [takeTail?_eq_some_iff]
  refine ⟨d.afterName.val, d.afterName.property, ?_⟩
  unfold tail suffix
  cases d.index with
  | none => exact .inl ⟨rfl, by simp⟩
  | some index =>
      obtain ⟨⟨index, hindex⟩, ⟨gap, hgap⟩⟩ := index
      refine .inr ⟨index ++ [']'], index ++ ']' :: (gap ++ ';' :: rest), rfl, by simp, ?_⟩
      refine takeBrackets?_eq_some_iff.mpr
        ⟨index, gap, rfl, hindex.not_mem rfl, hgap, rfl, fun u v huv => ?_⟩
      have hmem : ']' ∈ index := by simp [huv]
      exact absurd hmem (hindex.not_mem rfl)

/-- A declaration is parsed however it is spelled, and whatever follows it. -/
theorem parseDecl?_text (offset : Nat) :
    parseDecl? offset (d.text ++ rest) = some (d.declAt offset) := by
  have hlength : (d.words.text ++ (d.tail ++ rest)).length - rest.length = d.text.length := by
    rw [text_eq]
    simp only [List.length_append]
    omega
  rw [text_eq, List.append_assoc, d.words.parseDecl?_text offset (d.endsName_tail rest),
    d.takeTail?_tail rest, Option.map_some, hlength]
  rfl

/-- The text of a declaration ends with its semicolon. -/
theorem getLast?_text : d.text.getLast? = some ';' := by
  obtain ⟨front, htail⟩ : ∃ front, d.tail = front ++ [';'] := by
    unfold tail
    cases d.index with
    | none => exact ⟨d.afterName.val, rfl⟩
    | some index =>
        exact ⟨d.afterName.val ++ '[' :: (index.1.val ++ ']' :: index.2.val), by simp⟩
  simp [text, htail]

end SpelledDecl

/-! ## Sources -/

/-- A text is empty or does not end in a word. -/
def Parted (cs : List Char) : Prop := ∀ c ∈ cs.getLast?, Text.isWordChar c = false

instance (cs : List Char) : Decidable (Parted cs) := cs.getLast?.decidableForallMem

theorem Parted.append {before front : List Char} (hbefore : Parted before) (hfront : Parted front) :
    Parted (before ++ front) := by
  intro c hc
  rw [List.getLast?_append, Option.mem_def, Option.or_eq_some_iff] at hc
  rcases hc with hc | ⟨-, hc⟩
  · exact hfront c hc
  · exact hbefore c hc

theorem SpelledDecl.parted_text (d : SpelledDecl) : Parted d.text := by
  intro c hc
  rw [d.getLast?_text] at hc
  obtain rfl := Option.some.inj hc
  rfl

/-- Text in front of a declaration: the keyword does not occur in it, and it is empty or
does not end in a word. -/
structure Filler where
  /-- The text. -/
  chars : List Char
  /-- The keyword does not occur. -/
  noKeyword : ¬ keyword <:+: chars
  /-- The text does not end in a word. -/
  parted : Parted chars

/-- A source of declarations, each behind its filler, with more text at the end. -/
def sourceText : List (Filler × SpelledDecl) → List Char → List Char
  | [], last => last
  | (filler, d) :: pieces, last => filler.chars ++ (d.text ++ sourceText pieces last)

/-- The declarations of a source that starts at a place. -/
def declsFrom (offset : Nat) : List (Filler × SpelledDecl) → List UniformDecl
  | [] => []
  | (filler, d) :: pieces =>
      d.declAt (offset + filler.chars.length) ::
        declsFrom (offset + filler.chars.length + d.text.length) pieces

/-- The keyword does not start inside of filler, not even to go on behind it.  The filler
would end inside of the keyword, which is a word. -/
theorem Filler.not_keyword_prefix (filler : Filler) (rest : List Char) {k : Nat}
    (hk : k < filler.chars.length) : ¬ keyword <+: filler.chars.drop k ++ rest := by
  intro hkeyword
  rcases List.prefix_or_prefix_of_prefix hkeyword
    (List.prefix_append (filler.chars.drop k) rest) with hinside | hbeyond
  · exact filler.noKeyword (hinside.isInfix.trans (List.drop_suffix k _).isInfix)
  · have hne : filler.chars ≠ [] := List.ne_nil_of_length_pos (by omega)
    have hlast : filler.chars.getLast hne ∈ filler.chars.drop k := by
      refine List.mem_of_getLast? ?_
      rw [List.getLast?_drop, if_neg (by omega), List.getLast?_eq_some_getLast hne]
    have hnot := filler.parted _ (List.getLast?_eq_some_getLast hne)
    rw [isWord_keyword.2 _ (hbeyond.subset hlast)] at hnot
    cases hnot

section

variable {before rest last : List Char}

/-- A scan passes over filler. -/
theorem scanAt_filler (filler : Filler) :
    scanAt (before ++ (filler.chars ++ rest)) before.length =
      scanAt (before ++ filler.chars ++ rest) (before ++ filler.chars).length := by
  rw [List.append_assoc, List.length_append]
  refine scanAt_add_of_no_keyword fun k hk => ?_
  rw [List.drop_left, List.drop_append_of_le_length (Nat.le_of_lt hk)]
  exact filler.not_keyword_prefix rest hk

/-- A scan finds a declaration, however it is spelled, and goes on behind it. -/
theorem scanAt_text (d : SpelledDecl) (hbefore : Parted before) :
    scanAt (before ++ (d.text ++ rest)) before.length =
      .declared (d.declAt before.length) ::
        scanAt (before ++ d.text ++ rest) (before ++ d.text).length := by
  have hkey : KeywordAt (before ++ (d.text ++ rest)) before.length := by
    rw [KeywordAt, List.take_left, List.drop_left, startsKeyword_iff, SpelledDecl.text,
      List.append_assoc]
    refine ⟨List.prefix_append _ _, hbefore, ?_⟩
    rw [List.drop_left, List.append_assoc]
    exact stops_gap _ _
  have hd : parseDecl? before.length ((before ++ (d.text ++ rest)).drop before.length) =
      some (d.declAt before.length) := by
    rw [List.drop_left, d.parseDecl?_text]
  rw [scanAt_of_decl hkey hd, List.append_assoc, List.length_append]
  rfl

/-- Nothing is found in a text in which the keyword does not occur. -/
theorem scanAt_last (hlast : ¬ keyword <:+: last) : scanAt (before ++ last) before.length = [] := by
  have hskip : scanAt (before ++ last) before.length =
      scanAt (before ++ last) (before.length + last.length) := by
    refine scanAt_add_of_no_keyword fun k _ hkeyword => ?_
    rw [List.drop_left] at hkeyword
    exact hlast (hkeyword.isInfix.trans (List.drop_suffix k last).isInfix)
  rw [hskip, scanAt_of_length_le (List.length_append).le]

/-- A scan from a place between words finds the declarations that are spelled behind it. -/
theorem scanAt_sourceText (pieces : List (Filler × SpelledDecl)) (hlast : ¬ keyword <:+: last)
    (hbefore : Parted before) :
    scanAt (before ++ sourceText pieces last) before.length =
      (declsFrom before.length pieces).map .declared := by
  induction pieces generalizing before with
  | nil => exact scanAt_last hlast
  | cons piece pieces ih =>
      obtain ⟨filler, d⟩ := piece
      have hfiller : Parted (before ++ filler.chars) := hbefore.append filler.parted
      rw [sourceText, scanAt_filler, scanAt_text d hfiller, ih (hfiller.append d.parted_text),
        declsFrom, List.map_cons, List.length_append, List.length_append, List.length_append]

/-- A source gives its declarations in order and nothing else. -/
theorem scanUniforms_sourceText (pieces : List (Filler × SpelledDecl))
    (hlast : ¬ keyword <:+: last) :
    scanUniforms (sourceText pieces last) = ⟨declsFrom 0 pieces, []⟩ := by
  have hstart : Parted [] := by simp [Parted]
  have hscan : scanFrom 0 none (sourceText pieces last) =
      (declsFrom 0 pieces).map .declared := scanAt_sourceText pieces hlast hstart
  have hnone : (declsFrom 0 pieces).filterMap (fun _ => (none : Option UnrecognizedUniform)) =
      [] := List.filterMap_eq_nil_iff.mpr fun _ _ => rfl
  rw [scanUniforms, hscan, List.filterMap_map, List.filterMap_map]
  exact congrArg₂ UniformScan.mk List.filterMap_some hnone

end

/-! ## The block -/

/-- The line that opens the block of a stage. -/
def blockHeader : Stage → List Char
  | .vertex => "layout(std140, binding = 0) uniform compat_VertexUniforms".toList
  | .fragment => "layout(std140, binding = 0) uniform compat_FragmentUniforms".toList

/-- The lines of a block, or the one empty line of no text. -/
def blockLines (stage : Stage) (members : List (List Char)) : List (List Char) :=
  if members.isEmpty then [[]]
  else
    blockHeader stage :: ['\x7b'] ::
      (members.map (fun m => '\t' :: (m ++ [';'])) ++ [['\x7d', ';'], []])

/-- The type under which a uniform is stored in the block.  A small matrix is stored in a
wider one. -/
def storedType (d : UniformDecl) : List Char :=
  if d.type = "mat2".toList then "mat2x4".toList else d.type

/-- The name under which a uniform is stored in the block.  A stored matrix is marked, since a
macro gives it back under its own name. -/
def storedName (d : UniformDecl) : List Char :=
  if d.type = "mat2".toList then "compat_mat2_".toList ++ d.name else d.name

/-- The member of the block for a uniform. -/
def UniformDecl.member (d : UniformDecl) : List Char :=
  storedType d ++ ' ' :: (storedName d ++ d.suffix)

/-- The text written for a uniform is its member, unless it is an array of small matrices. -/
theorem memberText_eq_member {d : UniformDecl} (h : d.isMat2 = true → d.suffix = []) :
    memberText d = d.member := by
  unfold memberText UniformDecl.member storedType storedName
  by_cases hmat2 : d.type = "mat2".toList
  · have hself : d.isMat2 = true := beq_iff_eq.mpr hmat2
    rw [if_pos hself, if_pos hmat2, if_pos hmat2, h hself, List.append_nil]
    rfl
  · have hother : ¬ d.isMat2 = true := fun heq => hmat2 (beq_iff_eq.mp heq)
    rw [if_neg hother, if_neg hmat2, if_neg hmat2, List.append_assoc, List.cons_append]

theorem splitOn_append_newline {line : List Char} (h : '\n' ∉ line) (rest : List Char) :
    (line ++ '\n' :: rest).splitOn '\n' = line :: rest.splitOn '\n' := by
  rw [List.splitOn_eq_splitOnP, List.splitOn_eq_splitOnP]
  refine List.splitOnP_append_cons_of_forall_mem (fun c hc => ?_) '\n' rfl rest
  exact beq_false_of_ne fun heq => h (heq ▸ hc)

/-- Lines are split where they were joined. -/
theorem splitOn_flatMap_newline {lines : List (List Char)} (h : ∀ line ∈ lines, '\n' ∉ line)
    (rest : List Char) :
    (lines.flatMap (· ++ ['\n']) ++ rest).splitOn '\n' = lines ++ rest.splitOn '\n' := by
  induction lines with
  | nil => rfl
  | cons line lines ih =>
      obtain ⟨hline, hlines⟩ := List.forall_mem_cons.mp h
      rw [List.flatMap_cons, List.append_assoc, List.append_assoc, List.singleton_append,
        splitOn_append_newline hline, ih hlines, List.cons_append]

theorem splitOn_flatMap_memberLine {loose : List UniformDecl}
    (h : ∀ d ∈ loose, '\n' ∉ memberText d) (rest : List Char) :
    (loose.flatMap memberLine ++ rest).splitOn '\n' =
      (loose.map fun d => '\t' :: (memberText d ++ [';'])) ++ rest.splitOn '\n' := by
  have hlines : loose.flatMap memberLine =
      (loose.map fun d => '\t' :: (memberText d ++ [';'])).flatMap (· ++ ['\n']) := by
    have hline : memberLine = fun d => '\t' :: (memberText d ++ [';']) ++ ['\n'] := by
      funext d
      simp [memberLine]
    rw [hline, List.flatMap_map]
  have hnot : ∀ line ∈ loose.map fun d => '\t' :: (memberText d ++ [';']), '\n' ∉ line := by
    simpa using h
  rw [hlines, splitOn_flatMap_newline hnot]

theorem splitOn_blockText (stage : Stage) {loose : List UniformDecl}
    (h : ∀ d ∈ loose, '\n' ∉ memberText d) :
    (blockText stage loose).splitOn '\n' = blockLines stage (loose.map memberText) := by
  cases loose with
  | nil => rfl
  | cons d loose =>
      have hopen : ("layout(std140, binding = 0) uniform " ++ blockName stage ++
          "\n\x7b\n").toList = blockHeader stage ++ '\n' :: (['\x7b'] ++ ['\n']) := by
        cases stage <;> decide +kernel
      have htext : blockText stage (d :: loose) =
          blockHeader stage ++ '\n' :: (['\x7b'] ++
            '\n' :: ((d :: loose).flatMap memberLine ++ "\x7d;\n".toList)) := by
        simp [blockText, hopen]
      have hname : '\n' ∉ blockHeader stage := by
        cases stage <;> decide +kernel
      have hbrace : '\n' ∉ ['\x7b'] := by decide
      have hend : ("\x7d;\n".toList).splitOn '\n' = [['\x7d', ';'], []] := by decide +kernel
      rw [htext, splitOn_append_newline hname, splitOn_append_newline hbrace,
        splitOn_flatMap_memberLine h, hend, blockLines, List.map_map]
      exact (if_neg Bool.false_ne_true).symm

namespace SpelledDecl

/-- The uniform is a texture with its sampler. -/
def isOpaque (d : SpelledDecl) : Bool :=
  d.type.val == "sampler2D".toList || d.type.val == "samplerCube".toList

/-- The member of the block that stores a uniform.  A small matrix is stored in a wider
one under another name. -/
def member (d : SpelledDecl) : List Char :=
  if d.type.val = "mat2".toList then "mat2x4 compat_mat2_".toList ++ d.name.val
  else d.type.val ++ ' ' :: (d.name.val ++ d.suffix)

theorem memberText_declAt (d : SpelledDecl) (offset : Nat) :
    memberText (d.declAt offset) = d.member := by
  unfold memberText member UniformDecl.isMat2
  simp only [declAt, beq_iff_eq]
  split
  · rfl
  · simp

theorem newline_not_mem_suffix (d : SpelledDecl) : '\n' ∉ d.suffix := by
  unfold suffix
  cases d.index with
  | none => simp
  | some index =>
      have hindex : '\n' ∉ index.1.val := index.1.property.not_mem rfl
      simp [hindex]

theorem newline_not_mem_member (d : SpelledDecl) : '\n' ∉ d.member := by
  have htype : '\n' ∉ d.type.val := d.type.property.not_mem rfl
  have hname : '\n' ∉ d.name.val := d.name.property.not_mem rfl
  have hsuffix := d.newline_not_mem_suffix
  unfold member
  split
  · simp [hname]
  · simp [htype, hname, hsuffix]

theorem isOpaque_declAt (d : SpelledDecl) (offset : Nat) :
    (d.declAt offset).isOpaque = d.isOpaque := rfl

/-- The words and the suffix of a declaration. -/
def parts (d : SpelledDecl) : Option (List Char) × List Char × List Char × List Char :=
  (d.precision.map fun p => p.1.val, d.type.val, d.name.val, d.suffix)

end SpelledDecl

/-- The words and the suffix of a declaration that is found. -/
def UniformDecl.parts (d : UniformDecl) :
    Option (List Char) × List Char × List Char × List Char :=
  (d.precision, d.type, d.name, d.suffix)

theorem map_parts_declsFrom (offset : Nat) (pieces : List (Filler × SpelledDecl)) :
    (declsFrom offset pieces).map UniformDecl.parts = pieces.map fun p => p.2.parts := by
  induction pieces generalizing offset with
  | nil => rfl
  | cons piece pieces ih =>
      rw [declsFrom, List.map_cons, List.map_cons, ih]
      rfl

/-- The members of the block are those of the declarations that are no textures. -/
theorem map_memberText_declsFrom (offset : Nat) (pieces : List (Filler × SpelledDecl)) :
    ((declsFrom offset pieces).filter (!·.isOpaque)).map memberText =
      ((pieces.map Prod.snd).filter (!·.isOpaque)).map SpelledDecl.member := by
  induction pieces generalizing offset with
  | nil => rfl
  | cons piece pieces ih =>
      obtain ⟨filler, d⟩ := piece
      rw [declsFrom, List.map_cons, List.filter_cons, List.filter_cons, d.isOpaque_declAt]
      split
      · rw [List.map_cons, List.map_cons, ih, d.memberText_declAt]
      · exact ih _

/-- The scan of a source finds exactly its declarations, in order and with their parts, at
the places where they are spelled, and reports no other use of the keyword.  The block of
those that are no textures has one line for each of them, in order. -/
theorem scan_and_block_of_sourceText (pieces : List (Filler × SpelledDecl)) (last : List Char)
    (hlast : ¬ keyword <:+: last) :
    let scan := scanUniforms (sourceText pieces last)
    (scan.decls = declsFrom 0 pieces ∧
      scan.decls.map UniformDecl.parts = pieces.map (fun p => p.2.parts) ∧
      scan.unrecognized = []) ∧
    ∀ stage, (blockText stage (scan.decls.filter (!·.isOpaque))).splitOn '\n' =
      blockLines stage (((pieces.map Prod.snd).filter (!·.isOpaque)).map SpelledDecl.member) := by
  intro scan
  have hscan : scan = ⟨declsFrom 0 pieces, []⟩ := scanUniforms_sourceText pieces hlast
  rw [hscan]
  refine ⟨⟨rfl, map_parts_declsFrom 0 pieces, rfl⟩, fun stage => ?_⟩
  rw [splitOn_blockText stage, map_memberText_declsFrom]
  intro d hd
  have hmem : memberText d ∈
      ((pieces.map Prod.snd).filter (!·.isOpaque)).map SpelledDecl.member :=
    map_memberText_declsFrom 0 pieces ▸ List.mem_map_of_mem hd
  obtain ⟨spelled, -, hmember⟩ := List.mem_map.mp hmem
  rw [← hmember]
  exact spelled.newline_not_mem_member

/-- A small matrix with a precision, an array behind it without filler, and a texture
whose name is the keyword. -/
def samplePieces : List (Filler × SpelledDecl) :=
  let word (w : List Char) (h : IsWord w) : Word := ⟨w, h⟩
  let blank : Gap := ⟨[' '], by decide +kernel⟩
  [(⟨"ü\n".toList, by decide +kernel, by decide +kernel⟩,
     { afterKeyword := ⟨['\t', '\n'], by decide +kernel⟩
       precision := some (word "lowp".toList (by decide +kernel), blank)
       type := word "mat2".toList (by decide +kernel)
       afterType := blank
       name := word "m".toList (by decide +kernel)
       afterName := ⟨[], by decide +kernel⟩
       index := none }),
   (⟨[], by decide +kernel, by decide +kernel⟩,
     { afterKeyword := blank
       precision := none
       type := word "vec4".toList (by decide +kernel)
       afterType := blank
       name := word "c".toList (by decide +kernel)
       afterName := ⟨[' '], by decide +kernel⟩
       index := some (word "N".toList (by decide +kernel), ⟨['\n'], by decide +kernel⟩) }),
   (⟨"uni form ".toList, by decide +kernel, by decide +kernel⟩,
     { afterKeyword := blank
       precision := none
       type := word "sampler2D".toList (by decide +kernel)
       afterType := blank
       name := word "uniform".toList (by decide +kernel)
       afterName := ⟨[' '], by decide +kernel⟩
       index := none })]

theorem scan_and_block_of_sourceText_of_samplePieces :
    let source :=
      "ü\nuniform\t\nlowp mat2 m;uniform vec4 c [N]\n;uni form uniform sampler2D uniform ;x"
    sourceText samplePieces ['x'] = source.toList ∧ ¬ keyword <:+: ['x'] ∧
    (scanUniforms source.toList).decls.map UniformDecl.parts =
      [(some "lowp".toList, "mat2".toList, "m".toList, []),
       (none, "vec4".toList, "c".toList, "[N]".toList),
       (none, "sampler2D".toList, "uniform".toList, [])] ∧
    (scanUniforms source.toList).unrecognized = [] ∧
    (blockText .vertex ((scanUniforms source.toList).decls.filter (!·.isOpaque))).splitOn '\n' =
      ["layout(std140, binding = 0) uniform compat_VertexUniforms".toList, ['\x7b'],
       "\tmat2x4 compat_mat2_m;".toList, "\tvec4 c[N];".toList, ['\x7d', ';'], []] := by
  intro source
  have hsource : sourceText samplePieces ['x'] = source.toList := by decide +kernel
  have hlast : ¬ keyword <:+: ['x'] := by decide +kernel
  obtain ⟨⟨-, hparts, hnone⟩, hblock⟩ := scan_and_block_of_sourceText samplePieces ['x'] hlast
  rw [hsource] at hparts hnone hblock
  refine ⟨hsource, hlast, hparts.trans ?_, hnone, (hblock .vertex).trans ?_⟩
  · decide +kernel
  · decide +kernel

end LegacyShader.Modern
