import LegacyShader.Proofs.UniformBytes
import LegacyShader.Proofs.UniformSpelling

/-!
# Readings of a declaration

A text is read as a declaration if it starts with the keyword, two or three words and a
tail, with spaces between them (`DeclReading`).  The tail is a semicolon, or a suffix in
brackets and a semicolon.  The suffix ends at the first closing bracket that a semicolon
follows.

A text has one reading at most (`DeclReading.unique`).  No word goes on behind a word of a
reading, so each word ends where its run of characters does.  Behind the second word there
is either a word or a tail, which tells the form with a precision from the one without.

The parser finds a declaration exactly where there is a reading, and it finds the
declaration of that reading (`declaration_iff_reading`).
-/

namespace LegacyShader.Modern

open Text (byteLength encodeUtf8 Stands)

/-! ## Readings -/

/-- The brackets behind a name, with the spaces behind them. -/
structure Brackets where
  /-- What stands between the brackets. -/
  inner : List Char
  /-- It is on one line. -/
  oneLine : '\n' ∉ inner
  /-- No semicolon follows a closing bracket further inside. -/
  first : ∀ before gap behind, IsGap gap → inner ≠ before ++ ']' :: (gap ++ ';' :: behind)
  /-- The space behind the brackets, if there is some. -/
  afterBrackets : Spaces

/-- What stands behind the name of a declaration. -/
structure DeclTail where
  /-- The space behind the name, if there is some. -/
  afterName : Spaces
  /-- The brackets, if there are some. -/
  brackets : Option Brackets

namespace DeclTail

variable (t : DeclTail)

/-- The brackets with what is inside of them, or nothing. -/
def suffix : List Char :=
  match t.brackets with
  | none => []
  | some b => '[' :: (b.inner ++ [']'])

/-- The spaces behind the brackets. -/
def afterSuffix : List Char :=
  match t.brackets with
  | none => []
  | some b => b.afterBrackets.val

/-- What stands behind the name, as it is spelled. -/
def text : List Char := t.afterName.val ++ (t.suffix ++ (t.afterSuffix ++ [';']))

theorem text_none (gap : Spaces) (rest : List Char) :
    text ⟨gap, none⟩ ++ rest = gap.val ++ ';' :: rest := by
  simp [text, suffix, afterSuffix]

theorem text_some (gap : Spaces) (b : Brackets) (rest : List Char) :
    text ⟨gap, some b⟩ ++ rest =
      gap.val ++ '[' :: (b.inner ++ ']' :: (b.afterBrackets.val ++ ';' :: rest)) := by
  simp [text, suffix, afterSuffix]

end DeclTail

/-- The parts of a declaration. -/
structure DeclReading where
  /-- The declaration up to its name. -/
  words : DeclWords
  /-- What stands behind the name. -/
  tail : DeclTail

namespace DeclReading

variable (r : DeclReading)

/-- The declaration as it is spelled. -/
def text : List Char := r.words.text ++ r.tail.text

/-- The declaration of a reading at a place. -/
def declAt (offset : Nat) : UniformDecl := r.words.declAt offset r.text.length r.tail.suffix

/-- The same with its length in bytes. -/
def declInBytes (offset : Nat) : UniformDecl :=
  r.words.declAt offset (byteLength r.text) r.tail.suffix

end DeclReading

/-! ## Tails -/

/-- A semicolon that comes next, in front of a closing bracket, which is no space. -/
theorem afterSemicolon?_append_bracket {cs rest : List Char} :
    afterSemicolon? (cs ++ ']' :: rest) = none ↔
      ∀ gap behind, IsGap gap → cs ≠ gap ++ ';' :: behind := by
  rw [Option.eq_none_iff_forall_ne_some]
  constructor
  · rintro h gap behind hgap rfl
    exact h (behind ++ ']' :: rest) (afterSemicolon?_eq_some_iff.mpr ⟨gap, hgap, by simp⟩)
  · intro h found hfound
    obtain ⟨gap, hgap, heq⟩ := afterSemicolon?_eq_some_iff.mp hfound
    rcases List.append_eq_append_iff.mp heq with ⟨more, rfl, hmore⟩ | ⟨more, rfl, hmore⟩
    · cases more with
      | nil => cases hmore
      | cons c more =>
          obtain ⟨rfl, -⟩ := List.cons.inj hmore
          exact hgap.not_mem (c := ']') rfl (by simp)
    · cases more with
      | nil => cases hmore
      | cons c more =>
          obtain ⟨rfl, -⟩ := List.cons.inj hmore
          exact h gap more hgap rfl

theorem Brackets.takeBrackets?_eq (b : Brackets) (rest : List Char) :
    takeBrackets? (b.inner ++ ']' :: (b.afterBrackets.val ++ ';' :: rest)) =
      some (b.inner ++ [']'], rest) := by
  refine takeBrackets?_eq_some_iff.mpr ⟨b.inner, b.afterBrackets.val, rfl, b.oneLine,
    b.afterBrackets.property, rfl, fun before after hinner => ?_⟩
  refine afterSemicolon?_append_bracket.mpr fun gap behind hgap hafter => ?_
  exact b.first before gap behind hgap (hafter ▸ hinner)

/-- The parser takes a tail exactly where one is read. -/
theorem takeTail?_iff_tail {cs suffix behind : List Char} :
    takeTail? cs = some (suffix, behind) ↔
      ∃ t : DeclTail, cs = t.text ++ behind ∧ suffix = t.suffix := by
  rw [takeTail?_eq_some_iff]
  constructor
  · rintro ⟨gap, hgap, ⟨rfl, rfl⟩ | ⟨inner, rest, rfl, rfl, hbrackets⟩⟩
    · exact ⟨⟨⟨gap, hgap⟩, none⟩, (DeclTail.text_none ⟨gap, hgap⟩ behind).symm, rfl⟩
    · obtain ⟨inner, gap', rfl, hline, hgap', rfl, hfirst⟩ := takeBrackets?_eq_some_iff.mp hbrackets
      have hnone : ∀ before gap behind, IsGap gap →
          inner ≠ before ++ ']' :: (gap ++ ';' :: behind) :=
        fun before gap behind hgap hinner =>
          afterSemicolon?_append_bracket.mp (hfirst before _ hinner) gap behind hgap rfl
      exact ⟨⟨⟨gap, hgap⟩, some ⟨inner, hline, hnone, ⟨gap', hgap'⟩⟩⟩,
        (DeclTail.text_some ⟨gap, hgap⟩ ⟨inner, hline, hnone, ⟨gap', hgap'⟩⟩ behind).symm, rfl⟩
  · rintro ⟨⟨⟨gap, hgap⟩, brackets⟩, rfl, rfl⟩
    refine ⟨gap, hgap, ?_⟩
    cases brackets with
    | none => exact .inl ⟨rfl, DeclTail.text_none _ _⟩
    | some b =>
        exact .inr ⟨_, _, rfl, DeclTail.text_some _ _ _, b.takeBrackets?_eq behind⟩

theorem DeclTail.endsName (t : DeclTail) (rest : List Char) : EndsName (t.text ++ rest) := by
  obtain ⟨gap, brackets⟩ := t
  cases brackets with
  | none => exact ⟨gap.val, ';', _, gap.property, rfl, rfl, text_none gap rest⟩
  | some b => exact ⟨gap.val, '[', _, gap.property, rfl, rfl, text_some gap b rest⟩

/-! ## One reading -/

/-- A text is divided at the end of its first run in one way. -/
theorem run_unique {p : Char → Bool} {run run' rest rest' : List Char}
    (hrun : ∀ c ∈ run, p c = true) (hrun' : ∀ c ∈ run', p c = true) (hrest : Stops p rest)
    (hrest' : Stops p rest') (h : run ++ rest = run' ++ rest') : run = run' ∧ rest = rest' := by
  constructor
  · rw [← takeWhile_run hrun hrest, h, takeWhile_run hrun' hrest']
  · rw [← dropWhile_run hrun hrest, h, dropWhile_run hrun' hrest']

theorem gap_unique {gap gap' : Gap} {word word' : Word} {rest rest' : List Char}
    (h : gap.val ++ (word.val ++ rest) = gap'.val ++ (word'.val ++ rest')) :
    gap = gap' ∧ word.val ++ rest = word'.val ++ rest' := by
  obtain ⟨hgap, hrest⟩ := run_unique gap.property.2 gap'.property.2 word.property.stops_isSpace
    word'.property.stops_isSpace h
  exact ⟨Subtype.ext hgap, hrest⟩

theorem word_unique {word word' : Word} {rest rest' : List Char}
    (hrest : Stops Text.isWordChar rest) (hrest' : Stops Text.isWordChar rest')
    (h : word.val ++ rest = word'.val ++ rest') : word = word' ∧ rest = rest' := by
  obtain ⟨hword, hrest⟩ := run_unique word.property.2 word'.property.2 hrest hrest' h
  exact ⟨Subtype.ext hword, hrest⟩

/-- What ends a name is no further word. -/
theorem EndsName.ne_gap_word {tail : List Char} (h : EndsName tail) (gap : Gap) (word : Word)
    (rest : List Char) : tail ≠ gap.val ++ (word.val ++ rest) := by
  rintro rfl
  obtain ⟨gap', c, more, hgap', hc, hspace, heq⟩ := h
  obtain ⟨-, hword⟩ := run_unique gap.property.2 hgap' word.property.stops_isSpace
    (stops_cons.mpr hspace) heq
  obtain ⟨d, chars, hchars⟩ := List.exists_cons_of_ne_nil word.property.1
  have hd : Text.isWordChar d = true := word.property.2 d (by simp [hchars])
  rw [hchars, List.cons_append] at hword
  rw [(List.cons.inj hword).1, hc] at hd
  cases hd

/-- Two words and the end of a name are not three words. -/
theorem two_words_ne_three {gap gap' afterType afterFirst afterType' : Gap}
    {type name first type' name' : Word} {tail rest : List Char} (htail : EndsName tail) :
    gap.val ++ (type.val ++ (afterType.val ++ (name.val ++ tail))) ≠
      gap'.val ++ (first.val ++ (afterFirst.val ++ (type'.val ++ (afterType'.val ++
        (name'.val ++ rest))))) := by
  intro h
  obtain ⟨-, h⟩ := gap_unique h
  obtain ⟨-, h⟩ := word_unique (stops_gap _ _) (stops_gap _ _) h
  obtain ⟨-, h⟩ := gap_unique h
  obtain ⟨-, h⟩ := word_unique htail.stops (stops_gap _ _) h
  exact htail.ne_gap_word afterType' name' rest h

/-- A text has one reading up to the name. -/
theorem DeclWords.unique {w w' : DeclWords} {tail tail' : List Char} (htail : EndsName tail)
    (htail' : EndsName tail') (h : w.text ++ tail = w'.text ++ tail') : w = w' ∧ tail = tail' := by
  obtain ⟨gap, precision, type, afterType, name⟩ := w
  obtain ⟨gap', precision', type', afterType', name'⟩ := w'
  simp only [text, List.append_assoc] at h
  replace h := List.append_cancel_left h
  cases precision with
  | none =>
      cases precision' with
      | none =>
          obtain ⟨rfl, h₁⟩ := gap_unique h
          obtain ⟨rfl, h₂⟩ := word_unique (stops_gap _ _) (stops_gap _ _) h₁
          obtain ⟨rfl, h₃⟩ := gap_unique h₂
          obtain ⟨rfl, rfl⟩ := word_unique htail.stops htail'.stops h₃
          exact ⟨rfl, rfl⟩
      | some first' =>
          simp only [precisionText, List.append_assoc] at h
          exact absurd h (two_words_ne_three htail)
  | some first =>
      obtain ⟨first, afterFirst⟩ := first
      simp only [precisionText, List.append_assoc] at h
      cases precision' with
      | none => exact absurd h.symm (two_words_ne_three htail')
      | some first' =>
          obtain ⟨first', afterFirst'⟩ := first'
          simp only [List.append_assoc] at h
          obtain ⟨rfl, h₁⟩ := gap_unique h
          obtain ⟨rfl, h₂⟩ := word_unique (stops_gap _ _) (stops_gap _ _) h₁
          obtain ⟨rfl, h₃⟩ := gap_unique h₂
          obtain ⟨rfl, h₄⟩ := word_unique (stops_gap _ _) (stops_gap _ _) h₃
          obtain ⟨rfl, h₅⟩ := gap_unique h₄
          obtain ⟨rfl, rfl⟩ := word_unique htail.stops htail'.stops h₅
          exact ⟨rfl, rfl⟩

/-- Brackets end at one place, where the parser takes them. -/
theorem Brackets.unique {b b' : Brackets} {rest rest' : List Char}
    (h : b.inner ++ ']' :: (b.afterBrackets.val ++ ';' :: rest) =
      b'.inner ++ ']' :: (b'.afterBrackets.val ++ ';' :: rest')) : b = b' ∧ rest = rest' := by
  have htaken : some (b.inner ++ [']'], rest) = some (b'.inner ++ [']'], rest') := by
    rw [← b.takeBrackets?_eq, h, b'.takeBrackets?_eq]
  obtain ⟨hinner, rfl⟩ := Prod.mk.inj (Option.some.inj htaken)
  replace hinner := List.append_cancel_right hinner
  rw [hinner] at h
  have hgap := List.append_cancel_right (List.cons.inj (List.append_cancel_left h)).2
  obtain ⟨inner, _, _, gap⟩ := b
  obtain ⟨inner', _, _, gap'⟩ := b'
  obtain rfl : inner = inner' := hinner
  obtain rfl : gap = gap' := Subtype.ext hgap
  exact ⟨rfl, rfl⟩

theorem spaces_unique {gap gap' : Spaces} {c c' : Char} {rest rest' : List Char}
    (hc : isSpace c = false) (hc' : isSpace c' = false)
    (h : gap.val ++ c :: rest = gap'.val ++ c' :: rest') :
    gap = gap' ∧ c = c' ∧ rest = rest' := by
  obtain ⟨hgap, hrest⟩ := run_unique gap.property gap'.property (stops_cons.mpr hc)
    (stops_cons.mpr hc') h
  exact ⟨Subtype.ext hgap, List.cons.inj hrest⟩

theorem DeclTail.unique {t t' : DeclTail} {rest rest' : List Char}
    (h : t.text ++ rest = t'.text ++ rest') : t = t' ∧ rest = rest' := by
  obtain ⟨gap, brackets⟩ := t
  obtain ⟨gap', brackets'⟩ := t'
  cases brackets with
  | none =>
      cases brackets' with
      | none =>
          rw [text_none, text_none] at h
          obtain ⟨rfl, -, rfl⟩ := spaces_unique rfl rfl h
          exact ⟨rfl, rfl⟩
      | some b' =>
          rw [text_none, text_some] at h
          exact absurd (spaces_unique rfl rfl h).2.1 (by decide)
  | some b =>
      cases brackets' with
      | none =>
          rw [text_some, text_none] at h
          exact absurd (spaces_unique rfl rfl h).2.1 (by decide)
      | some b' =>
          rw [text_some, text_some] at h
          obtain ⟨rfl, -, hbrackets⟩ := spaces_unique rfl rfl h
          obtain ⟨rfl, rfl⟩ := Brackets.unique hbrackets
          exact ⟨rfl, rfl⟩

/-- A text has one reading at most. -/
theorem DeclReading.unique {r r' : DeclReading} {rest rest' : List Char}
    (h : r.text ++ rest = r'.text ++ rest') : r = r' ∧ rest = rest' := by
  obtain ⟨w, t⟩ := r
  obtain ⟨w', t'⟩ := r'
  simp only [text, List.append_assoc] at h
  obtain ⟨rfl, htail⟩ := DeclWords.unique (t.endsName rest) (t'.endsName rest') h
  obtain ⟨rfl, rfl⟩ := DeclTail.unique htail
  exact ⟨rfl, rfl⟩

/-! ## The parser -/

section

variable {offset start : Nat} {text cs : List Char} {d : UniformDecl}

/-- The parser finds a reading. -/
theorem DeclReading.parseDecl?_eq (r : DeclReading) (offset : Nat) (rest : List Char) :
    parseDecl? offset (r.text ++ rest) = some (r.declAt offset) := by
  have htail : takeTail? (r.tail.text ++ rest) = some (r.tail.suffix, rest) :=
    takeTail?_iff_tail.mpr ⟨r.tail, rfl, rfl⟩
  have hlength : (r.words.text ++ (r.tail.text ++ rest)).length - rest.length = r.text.length := by
    simp only [text, List.length_append]
    omega
  rw [text, List.append_assoc, r.words.parseDecl?_text offset (r.tail.endsName rest), htail,
    Option.map_some, hlength]
  rfl

/-- Every declaration that the parser finds is that of a reading. -/
theorem exists_reading_of_parseDecl? (hkey : keyword <+: text)
    (h : parseDecl? offset text = some d) :
    ∃ (r : DeclReading) (rest : List Char), text = r.text ++ rest := by
  obtain ⟨r₁, first, r₂, r₃, second, r₄, h₁, h₂, h₃, h₄, hfinish⟩ := parseDecl?_eq_some_iff.mp h
  obtain ⟨r₀, rfl⟩ := hkey
  rw [List.drop_left] at h₁
  obtain ⟨gap₁, hne₁, hgap₁, -, rfl⟩ := afterSpaces?_eq_some_iff.mp h₁
  obtain ⟨hfirst, -, rfl⟩ := takeWord?_eq_some_iff.mp h₂
  obtain ⟨gap₂, hne₂, hgap₂, -, rfl⟩ := afterSpaces?_eq_some_iff.mp h₃
  obtain ⟨hsecond, -, rfl⟩ := takeWord?_eq_some_iff.mp h₄
  rcases finishDecl?_eq_some_iff.mp hfinish with ⟨third, suffix, rest, hnamed, -⟩ |
    ⟨-, suffix, rest, htail, -⟩
  · obtain ⟨r₅, r₆, h₅, h₆, htail⟩ := takeNamed?_eq_some_iff.mp hnamed
    obtain ⟨gap₃, hne₃, hgap₃, -, rfl⟩ := afterSpaces?_eq_some_iff.mp h₅
    obtain ⟨hthird, -, rfl⟩ := takeWord?_eq_some_iff.mp h₆
    obtain ⟨t, rfl, -⟩ := takeTail?_iff_tail.mp htail
    refine ⟨⟨⟨⟨gap₁, hne₁, hgap₁⟩, some (⟨first, hfirst⟩, ⟨gap₂, hne₂, hgap₂⟩), ⟨second, hsecond⟩,
      ⟨gap₃, hne₃, hgap₃⟩, ⟨third, hthird⟩⟩, t⟩, rest, ?_⟩
    simp [DeclReading.text, DeclWords.text, DeclWords.precisionText]
  · obtain ⟨t, rfl, -⟩ := takeTail?_iff_tail.mp htail
    refine ⟨⟨⟨⟨gap₁, hne₁, hgap₁⟩, none, ⟨first, hfirst⟩, ⟨gap₂, hne₂, hgap₂⟩,
      ⟨second, hsecond⟩⟩, t⟩, rest, ?_⟩
    simp [DeclReading.text, DeclWords.text, DeclWords.precisionText]

theorem parseDecl?_eq_none_iff_no_reading (hkey : keyword <+: text) :
    parseDecl? offset text = none ↔
      ∀ (r : DeclReading) (rest : List Char), text ≠ r.text ++ rest := by
  rw [Option.eq_none_iff_forall_ne_some]
  constructor
  · rintro h r rest rfl
    exact h _ (r.parseDecl?_eq offset rest)
  · intro h d hd
    obtain ⟨r, rest, htext⟩ := exists_reading_of_parseDecl? hkey hd
    exact h r rest htext

theorem parseDecl?_eq_some_iff_reading (hkey : keyword <+: text) :
    parseDecl? offset text = some d ↔
      ∃ (r : DeclReading) (rest : List Char), text = r.text ++ rest ∧ d = r.declAt offset := by
  constructor
  · intro h
    obtain ⟨r, rest, rfl⟩ := exists_reading_of_parseDecl? hkey h
    exact ⟨r, rest, rfl, Option.some.inj (h.symm.trans (r.parseDecl?_eq offset rest))⟩
  · rintro ⟨r, rest, rfl, rfl⟩
    exact r.parseDecl?_eq offset rest

/-- Over bytes, the declaration of a reading is found and can be cut out. -/
theorem DeclReading.exists_spansAt? (r : DeclReading) {rest : List Char}
    (h : Stands text start (r.text ++ rest)) :
    ∃ spans, spansAt? (encodeUtf8 text) start = some spans ∧
      spans.cut? text = some (r.declInBytes start) := by
  have hkey : keyword <+: r.text ++ rest := by
    simp only [DeclReading.text, DeclWords.text, List.append_assoc]
    exact List.prefix_append _ _
  obtain ⟨spans, hspans, hcut⟩ := Modern.exists_spansAt? h hkey (r.parseDecl?_eq 0 rest)
  refine ⟨spans, hspans, hcut.trans ?_⟩
  have hlength : (r.declAt 0).length = r.text.length := rfl
  rw [hlength, List.take_left]
  rfl

theorem spansAt?_eq_none_iff_no_reading
    (hkey : encodeUtf8 keyword <+: (encodeUtf8 text).drop start) :
    spansAt? (encodeUtf8 text) start = none ↔
      ∀ (r : DeclReading) (rest : List Char), ¬ Stands text start (r.text ++ rest) := by
  constructor
  · intro h r rest hstands
    obtain ⟨spans, hspans, -⟩ := r.exists_spansAt? hstands
    cases h.symm.trans hspans
  · intro h
    obtain ⟨cs, hstands, hprefix⟩ := exists_stands_of_keyword_bytes hkey
    refine spansAt?_of_parseDecl?_none (k := 0) hstands hprefix ?_
    refine (parseDecl?_eq_none_iff_no_reading hprefix).mpr ?_
    rintro r rest rfl
    exact h r rest hstands

theorem cut?_eq_some_iff_reading (hkey : encodeUtf8 keyword <+: (encodeUtf8 text).drop start) :
    (∃ spans, spansAt? (encodeUtf8 text) start = some spans ∧ spans.cut? text = some d) ↔
      ∃ (r : DeclReading) (rest : List Char),
        Stands text start (r.text ++ rest) ∧ d = r.declInBytes start := by
  constructor
  · rintro ⟨spans, hspans, hcut⟩
    have hsome : ¬ ∀ (r : DeclReading) (rest : List Char), ¬ Stands text start (r.text ++ rest) :=
      fun hnone => by cases hspans.symm.trans ((spansAt?_eq_none_iff_no_reading hkey).mpr hnone)
    simp only [not_forall, not_not] at hsome
    obtain ⟨r, rest, hstands⟩ := hsome
    obtain ⟨spans', hspans', hcut'⟩ := r.exists_spansAt? hstands
    obtain rfl := Option.some.inj (hspans.symm.trans hspans')
    exact ⟨r, rest, hstands, Option.some.inj (hcut.symm.trans hcut')⟩
  · rintro ⟨r, rest, hstands, rfl⟩
    exact r.exists_spansAt? hstands

end

/-- At a place of the keyword, the text has one reading at most, so that the forms with and
without a precision exclude each other.  The parser finds a declaration there exactly if
there is a reading, and it is the one of the reading.  This holds over bytes, where the
parts of a declaration are cut out of the text, and over characters. -/
theorem declaration_iff_reading {text : List Char} {start : Nat}
    (hkey : encodeUtf8 keyword <+: (encodeUtf8 text).drop start) :
    (∀ (r r' : DeclReading) (rest rest' : List Char), Stands text start (r.text ++ rest) →
      Stands text start (r'.text ++ rest') → r = r' ∧ rest = rest') ∧
    (∀ d, (∃ spans, spansAt? (encodeUtf8 text) start = some spans ∧ spans.cut? text = some d) ↔
      ∃ (r : DeclReading) (rest : List Char),
        Stands text start (r.text ++ rest) ∧ d = r.declInBytes start) ∧
    (spansAt? (encodeUtf8 text) start = none ↔
      ∀ (r : DeclReading) (rest : List Char), ¬ Stands text start (r.text ++ rest)) ∧
    ∃ cs, Stands text start cs ∧ ∀ offset,
      (∀ d, parseDecl? offset cs = some d ↔
        ∃ (r : DeclReading) (rest : List Char), cs = r.text ++ rest ∧ d = r.declAt offset) ∧
      (parseDecl? offset cs = none ↔
        ∀ (r : DeclReading) (rest : List Char), cs ≠ r.text ++ rest) := by
  obtain ⟨cs, hstands, hprefix⟩ := exists_stands_of_keyword_bytes hkey
  refine ⟨fun r r' rest rest' h h' => DeclReading.unique (h.unique h'),
    fun d => cut?_eq_some_iff_reading hkey, spansAt?_eq_none_iff_no_reading hkey, cs, hstands,
    fun offset => ⟨fun d => parseDecl?_eq_some_iff_reading hprefix,
      parseDecl?_eq_none_iff_no_reading hprefix⟩⟩

/-- A suffix that goes on behind its first bracket is read behind a letter of two bytes, and
a list of names has no reading. -/
theorem declaration_iff_reading_of_nested_brackets :
    let text := "é;uniform lowp float a [x]y[2]\n;".toList
    let list := "uniform float a, b;".toList
    encodeUtf8 keyword <+: (encodeUtf8 text).drop 3 ∧
      (∃ (r : DeclReading) (rest : List Char), Stands text 3 (r.text ++ rest) ∧
        ⟨3, 30, some "lowp".toList, "float".toList, "a".toList, "[x]y[2]".toList⟩ =
          r.declInBytes 3) ∧
      encodeUtf8 keyword <+: (encodeUtf8 list).drop 0 ∧
      ∀ (r : DeclReading) (rest : List Char), ¬ Stands list 0 (r.text ++ rest) := by
  intro text list
  have htext : encodeUtf8 keyword <+: (encodeUtf8 text).drop 3 := by decide +kernel
  have hlist : encodeUtf8 keyword <+: (encodeUtf8 list).drop 0 := by decide +kernel
  have hcut : ((spansAt? (encodeUtf8 text) 3).bind (·.cut? text)) =
      some ⟨3, 30, some "lowp".toList, "float".toList, "a".toList, "[x]y[2]".toList⟩ := by
    decide +kernel
  have hspans : (spansAt? (encodeUtf8 list) 0).isNone = true := by decide +kernel
  obtain ⟨-, hfound, -⟩ := declaration_iff_reading htext
  obtain ⟨-, -, hnone, -⟩ := declaration_iff_reading hlist
  exact ⟨htext, (hfound _).mp (Option.bind_eq_some_iff.mp hcut), hlist,
    hnone.mp (Option.isNone_iff_eq_none.mp hspans)⟩

end LegacyShader.Modern
