import LegacyShader.Proofs.UniformSpelling

/-!
# How far a declaration reaches

A suffix reaches to the first closing bracket with a semicolon behind it, so it can reach
beyond the brackets of its name.  The text that is found is one declaration exactly if the
suffix has no semicolon and consists of groups of brackets (`oneDeclaration_iff`), which
counting the open brackets decides (`groups_iff`).

A list of names is no declaration.  It is taken for one exactly if the first name has
brackets and a later name on the same line ends the statement with brackets
(`SpelledList.isSome_parseDecl?_iff`), and it is reported in all other cases.
-/

namespace LegacyShader.Modern

/-! ## Groups of brackets -/

/-- The brackets of a text belong together in pairs. -/
inductive Balanced : List Char → Prop
  | nil : Balanced []
  | char {c : Char} {cs : List Char} (hopen : c ≠ '[') (hclose : c ≠ ']') (hcs : Balanced cs) :
      Balanced (c :: cs)
  | group {inner cs : List Char} (hinner : Balanced inner) (hcs : Balanced cs) :
      Balanced ('[' :: (inner ++ ']' :: cs))

/-- Balanced texts in brackets, with nothing but spaces between them. -/
inductive Groups : List Char → Prop
  | last {inner : List Char} (hinner : Balanced inner) : Groups ('[' :: (inner ++ [']']))
  | more {inner gap cs : List Char} (hinner : Balanced inner) (hgap : IsGap gap)
      (hcs : Groups cs) : Groups ('[' :: (inner ++ ']' :: (gap ++ cs)))

/-- Whether a text closes a number of open brackets and every one that it opens, with
nothing but spaces where none is open. -/
def closes : Nat → List Char → Bool
  | 0, [] => true
  | _ + 1, [] => false
  | 0, c :: cs => if c = '[' then closes 1 cs else isSpace c && closes 0 cs
  | depth + 1, c :: cs =>
      if c = '[' then closes (depth + 2) cs
      else if c = ']' then closes depth cs
      else closes (depth + 1) cs

theorem Balanced.closes_append {inner : List Char} (h : Balanced inner) (depth : Nat)
    (rest : List Char) : closes (depth + 1) (inner ++ rest) = closes (depth + 1) rest := by
  induction h generalizing depth rest with
  | nil => rfl
  | char hopen hclose _ ih =>
      rw [List.cons_append, closes, if_neg hopen, if_neg hclose, ih]
  | group _ _ ihinner ihcs =>
      rw [List.cons_append, List.append_assoc, closes, if_pos rfl, ihinner, List.cons_append,
        closes, if_neg (by decide), if_pos rfl, ihcs]

theorem IsGap.closes_append {gap : List Char} (h : IsGap gap) (rest : List Char) :
    closes 0 (gap ++ rest) = closes 0 rest := by
  induction gap with
  | nil => rfl
  | cons c gap ih =>
      obtain ⟨hc, hgap⟩ := List.forall_mem_cons.mp h
      have hne : c ≠ '[' := by
        rintro rfl
        cases hc
      rw [List.cons_append, closes, if_neg hne, hc, Bool.true_and, ih hgap]

/-- A text that closes a bracket has a balanced part in front of the closing one.  A bracket
that opens inside closes first. -/
theorem exists_balanced_of_closes {depth : Nat} {cs : List Char}
    (h : closes (depth + 1) cs = true) :
    ∃ inner rest, Balanced inner ∧ cs = inner ++ ']' :: rest ∧ closes depth rest = true := by
  induction hn : cs.length using Nat.strong_induction_on generalizing depth cs with
  | _ n ih =>
      cases cs with
      | nil => cases h
      | cons c cs =>
          rw [List.length_cons] at hn
          rw [closes] at h
          split at h
          · next hc =>
            obtain ⟨inner, rest, hinner, rfl, hrest⟩ := ih _ (by omega) h rfl
            rw [List.length_append, List.length_cons] at hn
            obtain ⟨inner', rest', hinner', rfl, hrest'⟩ := ih _ (by omega) hrest rfl
            exact ⟨'[' :: (inner ++ ']' :: inner'), rest', .group hinner hinner', by simp [hc],
              hrest'⟩
          · next hopen =>
            split at h
            · next hc => exact ⟨[], cs, .nil, by simp [hc], h⟩
            · next hclose =>
              obtain ⟨inner, rest, hinner, rfl, hrest⟩ := ih _ (by omega) h rfl
              exact ⟨c :: inner, rest, .char hopen hclose hinner, rfl, hrest⟩

theorem Groups.exists_eq_cons {cs : List Char} (h : Groups cs) : ∃ more, cs = '[' :: more := by
  cases h with
  | last => exact ⟨_, rfl⟩
  | more => exact ⟨_, rfl⟩

theorem Groups.closes {cs : List Char} (h : Groups cs) : closes 0 cs = true := by
  induction h with
  | last hinner =>
      rw [Modern.closes, if_pos rfl, hinner.closes_append]
      rfl
  | more hinner hgap _ ih =>
      rw [Modern.closes, if_pos rfl, hinner.closes_append, Modern.closes, if_neg (by decide),
        if_pos rfl, hgap.closes_append, ih]

/-- A text that opens with a bracket, closes all of its brackets and ends with one is groups
of brackets. -/
theorem groups_of_closes {cs : List Char} (h : closes 0 ('[' :: cs) = true)
    (hlast : ('[' :: cs).getLast? = some ']') : Groups ('[' :: cs) := by
  induction hn : cs.length using Nat.strong_induction_on generalizing cs with
  | _ n ih =>
      rw [closes, if_pos rfl] at h
      obtain ⟨inner, rest, hinner, rfl, hrest⟩ := exists_balanced_of_closes h
      obtain ⟨gap, hrun, hstops, heq⟩ := dropWhile_eq_iff.mp (rfl : rest.dropWhile isSpace = _)
      have hgap : IsGap gap := hrun
      cases hbehind : rest.dropWhile isSpace with
      | nil =>
          rw [hbehind, List.append_nil] at heq
          subst heq
          cases hend : rest.getLast? with
          | none =>
              rw [List.getLast?_eq_none_iff.mp hend]
              exact .last hinner
          | some c =>
              have hc : c = ']' := by simpa [List.getLast?_cons, hend] using hlast
              have hspace := hgap c (List.mem_of_getLast? hend)
              rw [hc] at hspace
              cases hspace
      | cons c behind =>
          rw [hbehind] at heq hstops
          rw [heq, hgap.closes_append, closes, stops_cons.mp hstops, Bool.false_and] at hrest
          obtain ⟨rfl, hgroups⟩ : c = '[' ∧ closes 1 behind = true := by simpa using hrest
          rw [heq] at hlast hn ⊢
          refine .more hinner hgap (ih _ ?_ ?_ ?_ rfl)
          · simp only [List.length_append, List.length_cons] at hn
            omega
          · rw [closes, if_pos rfl, hgroups]
          · simpa [List.getLast?_cons] using hlast

/-- Counting open brackets decides whether brackets are groups. -/
theorem groups_iff {cs : List Char} (hlast : ('[' :: cs).getLast? = some ']') :
    Groups ('[' :: cs) ↔ closes 0 ('[' :: cs) = true :=
  ⟨Groups.closes, fun h => groups_of_closes h hlast⟩

/-! ## The text of a declaration -/

/-- The text of a declaration in its source. -/
def UniformDecl.textIn (source : List Char) (d : UniformDecl) : List Char :=
  (source.drop d.offset).take d.length

/-- A declaration is one statement, and its suffix is nothing but groups of brackets. -/
structure OneDeclaration (source : List Char) (d : UniformDecl) : Prop where
  /-- It has one semicolon. -/
  semicolon : (d.textIn source).count ';' = 1
  /-- It ends with the semicolon. -/
  last : (d.textIn source).getLast? = some ';'
  /-- Its suffix is empty or groups of brackets. -/
  suffix : d.suffix = [] ∨ Groups d.suffix

section

variable {offset : Nat} {text : List Char} {d : UniformDecl}

/-- What a tail divides a text into. -/
theorem exists_suffix_of_takeTail? {cs suffix behind : List Char}
    (h : takeTail? cs = some (suffix, behind)) :
    ∃ before gap, IsGap before ∧ IsGap gap ∧ cs = before ++ (suffix ++ (gap ++ ';' :: behind)) ∧
      (suffix = [] ∨ ∃ inner, suffix = '[' :: (inner ++ [']'])) := by
  obtain ⟨before, hbefore, ⟨rfl, rfl⟩ | ⟨inner, rest, rfl, rfl, hbrackets⟩⟩ :=
    takeTail?_eq_some_iff.mp h
  · exact ⟨before, [], hbefore, by simp [IsGap], by simp, .inl rfl⟩
  · obtain ⟨inner, gap, rfl, -, hgap, rfl, -⟩ := takeBrackets?_eq_some_iff.mp hbrackets
    exact ⟨before, gap, hbefore, hgap, by simp, .inr ⟨inner, rfl⟩⟩

/-- Words and spaces stand in front of the suffix of a declaration, and spaces and the
semicolon behind it. -/
theorem exists_suffix_of_parseDecl? (hkey : keyword <+: text)
    (h : parseDecl? offset text = some d) :
    ∃ front gap rest, ';' ∉ front ∧ IsGap gap ∧ text = front ++ (d.suffix ++ (gap ++ ';' :: rest)) ∧
      d.length = (front ++ (d.suffix ++ gap)).length + 1 ∧
      (d.suffix = [] ∨ ∃ inner, d.suffix = '[' :: (inner ++ [']'])) := by
  obtain ⟨r₁, first, r₂, r₃, second, r₄, h₁, h₂, h₃, h₄, hfinish⟩ := parseDecl?_eq_some_iff.mp h
  obtain ⟨r₀, rfl⟩ := hkey
  rw [List.drop_left] at h₁
  obtain ⟨gap₁, -, hgap₁, -, rfl⟩ := afterSpaces?_eq_some_iff.mp h₁
  obtain ⟨hfirst, -, rfl⟩ := takeWord?_eq_some_iff.mp h₂
  obtain ⟨gap₂, -, hgap₂, -, rfl⟩ := afterSpaces?_eq_some_iff.mp h₃
  obtain ⟨hsecond, -, rfl⟩ := takeWord?_eq_some_iff.mp h₄
  have hwords : ';' ∉ keyword ++ (gap₁ ++ (first ++ (gap₂ ++ second))) := by
    simp only [List.mem_append, not_or]
    exact ⟨isWord_keyword.not_mem rfl, hgap₁.not_mem rfl, hfirst.not_mem rfl, hgap₂.not_mem rfl,
      hsecond.not_mem rfl⟩
  rcases finishDecl?_eq_some_iff.mp hfinish with ⟨third, suffix, behind, hnamed, rfl⟩ |
    ⟨-, suffix, behind, htail, rfl⟩
  · obtain ⟨r₅, r₆, h₅, h₆, htail⟩ := takeNamed?_eq_some_iff.mp hnamed
    obtain ⟨gap₃, -, hgap₃, -, rfl⟩ := afterSpaces?_eq_some_iff.mp h₅
    obtain ⟨hthird, -, rfl⟩ := takeWord?_eq_some_iff.mp h₆
    obtain ⟨before, gap, hbefore, hgap, rfl, hsuffix⟩ := exists_suffix_of_takeTail? htail
    refine ⟨keyword ++ (gap₁ ++ (first ++ (gap₂ ++ second))) ++ (gap₃ ++ (third ++ before)), gap,
      behind, ?_, hgap, by simp, ?_, hsuffix⟩
    · simp only [List.mem_append, not_or] at hwords ⊢
      exact ⟨hwords, hgap₃.not_mem rfl, hthird.not_mem rfl, hbefore.not_mem rfl⟩
    · simp only [List.length_append, List.length_cons]
      omega
  · obtain ⟨before, gap, hbefore, hgap, rfl, hsuffix⟩ := exists_suffix_of_takeTail? htail
    refine ⟨keyword ++ (gap₁ ++ (first ++ (gap₂ ++ second))) ++ before, gap, behind, ?_, hgap,
      by simp, ?_, hsuffix⟩
    · simp only [List.mem_append, not_or] at hwords ⊢
      exact ⟨hwords, hbefore.not_mem rfl⟩
    · simp only [List.length_append, List.length_cons]
      omega

end

/-- The text that is found for a declaration ends with a semicolon.  It is one declaration
exactly if the suffix holds no other semicolon and counting its brackets comes out even. -/
theorem oneDeclaration_iff {source : List Char} {d : UniformDecl}
    (hd : d ∈ (scanUniforms source).decls) :
    (d.textIn source).getLast? = some ';' ∧
      (OneDeclaration source d ↔ ';' ∉ d.suffix ∧ closes 0 d.suffix = true) := by
  have hkey := (startsKeyword_iff.mp (keywordAt_of_mem_decls hd)).1
  obtain ⟨front, gap, rest, hfront, hgap, htext, hlength, hsuffix⟩ :=
    exists_suffix_of_parseDecl? hkey (parseDecl?_of_mem_decls hd)
  have htextIn : d.textIn source = front ++ (d.suffix ++ gap) ++ [';'] := by
    have hsplit : source.drop d.offset = front ++ (d.suffix ++ gap) ++ [';'] ++ rest := by
      rw [htext]
      simp
    rw [UniformDecl.textIn, hsplit, List.take_left' (by rw [List.length_append, hlength]; rfl)]
  have hcount : (d.textIn source).count ';' = d.suffix.count ';' + 1 := by
    have hspaces : ';' ∉ gap := hgap.not_mem rfl
    simp [htextIn, List.count_append, List.count_eq_zero_of_not_mem hfront,
      List.count_eq_zero_of_not_mem hspaces]
  have hlast : (d.textIn source).getLast? = some ';' := by simp [htextIn]
  have hgroups : (d.suffix = [] ∨ Groups d.suffix) ↔ closes 0 d.suffix = true := by
    rcases hsuffix with hnil | ⟨inner, hinner⟩
    · simp [hnil, closes]
    · rw [hinner, ← groups_iff (by simp [List.getLast?_cons])]
      simp
  refine ⟨hlast, ⟨fun h => ⟨?_, hgroups.mp h.suffix⟩, fun h => ⟨?_, hlast, hgroups.mpr h.2⟩⟩⟩
  · have := h.semicolon
    exact List.count_eq_zero.mp (by omega)
  · rw [hcount, List.count_eq_zero.mpr h.1]

/-! ## Lists of names -/

/-- A list of names up to the comma behind the first one, with the spaces between its parts. -/
structure SpelledList where
  /-- The space behind the keyword. -/
  afterKeyword : Gap
  /-- The precision and the space behind it, if there is one. -/
  precision : Option (Word × Gap)
  /-- The type. -/
  type : Word
  /-- The space behind the type. -/
  afterType : Gap
  /-- The first name. -/
  name : Word
  /-- The space behind the name, if there is some. -/
  afterName : Spaces
  /-- The brackets of the first name, or nothing. -/
  brackets : List Char
  /-- The brackets are closed. -/
  groups : brackets = [] ∨ Groups brackets
  /-- No semicolon stands in them. -/
  noSemicolon : ';' ∉ brackets
  /-- The space behind the brackets, if there is some. -/
  afterBrackets : Spaces

namespace SpelledList

variable (l : SpelledList)

/-- The precision as it is spelled. -/
def precisionText : List Char :=
  match l.precision with
  | none => []
  | some (word, gap) => word.val ++ gap.val

/-- What stands behind the name, up to the comma. -/
def tail : List Char := l.afterName.val ++ (l.brackets ++ (l.afterBrackets.val ++ [',']))

/-- The list as it is spelled. -/
def text : List Char :=
  keyword ++ (l.afterKeyword.val ++ (l.precisionText ++ (l.type.val ++ (l.afterType.val ++
    (l.name.val ++ l.tail)))))

/-- The first name has brackets, and on their line a closing bracket comes behind the comma
with a semicolon behind it. -/
def RunsOn (rest : List Char) : Prop :=
  l.brackets ≠ [] ∧ '\n' ∉ l.brackets ++ l.afterBrackets.val ∧
    ∃ before gap behind, rest = before ++ ']' :: (gap ++ ';' :: behind) ∧ '\n' ∉ before ∧
      IsGap gap

end SpelledList

theorem isSome_takeBrackets?_iff {cs : List Char} :
    (takeBrackets? cs).isSome = true ↔
      ∃ before gap behind, cs = before ++ ']' :: (gap ++ ';' :: behind) ∧ '\n' ∉ before ∧
        IsGap gap := by
  constructor
  · intro h
    obtain ⟨⟨inner, behind⟩, hfound⟩ := Option.isSome_iff_exists.mp h
    obtain ⟨before, gap, -, hline, hgap, hcs, -⟩ := takeBrackets?_eq_some_iff.mp hfound
    exact ⟨before, gap, behind, hcs, hline, hgap⟩
  · rintro ⟨before, gap, behind, rfl, hline, hgap⟩
    induction before with
    | nil =>
        have hsemicolon : afterSemicolon? (gap ++ ';' :: behind) = some behind :=
          afterSemicolon?_eq_some_iff.mpr ⟨gap, hgap, rfl⟩
        simp [takeBrackets?, hsemicolon]
    | cons c before ih =>
        obtain ⟨hc, hline⟩ := List.ne_and_not_mem_of_not_mem_cons hline
        rw [List.cons_append, takeBrackets?, if_neg hc.symm]
        split
        · rfl
        · rw [Option.isSome_map, ih hline]

/-- A bracket that no semicolon follows is passed over, and so is every other character of
the line. -/
theorem isSome_takeBrackets?_append {cs rest : List Char}
    (h : ∀ u v, cs = u ++ ']' :: v → afterSemicolon? (v ++ rest) = none) :
    (takeBrackets? (cs ++ rest)).isSome = true ↔
      '\n' ∉ cs ∧ (takeBrackets? rest).isSome = true := by
  induction cs with
  | nil => simp
  | cons c cs ih =>
      have hnone : (if c = ']' then afterSemicolon? (cs ++ rest) else none) = none := by
        split
        · next hc => exact h [] cs (by rw [hc]; rfl)
        · rfl
      rw [List.cons_append, takeBrackets?, hnone, List.mem_cons, not_or, and_assoc,
        ← ih fun u v huv => h (c :: u) v (by rw [huv]; rfl)]
      by_cases hc : c = '\n'
      · simp [hc]
      · simp [hc, Ne.symm hc]

/-- No semicolon is next in front of a comma. -/
theorem afterSemicolon?_append_comma {cs gap rest : List Char} (hcs : ';' ∉ cs)
    (hgap : IsGap gap) : afterSemicolon? (cs ++ (gap ++ ',' :: rest)) = none := by
  induction cs with
  | nil =>
      rw [List.nil_append, afterSemicolon?, dropWhile_run hgap (stops_cons.mpr rfl)]
      rfl
  | cons c cs ih =>
      obtain ⟨hc, hcs⟩ := List.ne_and_not_mem_of_not_mem_cons hcs
      have hrest := ih hcs
      rw [afterSemicolon?] at hrest
      rw [List.cons_append, afterSemicolon?, List.dropWhile_cons]
      by_cases hspace : isSpace c = true
      · rwa [if_pos hspace]
      · rw [if_neg hspace]
        split
        · next heq => exact absurd (List.cons.inj heq).1.symm hc
        · rfl

namespace SpelledList

variable (l : SpelledList) (rest : List Char)

theorem endsName_tail : EndsName (l.tail ++ rest) := by
  unfold tail
  rcases l.groups with hnil | hgroups
  · refine ⟨l.afterName.val ++ l.afterBrackets.val, ',', rest, fun c hc => ?_, rfl, rfl,
      by simp [hnil]⟩
    rcases List.mem_append.mp hc with hc | hc
    · exact l.afterName.property c hc
    · exact l.afterBrackets.property c hc
  · obtain ⟨more, hmore⟩ := hgroups.exists_eq_cons
    exact ⟨l.afterName.val, '[', more ++ (l.afterBrackets.val ++ [',']) ++ rest,
      l.afterName.property, rfl, rfl, by simp [hmore]⟩

/-- The end of a list is taken for the end of a declaration if the list runs on behind a
bracket of its first name. -/
theorem isSome_takeTail?_iff : (takeTail? (l.tail ++ rest)).isSome = true ↔ l.RunsOn rest := by
  have hspaces : IsGap l.afterName.val := l.afterName.property
  rw [tail, List.append_assoc, takeTail?, List.dropWhile_append_of_pos hspaces, RunsOn,
    ← isSome_takeBrackets?_iff]
  cases hbrackets : l.brackets with
  | nil =>
      have hcomma : (([] ++ (l.afterBrackets.val ++ [','])) ++ rest).dropWhile isSpace =
          ',' :: rest := by
        rw [List.nil_append, List.append_assoc]
        exact dropWhile_run l.afterBrackets.property (stops_cons.mpr rfl)
      rw [hcomma]
      simp
  | cons c inner =>
      obtain rfl : c = '[' := by
        rcases l.groups with hnil | hgroups
        · rw [hnil] at hbrackets
          cases hbrackets
        · obtain ⟨more, hmore⟩ := hgroups.exists_eq_cons
          exact (List.cons.inj (hbrackets.symm.trans hmore)).1
      have hsemicolon : ';' ∉ inner := fun hmem =>
        l.noSemicolon (hbrackets ▸ List.mem_cons_of_mem _ hmem)
      have hpassed : ∀ u v, inner ++ (l.afterBrackets.val ++ [',']) = u ++ ']' :: v →
          afterSemicolon? (v ++ rest) = none := by
        intro u v huv
        obtain ⟨more, rfl, hmore⟩ : ∃ more, v = more ++ (l.afterBrackets.val ++ [',']) ∧
            inner = u ++ ']' :: more := by
          have hnot : ']' ∉ l.afterBrackets.val ++ [','] := by
            have hgap : ']' ∉ l.afterBrackets.val := l.afterBrackets.property.not_mem rfl
            simp [hgap]
          rcases List.append_eq_append_iff.mp huv with ⟨more, -, hmore⟩ | ⟨more, hinner, hmore⟩
          · exact absurd (by simp [hmore]) hnot
          · cases more with
            | nil =>
                rw [List.nil_append] at hmore
                exact absurd (hmore ▸ List.mem_cons_self) hnot
            | cons c more =>
                obtain ⟨rfl, rfl⟩ := List.cons.inj hmore
                exact ⟨more, rfl, hinner⟩
        rw [List.append_assoc, List.append_assoc]
        exact afterSemicolon?_append_comma
          (fun hmem => hsemicolon (by simp [hmore, hmem])) l.afterBrackets.property
      rw [List.cons_append, List.cons_append, List.dropWhile_cons_of_neg (by decide)]
      simp only [Option.isSome_map, isSome_takeBrackets?_append hpassed]
      simp

/-- The part up to the first name. -/
def words : DeclWords := ⟨l.afterKeyword, l.precision, l.type, l.afterType, l.name⟩

theorem text_eq : l.text = l.words.text ++ l.tail := by
  have hprecision : l.words.precisionText = l.precisionText := rfl
  rw [text, DeclWords.text, hprecision]
  simp only [words, List.append_assoc]

/-- A list of names is taken for a declaration exactly if it runs on. -/
theorem isSome_parseDecl?_iff (offset : Nat) :
    (parseDecl? offset (l.text ++ rest)).isSome = true ↔ l.RunsOn rest := by
  rw [text_eq, List.append_assoc, l.words.parseDecl?_text offset (l.endsName_tail rest),
    Option.isSome_map, l.isSome_takeTail?_iff]

end SpelledList

/-! ## What the scan finds -/

/-- A place of the keyword outside of declarations starts a declaration if the parser makes
one of it, and is reported if not.  It is never both. -/
theorem found_iff_parseDecl? {source : List Char} {n : Nat} (hkey : KeywordAt source n)
    (houtside : ∀ d ∈ (scanUniforms source).decls, ¬ (d.offset < n ∧ n < d.stop)) :
    ((∃ d ∈ (scanUniforms source).decls, d.offset = n) ↔
        (parseDecl? n (source.drop n)).isSome = true) ∧
      ((∃ u ∈ (scanUniforms source).unrecognized, u.offset = n) ↔
        ¬ (parseDecl? n (source.drop n)).isSome = true) := by
  have huses : Uses source 0 (scanAt source 0) := uses_scanAt source (Nat.zero_le _)
  have hmem : n ∈ (scanAt source 0).map UniformUse.offset := by
    refine (huses.exact n (Nat.zero_le n)).mpr ⟨hkey, fun use huse => ?_⟩
    cases use with
    | declared d => exact houtside d (mem_decls_iff.mpr huse)
    | unrecognized u =>
        simp only [UniformUse.offset, UniformUse.stop]
        omega
  obtain ⟨use, huse, rfl⟩ := List.mem_map.mp hmem
  have hdecl : ∀ d ∈ (scanUniforms source).decls, d.offset = use.offset →
      (parseDecl? use.offset (source.drop use.offset)).isSome = true := fun d hd heq => by
    rw [← heq, parseDecl?_of_mem_decls hd]
    rfl
  have hother : ∀ u ∈ (scanUniforms source).unrecognized, u.offset = use.offset →
      ¬ (parseDecl? use.offset (source.drop use.offset)).isSome = true := fun u hu heq => by
    have hfound := found_of_mem_scanAt (Nat.zero_le _) (mem_unrecognized_iff.mp hu)
    rw [← heq, hfound.1]
    decide
  cases use with
  | declared d =>
      have hd := mem_decls_iff.mpr huse
      have hsome := hdecl d hd rfl
      exact ⟨iff_of_true ⟨d, hd, rfl⟩ hsome,
        iff_of_false (fun ⟨u, hu, heq⟩ => hother u hu heq hsome) (not_not_intro hsome)⟩
  | unrecognized u =>
      have hu := mem_unrecognized_iff.mpr huse
      have hnone := hother u hu rfl
      exact ⟨iff_of_false (fun ⟨d, hd, heq⟩ => hnone (hdecl d hd heq)) hnone,
        iff_of_true ⟨u, hu, rfl⟩ hnone⟩

/-- The text that is found for a declaration ends with a semicolon, and is one declaration
exactly if its suffix holds no other semicolon and is nothing but groups of brackets.  A
list of names is taken for a declaration exactly if it runs on to brackets of a later name
on its line, and is reported if not. -/
theorem declaration_extent (source : List Char) :
    (∀ d ∈ (scanUniforms source).decls,
      (d.textIn source).getLast? = some ';' ∧
        (OneDeclaration source d ↔ ';' ∉ d.suffix ∧ closes 0 d.suffix = true)) ∧
    ∀ (n : Nat) (l : SpelledList) (rest : List Char), KeywordAt source n →
      (∀ d ∈ (scanUniforms source).decls, ¬ (d.offset < n ∧ n < d.stop)) →
      source.drop n = l.text ++ rest →
      ((∃ d ∈ (scanUniforms source).decls, d.offset = n) ↔ l.RunsOn rest) ∧
        ((∃ u ∈ (scanUniforms source).unrecognized, u.offset = n) ↔ ¬ l.RunsOn rest) := by
  refine ⟨fun d hd => oneDeclaration_iff hd, fun n l rest hkey houtside htext => ?_⟩
  rw [← l.isSome_parseDecl?_iff rest n, ← htext]
  exact found_iff_parseDecl? hkey houtside

/-- Two lists of names: the first has brackets behind its first name, the second has none
there. -/
def twoLists : List Char := "uniform float a[2], b[3];\nuniform float c, d[2];\n".toList

/-- The first of the lists is taken for a declaration. -/
theorem not_oneDeclaration_of_twoLists :
    ¬ ∀ d ∈ (scanUniforms twoLists).decls, OneDeclaration twoLists d := by
  intro h
  have hd : ⟨0, 25, none, "float".toList, "a".toList, "[2], b[3]".toList⟩ ∈
      (scanUniforms twoLists).decls := by decide +kernel
  rcases (h _ hd).suffix with hnil | hgroups
  · exact absurd hnil (by decide +kernel)
  · exact absurd hgroups.closes (by decide +kernel)

theorem isGap_blank : [' '] ≠ [] ∧ IsGap [' '] := by decide

theorem isGap_nil : IsGap [] := by decide

theorem isWord_float : IsWord "float".toList := by decide

/-- A list of names of one letter, with brackets behind the first or not. -/
def listOf (name : Char) (hname : IsWord [name]) (brackets : List Char)
    (hgroups : brackets = [] ∨ Groups brackets) (hsemicolon : ';' ∉ brackets) : SpelledList where
  afterKeyword := ⟨[' '], isGap_blank⟩
  precision := none
  type := ⟨"float".toList, isWord_float⟩
  afterType := ⟨[' '], isGap_blank⟩
  name := ⟨[name], hname⟩
  afterName := ⟨[], isGap_nil⟩
  brackets
  groups := hgroups
  noSemicolon := hsemicolon
  afterBrackets := ⟨[], isGap_nil⟩

theorem declaration_extent_of_twoLists :
    (∃ d ∈ (scanUniforms twoLists).decls, d.offset = 0 ∧ ¬ OneDeclaration twoLists d) ∧
      ∃ u ∈ (scanUniforms twoLists).unrecognized, u.offset = 26 := by
  obtain ⟨hdecls, hlists⟩ := declaration_extent twoLists
  constructor
  · have hfirst := (hlists 0 (listOf 'a' (by decide) ['[', '2', ']']
      (.inr (.last (.char (by decide) (by decide) .nil))) (by decide))
      " b[3];\nuniform float c, d[2];\n".toList (by decide +kernel) (by decide +kernel)
      (by decide +kernel)).1
    obtain ⟨d, hd, hoffset⟩ := hfirst.mpr ⟨by decide, by decide, " b[3".toList, [],
      "\nuniform float c, d[2];\n".toList, by decide +kernel, by decide, by decide⟩
    refine ⟨d, hd, hoffset, fun hone => ?_⟩
    have hcloses : ∀ d ∈ (scanUniforms twoLists).decls, closes 0 d.suffix = false := by
      decide +kernel
    exact absurd ((hdecls d hd).2.mp hone).2 (by rw [hcloses d hd]; decide)
  · have hsecond := (hlists 26 (listOf 'c' (by decide) [] (.inl rfl) (by decide))
      " d[2];\n".toList (by decide +kernel) (by decide +kernel) (by decide +kernel)).2
    exact hsecond.mpr fun hruns => hruns.1 rfl

end LegacyShader.Modern
