import LegacyShader.Modern.UniformDecl
import Mathlib.Data.List.TakeWhile

/-!
# The grammar of uniform declarations

The parser of a declaration takes runs of characters from the front of a text: spaces,
words, and a suffix with its semicolon.  A run is taken as a whole, so what is left
does not go on with it (`Stops`).  For each step there is a statement that says when it
succeeds and how it divides the text, in both directions.

A declaration ends at a semicolon behind the keyword, so it is never empty
(`exists_front_of_parseDecl?`).
-/

namespace LegacyShader.Modern

variable {p : Char → Bool} {cs run rest : List Char}

/-! ## Runs -/

/-- A text does not go on with characters of a class. -/
def Stops (p : Char → Bool) (rest : List Char) : Prop := ∀ c ∈ rest.head?, p c = false

/-- All characters of a text are spaces. -/
def IsGap (gap : List Char) : Prop := ∀ c ∈ gap, isSpace c = true

/-- A text is a word. -/
def IsWord (word : List Char) : Prop := word ≠ [] ∧ ∀ c ∈ word, Text.isWordChar c = true

/-- Decided along the list, not over all characters. -/
instance (gap : List Char) : Decidable (IsGap gap) := List.decidableBAll _ gap

instance (word : List Char) : Decidable (IsWord word) :=
  @instDecidableAnd _ _ _ (List.decidableBAll _ word)

theorem stops_nil : Stops p [] := by
  intro c hc
  cases hc

theorem stops_cons {c : Char} : Stops p (c :: rest) ↔ p c = false := by
  simp [Stops]

theorem stops_dropWhile (p : Char → Bool) (cs : List Char) : Stops p (cs.dropWhile p) := by
  intro c hc
  have hhead := List.head?_dropWhile_not p cs
  rw [Option.mem_def.mp hc] at hhead
  exact hhead

/-- A run is taken up to where it stops. -/
theorem takeWhile_run (hrun : ∀ c ∈ run, p c = true) (hstops : Stops p rest) :
    (run ++ rest).takeWhile p = run := by
  rw [List.takeWhile_append_of_pos hrun]
  cases rest with
  | nil => simp
  | cons c rest => simp [stops_cons.mp hstops]

theorem dropWhile_run (hrun : ∀ c ∈ run, p c = true) (hstops : Stops p rest) :
    (run ++ rest).dropWhile p = rest := by
  rw [List.dropWhile_append_of_pos hrun]
  cases rest with
  | nil => rfl
  | cons c rest => simp [stops_cons.mp hstops]

/-- A text is divided at the end of its first run in one way. -/
theorem dropWhile_eq_iff :
    cs.dropWhile p = rest ↔ ∃ run, (∀ c ∈ run, p c = true) ∧ Stops p rest ∧ cs = run ++ rest := by
  constructor
  · rintro rfl
    exact ⟨cs.takeWhile p, fun c hc => List.mem_takeWhile_imp hc, stops_dropWhile p cs,
      List.takeWhile_append_dropWhile.symm⟩
  · rintro ⟨run, hrun, hstops, rfl⟩
    exact dropWhile_run hrun hstops

theorem IsWord.not_mem {word : List Char} (h : IsWord word) {c : Char}
    (hc : Text.isWordChar c = false) : c ∉ word := by
  intro hmem
  rw [h.2 c hmem] at hc
  cases hc

theorem IsGap.not_mem {gap : List Char} (h : IsGap gap) {c : Char} (hc : isSpace c = false) :
    c ∉ gap := by
  intro hmem
  rw [h c hmem] at hc
  cases hc

theorem IsWord.stops_isSpace {word : List Char} (h : IsWord word) :
    Stops isSpace (word ++ rest) := by
  obtain ⟨hne, hword⟩ := h
  cases word with
  | nil => exact absurd rfl hne
  | cons c word =>
      have hc : Text.isWordChar c = true := hword c List.mem_cons_self
      refine stops_cons.mpr (Bool.eq_false_iff.mpr fun hspace => ?_)
      simp only [isSpace, Bool.or_eq_true, beq_iff_eq] at hspace
      rcases hspace with ((((rfl | rfl) | rfl) | rfl) | rfl) | rfl <;> simp [Text.isWordChar] at hc

theorem IsGap.stops_isWordChar {gap : List Char} (h : IsGap gap) (hne : gap ≠ []) :
    Stops Text.isWordChar (gap ++ rest) := by
  cases gap with
  | nil => exact absurd rfl hne
  | cons c gap =>
      have hc : isSpace c = true := h c List.mem_cons_self
      simp only [isSpace, Bool.or_eq_true, beq_iff_eq] at hc
      refine stops_cons.mpr ?_
      rcases hc with ((((rfl | rfl) | rfl) | rfl) | rfl) | rfl <;> rfl

/-! ## Spaces, words and semicolons -/

/-- Spaces are skipped up to the first other character. -/
theorem afterSpaces?_eq_some_iff :
    afterSpaces? cs = some rest ↔
      ∃ gap, gap ≠ [] ∧ IsGap gap ∧ Stops isSpace rest ∧ cs = gap ++ rest := by
  cases cs with
  | nil =>
      simp only [afterSpaces?, reduceCtorEq, false_iff]
      rintro ⟨gap, hne, -, -, hcs⟩
      exact hne (List.append_eq_nil_iff.mp hcs.symm).1
  | cons c cs =>
      simp only [afterSpaces?]
      constructor
      · intro h
        obtain ⟨hc, hrest⟩ := Option.ite_none_right_eq_some.mp h
        obtain ⟨gap, hgap, hstops, rfl⟩ := dropWhile_eq_iff.mp (Option.some.inj hrest)
        exact ⟨c :: gap, List.cons_ne_nil c gap, List.forall_mem_cons.mpr ⟨hc, hgap⟩, hstops, rfl⟩
      · rintro ⟨gap, hne, hgap, hstops, hcs⟩
        cases gap with
        | nil => exact absurd rfl hne
        | cons c' gap =>
            obtain ⟨hc, htail⟩ := List.forall_mem_cons.mp hgap
            rw [List.cons_append] at hcs
            obtain ⟨rfl, rfl⟩ := List.cons.inj hcs
            rw [if_pos hc, dropWhile_run htail hstops]

/-- A word is taken up to its end. -/
theorem takeWord?_eq_some_iff {word : List Char} :
    takeWord? cs = some (word, rest) ↔
      IsWord word ∧ Stops Text.isWordChar rest ∧ cs = word ++ rest := by
  unfold takeWord?
  constructor
  · intro h
    split at h
    · cases h
    · next hne =>
      obtain ⟨rfl, rfl⟩ := Prod.mk.inj (Option.some.inj h)
      exact ⟨⟨hne, fun c hc => List.mem_takeWhile_imp hc⟩, stops_dropWhile _ cs,
        List.takeWhile_append_dropWhile.symm⟩
  · rintro ⟨⟨hne, hword⟩, hstops, rfl⟩
    rw [takeWhile_run hword hstops, dropWhile_run hword hstops]
    split
    · exact absurd rfl hne
    · rfl

/-- There is no word where none starts. -/
theorem takeWord?_eq_none_iff : takeWord? cs = none ↔ Stops Text.isWordChar cs := by
  cases cs with
  | nil => exact iff_of_true rfl stops_nil
  | cons c cs =>
      rw [stops_cons, takeWord?, List.takeWhile_cons]
      cases Text.isWordChar c <;> simp

/-- A semicolon may have spaces in front. -/
theorem afterSemicolon?_eq_some_iff :
    afterSemicolon? cs = some rest ↔ ∃ gap, IsGap gap ∧ cs = gap ++ ';' :: rest := by
  unfold afterSemicolon?
  constructor
  · intro h
    split at h
    · next found hfound =>
      obtain rfl := Option.some.inj h
      obtain ⟨gap, hgap, -, hcs⟩ := dropWhile_eq_iff.mp hfound
      exact ⟨gap, hgap, hcs⟩
    · cases h
  · rintro ⟨gap, hgap, rfl⟩
    rw [dropWhile_run hgap (stops_cons.mpr rfl)]
    rfl

/-! ## The end of a declaration -/

/-- Brackets reach to the first closing bracket that a semicolon follows, if it is on the
same line. -/
theorem takeBrackets?_eq_some_iff {inner behind : List Char} :
    takeBrackets? cs = some (inner, behind) ↔
      ∃ before gap, inner = before ++ [']'] ∧ '\n' ∉ before ∧ IsGap gap ∧
        cs = before ++ ']' :: (gap ++ ';' :: behind) ∧
        ∀ u v, before = u ++ ']' :: v →
          afterSemicolon? (v ++ ']' :: (gap ++ ';' :: behind)) = none := by
  induction cs generalizing inner with
  | nil => simp [takeBrackets?]
  | cons c cs ih =>
      rw [takeBrackets?]
      constructor
      · intro h
        split at h
        · cases h
        · next hline =>
          split at h
          · next found hfound =>
            obtain ⟨rfl, rfl⟩ := Prod.mk.inj (Option.some.inj h)
            obtain ⟨rfl, hfound⟩ := Option.ite_none_right_eq_some.mp hfound
            obtain ⟨gap, hgap, rfl⟩ := afterSemicolon?_eq_some_iff.mp hfound
            refine ⟨[], gap, rfl, List.not_mem_nil, hgap, rfl, ?_⟩
            intro u v huv
            cases u <;> cases huv
          · next hnone =>
            obtain ⟨⟨inner', behind'⟩, hrest, heq⟩ := Option.map_eq_some_iff.mp h
            obtain ⟨rfl, rfl⟩ := Prod.mk.inj heq
            obtain ⟨before, gap, rfl, hbefore, hgap, rfl, hfirst⟩ := ih.mp hrest
            refine ⟨c :: before, gap, rfl, ?_, hgap, rfl, ?_⟩
            · exact List.not_mem_cons_of_ne_of_not_mem (Ne.symm hline) hbefore
            · intro u v huv
              cases u with
              | nil =>
                  obtain ⟨rfl, rfl⟩ := List.cons.inj huv
                  rwa [if_pos rfl] at hnone
              | cons _ u => exact hfirst u v (List.cons.inj huv).2
      · rintro ⟨before, gap, rfl, hbefore, hgap, hcs, hfirst⟩
        cases before with
        | nil =>
            obtain ⟨rfl, rfl⟩ := List.cons.inj hcs
            have hsemicolon : afterSemicolon? (gap ++ ';' :: behind) = some behind :=
              afterSemicolon?_eq_some_iff.mpr ⟨gap, hgap, rfl⟩
            simp [hsemicolon]
        | cons c' before =>
            rw [List.cons_append] at hcs
            obtain ⟨rfl, rfl⟩ := List.cons.inj hcs
            obtain ⟨hline, hbefore⟩ := List.ne_and_not_mem_of_not_mem_cons hbefore
            have hnone : (if c = ']' then
                afterSemicolon? (before ++ ']' :: (gap ++ ';' :: behind)) else none) = none := by
              split
              · next hc => exact hfirst [] before (by rw [hc]; rfl)
              · rfl
            have hrest : takeBrackets? (before ++ ']' :: (gap ++ ';' :: behind)) =
                some (before ++ [']'], behind) :=
              ih.mpr ⟨before, gap, rfl, hbefore, hgap, rfl, fun u v huv =>
                hfirst (c :: u) v (by rw [huv]; rfl)⟩
            rw [if_neg (Ne.symm hline), hnone, hrest]
            rfl

/-- A declaration ends with a semicolon, or with brackets and a semicolon. -/
theorem takeTail?_eq_some_iff {suffix behind : List Char} :
    takeTail? cs = some (suffix, behind) ↔
      ∃ gap, IsGap gap ∧
        ((suffix = [] ∧ cs = gap ++ ';' :: behind) ∨
          ∃ inner rest, suffix = '[' :: inner ∧ cs = gap ++ '[' :: rest ∧
            takeBrackets? rest = some (inner, behind)) := by
  unfold takeTail?
  constructor
  · intro h
    split at h
    · next rest hrest =>
      obtain ⟨gap, hgap, -, hcs⟩ := dropWhile_eq_iff.mp hrest
      obtain ⟨⟨inner, behind'⟩, hbrackets, heq⟩ := Option.map_eq_some_iff.mp h
      obtain ⟨rfl, rfl⟩ := Prod.mk.inj heq
      exact ⟨gap, hgap, .inr ⟨inner, rest, rfl, hcs, hbrackets⟩⟩
    · next rest hrest =>
      obtain ⟨gap, hgap, -, hcs⟩ := dropWhile_eq_iff.mp hrest
      obtain ⟨rfl, rfl⟩ := Prod.mk.inj (Option.some.inj h)
      exact ⟨gap, hgap, .inl ⟨rfl, hcs⟩⟩
    · cases h
  · rintro ⟨gap, hgap, ⟨rfl, rfl⟩ | ⟨inner, rest, rfl, rfl, hbrackets⟩⟩
    · rw [dropWhile_run hgap (stops_cons.mpr rfl)]
      rfl
    · rw [dropWhile_run hgap (stops_cons.mpr rfl)]
      simp [hbrackets]

/-- A tail ends with a semicolon. -/
theorem suffix_of_takeTail? {suffix behind : List Char}
    (h : takeTail? cs = some (suffix, behind)) : ';' :: behind <:+ cs := by
  obtain ⟨gap, -, ⟨-, rfl⟩ | ⟨inner, rest, -, rfl, hbrackets⟩⟩ := takeTail?_eq_some_iff.mp h
  · exact ⟨gap, rfl⟩
  · obtain ⟨before, gap', -, -, -, rfl, -⟩ := takeBrackets?_eq_some_iff.mp hbrackets
    exact ⟨gap ++ '[' :: (before ++ ']' :: gap'), by simp⟩

/-! ## Declarations -/

/-- The name and the tail behind two words: the form with a precision. -/
def takeNamed? (cs : List Char) : Option (List Char × List Char × List Char) := do
  let (name, rest) ← takeWord? (← afterSpaces? cs)
  let (suffix, rest) ← takeTail? rest
  return (name, suffix, rest)

theorem takeNamed?_eq_some_iff {name suffix behind : List Char} :
    takeNamed? cs = some (name, suffix, behind) ↔
      ∃ r₁ r₂, afterSpaces? cs = some r₁ ∧ takeWord? r₁ = some (name, r₂) ∧
        takeTail? r₂ = some (suffix, behind) := by
  simp only [takeNamed?, bind, pure, Option.bind_eq_some_iff, Prod.exists, Option.some.injEq,
    Prod.mk.injEq]
  constructor
  · rintro ⟨r₁, h₁, _, r₂, h₂, _, _, h₃, rfl, rfl, rfl⟩
    exact ⟨r₁, r₂, h₁, h₂, h₃⟩
  · rintro ⟨r₁, r₂, h₁, h₂, h₃⟩
    exact ⟨r₁, h₁, name, r₂, h₂, suffix, behind, h₃, rfl, rfl, rfl⟩

/-- What follows two words of a declaration. -/
def finishDecl? (offset : Nat) (text first second cs : List Char) : Option UniformDecl :=
  match takeNamed? cs with
  | some (third, suffix, rest) =>
      some ⟨offset, text.length - rest.length, some first, second, third, suffix⟩
  | none =>
      (takeTail? cs).bind fun (suffix, rest) =>
        some ⟨offset, text.length - rest.length, none, first, second, suffix⟩

theorem parseDecl?_eq (offset : Nat) (text : List Char) :
    parseDecl? offset text =
      (afterSpaces? (text.drop keyword.length)).bind fun r₁ =>
        (takeWord? r₁).bind fun (first, r₂) =>
          (afterSpaces? r₂).bind fun r₃ =>
            (takeWord? r₃).bind fun (second, r₄) => finishDecl? offset text first second r₄ :=
  rfl

/-- With three words the first one is the precision, and with two there is none. -/
theorem finishDecl?_eq_some_iff {offset : Nat} {text first second : List Char} {d : UniformDecl} :
    finishDecl? offset text first second cs = some d ↔
      (∃ third suffix rest, takeNamed? cs = some (third, suffix, rest) ∧
        d = ⟨offset, text.length - rest.length, some first, second, third, suffix⟩) ∨
      (takeNamed? cs = none ∧ ∃ suffix rest, takeTail? cs = some (suffix, rest) ∧
        d = ⟨offset, text.length - rest.length, none, first, second, suffix⟩) := by
  unfold finishDecl?
  cases hnamed : takeNamed? cs with
  | none =>
      cases htail : takeTail? cs with
      | none => simp
      | some found =>
          obtain ⟨suffix, rest⟩ := found
          simp [and_assoc, eq_comm (a := d)]
  | some found =>
      obtain ⟨third, suffix, rest⟩ := found
      simp [and_assoc, eq_comm (a := d)]

/-- A declaration has a precision if that form fits, and else it has none. -/
theorem parseDecl?_eq_some_iff {offset : Nat} {text : List Char} {d : UniformDecl} :
    parseDecl? offset text = some d ↔
      ∃ r₁ first r₂ r₃ second r₄, afterSpaces? (text.drop keyword.length) = some r₁ ∧
        takeWord? r₁ = some (first, r₂) ∧ afterSpaces? r₂ = some r₃ ∧
        takeWord? r₃ = some (second, r₄) ∧ finishDecl? offset text first second r₄ = some d := by
  simp only [parseDecl?_eq, Option.bind_eq_some_iff, Prod.exists]
  constructor
  · rintro ⟨r₁, h₁, first, r₂, h₂, r₃, h₃, second, r₄, h₄, h⟩
    exact ⟨r₁, first, r₂, r₃, second, r₄, h₁, h₂, h₃, h₄, h⟩
  · rintro ⟨r₁, first, r₂, r₃, second, r₄, h₁, h₂, h₃, h₄, h⟩
    exact ⟨r₁, h₁, first, r₂, h₂, r₃, h₃, second, r₄, h₄, h⟩

theorem suffix_of_afterSpaces? (h : afterSpaces? cs = some rest) : rest <:+ cs := by
  obtain ⟨gap, -, -, -, rfl⟩ := afterSpaces?_eq_some_iff.mp h
  exact ⟨gap, rfl⟩

theorem suffix_of_takeWord? {word : List Char} (h : takeWord? cs = some (word, rest)) :
    rest <:+ cs := by
  obtain ⟨-, -, rfl⟩ := takeWord?_eq_some_iff.mp h
  exact ⟨word, rfl⟩

/-- A declaration ends at a semicolon behind its keyword, whether it has brackets or not. -/
theorem exists_front_of_parseDecl? {offset : Nat} {text : List Char} {d : UniformDecl}
    (h : parseDecl? offset text = some d) :
    ∃ front rest, text = front ++ ';' :: rest ∧ keyword.length ≤ front.length ∧
      d.offset = offset ∧ d.length = front.length + 1 := by
  obtain ⟨r₁, first, r₂, r₃, second, r₄, h₁, h₂, h₃, h₄, hfinish⟩ := parseDecl?_eq_some_iff.mp h
  have hr₄ : r₄ <:+ text.drop keyword.length :=
    (suffix_of_takeWord? h₄).trans ((suffix_of_afterSpaces? h₃).trans
      ((suffix_of_takeWord? h₂).trans (suffix_of_afterSpaces? h₁)))
  obtain ⟨behind, hbehind, hoffset, hlength⟩ : ∃ behind, ';' :: behind <:+ r₄ ∧
      d.offset = offset ∧ d.length = text.length - behind.length := by
    rcases finishDecl?_eq_some_iff.mp hfinish with ⟨third, suffix, behind, hnamed, rfl⟩ |
      ⟨-, suffix, behind, htail, rfl⟩
    · obtain ⟨r₅, r₆, h₅, h₆, htail⟩ := takeNamed?_eq_some_iff.mp hnamed
      exact ⟨behind, (suffix_of_takeTail? htail).trans ((suffix_of_takeWord? h₆).trans
        (suffix_of_afterSpaces? h₅)), rfl, rfl⟩
    · exact ⟨behind, suffix_of_takeTail? htail, rfl, rfl⟩
  obtain ⟨front, hfront⟩ := hbehind.trans hr₄
  have hlong : keyword.length ≤ text.length := by
    have := congrArg List.length hfront
    simp only [List.length_append, List.length_cons, List.length_drop] at this
    omega
  have htext : text = (text.take keyword.length ++ front) ++ ';' :: behind := by
    rw [List.append_assoc, hfront, List.take_append_drop]
  refine ⟨text.take keyword.length ++ front, behind, htext, ?_, hoffset, ?_⟩
  · simp [hlong]
  · rw [hlength, congrArg List.length htext, List.length_append, List.length_cons]
    omega

/-- The type and the name of a declaration are words. -/
theorem isWord_of_parseDecl? {offset : Nat} {text : List Char} {d : UniformDecl}
    (h : parseDecl? offset text = some d) : IsWord d.type ∧ IsWord d.name := by
  obtain ⟨_, first, _, r₃, second, r₄, -, h₂, -, h₄, hfinish⟩ := parseDecl?_eq_some_iff.mp h
  have hfirst := (takeWord?_eq_some_iff.mp h₂).1
  have hsecond := (takeWord?_eq_some_iff.mp h₄).1
  rcases finishDecl?_eq_some_iff.mp hfinish with ⟨third, suffix, behind, hnamed, rfl⟩ |
    ⟨-, suffix, behind, -, rfl⟩
  · obtain ⟨r₅, r₆, -, h₆, -⟩ := takeNamed?_eq_some_iff.mp hnamed
    exact ⟨hsecond, (takeWord?_eq_some_iff.mp h₆).1⟩
  · exact ⟨hfirst, hsecond⟩

end LegacyShader.Modern
