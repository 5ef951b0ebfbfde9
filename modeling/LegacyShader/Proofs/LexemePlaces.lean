import LegacyShader.Preprocess.Lexer
import LegacyShader.Proofs.TextPlaces

/-!
# Places of lexemes

The characters of the plain form, and the lexemes made of them, lie one after another in
the source: each starts at a place of it, and none starts before the one in front has
ended (`charRun_ofText`, `itemRun_lexemes`).  Joined lines and comments leave holes
between them, but move nothing.

A word is at most as long as the source up to its end, and no line breaks inside it
(`TokenValue.Fits`).
-/

namespace LegacyShader.Preprocess

open LegacyShader.Text (Stands byteLength)

/-! ## Characters -/

/-- Characters that lie one after another in a source, from an offset on. -/
inductive CharRun (source : List Char) : Nat → List SourceChar → Prop where
  | nil {n : Nat} : n ≤ byteLength source → CharRun source n []
  | cons {n : Nat} {c : SourceChar} {cs : List SourceChar} :
      n ≤ c.start → c.start < c.stop → (∃ rest, Stands source c.start rest) →
      CharRun source c.stop cs → CharRun source n (c :: cs)

namespace CharRun

variable {source : List Char} {n m k : Nat} {c d : SourceChar} {cs : List SourceChar}

theorem mono (h : CharRun source n cs) (hle : m ≤ n) : CharRun source m cs := by
  cases h with
  | nil hn => exact .nil (Nat.le_trans hle hn)
  | cons hn hlt hplace hcs => exact .cons (Nat.le_trans hle hn) hlt hplace hcs

theorem le_byteLength (h : CharRun source n cs) : n ≤ byteLength source := by
  induction h with
  | nil hn => exact hn
  | cons hn hlt _ _ ih => omega

theorem tail (h : CharRun source n (c :: cs)) : CharRun source n cs := by
  cases h with
  | cons hn hlt _ hcs => exact hcs.mono (by omega)

theorem drop (h : CharRun source n cs) (k : Nat) : CharRun source n (cs.drop k) := by
  induction k generalizing cs with
  | zero => exact h
  | succ k ih =>
      cases cs with
      | nil => exact h
      | cons c cs => exact ih h.tail

/-- Every character takes up a byte at least, so a character has as many bytes in front of
its end as there are characters up to it. -/
theorem of_getElem? (h : CharRun source n cs) (hk : cs[k]? = some d) :
    n + k + 1 ≤ d.stop ∧ CharRun source d.stop (cs.drop (k + 1)) := by
  induction h generalizing k with
  | nil _ => cases hk
  | @cons n c cs hn hlt _ hcs ih =>
      cases k with
      | zero =>
          obtain rfl := Option.some.inj hk
          exact ⟨by omega, hcs⟩
      | succ k =>
          obtain ⟨hstop, hdrop⟩ := ih hk
          exact ⟨by omega, hdrop⟩

/-- The characters behind one start where it ends. -/
theorem behind (h : CharRun source n (c :: cs)) : CharRun source c.stop cs := by
  cases h with
  | cons _ _ _ hcs => exact hcs

/-- A character may change while its place stays. -/
theorem replace (h : CharRun source n (c :: cs)) {ds : List SourceChar}
    (hds : CharRun source c.stop ds) (a : Char) :
    CharRun source n ({ c with char := a } :: ds) := by
  cases h with
  | cons hn hlt hplace _ => exact .cons hn hlt hplace hds

end CharRun

namespace SourceChar

variable {source : List Char} {n offset line : Nat} {joined : Option Nat}

/-- The start of the next character lies at a place that reading has reached. -/
structure Joins (source : List Char) (joined : Option Nat) (offset : Nat) : Prop where
  /-- It is not ahead of reading. -/
  le : joined.getD offset ≤ offset
  /-- It is between two characters of the source. -/
  place : ∃ rest, Stands source (joined.getD offset) rest

theorem Joins.some (h : Joins source joined offset) (k : Nat) :
    Joins source (some (joined.getD offset)) (offset + k) :=
  ⟨Nat.le_trans h.le (Nat.le_add_right _ _), h.place⟩

theorem Joins.none {rest : List Char} (h : Stands source offset rest) :
    Joins source none offset := ⟨Nat.le_refl _, rest, h⟩

/-- A character that is read starts where reading has been, or where lines were joined. -/
theorem charRun_place {c : Char} {k : Nat} {cs : List SourceChar}
    (hjoins : Joins source joined offset) (hk : c.utf8Size ≤ k)
    (hcs : CharRun source (offset + k) cs) :
    CharRun source (joined.getD offset) (place c offset line joined :: cs) := by
  have hle := hjoins.le
  have hpos := c.utf8Size_pos
  refine .cons (Nat.le_refl _) (Nat.lt_add_of_pos_right hpos) hjoins.place (hcs.mono ?_)
  show joined.getD offset + c.utf8Size ≤ offset + k
  omega

/-- Characters are decoded one after another.  A backslash joins two lines, and the next
character starts where it stood.  A line end of two bytes is one character. -/
theorem charRun_decodeFrom {text : List Char} (hstands : Stands source offset text)
    (hjoins : Joins source joined offset) :
    CharRun source (joined.getD offset) (decodeFrom offset line joined text) := by
  fun_induction decodeFrom offset line joined text with
  | case1 offset line joined =>
      have := hstands.add_byteLength
      have := hjoins.le
      exact .nil (by simp only [byteLength] at *; omega)
  | case2 offset line joined rest ih =>
      exact ih (hstands.skip ['\\', '\r', '\n']) (hjoins.some 3)
  | case3 offset line joined rest ih =>
      exact ih (hstands.skip ['\\', '\n', '\r']) (hjoins.some 3)
  | case4 offset line joined rest _ ih =>
      exact ih (hstands.skip ['\\', '\r']) (hjoins.some 2)
  | case5 offset line joined rest _ ih =>
      exact ih (hstands.skip ['\\', '\n']) (hjoins.some 2)
  | case6 offset line joined rest ih =>
      have hrest := hstands.skip ['\r', '\n']
      exact charRun_place hjoins (by decide) (ih hrest (.none hrest))
  | case7 offset line joined rest ih =>
      have hrest := hstands.skip ['\n', '\r']
      exact charRun_place hjoins (by decide) (ih hrest (.none hrest))
  | case8 offset line joined rest _ ih =>
      have hrest := hstands.skip ['\r']
      exact charRun_place hjoins (by decide) (ih hrest (.none hrest))
  | case9 offset line joined rest _ ih =>
      have hrest := hstands.skip ['\n']
      exact charRun_place hjoins (by decide) (ih hrest (.none hrest))
  | case10 offset line joined c rest _ _ _ _ _ _ _ _ ih =>
      have hrest : Stands source (offset + c.utf8Size) rest := hstands.skip [c]
      exact charRun_place hjoins (Nat.le_refl _) (ih hrest (.none hrest))

/-- Comments become blanks where they start, so the characters stay in order. -/
theorem charRun_withoutComments {region : Region} {cs : List SourceChar}
    (h : CharRun source n cs) : CharRun source n (withoutComments region cs) := by
  fun_induction withoutComments region cs generalizing n with
  | case1 => exact h
  | case2 c => exact h
  | case3 a b rest _ ih => exact h.replace (ih h.behind.tail) ' '
  | case4 a b rest _ _ ih => exact h.replace (ih h.behind.tail) ' '
  | case5 a b rest _ _ ih => exact h.replace (ih h.behind) a.char
  | case6 c rest _ ih => exact h.replace (ih h.behind) c.char
  | case7 c rest _ ih => exact ih h.tail
  | case8 a => exact h.tail
  | case9 a b rest _ ih => exact ih h.tail.tail
  | case10 a b rest _ ih => exact ih h.tail

/-- The plain form of a text lies in it from its start on. -/
theorem charRun_ofText (source : List Char) : CharRun source 0 (ofText source) :=
  charRun_withoutComments
    (charRun_decodeFrom (Text.stands_zero source) (.none (Text.stands_zero source)))

end SourceChar

/-! ## Lexemes -/

/-- A word fits in front of an offset, and no line breaks in it. -/
def TokenValue.Fits (n : Nat) : TokenValue → Prop
  | .ident name => name.length ≤ n ∧ '\n' ∉ name.toList
  | _ => True

/-- A lexeme is at a place of a source. -/
structure Lexeme.Placed (source : List Char) (l : Lexeme) : Prop where
  /-- It does not end before it starts. -/
  ordered : l.span.start ≤ l.span.stop
  /-- It starts between two characters of the source, unless it is the end of a line. -/
  place : l.value ≠ .newline → ∃ rest, Stands source l.span.start rest
  /-- A word is no longer than the text up to its end. -/
  fits : ∀ value, l.value = .value value → value.Fits l.span.stop

/-- Lexemes that lie one after another in a source, from an offset on.  Faults stand
anywhere among them. -/
inductive ItemRun (source : List Char) : Nat → List LexItem → Prop where
  | nil {n : Nat} : n ≤ byteLength source → ItemRun source n []
  | fault {n : Nat} {fault : Fault} {items : List LexItem} :
      ItemRun source n items → ItemRun source n (.error fault :: items)
  | lexeme {n : Nat} {l : Lexeme} {items : List LexItem} :
      n ≤ l.span.start → l.Placed source → ItemRun source l.span.stop items →
      ItemRun source n (.ok l :: items)

theorem ItemRun.mono {source : List Char} {n m : Nat} {items : List LexItem}
    (h : ItemRun source n items) (hle : m ≤ n) : ItemRun source m items := by
  induction h with
  | nil hn => exact .nil (Nat.le_trans hle hn)
  | fault _ ih => exact .fault (ih hle)
  | lexeme hn hplaced hitems _ => exact .lexeme (Nat.le_trans hle hn) hplaced hitems

/-! ## Reading lexemes -/

theorem readNumber_ne_ident (cs : List Char) (name : String) :
    (readNumber cs).1 ≠ .ok (.ident name) := by
  intro h
  unfold readNumber NumberText.toFloat NumberText.toInteger at h
  grind

/-- A word is made of the characters that were read for it. -/
theorem toList_of_readLexeme {cs : List Char} {name : String} {count : Nat}
    (h : readLexeme cs = (.ok (.value (.ident name)), count)) :
    name.toList = cs.take count ∧ count = name.length := by
  unfold readLexeme at h
  split at h
  · cases h
  · next c rest =>
    split at h
    · obtain ⟨hvalue, rfl⟩ := Prod.mk.inj h
      injection hvalue with hvalue
      injection hvalue with hvalue
      injection hvalue with hname
      subst hname
      have htake : rest.takeWhile Text.isIdentTail =
          rest.take (rest.takeWhile Text.isIdentTail).length :=
        List.prefix_iff_eq_take.mp (List.takeWhile_prefix _)
      rw [String.toList_ofList, List.take_succ_cons, ← htake, String.length_ofList]
      exact ⟨rfl, rfl⟩
    · split at h
      · have hnumber := congrArg Prod.fst h
        cases hread : (readNumber (c :: rest)).1 with
        | error cause => simp [hread, Except.map] at hnumber
        | ok value =>
            simp only [hread, Except.map, Except.ok.injEq, LexemeValue.value.injEq] at hnumber
            exact absurd (hnumber ▸ hread) (readNumber_ne_ident _ name)
      · split at h
        · cases h
        · split at h <;> cases h

section

variable {source : List Char} {n : Nat} {c : SourceChar} {rest chars : List SourceChar}

/-- What a lexeme leaves behind, if it is made of `k + 1` of the characters at the start. -/
theorem CharRun.of_final (h : CharRun source n (c :: rest)) (hchars : chars <+: c :: rest)
    (k : Nat) :
    c.start < (chars.getD k c).stop ∧ CharRun source (chars.getD k c).stop (rest.drop k) ∧
      (k < chars.length → k + 1 ≤ (chars.getD k c).stop) := by
  obtain ⟨behind, hbehind⟩ := hchars
  cases h with
  | cons hn hlt hplace hrest =>
      rcases Nat.lt_or_ge k chars.length with hk | hk
      · have hget : (c :: rest)[k]? = some (chars.getD k c) := by
          rw [← hbehind, List.getElem?_append_left hk, List.getD_eq_getElem?_getD,
            List.getElem?_eq_getElem hk, Option.getD_some]
        have hrun : CharRun source c.start (c :: rest) := .cons (Nat.le_refl _) hlt hplace hrest
        obtain ⟨hstop, hdrop⟩ := hrun.of_getElem? hget
        exact ⟨by omega, hdrop, fun _ => by omega⟩
      · rw [List.getD_eq_getElem?_getD, List.getElem?_eq_none hk, Option.getD_none]
        exact ⟨hlt, hrest.drop k, fun hk' => absurd hk (Nat.not_le_of_lt hk')⟩

/-- A word is not longer than the source up to its end, even if lines were joined in it. -/
theorem CharRun.fits_of_readLexeme (h : CharRun source n (c :: rest))
    (hchars : chars <+: c :: rest) (hunbroken : ∀ d ∈ chars, d.char ≠ '\n') {value : TokenValue}
    {count : Nat} (hread : readLexeme (chars.map (·.char)) = (.ok (.value value), count)) :
    value.Fits (chars.getD (count - 1) c).stop := by
  cases value with
  | ident name =>
      obtain ⟨hname, hcount⟩ := toList_of_readLexeme hread
      have hlength : name.length ≤ chars.length := by
        rw [← String.length_toList, hname, List.length_take, List.length_map]
        exact Nat.min_le_right _ _
      refine ⟨?_, fun hmem => ?_⟩
      · obtain ⟨-, -, hstop⟩ := h.of_final hchars (count - 1)
        omega
      · rw [hname] at hmem
        obtain ⟨d, hd, hbreak⟩ := List.mem_map.mp (List.mem_of_mem_take hmem)
        exact hunbroken d hd hbreak
  | integer _ | float _ | punct _ | directive => trivial

/-- The lexemes of characters lie where the characters do.  The line end that a text lacks
is at the end of the last character. -/
theorem itemRun_lexFrom {spaced first : Bool} {stop line : Nat} {cs : List SourceChar}
    (h : CharRun source stop cs) : ItemRun source stop (lexFrom spaced first stop line cs) := by
  fun_induction lexFrom spaced first stop line cs with
  | case1 => exact .nil h.le_byteLength
  | case2 spaced first stop line _ =>
      refine .lexeme (Nat.le_refl _) ⟨Nat.le_refl _, ?_, ?_⟩ (.nil h.le_byteLength)
      · exact fun hnewline => absurd rfl hnewline
      · exact fun value hvalue => nomatch hvalue
  | case3 spaced first stop line c rest _ ih =>
      cases h with
      | cons hn hlt hplace hrest =>
          refine .lexeme hn ⟨Nat.le_of_lt hlt, fun _ => hplace, ?_⟩ (ih hrest)
          exact fun value hvalue => nomatch hvalue
  | case4 spaced first stop line c rest _ _ ih =>
      cases h with
      | cons hn hlt _ hrest => exact (ih hrest).mono (by omega)
  | case5 spaced first stop line c rest hc hsep chars value count hread final item ih =>
      have hchars : chars <+: c :: rest :=
        (List.prefix_cons_inj c).mpr (List.takeWhile_prefix _)
      have hunbroken : ∀ d ∈ chars, d.char ≠ '\n' := by
        intro d hd
        rcases List.mem_cons.mp hd with rfl | hd
        · exact hc
        · have htest := List.all_eq_true.mp List.all_takeWhile d hd
          exact bne_iff_ne.mp (Bool.and_eq_true_iff.mp htest).2
      obtain ⟨hlt, hdrop, -⟩ := h.of_final hchars (count - 1)
      have hrun := h
      cases h with
      | cons hn _ hplace hrest =>
          cases value with
          | error cause => exact .fault ((ih hdrop).mono (Nat.le_trans hn (Nat.le_of_lt hlt)))
          | ok value =>
              refine .lexeme hn ⟨Nat.le_of_lt hlt, fun _ => hplace, ?_⟩ (ih hdrop)
              rintro value rfl
              exact hrun.fits_of_readLexeme hchars hunbroken hread

/-- The lexemes of a text lie in it from its start on. -/
theorem itemRun_lexemes (source : List Char) : ItemRun source 0 (lexemes source) :=
  itemRun_lexFrom (SourceChar.charRun_ofText source)

end

end LegacyShader.Preprocess
