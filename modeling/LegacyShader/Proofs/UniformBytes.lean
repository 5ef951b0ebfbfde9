import LegacyShader.Proofs.TextPlaces
import LegacyShader.Proofs.UniformScan

/-!
# The scan for uniforms over bytes

A scan over the bytes of a text moves a cursor and cuts what it finds out of the text.
An index beyond the bytes and a cut that is not at places of the text are faults, and a
scan that meets one has no result (`ByteScan.step?`, `ByteScan.Finishes`).

The cursor always stands at a place: it moves over whole runs of bytes below 128, and it
is put behind a bracket or a semicolon.  So each parser over bytes goes along with the
parser over characters (`Option.Rel`, with `Stands` between the cursor and the rest), and
what it finds can be cut out.
-/

namespace LegacyShader.Modern

open Text (byteLength byteOf encodeUtf8 Stands)

/-! ## Bytes -/

/-- The bytes of words. -/
def isWordByte (b : UInt8) : Bool :=
  (48 ≤ b && b ≤ 57) || (65 ≤ b && b ≤ 90) || (97 ≤ b && b ≤ 122) || b == 95

/-- The bytes of spaces. -/
def isSpaceByte (b : UInt8) : Bool :=
  b == 32 || b == 9 || b == 10 || b == 13 || b == 11 || b == 12

/-- The place behind a run of bytes. -/
def skipWhile (p : UInt8 → Bool) (bytes : List UInt8) (cursor : Nat) : Nat :=
  cursor + ((bytes.drop cursor).takeWhile p).length

/-- The place behind a run of bytes that is not empty. -/
def skipSome? (p : UInt8 → Bool) (bytes : List UInt8) (cursor : Nat) : Option Nat :=
  let stop := skipWhile p bytes cursor
  if stop = cursor then none else some stop

/-- The place behind a semicolon, which spaces may precede. -/
def behindSemicolon? (bytes : List UInt8) (cursor : Nat) : Option Nat :=
  let semicolon := skipWhile isSpaceByte bytes cursor
  if bytes[semicolon]? = some (byteOf ';') then some (semicolon + 1) else none

/-! ## Declarations -/

/-- A part of a text. -/
structure Span where
  /-- The byte offset at which it starts. -/
  start : Nat
  /-- The byte offset at which it ends. -/
  stop : Nat

/-- The text of a span, if it starts and ends at places of the text. -/
def Span.cut? (text : List Char) (span : Span) : Option (List Char) :=
  Text.slice? text span.start span.stop

/-- The place behind the closing bracket of an array suffix, and the place behind its
semicolon.  The bytes from the cursor on are given. -/
def closing? (bytes : List UInt8) (cursor : Nat) : List UInt8 → Option (Nat × Nat)
  | [] => none
  | b :: rest =>
      if b = byteOf '\n' then none
      else
        match (if b = byteOf ']' then behindSemicolon? bytes (cursor + 1) else none) with
        | some stop => some (cursor + 1, stop)
        | none => closing? bytes (cursor + 1) rest

/-- The array suffix at a place, if there is one, and the place behind the semicolon. -/
def tailAt? (bytes : List UInt8) (cursor : Nat) : Option (Option Span × Nat) :=
  let start := skipWhile isSpaceByte bytes cursor
  if bytes[start]? = some (byteOf '[') then
    (closing? bytes (start + 1) (bytes.drop (start + 1))).map fun (close, stop) =>
      (some ⟨start, close⟩, stop)
  else (behindSemicolon? bytes cursor).map fun stop => (none, stop)

/-- The parts of a declaration. -/
structure DeclSpans where
  /-- The declaration. -/
  whole : Span
  /-- Its precision, if there is one. -/
  precision : Option Span
  /-- Its type. -/
  type : Span
  /-- Its name. -/
  name : Span
  /-- Its suffix, if there is one. -/
  suffix : Option Span

/-- A name and a tail behind two words. -/
def namedAt? (bytes : List UInt8) (cursor : Nat) : Option (Span × Option Span × Nat) := do
  let third ← skipSome? isSpaceByte bytes cursor
  let thirdStop ← skipSome? isWordByte bytes third
  let (suffix, stop) ← tailAt? bytes thirdStop
  return (⟨third, thirdStop⟩, suffix, stop)

/-- The declaration at a place, which is one of the keyword. -/
def spansAt? (bytes : List UInt8) (start : Nat) : Option DeclSpans := do
  let first ← skipSome? isSpaceByte bytes (start + keyword.length)
  let firstStop ← skipSome? isWordByte bytes first
  let second ← skipSome? isSpaceByte bytes firstStop
  let secondStop ← skipSome? isWordByte bytes second
  match namedAt? bytes secondStop with
  | some (third, suffix, stop) =>
      return ⟨⟨start, stop⟩, some ⟨first, firstStop⟩, ⟨second, secondStop⟩, third, suffix⟩
  | none =>
      let (suffix, stop) ← tailAt? bytes secondStop
      return ⟨⟨start, stop⟩, none, ⟨first, firstStop⟩, ⟨second, secondStop⟩, suffix⟩

/-- Cuts a declaration out of a text.  Its offset and its length count bytes. -/
def DeclSpans.cut? (text : List Char) (spans : DeclSpans) : Option UniformDecl := do
  let precision ← spans.precision.mapM (Span.cut? text)
  let type ← spans.type.cut? text
  let name ← spans.name.cut? text
  let suffix ← spans.suffix.mapM (Span.cut? text)
  return ⟨spans.whole.start, spans.whole.stop - spans.whole.start, precision, type, name,
    suffix.getD []⟩

/-- Whether a statement goes on with a character. -/
def goesOn (c : Char) : Bool := !(c == ';' || c == '\x7b' || c == '\n')

/-- Cuts the statement at a place out of a text. -/
def statementAt? (text : List Char) (start : Nat) : Option (List Char) := do
  let rest ← Text.dropBytes? start text
  let stop := start + byteLength (rest.takeWhile goesOn)
  let behind ← Text.dropBytes? stop text
  let stop := if behind.head? = some ';' then stop + 1 else stop
  return Text.trim (← Text.slice? text start stop)

/-! ## The loop -/

/-- The place of the first keyword in a text, as a whole word or not. -/
def findKeyword? : List Char → Option Nat
  | [] => none
  | c :: rest =>
      if keyword.isPrefixOf (c :: rest) then some 0
      else (findKeyword? rest).map (c.utf8Size + ·)

/-- Whether a word goes on in front of a place. -/
def wordBefore? (bytes : List UInt8) (start : Nat) : Option Bool :=
  if 0 < start then bytes[start - 1]?.map isWordByte else some false

/-- A scan under way: where the search goes on, and what has been found. -/
structure ByteScan where
  /-- The byte offset at which the search goes on. -/
  search : Nat
  /-- What has been found. -/
  found : UniformScan

/-- Goes on behind the use of the keyword at a place. -/
def ByteScan.takeUse? (text : List Char) (s : ByteScan) (start : Nat) : Option ByteScan :=
  match spansAt? (encodeUtf8 text) start with
  | some spans => do
      let d ← spans.cut? text
      return ⟨d.stop, { s.found with decls := s.found.decls ++ [d] }⟩
  | none => do
      let use := ⟨start, ← statementAt? text start⟩
      return ⟨start + keyword.length,
        { s.found with unrecognized := s.found.unrecognized ++ [use] }⟩

/-- One search of a scan: nothing if it meets a fault, and no next state if no keyword is
left. -/
def ByteScan.step? (text : List Char) (s : ByteScan) : Option (Option ByteScan) := do
  let bytes := encodeUtf8 text
  match findKeyword? (← Text.dropBytes? s.search text) with
  | none => return none
  | some distance =>
      let start := s.search + distance
      let stop := start + keyword.length
      if (← wordBefore? bytes start) || bytes[stop]?.any isWordByte then
        return some { s with search := stop }
      return some (← s.takeUse? text start)

/-- A scan comes to its end with a result, and without a fault. -/
inductive ByteScan.Finishes (text : List Char) : ByteScan → UniformScan → Prop where
  | done {s : ByteScan} (h : s.step? text = some none) : Finishes text s s.found
  | next {s t : ByteScan} {scan : UniformScan} (h : s.step? text = some (some t))
      (ht : Finishes text t scan) : Finishes text s scan

/-! ## Parsers over bytes and over characters -/

/-- The bytes of words are the characters of words. -/
theorem byteClass_isWordByte : Text.ByteClass isWordByte Text.isWordChar where
  same := by decide +kernel
  low_byte b h := by
    simp only [isWordByte, Bool.or_eq_true, Bool.and_eq_true, decide_eq_true_eq, beq_iff_eq,
      UInt8.le_iff_toNat_le, ← UInt8.toNat_inj] at h
    rcases h with ((⟨-, h⟩ | ⟨-, h⟩) | ⟨-, h⟩) | h
    · exact Nat.lt_of_le_of_lt h (by decide)
    · exact Nat.lt_of_le_of_lt h (by decide)
    · exact Nat.lt_of_le_of_lt h (by decide)
    · exact Nat.lt_of_le_of_lt h.le (by decide)
  low_char c h := by
    have hval : c.val.toNat = c.toNat := rfl
    delta Text.isWordChar Char.isAlphanum Char.isAlpha Char.isUpper Char.isLower Char.isDigit at h
    simp only [Bool.or_eq_true, Bool.and_eq_true, decide_eq_true_eq, beq_iff_eq, ge_iff_le,
      UInt32.le_iff_toNat_le, hval] at h
    rcases h with ((⟨-, h⟩ | ⟨-, h⟩) | ⟨-, h⟩) | rfl
    · exact Nat.lt_of_le_of_lt h (by decide)
    · exact Nat.lt_of_le_of_lt h (by decide)
    · exact Nat.lt_of_le_of_lt h (by decide)
    · decide

theorem byteClass_isSpaceByte : Text.ByteClass isSpaceByte isSpace where
  same := by decide +kernel
  low_byte b h := by
    simp only [isSpaceByte, Bool.or_eq_true, beq_iff_eq] at h
    rcases h with ((((rfl | rfl) | rfl) | rfl) | rfl) | rfl <;> decide
  low_char c h := by
    simp only [isSpace, Bool.or_eq_true, beq_iff_eq] at h
    rcases h with ((((rfl | rfl) | rfl) | rfl) | rfl) | rfl <;> decide

/-- Two computations in turn that agree at each step agree. -/
theorem rel_bind {α β γ δ : Type} {r : α → β → Prop} {s : γ → δ → Prop} {x : Option α}
    {y : Option β} {f : α → Option γ} {g : β → Option δ} (h : Option.Rel r x y)
    (hf : ∀ a b, r a b → Option.Rel s (f a) (g b)) : Option.Rel s (x.bind f) (y.bind g) := by
  cases h with
  | none => exact .none
  | some hab => exact hf _ _ hab

theorem rel_map {α β γ δ : Type} {r : α → β → Prop} {s : γ → δ → Prop} {x : Option α}
    {y : Option β} {f : α → γ} {g : β → δ} (h : Option.Rel r x y)
    (hf : ∀ a b, r a b → s (f a) (g b)) : Option.Rel s (x.map f) (y.map g) := by
  cases h with
  | none => exact .none
  | some hab => exact .some (hf _ _ hab)

theorem rel_map_right {α β γ : Type} {r : α → β → Prop} {s : α → γ → Prop} {x : Option α}
    {y : Option β} {g : β → γ} (h : Option.Rel r x y) (hg : ∀ a b, r a b → s a (g b)) :
    Option.Rel s x (y.map g) := by
  cases h with
  | none => exact .none
  | some hab => exact .some (hg _ _ hab)

section

variable {text cs : List Char} {n : Nat}

/-- Skipping bytes of a class skips the characters of the class. -/
theorem skipWhile_eq {p : UInt8 → Bool} {q : Char → Bool} (hclass : Text.ByteClass p q)
    (h : Stands text n cs) :
    skipWhile p (encodeUtf8 text) n = n + byteLength (cs.takeWhile q) := by
  rw [skipWhile, h.drop_encodeUtf8, hclass.takeWhile_encodeUtf8, Text.length_encodeUtf8]

theorem stands_dropWhile (q : Char → Bool) (h : Stands text n cs) :
    Stands text (n + byteLength (cs.takeWhile q)) (cs.dropWhile q) := by
  refine Stands.skip _ ?_
  rwa [List.takeWhile_append_dropWhile]

theorem skipSome?_eq {p : UInt8 → Bool} {q : Char → Bool} (hclass : Text.ByteClass p q)
    (h : Stands text n cs) :
    skipSome? p (encodeUtf8 text) n =
      if cs.takeWhile q = [] then none else some (n + byteLength (cs.takeWhile q)) := by
  simp only [skipSome?, skipWhile_eq hclass h]
  by_cases hnil : cs.takeWhile q = []
  · rw [if_pos hnil, hnil]
    exact if_pos rfl
  · have := Text.byteLength_pos hnil
    rw [if_neg hnil, if_neg (by omega)]

/-- A parser of one word: the cursor is behind it, and the word can be cut out. -/
def CutWord (text : List Char) (start stop : Nat) (found : List Char × List Char) : Prop :=
  Span.cut? text ⟨start, stop⟩ = some found.1 ∧ Stands text stop found.2

/-- Spaces are skipped in bytes as in characters. -/
theorem rel_afterSpaces? (h : Stands text n cs) :
    Option.Rel (Stands text) (skipSome? isSpaceByte (encodeUtf8 text) n) (afterSpaces? cs) := by
  have hbehind := stands_dropWhile isSpace h
  rw [skipSome?_eq byteClass_isSpaceByte h]
  cases cs with
  | nil => exact .none
  | cons c cs =>
      rw [afterSpaces?]
      rw [List.takeWhile_cons, List.dropWhile_cons] at hbehind
      rw [List.takeWhile_cons]
      cases hc : isSpace c with
      | false => exact .none
      | true =>
          rw [hc] at hbehind
          exact .some hbehind

/-- A word is cut out of the bytes as it is taken from the characters. -/
theorem rel_takeWord? (h : Stands text n cs) :
    Option.Rel (CutWord text n) (skipSome? isWordByte (encodeUtf8 text) n) (takeWord? cs) := by
  have hbehind := stands_dropWhile Text.isWordChar h
  have hrest : Stands text n (cs.takeWhile Text.isWordChar ++ cs.dropWhile Text.isWordChar) := by
    rwa [List.takeWhile_append_dropWhile]
  rw [skipSome?_eq byteClass_isWordByte h, takeWord?]
  cases hrun : cs.takeWhile Text.isWordChar with
  | nil => exact .none
  | cons c run =>
      rw [hrun] at hbehind hrest
      exact .some ⟨Text.slice?_eq_some_iff.mpr ⟨⟨_, hrest⟩, rfl⟩, hbehind⟩

theorem rel_afterSemicolon? (h : Stands text n cs) :
    Option.Rel (Stands text) (behindSemicolon? (encodeUtf8 text) n) (afterSemicolon? cs) := by
  have hbehind := stands_dropWhile isSpace h
  simp only [behindSemicolon?, skipWhile_eq byteClass_isSpaceByte h,
    hbehind.getElem?_eq_byteOf_iff (by decide : ';'.toNat < 128)]
  unfold afterSemicolon?
  cases hrest : cs.dropWhile isSpace with
  | nil => exact .none
  | cons c rest =>
      rw [hrest] at hbehind
      by_cases hc : c = ';'
      · subst hc
        exact .some (Stands.skip [';'] hbehind)
      · rw [if_neg (by simpa using hc)]
        split
        · next heq => exact absurd (List.cons.inj heq).1 hc
        · exact .none

/-- A search for a bracket passes over other bytes of a line. -/
theorem closing?_append {bytes front rest : List UInt8} (hline : byteOf '\n' ∉ front)
    (hbracket : byteOf ']' ∉ front) :
    closing? bytes n (front ++ rest) = closing? bytes (n + front.length) rest := by
  induction front generalizing n with
  | nil => rfl
  | cons b front ih =>
      obtain ⟨hb, hline⟩ := List.ne_and_not_mem_of_not_mem_cons hline
      obtain ⟨hb', hbracket⟩ := List.ne_and_not_mem_of_not_mem_cons hbracket
      rw [List.cons_append, closing?, if_neg (Ne.symm hb), if_neg (Ne.symm hb')]
      dsimp only
      rw [ih hline hbracket, List.length_cons, Nat.add_assoc, Nat.add_comm 1]

/-- Brackets that are found: the cursor is behind them, and another one behind the
semicolon. -/
def CutBrackets (text : List Char) (start : Nat) (places : Nat × Nat)
    (found : List Char × List Char) : Prop :=
  Span.cut? text ⟨start, places.1⟩ = some found.1 ∧ Stands text places.2 found.2

/-- Brackets are found in bytes as in characters.  Where no bracket closes, the search goes
on behind the character, whatever its bytes are. -/
theorem rel_takeBrackets? (h : Stands text n cs) :
    Option.Rel (CutBrackets text n) (closing? (encodeUtf8 text) n (encodeUtf8 cs))
      (takeBrackets? cs) := by
  induction cs generalizing n with
  | nil => exact .none
  | cons c cs ih =>
      have hbehind : Stands text (n + c.utf8Size) cs := Stands.skip [c] h
      rw [Text.encodeUtf8_cons, takeBrackets?]
      by_cases hline : c = '\n'
      · subst hline
        exact .none
      have hnext : Option.Rel (CutBrackets text n)
          (closing? (encodeUtf8 text) (n + c.utf8Size) (encodeUtf8 cs))
          ((takeBrackets? cs).map fun found => (c :: found.1, found.2)) :=
        rel_map_right (ih hbehind) fun _ _ hfound => ⟨h.slice?_cons hfound.1, hfound.2⟩
      rw [if_neg hline]
      by_cases hbracket : c = ']'
      · subst hbracket
        rw [if_pos rfl]
        have hbyte : Text.encodeChar ']' = [byteOf ']'] := rfl
        rw [hbyte, List.singleton_append, closing?, if_neg (by decide), if_pos rfl]
        have hsemicolon : Option.Rel (Stands text) (behindSemicolon? (encodeUtf8 text) (n + 1))
            (afterSemicolon? cs) := rel_afterSemicolon? hbehind
        generalize behindSemicolon? (encodeUtf8 text) (n + 1) = x at hsemicolon
        generalize afterSemicolon? cs = y at hsemicolon
        cases hsemicolon with
        | none => exact hnext
        | some hstop => exact .some ⟨Text.slice?_eq_some_iff.mpr ⟨⟨cs, h⟩, rfl⟩, hstop⟩
      · rw [if_neg hbracket, closing?_append, Text.length_encodeChar]
        · exact hnext
        · rwa [Text.byteOf_mem_encodeChar_iff (by decide)]
        · rwa [Text.byteOf_mem_encodeChar_iff (by decide)]

/-- A tail that is found: its suffix can be cut out, and the cursor is behind it. -/
def CutTail (text : List Char) (places : Option Span × Nat) (found : List Char × List Char) :
    Prop :=
  (∃ suffix, places.1.mapM (Span.cut? text) = some suffix ∧ suffix.getD [] = found.1) ∧
    Stands text places.2 found.2

theorem takeTail?_eq_of_no_bracket (h : (cs.dropWhile isSpace).head? ≠ some '[') :
    takeTail? cs = (afterSemicolon? cs).map fun rest => ([], rest) := by
  unfold takeTail? afterSemicolon?
  split
  · next hrest => exact absurd (by rw [hrest]; rfl) h
  · next hrest =>
    rw [hrest]
    rfl
  · next hsemicolon =>
    split
    · next hrest => exact absurd hrest (hsemicolon _)
    · rfl

/-- So is the tail of a declaration. -/
theorem rel_takeTail? (h : Stands text n cs) :
    Option.Rel (CutTail text) (tailAt? (encodeUtf8 text) n) (takeTail? cs) := by
  have hstart := stands_dropWhile isSpace h
  simp only [tailAt?, skipWhile_eq byteClass_isSpaceByte h,
    hstart.getElem?_eq_byteOf_iff (by decide : '['.toNat < 128)]
  split
  · next hbracket =>
    obtain ⟨rest, hrest⟩ := List.head?_eq_some_iff.mp hbracket
    rw [takeTail?, hrest]
    rw [hrest] at hstart
    have hinner : Stands text (n + byteLength (cs.takeWhile isSpace) + 1) rest :=
      Stands.skip ['['] hstart
    rw [hinner.drop_encodeUtf8]
    refine rel_map (rel_takeBrackets? hinner) fun places found ⟨hcut, hstop⟩ => ?_
    exact ⟨⟨some ('[' :: found.1), by simp [Span.cut?, hstart.slice?_cons hcut], rfl⟩, hstop⟩
  · next hbracket =>
    rw [takeTail?_eq_of_no_bracket hbracket]
    exact rel_map (rel_afterSemicolon? h) fun _ _ hstop => ⟨⟨none, rfl, rfl⟩, hstop⟩

/-- A name with its tail, like `CutTail`. -/
def CutNamed (text : List Char) (places : Span × Option Span × Nat)
    (found : List Char × List Char × List Char) : Prop :=
  places.1.cut? text = some found.1 ∧ CutTail text places.2 found.2

theorem rel_takeNamed? (h : Stands text n cs) :
    Option.Rel (CutNamed text) (namedAt? (encodeUtf8 text) n) (takeNamed? cs) := by
  refine rel_bind (rel_afterSpaces? h) fun third rest hthird => ?_
  refine rel_bind (rel_takeWord? hthird) fun thirdStop found ⟨hname, hbehind⟩ => ?_
  refine rel_bind (rel_takeTail? hbehind) fun places tail htail => ?_
  exact .some ⟨hname, htail⟩

/-- A declaration that is found: the cursor is behind it, and it can be cut out. -/
def CutDecl (text : List Char) (start : Nat) (cs : List Char) (spans : DeclSpans)
    (d : UniformDecl) : Prop :=
  ∃ stop rest, Stands text stop rest ∧ d.length = cs.length - rest.length ∧
    spans.cut? text = some { d with offset := start, length := stop - start }

/-- So is a whole declaration, or neither finds one. -/
theorem rel_parseDecl? (k : Nat) (h : Stands text n cs) (hkey : keyword <+: cs) :
    Option.Rel (CutDecl text n cs) (spansAt? (encodeUtf8 text) n) (parseDecl? k cs) := by
  have hbehind : Stands text (n + keyword.length) (cs.drop keyword.length) := by
    obtain ⟨rest, rfl⟩ := hkey
    rw [List.drop_left]
    exact Stands.skip keyword h
  rw [parseDecl?_eq]
  refine rel_bind (rel_afterSpaces? hbehind) fun first r₁ hfirst =>
    rel_bind (rel_takeWord? hfirst) ?_
  rintro firstStop ⟨firstWord, r₂⟩ ⟨hcut₁, hfirstStop⟩
  refine rel_bind (rel_afterSpaces? hfirstStop) fun second r₃ hsecond =>
    rel_bind (rel_takeWord? hsecond) ?_
  rintro secondStop ⟨secondWord, r₄⟩ ⟨hcut₂, hsecondStop⟩
  have hnamed := rel_takeNamed? hsecondStop
  have htail := rel_takeTail? hsecondStop
  dsimp only [finishDecl?]
  generalize namedAt? (encodeUtf8 text) secondStop = x at hnamed ⊢
  generalize takeNamed? r₄ = y at hnamed ⊢
  cases hnamed with
  | some hfound =>
      obtain ⟨hname, ⟨suffix, hsuffix, hsuffix'⟩, hstop⟩ := hfound
      refine .some ⟨_, _, hstop, rfl, ?_⟩
      simp [DeclSpans.cut?, hcut₁, hcut₂, hname, hsuffix, hsuffix']
  | none =>
      refine rel_bind htail ?_
      rintro ⟨span, stop⟩ ⟨suffix, rest⟩ ⟨⟨found, hsuffix, hsuffix'⟩, hstop⟩
      refine .some ⟨stop, rest, hstop, rfl, ?_⟩
      simp [DeclSpans.cut?, hcut₁, hcut₂, hsuffix, hsuffix']

theorem spansAt?_of_parseDecl?_none {k : Nat} (h : Stands text n cs) (hkey : keyword <+: cs)
    (hnone : parseDecl? k cs = none) : spansAt? (encodeUtf8 text) n = none := by
  have hrel := rel_parseDecl? k h hkey
  rw [hnone] at hrel
  generalize spansAt? (encodeUtf8 text) n = x at hrel
  cases hrel
  rfl

/-- Where a declaration is parsed, its parts can be cut out of the bytes. -/
theorem exists_spansAt? {k : Nat} {d : UniformDecl} (h : Stands text n cs) (hkey : keyword <+: cs)
    (hd : parseDecl? k cs = some d) :
    ∃ spans, spansAt? (encodeUtf8 text) n = some spans ∧
      spans.cut? text = some { d with offset := n, length := byteLength (cs.take d.length) } := by
  have hrel := rel_parseDecl? k h hkey
  obtain ⟨front, behind, rfl, -, -, hfront⟩ := exists_front_of_parseDecl? hd
  rw [hd] at hrel
  generalize spansAt? (encodeUtf8 text) n = x at hrel
  cases hrel with
  | some hcut =>
      obtain ⟨stop, rest, hstop, hlength, hcut⟩ := hcut
      refine ⟨_, rfl, ?_⟩
      obtain ⟨before, htext, hbefore⟩ := h
      obtain ⟨upTo, htext', rfl⟩ := hstop
      have hsame : before ++ (front ++ [';']) ++ behind = upTo ++ rest := by
        rw [← htext', htext]
        simp
      have hrest : behind.length = rest.length := by
        simp only [List.length_append, List.length_cons] at hlength
        omega
      obtain ⟨rfl, rfl⟩ := List.append_inj' hsame hrest
      have htake : (front ++ ';' :: behind).take d.length = front ++ [';'] := by
        rw [← List.singleton_append, ← List.append_assoc]
        exact List.take_left' (by simpa using hfront.symm)
      rw [hcut, htake, Text.byteLength_append before, hbefore, Nat.add_sub_cancel_left]

/-- The bytes of the keyword are those of its characters. -/
theorem exists_stands_of_keyword_bytes
    (h : encodeUtf8 keyword <+: (encodeUtf8 text).drop n) :
    ∃ cs, Stands text n cs ∧ keyword <+: cs := by
  have hfirst : (encodeUtf8 text)[n]? = some (byteOf 'u') := by
    obtain ⟨rest, hrest⟩ := h
    rw [← List.head?_drop, ← hrest]
    rfl
  obtain ⟨c, rest, hstands, -⟩ := Text.exists_stands_of_getElem? hfirst (by decide)
  refine ⟨c :: rest, hstands, ?_⟩
  rwa [hstands.drop_encodeUtf8, Text.encodeUtf8_prefix_iff (by simp [keyword_eq])] at h

theorem statementText_eq (cs : List Char) :
    statementText cs = Text.trim (if (cs.dropWhile goesOn).head? = some ';'
      then cs.takeWhile goesOn ++ [';'] else cs.takeWhile goesOn) := by
  have hgoesOn : (fun c => !(c == ';' || c == '\x7b' || c == '\n')) = goesOn := rfl
  simp only [statementText, hgoesOn]
  cases hrest : cs.dropWhile goesOn with
  | nil => rfl
  | cons c rest =>
      split
      · next heq => rw [(List.cons.inj heq).1, if_pos List.head?_cons]
      · next hne =>
        rw [if_neg fun hc => ?_]
        obtain rfl := Option.some.inj hc
        exact hne rest rfl

/-- The statement of an unrecognized use can be cut out of the bytes. -/
theorem statementAt?_eq (h : Stands text n cs) :
    statementAt? text n = some (statementText cs) := by
  have hsplit : Stands text n (cs.takeWhile goesOn ++ cs.dropWhile goesOn) := by
    rwa [List.takeWhile_append_dropWhile]
  have hends := Stands.skip _ hsplit
  rw [statementText_eq]
  simp only [statementAt?, Text.dropBytes?_eq_some_iff.mpr h,
    Text.dropBytes?_eq_some_iff.mpr hends, bind, Option.bind_some, pure]
  by_cases hsemicolon : (cs.dropWhile goesOn).head? = some ';'
  · obtain ⟨rest, hrest⟩ := List.head?_eq_some_iff.mp hsemicolon
    rw [hrest, List.append_cons] at hsplit
    have hstop : n + byteLength (cs.takeWhile goesOn) + 1 =
        n + byteLength (cs.takeWhile goesOn ++ [';']) := by
      rw [Text.byteLength_append]
      rfl
    rw [if_pos hsemicolon, if_pos hsemicolon, Text.slice?_eq_some_iff.mpr ⟨⟨rest, hsplit⟩, hstop⟩]
    rfl
  · rw [if_neg hsemicolon, if_neg hsemicolon, Text.slice?_eq_some_iff.mpr ⟨⟨_, hsplit⟩, rfl⟩]
    rfl

end

end LegacyShader.Modern
