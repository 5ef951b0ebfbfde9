import LegacyShader.Json.Printer
import LegacyShader.Json.Reader

/-!
# Printed values are read back

A printed text is read as the value it was printed from.  The argument goes along the value,
and what follows the text is left over.  Three things have to be seen.

* An escape stands for the character it was made of, and no other character is taken for an
  escape (`escapeChar_cases`).  So a quoted text ends at its own quote (`readText_printed`).
* A number ends where its digits end, because what follows a value never continues one
  (`Ends`).  Its digits are never cut off, as long as it is a word of 64 bits.
* The reader counts levels and steps.  Levels are bounded in `Value.Fits`.  A value takes at
  most two steps for each character of its text, and `parse` grants as many.
-/

namespace LegacyShader.Json

/-! ## Texts -/

theorem hexValue?_hexDigit : ∀ {n : Nat}, n < 16 → hexValue? (hexDigit n) = some n := by
  decide

/-- A control character is read back from its number. -/
theorem readEscape_control {c : Char} (h : c.toNat < 32) (rest : List Char) :
    readEscape ('u' :: '0' :: '0' :: hexDigit (c.toNat / 16) :: hexDigit (c.toNat % 16) :: rest) =
      .ok (c, rest) := by
  have hhigh := hexValue?_hexDigit (show c.toNat / 16 < 16 by omega)
  have hlow := hexValue?_hexDigit (show c.toNat % 16 < 16 by omega)
  have hzero : hexValue? '0' = some 0 := rfl
  have hdigits :
      hexDigits? ('0' :: '0' :: hexDigit (c.toNat / 16) :: hexDigit (c.toNat % 16) :: rest) =
        some (c.toNat, rest) := by
    simp only [hexDigits?, hzero, hhigh, hlow, Option.bind_eq_bind, Option.bind_some,
      Option.pure_def, Option.some.injEq, Prod.mk.injEq, and_true]
    omega
  simp only [readEscape, readUnicode, readHex, hdigits]
  rw [if_neg (by omega), if_neg (by omega), Char.ofNat_toNat]

/-- A character stands for itself, or an escape stands for it. -/
theorem escapeChar_cases (c : Char) :
    (escapeChar c = [c] ∧ c ≠ '"' ∧ c ≠ '\\' ∧ isControl c = false) ∨
      ∃ escape, escapeChar c = '\\' :: escape ∧
        ∀ rest, readEscape (escape ++ rest) = .ok (c, rest) := by
  unfold escapeChar
  split
  case h_8 hquote hslash _ _ _ _ _ =>
    split
    · next hcontrol =>
      exact .inr ⟨_, rfl, readEscape_control hcontrol⟩
    · next hplain =>
      exact .inl ⟨rfl, hquote, hslash, decide_eq_false hplain⟩
  all_goals exact .inr ⟨_, rfl, fun _ => rfl⟩

/-- Characters of a quoted text are read one by one. -/
theorem readChars_escapeChar (steps : Nat) (c : Char) (rest : List Char) :
    readChars (steps + 1) (escapeChar c ++ rest) =
      (readChars steps rest).map fun x => (c :: x.1, x.2) := by
  rcases escapeChar_cases c with ⟨hself, hquote, hslash, hcontrol⟩ | ⟨escape, hescape, hread⟩
  · rw [hself, List.singleton_append, readChars, if_neg hquote, if_neg hslash, hcontrol]
    cases readChars steps rest <;> rfl
  · rw [hescape, List.cons_append, readChars, if_neg (by decide), if_pos rfl, hread]
    dsimp only
    cases readChars steps rest <;> rfl

/-- Escaped characters are read back up to the quote. -/
theorem readChars_escaped {steps : Nat} {cs : List Char} (h : cs.length < steps)
    (rest : List Char) :
    readChars steps (cs.flatMap escapeChar ++ '"' :: rest) = .ok (cs, rest) := by
  induction cs generalizing steps with
  | nil =>
      obtain ⟨more, rfl⟩ := Nat.exists_eq_add_of_lt h
      rfl
  | cons c cs ih =>
      obtain ⟨more, rfl⟩ : ∃ more, steps = more + 1 := ⟨steps - 1, by omega⟩
      rw [List.flatMap_cons, List.append_assoc, readChars_escapeChar,
        ih (Nat.lt_of_succ_lt_succ h)]
      rfl

theorem length_le_length_escaped (cs : List Char) :
    cs.length ≤ (cs.flatMap escapeChar).length := by
  induction cs with
  | nil => exact Nat.le_refl 0
  | cons c cs ih =>
      have hone : 1 ≤ (escapeChar c).length := by
        rcases escapeChar_cases c with ⟨hself, -⟩ | ⟨escape, hescape, -⟩
        · rw [hself]
          exact Nat.le_refl 1
        · rw [hescape]
          exact Nat.le_add_left 1 _
      rw [List.flatMap_cons, List.length_append, List.length_cons]
      omega

/-- A text is read back up to its closing quote. -/
theorem readText_printed (s : String) (rest : List Char) :
    readText (s.toList.flatMap escapeChar ++ '"' :: rest) = .ok (s, rest) := by
  have hsteps : s.toList.length <
      (s.toList.flatMap escapeChar ++ '"' :: rest).length + 1 := by
    have hle := length_le_length_escaped s.toList
    rw [List.length_append]
    omega
  rw [readText, readChars_escaped hsteps]
  exact congrArg (fun t => Except.ok (t, rest)) String.ofList_toList

/-! ## Numbers -/

/-- What does not continue a number. -/
def Ends (rest : List Char) : Prop :=
  ∀ c ∈ rest.head?, c.isDigit = false ∧ c ≠ '.' ∧ c ≠ 'e' ∧ c ≠ 'E'

theorem ends_nil : Ends [] := by
  rintro c ⟨⟩

theorem ends_comma (rest : List Char) : Ends (',' :: rest) := by
  rintro c ⟨⟩
  decide

theorem ends_newLine (level : Nat) (rest : List Char) : Ends (newLine level ++ rest) := by
  rintro c ⟨⟩
  decide

theorem le_ofDigitChars (ds : List Char) (n : Nat) : n ≤ Nat.ofDigitChars 10 ds n := by
  induction ds generalizing n with
  | nil => exact Nat.le_refl n
  | cons d ds ih =>
      have hnext := ih (10 * n + (d.toNat - '0'.toNat))
      rw [Nat.ofDigitChars_cons]
      omega

/-- Digits are not cut off if their number is below the limit. -/
theorem appendDigits_eq_ofDigitChars {limit n : Nat} {ds : List Char}
    (h : Nat.ofDigitChars 10 ds n < limit) :
    appendDigits limit n ds = (Nat.ofDigitChars 10 ds n, []) := by
  induction ds generalizing n with
  | nil => rfl
  | cons d ds ih =>
      rw [Nat.ofDigitChars_cons, Nat.mul_comm] at h ⊢
      have hnext : n * 10 + digitOf d < limit := Nat.lt_of_le_of_lt (le_ofDigitChars ds _) h
      rw [appendDigits, if_pos hnext]
      exact ih h

/-- A number of digits in front of something else is a whole number. -/
theorem finishNumber_of_ends {ds rest : List Char}
    (h : Nat.ofDigitChars 10 ds 0 < significandLimit) (hrest : Ends rest) :
    finishNumber false ds rest = .ok (.integer (Nat.ofDigitChars 10 ds 0), rest) := by
  rw [finishNumber, appendDigits_eq_ofDigitChars h]
  cases rest with
  | nil => rfl
  | cons c rest =>
      obtain ⟨-, hpoint, hsmall, hlarge⟩ := hrest c rfl
      simp [wholeNumber, hpoint, hsmall, hlarge]

/-- The digits of a number are taken up to what ends it. -/
theorem takeDigits_append {ds rest : List Char} (hds : ∀ c ∈ ds, c.isDigit = true)
    (hrest : Ends rest) : takeDigits (ds ++ rest) = (ds, rest) := by
  have hstop : rest.takeWhile Char.isDigit = [] ∧ rest.dropWhile Char.isDigit = rest := by
    cases rest with
    | nil => exact ⟨rfl, rfl⟩
    | cons c rest => simp [(hrest c rfl).1]
  rw [takeDigits, List.takeWhile_append_of_pos hds, List.dropWhile_append_of_pos hds, hstop.1,
    hstop.2, List.append_nil]

theorem digitChar_ne_zero : ∀ {n : Nat}, n < 10 → 0 < n → n.digitChar ≠ '0' := by
  decide

/-- The digits of a number start with one other than zero, unless it is zero. -/
theorem exists_toDigits_cons {n : Nat} (h : 0 < n) :
    ∃ d ds, Nat.toDigits 10 n = d :: ds ∧ d ≠ '0' := by
  induction n using Nat.strongRecOn with
  | ind n ih =>
      rcases Nat.lt_or_ge n 10 with hlt | hge
      · exact ⟨n.digitChar, [], Nat.toDigits_of_lt_base hlt, digitChar_ne_zero hlt h⟩
      · obtain ⟨d, ds, hdigits, hd⟩ := ih (n / 10) (by omega) (by omega)
        refine ⟨d, ds ++ [(n % 10).digitChar], ?_, hd⟩
        rw [Nat.toDigits_of_base_le (by decide) hge, hdigits, List.cons_append]

theorem readNumber_of_digit {d : Char} (h : d.isDigit = true) (cs : List Char) :
    readNumber (d :: cs) = readUnsigned false (d :: cs) := by
  unfold readNumber
  split
  · next heq =>
    cases heq
    exact absurd h (by decide)
  · rfl

theorem readUnsigned_of_ne_zero {d : Char} (h : d ≠ '0') {negative : Bool} {cs ds rest : List Char}
    (htake : takeDigits (d :: cs) = (d :: ds, rest)) :
    readUnsigned negative (d :: cs) = finishNumber negative (d :: ds) rest := by
  unfold readUnsigned
  split
  · next heq => cases heq
  · next heq =>
    cases heq
    exact absurd rfl h
  · rw [htake]

/-- A number is read back from its digits. -/
theorem readNumber_toDigits {n : Nat} (h : n < significandLimit) {rest : List Char}
    (hrest : Ends rest) : readNumber (Nat.toDigits 10 n ++ rest) = .ok (.integer n, rest) := by
  have hvalue : Nat.ofDigitChars 10 (Nat.toDigits 10 n) 0 = n :=
    Nat.ofDigitChars_toDigits (by decide) (by decide)
  have hfinish : finishNumber false (Nat.toDigits 10 n) rest = .ok (.integer n, rest) := by
    rw [finishNumber_of_ends (hvalue.symm ▸ h) hrest, hvalue]
  have hdigits : ∀ c ∈ Nat.toDigits 10 n, c.isDigit = true := fun c =>
    Nat.isDigit_of_mem_toDigits (by decide) (by decide)
  rcases Nat.eq_zero_or_pos n with rfl | hpos
  · have hstop : ¬ rest.head?.any Char.isDigit = true := by
      cases rest with
      | nil => exact Bool.false_ne_true
      | cons c rest => simp [(hrest c rfl).1]
    have hzero : readUnsigned false ('0' :: rest) = finishNumber false ['0'] rest := if_neg hstop
    exact (readNumber_of_digit (by decide) rest).trans (hzero.trans hfinish)
  · have htake := takeDigits_append hdigits hrest
    obtain ⟨d, ds, heq, hd⟩ := exists_toDigits_cons hpos
    rw [heq] at hdigits htake hfinish ⊢
    rw [List.cons_append] at htake ⊢
    rw [readNumber_of_digit (hdigits d List.mem_cons_self), readUnsigned_of_ne_zero hd htake,
      hfinish]

/-! ## Values -/

mutual

/-- A value is at most so many levels deep, and its numbers are words of 64 bits. -/
def Value.Fits : Nat → Value → Prop
  | _, .null | _, .bool _ | _, .string _ => True
  | _, .integer n => 0 ≤ n ∧ n.toNat < significandLimit
  | _, .float _ _ => False
  | 0, .array _ | 0, .object _ => False
  | depth + 1, .array items => Value.AllFit depth items
  | depth + 1, .object members => Member.AllFit depth members

/-- All values of a list are so. -/
def Value.AllFit : Nat → List Value → Prop
  | _, [] => True
  | depth, v :: vs => v.Fits depth ∧ Value.AllFit depth vs

/-- The value of a member is so. -/
def Member.Fits : Nat → Member → Prop
  | depth, .mk _ value => value.Fits depth

/-- The values of all members are so. -/
def Member.AllFit : Nat → List Member → Prop
  | _, [] => True
  | depth, m :: ms => m.Fits depth ∧ Member.AllFit depth ms

end

/-- A new line and its indentation are skipped. -/
theorem skipSpace_newLine (level : Nat) (cs : List Char) :
    skipSpace (newLine level ++ cs) = skipSpace cs := by
  have hblank : ∀ c ∈ newLine level, isSpace c = true := by
    intro c hc
    rcases List.mem_cons.mp hc with rfl | hc
    · rfl
    · rw [List.eq_of_mem_replicate hc]
      rfl
  exact List.dropWhile_append_of_pos hblank

theorem skipSpace_cons {c : Char} (h : isSpace c = false) (cs : List Char) :
    skipSpace (c :: cs) = c :: cs :=
  List.dropWhile_cons_of_neg (Bool.eq_false_iff.mp h)

theorem toList_toString_natCast (n : Nat) :
    (toString (n : Int)).toList = Nat.toDigits 10 n := String.toList_ofList

theorem exists_digit_cons (n : Nat) :
    ∃ d ds, Nat.toDigits 10 n = d :: ds ∧ d.isDigit = true := by
  cases heq : Nat.toDigits 10 n with
  | nil => exact absurd heq Nat.toDigits_ne_nil
  | cons d ds =>
      have hmem : d ∈ Nat.toDigits 10 n := heq ▸ List.mem_cons_self
      exact ⟨d, ds, rfl, Nat.isDigit_of_mem_toDigits (by decide) (by decide) hmem⟩

theorem ne_of_isDigit {c d : Char} (h : d.isDigit = true) (hc : c.isDigit = false) : d ≠ c := by
  rintro rfl
  exact Bool.false_ne_true (hc.symm.trans h)

theorem isSpace_of_isDigit {d : Char} (h : d.isDigit = true) : isSpace d = false := by
  simp [isSpace, ne_of_isDigit h]

/-- The text of a value starts with neither a blank nor the end of a list. -/
theorem exists_printAt_cons {depth : Nat} {v : Value} (h : v.Fits depth) (level : Nat) :
    ∃ c cs, printAt level v = c :: cs ∧ isSpace c = false ∧ c ≠ ']' := by
  cases v with
  | null => exact ⟨'n', _, rfl, rfl, by decide⟩
  | bool b => cases b <;> exact ⟨_, _, rfl, rfl, by decide⟩
  | integer n =>
      obtain ⟨n, rfl⟩ := Int.eq_ofNat_of_zero_le h.1
      obtain ⟨d, ds, hdigits, hd⟩ := exists_digit_cons n
      exact ⟨d, ds, (toList_toString_natCast n).trans hdigits, isSpace_of_isDigit hd,
        ne_of_isDigit hd rfl⟩
  | float negative magnitude => exact h.elim
  | string s => exact ⟨'"', _, rfl, rfl, by decide⟩
  | array items => cases items <;> exact ⟨'[', _, rfl, rfl, by decide⟩
  | object members => cases members <;> exact ⟨'\x7b', _, rfl, rfl, by decide⟩

/-- A number is read where a digit stands. -/
theorem readValue_of_isDigit {d : Char} (h : d.isDigit = true) (depth steps : Nat)
    (cs : List Char) :
    readValue depth (steps + 1) (d :: cs) =
      (readNumber (d :: cs)).map fun x => (x.1.value, x.2) := by
  have hstarts : startsNumber d = true := by
    simp [startsNumber, h]
  rw [readValue, skipSpace_cons (isSpace_of_isDigit h)]
  dsimp only
  split
  case h_7 => rw [if_pos hstarts]
  all_goals exact absurd h (by decide)

theorem readValue_blank (depth steps : Nat) (cs : List Char) :
    readValue depth (steps + 1) (' ' :: cs) = readValue depth (steps + 1) cs := by
  rw [readValue, readValue]
  rfl

/-- A whole number is read back, whatever ends it. -/
theorem readValue_printAt_integer {n : Nat} (h : n < significandLimit) {rest : List Char}
    (hrest : Ends rest) (depth steps level : Nat) :
    readValue depth (steps + 1) (printAt level (.integer n) ++ rest) = .ok (.integer n, rest) := by
  obtain ⟨d, ds, hdigits, hd⟩ := exists_digit_cons n
  have hread := readNumber_toDigits h hrest
  rw [hdigits, List.cons_append] at hread
  rw [printAt, toList_toString_natCast, hdigits, List.cons_append, readValue_of_isDigit hd, hread]
  rfl

/-- So is a text. -/
theorem readValue_printAt_string (s : String) (rest : List Char) (depth steps level : Nat) :
    readValue depth (steps + 1) (printAt level (.string s) ++ rest) = .ok (.string s, rest) := by
  have htext : printAt level (.string s) ++ rest =
      '"' :: (s.toList.flatMap escapeChar ++ '"' :: rest) := by
    simp [printAt, printString]
  rw [htext, readValue]
  exact congrArg (Except.map fun x => (Value.string x.1, x.2)) (readText_printed s rest)

theorem readValue_printAt_bool (b : Bool) (rest : List Char) (depth steps level : Nat) :
    readValue depth (steps + 1) (printAt level (.bool b) ++ rest) = .ok (.bool b, rest) := by
  cases b <;> rw [readValue] <;> rfl

/-! ### Lists -/

section Lists

variable {depth steps level inner : Nat} {v : Value} {text rest : List Char}

theorem readValue_bracket (depth steps : Nat) (rest : List Char) :
    readValue (depth + 1) (steps + 1) ('[' :: rest) = readFirstItem depth steps rest := by
  rw [readValue]
  rfl

theorem readFirstItem_end (depth steps : Nat) (rest : List Char) :
    readFirstItem depth (steps + 1) (']' :: rest) = .ok (.array [], rest) := by
  rw [readFirstItem]
  rfl

/-- The first item of a list is read behind a new line. -/
theorem readFirstItem_newLine (hv : v.Fits depth)
    (h : readValue depth steps (printAt inner v ++ text) = .ok (v, rest)) :
    readFirstItem depth (steps + 1) (newLine level ++ (printAt inner v ++ text)) =
      (readItems depth steps rest).map fun x => (.array (v :: x.1), x.2) := by
  obtain ⟨c, cs, hcons, hspace, hend⟩ := exists_printAt_cons hv inner
  rw [hcons, List.cons_append] at h ⊢
  rw [readFirstItem, skipSpace_newLine, skipSpace_cons hspace]
  split
  · next heq => cases heq
  · next heq => exact absurd (List.cons.inj heq).1 hend
  · rw [h]

/-- Each other item is read behind a comma and a new line. -/
theorem readItems_comma (hv : v.Fits depth)
    (h : readValue depth steps (printAt inner v ++ text) = .ok (v, rest)) :
    readItems depth (steps + 1) (',' :: (newLine level ++ (printAt inner v ++ text))) =
      (readItems depth steps rest).map fun x => (v :: x.1, x.2) := by
  obtain ⟨c, cs, hcons, hspace, hend⟩ := exists_printAt_cons hv inner
  rw [hcons, List.cons_append] at h ⊢
  rw [readItems, skipSpace_cons rfl]
  split
  case h_3 heq =>
    obtain ⟨-, rfl⟩ := List.cons.inj heq
    rw [skipSpace_newLine, skipSpace_cons hspace]
    split
    · next heq => cases heq
    · next heq => exact absurd (List.cons.inj heq).1 hend
    · rw [h]
  case h_4 hcomma => exact absurd rfl (hcomma _)
  all_goals next heq => cases heq

/-- The list ends with a bracket on a line of its own. -/
theorem readItems_end (depth steps level : Nat) (rest : List Char) :
    readItems depth (steps + 1) (newLine level ++ ']' :: rest) = .ok ([], rest) := by
  rw [readItems, skipSpace_newLine]
  rfl

/-- The items behind a value do not continue it. -/
theorem ends_printItems (vs : List Value) (level outer : Nat) (rest : List Char) :
    Ends (printItems level vs ++ (newLine outer ++ rest)) := by
  cases vs with
  | nil => exact ends_newLine outer rest
  | cons v vs => exact ends_comma _

end Lists

/-! ### Objects -/

section Objects

variable {depth steps level inner : Nat} {m : Member} {text rest : List Char}

theorem readValue_brace (depth steps : Nat) (rest : List Char) :
    readValue (depth + 1) (steps + 1) ('\x7b' :: rest) = readFirstMember depth steps rest := by
  rw [readValue]
  rfl

theorem readFirstMember_end (depth steps : Nat) (rest : List Char) :
    readFirstMember depth (steps + 1) ('\x7d' :: rest) = .ok (.object [], rest) := by
  rw [readFirstMember]
  rfl

theorem exists_printMember_cons (level : Nat) (m : Member) :
    ∃ cs, printMember level m = '"' :: cs := by
  cases m with
  | mk name value => exact ⟨_, rfl⟩

/-- The first member of an object is read behind a new line. -/
theorem readFirstMember_newLine
    (h : readMember depth steps (printMember inner m ++ text) = .ok (m, rest)) :
    readFirstMember depth (steps + 1) (newLine level ++ (printMember inner m ++ text)) =
      (readMembers depth steps rest).map fun x => (.object (m :: x.1), x.2) := by
  obtain ⟨cs, hcons⟩ := exists_printMember_cons inner m
  rw [hcons, List.cons_append] at h ⊢
  rw [readFirstMember, skipSpace_newLine, skipSpace_cons rfl]
  split
  case h_3 => rw [h]
  all_goals next heq => cases heq

/-- Each other member is read behind a comma and a new line. -/
theorem readMembers_comma
    (h : readMember depth steps (printMember inner m ++ text) = .ok (m, rest)) :
    readMembers depth (steps + 1) (',' :: (newLine level ++ (printMember inner m ++ text))) =
      (readMembers depth steps rest).map fun x => (m :: x.1, x.2) := by
  obtain ⟨cs, hcons⟩ := exists_printMember_cons inner m
  rw [hcons, List.cons_append] at h ⊢
  rw [readMembers, skipSpace_cons rfl]
  split
  case h_3 heq =>
    obtain ⟨-, rfl⟩ := List.cons.inj heq
    rw [skipSpace_newLine, skipSpace_cons rfl, h]
  case h_4 hcomma => exact absurd rfl (hcomma _)
  all_goals next heq => cases heq

theorem readMembers_end (depth steps level : Nat) (rest : List Char) :
    readMembers depth (steps + 1) (newLine level ++ '\x7d' :: rest) = .ok ([], rest) := by
  rw [readMembers, skipSpace_newLine]
  rfl

/-- A member is read back if its value is. -/
theorem readMember_of_readValue {name : String} {v : Value}
    (h : readValue depth (steps + 1) text = .ok (v, rest)) :
    readMember depth (steps + 2) (printString name ++ [':', ' '] ++ text) =
      .ok (.mk name v, rest) := by
  have htext : printString name ++ [':', ' '] ++ text =
      '"' :: (name.toList.flatMap escapeChar ++ '"' :: ':' :: ' ' :: text) := by
    simp [printString]
  have hcolon : skipSpace (':' :: ' ' :: text) = ':' :: ' ' :: text := rfl
  simp only [htext, readMember, readText_printed, hcolon, readValue_blank, h]
  rfl

/-- The members behind a value do not continue it. -/
theorem ends_printMembers (ms : List Member) (level outer : Nat) (rest : List Char) :
    Ends (printMembers level ms ++ (newLine outer ++ rest)) := by
  cases ms with
  | nil => exact ends_newLine outer rest
  | cons m ms => exact ends_comma _

end Objects

/-! ### Reading back -/

mutual

/-- A value is read back from its text, two steps for each character.  Brackets and new
lines grant the steps to get to the first item and past the last. -/
theorem readValue_printAt : ∀ (v : Value) {depth steps level : Nat} {rest : List Char},
    v.Fits depth → 2 * (printAt level v).length ≤ steps + 1 → Ends rest →
      readValue depth (steps + 1) (printAt level v ++ rest) = .ok (v, rest)
  | .null, _, _, _, _, _, _, _ => by
      rw [readValue]
      rfl
  | .bool b, depth, steps, level, rest, _, _, _ => readValue_printAt_bool b rest depth steps level
  | .string s, depth, steps, level, rest, _, _, _ =>
      readValue_printAt_string s rest depth steps level
  | .integer n, depth, steps, level, rest, hfits, _, hrest => by
      obtain ⟨n, rfl⟩ := Int.eq_ofNat_of_zero_le hfits.1
      exact readValue_printAt_integer hfits.2 hrest depth steps level
  | .float _ _, _, _, _, _, hfits, _, _ => hfits.elim
  | .array _, 0, _, _, _, hfits, _, _ => by
      rw [Value.Fits] at hfits
      exact hfits.elim
  | .object _, 0, _, _, _, hfits, _, _ => by
      rw [Value.Fits] at hfits
      exact hfits.elim
  | .array [], depth + 1, steps, level, rest, _, hsteps, _ => by
      simp only [printAt, List.length_cons, List.length_nil] at hsteps
      obtain ⟨more, rfl⟩ : ∃ more, steps = more + 1 := ⟨steps - 1, by omega⟩
      rw [printAt]
      exact (readValue_bracket depth (more + 1) _).trans (readFirstItem_end depth more rest)
  | .object [], depth + 1, steps, level, rest, _, hsteps, _ => by
      simp only [printAt, List.length_cons, List.length_nil] at hsteps
      obtain ⟨more, rfl⟩ : ∃ more, steps = more + 1 := ⟨steps - 1, by omega⟩
      rw [printAt]
      exact (readValue_brace depth (more + 1) _).trans (readFirstMember_end depth more rest)
  | .array (v :: vs), depth + 1, steps, level, rest, hfits, hsteps, _ => by
      obtain ⟨hv, hvs⟩ : v.Fits depth ∧ Value.AllFit depth vs := by
        rwa [Value.Fits, Value.AllFit] at hfits
      simp only [printAt, List.length_append, List.length_cons] at hsteps
      obtain ⟨more, rfl⟩ : ∃ more, steps = more + 2 := ⟨steps - 2, by omega⟩
      have hfirst : readValue depth (more + 1) (printAt (level + 1) v ++ _) = .ok (v, _) :=
        readValue_printAt v hv (by omega) (ends_printItems vs (level + 1) level (']' :: rest))
      have hitems : readItems depth (more + 1)
          (printItems (level + 1) vs ++ (newLine level ++ ']' :: rest)) = .ok (vs, rest) :=
        readItems_printItems vs hvs (by omega)
      simp only [printAt, List.cons_append, List.append_assoc, List.nil_append]
      rw [readValue_bracket, readFirstItem_newLine hv hfirst, hitems]
      rfl
  | .object (m :: ms), depth + 1, steps, level, rest, hfits, hsteps, _ => by
      obtain ⟨hm, hms⟩ : m.Fits depth ∧ Member.AllFit depth ms := by
        rwa [Value.Fits, Member.AllFit] at hfits
      simp only [printAt, List.length_append, List.length_cons] at hsteps
      obtain ⟨more, rfl⟩ : ∃ more, steps = more + 2 := ⟨steps - 2, by omega⟩
      have hfirst : readMember depth (more + 1) (printMember (level + 1) m ++ _) = .ok (m, _) :=
        readMember_printMember m hm (by omega)
          (ends_printMembers ms (level + 1) level ('\x7d' :: rest))
      have hmembers : readMembers depth (more + 1)
          (printMembers (level + 1) ms ++ (newLine level ++ '\x7d' :: rest)) = .ok (ms, rest) :=
        readMembers_printMembers ms hms (by omega)
      simp only [printAt, List.cons_append, List.append_assoc, List.nil_append]
      rw [readValue_brace, readFirstMember_newLine hfirst, hmembers]
      rfl

/-- The items behind the first one are read back. -/
theorem readItems_printItems : ∀ (vs : List Value) {depth steps level outer : Nat}
    {rest : List Char}, Value.AllFit depth vs → 2 * (printItems level vs).length ≤ steps →
      readItems depth (steps + 1) (printItems level vs ++ (newLine outer ++ ']' :: rest)) =
        .ok (vs, rest)
  | [], depth, steps, _, outer, rest, _, _ => readItems_end depth steps outer rest
  | v :: vs, depth, steps, level, outer, rest, hfits, hsteps => by
      obtain ⟨hv, hvs⟩ : v.Fits depth ∧ Value.AllFit depth vs := by
        rwa [Value.AllFit] at hfits
      simp only [printItems, List.length_append, List.length_cons] at hsteps
      obtain ⟨more, rfl⟩ : ∃ more, steps = more + 1 := ⟨steps - 1, by omega⟩
      have hnext : readValue depth (more + 1) (printAt level v ++ _) = .ok (v, _) :=
        readValue_printAt v hv (by omega) (ends_printItems vs level outer (']' :: rest))
      have hitems : readItems depth (more + 1)
          (printItems level vs ++ (newLine outer ++ ']' :: rest)) = .ok (vs, rest) :=
        readItems_printItems vs hvs (by omega)
      simp only [printItems, List.cons_append, List.append_assoc]
      rw [readItems_comma hv hnext, hitems]
      rfl

/-- A member is read back from its name and its value. -/
theorem readMember_printMember : ∀ (m : Member) {depth steps level : Nat} {rest : List Char},
    m.Fits depth → 2 * (printMember level m).length ≤ steps + 1 → Ends rest →
      readMember depth (steps + 1) (printMember level m ++ rest) = .ok (m, rest)
  | .mk name v, depth, steps, level, rest, hfits, hsteps, hrest => by
      have hv : v.Fits depth := by
        rwa [Member.Fits] at hfits
      simp only [printMember, List.length_append, List.length_cons] at hsteps
      obtain ⟨more, rfl⟩ : ∃ more, steps = more + 1 := ⟨steps - 1, by omega⟩
      have hvalue : readValue depth (more + 1) (printAt level v ++ rest) = .ok (v, rest) :=
        readValue_printAt v hv (by omega) hrest
      rw [printMember, List.append_assoc]
      exact readMember_of_readValue hvalue

/-- The members behind the first one are read back. -/
theorem readMembers_printMembers : ∀ (ms : List Member) {depth steps level outer : Nat}
    {rest : List Char}, Member.AllFit depth ms → 2 * (printMembers level ms).length ≤ steps →
      readMembers depth (steps + 1) (printMembers level ms ++ (newLine outer ++ '\x7d' :: rest)) =
        .ok (ms, rest)
  | [], depth, steps, _, outer, rest, _, _ => readMembers_end depth steps outer rest
  | m :: ms, depth, steps, level, outer, rest, hfits, hsteps => by
      obtain ⟨hm, hms⟩ : m.Fits depth ∧ Member.AllFit depth ms := by
        rwa [Member.AllFit] at hfits
      simp only [printMembers, List.length_append, List.length_cons] at hsteps
      obtain ⟨more, rfl⟩ : ∃ more, steps = more + 1 := ⟨steps - 1, by omega⟩
      have hnext : readMember depth (more + 1) (printMember level m ++ _) = .ok (m, _) :=
        readMember_printMember m hm (by omega) (ends_printMembers ms level outer ('\x7d' :: rest))
      have hmembers : readMembers depth (more + 1)
          (printMembers level ms ++ (newLine outer ++ '\x7d' :: rest)) = .ok (ms, rest) :=
        readMembers_printMembers ms hms (by omega)
      simp only [printMembers, List.cons_append, List.append_assoc]
      rw [readMembers_comma hnext, hmembers]
      rfl

end

/-- A printed value is read back. -/
theorem parse_print {v : Value} (h : v.Fits maxDepth) : parse (print v) = .ok v := by
  have hread : readValue maxDepth (stepsFor (print v)) (print v ++ []) = .ok (v, []) :=
    readValue_printAt v h (by rw [print]; omega) ends_nil
  rw [List.append_nil] at hread
  rw [parse, runRead, hread]
  rfl

end LegacyShader.Json
