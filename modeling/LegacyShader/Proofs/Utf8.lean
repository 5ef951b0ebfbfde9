import LegacyShader.Text.Utf8

/-!
# UTF-8 is read as it is written

Every text has one form in UTF-8, and a reader takes exactly those forms:
`decodeUtf8_eq_ok_iff`.

The argument is per character (`decodeChar_eq_ok_iff`).  A character of two, three or
four bytes is a number in a range, without the surrogates.  The bytes of such a
number and the bytes that the reader lets through are the same ones
(`decodeTwo_eq_ok_iff` and the two like it).  The bounds on second bytes do the work
there: `E0` and `F0` may not start a number that is too small for so many bytes, `ED`
not a surrogate, and `F4` not a number that is too large.
-/

namespace LegacyShader.Text

/-! ## Characters and bytes as numbers -/

theorem eq_toUInt8_iff {b : UInt8} {n : Nat} (h : n < 256) : n.toUInt8 = b ↔ b.toNat = n := by
  rw [← UInt8.toNat_inj, Nat.toUInt8, UInt8.toNat_ofNat_of_lt' h, eq_comm]

theorem eq_continuation_iff {b : UInt8} {n : Nat} :
    continuation n = b ↔ b.toNat = 128 + n % 64 :=
  eq_toUInt8_iff (by omega)

theorem isContinuation_iff {b : UInt8} :
    isContinuation b = true ↔ 128 ≤ b.toNat ∧ b.toNat < 192 := by
  simp [isContinuation]

/-- A second byte continues a character, within closer bounds behind four first bytes. -/
theorem isSecond_iff {first : Nat} {b : UInt8} :
    isSecond first b = true ↔
      (0x80 ≤ b.toNat ∧ b.toNat < 0xC0) ∧ (first = 0xE0 → 0xA0 ≤ b.toNat) ∧
        (first = 0xED → b.toNat < 0xA0) ∧ (first = 0xF0 → 0x90 ≤ b.toNat) ∧
        (first = 0xF4 → b.toNat < 0x90) := by
  change (decide ((secondRange first).1 ≤ b.toNat) &&
    decide (b.toNat ≤ (secondRange first).2)) = true ↔ _
  rw [Bool.and_eq_true, decide_eq_true_eq, decide_eq_true_eq, secondRange]
  repeat' split
  all_goals dsimp only; omega

/-- The number of a character is not a surrogate and is not too large. -/
theorem isValidChar_toNat (c : Char) : c.toNat.isValidChar := c.valid

theorem ofNat_eq_iff {n : Nat} (h : n.isValidChar) {c : Char} : Char.ofNat n = c ↔ c.toNat = n := by
  constructor
  · rintro rfl
    rw [Char.ofNat, dif_pos h]
    rfl
  · rintro rfl
    exact Char.ofNat_toNat c

/-! ## The bytes of a character -/

/-- The bytes of a number, by its range. -/
inductive Written (n : Nat) : List UInt8 → Prop where
  | one {b : UInt8} (h : n < 0x80) (hb : b.toNat = n) : Written n [b]
  | two {b b₁ : UInt8} (hlow : 0x80 ≤ n) (hhigh : n < 0x800) (hb : b.toNat = 192 + n / 64)
      (h₁ : b₁.toNat = 128 + n % 64) : Written n [b, b₁]
  | three {b b₁ b₂ : UInt8} (hlow : 0x800 ≤ n) (hhigh : n < 0x10000)
      (hb : b.toNat = 224 + n / 4096) (h₁ : b₁.toNat = 128 + n / 64 % 64)
      (h₂ : b₂.toNat = 128 + n % 64) : Written n [b, b₁, b₂]
  | four {b b₁ b₂ b₃ : UInt8} (hlow : 0x10000 ≤ n) (hb : b.toNat = 240 + n / 262144)
      (h₁ : b₁.toNat = 128 + n / 4096 % 64) (h₂ : b₂.toNat = 128 + n / 64 % 64)
      (h₃ : b₃.toNat = 128 + n % 64) : Written n [b, b₁, b₂, b₃]

/-- The bytes of its number are written for a character. -/
theorem written_iff {c : Char} {bytes : List UInt8} :
    Written c.toNat bytes ↔ encodeChar c = bytes := by
  have hvalid := isValidChar_toNat c
  constructor
  · intro h
    rw [encodeChar]
    cases h with
    | one h hb => rw [if_pos h, (eq_toUInt8_iff (by omega)).mpr hb]
    | two hlow hhigh hb h₁ =>
        rw [if_neg (by omega), if_pos hhigh, (eq_toUInt8_iff (by omega)).mpr hb,
          eq_continuation_iff.mpr h₁]
    | three hlow hhigh hb h₁ h₂ =>
        rw [if_neg (by omega), if_neg (by omega), if_pos hhigh,
          (eq_toUInt8_iff (by omega)).mpr hb, eq_continuation_iff.mpr h₁,
          eq_continuation_iff.mpr h₂]
    | four hlow hb h₁ h₂ h₃ =>
        rw [if_neg (by omega), if_neg (by omega), if_neg (by omega),
          (eq_toUInt8_iff (by omega)).mpr hb, eq_continuation_iff.mpr h₁,
          eq_continuation_iff.mpr h₂, eq_continuation_iff.mpr h₃]
  · rintro rfl
    simp only [encodeChar]
    split
    case isTrue h => exact .one h ((eq_toUInt8_iff (by omega)).mp rfl)
    split
    case isTrue h =>
      exact .two (by omega) h ((eq_toUInt8_iff (by omega)).mp rfl) (eq_continuation_iff.mp rfl)
    split
    case isTrue h =>
      exact .three (by omega) h ((eq_toUInt8_iff (by omega)).mp rfl) (eq_continuation_iff.mp rfl)
        (eq_continuation_iff.mp rfl)
    case isFalse =>
      exact .four (by omega) ((eq_toUInt8_iff (by omega)).mp rfl) (eq_continuation_iff.mp rfl)
        (eq_continuation_iff.mp rfl) (eq_continuation_iff.mp rfl)

/-! ## Reading a character -/

theorem guard_eq_ok_iff {ε α : Type} {p : Bool} {e : ε} {x : Except ε α} {a : α} :
    (if !p then .error e else x) = .ok a ↔ p = true ∧ x = .ok a := by
  cases p <;> simp

theorem map_eq_ok_iff {ε α β : Type} {f : α → β} {x : Except ε α} {b : β} :
    x.map f = .ok b ↔ ∃ a, x = .ok a ∧ f a = b := by
  cases x <;> simp [Except.map]

section

variable {b : UInt8} {rest : List UInt8} {c : Char}

/-- Two bytes are read if they are written for a character. -/
theorem decodeTwo_eq_ok_iff (hlow : 0xC2 ≤ b.toNat) (hhigh : b.toNat < 0xE0) :
    decodeTwo b.toNat rest = .ok c ↔
      ∃ b₁ tail, rest = b₁ :: tail ∧ Written c.toNat [b, b₁] := by
  constructor
  · intro h
    unfold decodeTwo at h
    split at h
    case h_1 => cases h
    case h_2 b₁ tail =>
      split at h
      case isFalse => cases h
      case isTrue hc =>
        rw [isContinuation_iff] at hc
        simp only [charOf, List.foldl, Except.ok.injEq] at h
        rw [ofNat_eq_iff (by omega)] at h
        exact ⟨b₁, tail, rfl, .two (by omega) (by omega) (by omega) (by omega)⟩
  · rintro ⟨b₁, tail, rfl, h⟩
    cases h with
    | two hn hn' hb h₁ =>
        rw [decodeTwo, if_pos (isContinuation_iff.mpr (by omega))]
        simp only [charOf, List.foldl, Except.ok.injEq]
        rw [ofNat_eq_iff (by omega)]
        omega

/-- Three bytes are read if they are written for a character.  The bounds on the second byte
leave out numbers below `0x800` and surrogates. -/
theorem decodeThree_eq_ok_iff (hlow : 0xE0 ≤ b.toNat) (hhigh : b.toNat < 0xF0) :
    decodeThree b.toNat rest = .ok c ↔
      ∃ b₁ b₂ tail, rest = b₁ :: b₂ :: tail ∧ Written c.toNat [b, b₁, b₂] := by
  have hvalid := isValidChar_toNat c
  constructor
  · intro h
    unfold decodeThree at h
    split at h
    case h_1 => cases h
    case h_2 => split at h <;> cases h
    case h_3 b₁ b₂ tail =>
      rw [guard_eq_ok_iff, guard_eq_ok_iff, isSecond_iff, isContinuation_iff] at h
      obtain ⟨hs, hc, h⟩ := h
      simp only [charOf, List.foldl, Except.ok.injEq] at h
      rw [ofNat_eq_iff (by omega)] at h
      exact ⟨b₁, b₂, tail, rfl, .three (by omega) (by omega) (by omega) (by omega) (by omega)⟩
  · rintro ⟨b₁, b₂, tail, rfl, h⟩
    cases h with
    | three hn hn' hb h₁ h₂ =>
        rw [decodeThree, guard_eq_ok_iff, guard_eq_ok_iff, isSecond_iff, isContinuation_iff]
        refine ⟨by omega, by omega, ?_⟩
        simp only [charOf, List.foldl, Except.ok.injEq]
        rw [ofNat_eq_iff (by omega)]
        omega

/-- Four bytes are read if they are written for a character.  The bounds on the second byte
leave out numbers below `0x10000` and from `0x110000` on. -/
theorem decodeFour_eq_ok_iff (hlow : 0xF0 ≤ b.toNat) (hhigh : b.toNat < 0xF5) :
    decodeFour b.toNat rest = .ok c ↔
      ∃ b₁ b₂ b₃ tail, rest = b₁ :: b₂ :: b₃ :: tail ∧ Written c.toNat [b, b₁, b₂, b₃] := by
  have hvalid := isValidChar_toNat c
  constructor
  · intro h
    unfold decodeFour at h
    split at h
    case h_1 => cases h
    case h_2 => split at h <;> cases h
    case h_3 =>
      rw [guard_eq_ok_iff, guard_eq_ok_iff] at h
      cases h.2.2
    case h_4 b₁ b₂ b₃ tail =>
      rw [guard_eq_ok_iff, guard_eq_ok_iff, guard_eq_ok_iff, isSecond_iff, isContinuation_iff,
        isContinuation_iff] at h
      obtain ⟨hs, hc, hc', h⟩ := h
      simp only [charOf, List.foldl, Except.ok.injEq] at h
      rw [ofNat_eq_iff (by omega)] at h
      exact ⟨b₁, b₂, b₃, tail, rfl, .four (by omega) (by omega) (by omega) (by omega) (by omega)⟩
  · rintro ⟨b₁, b₂, b₃, tail, rfl, h⟩
    cases h with
    | four hn hb h₁ h₂ h₃ =>
        rw [decodeFour, guard_eq_ok_iff, guard_eq_ok_iff, guard_eq_ok_iff, isSecond_iff,
          isContinuation_iff, isContinuation_iff]
        refine ⟨by omega, by omega, by omega, ?_⟩
        simp only [charOf, List.foldl, Except.ok.injEq]
        rw [ofNat_eq_iff (by omega)]
        omega

/-- A character is read from the bytes that are written for it and from no others. -/
theorem decodeChar_eq_ok_iff {more : Nat} :
    decodeChar b rest = .ok (c, more) ↔
      ∃ bytes tail, b :: rest = bytes ++ tail ∧ bytes.length = more + 1 ∧
        encodeChar c = bytes := by
  have hvalid := isValidChar_toNat c
  simp only [← written_iff]
  rw [decodeChar]
  constructor
  · intro h
    split at h
    case isTrue hb =>
      obtain ⟨hc, rfl⟩ := Prod.mk.inj (Except.ok.inj h)
      rw [ofNat_eq_iff (by omega)] at hc
      exact ⟨[b], rest, rfl, rfl, .one (by omega) hc.symm⟩
    split at h
    case isTrue => cases h
    split at h
    case isTrue =>
      obtain ⟨_, hread, ⟨⟩⟩ := map_eq_ok_iff.mp h
      obtain ⟨b₁, tail, rfl, hw⟩ := (decodeTwo_eq_ok_iff (by omega) (by omega)).mp hread
      exact ⟨_, tail, rfl, rfl, hw⟩
    split at h
    case isTrue =>
      obtain ⟨_, hread, ⟨⟩⟩ := map_eq_ok_iff.mp h
      obtain ⟨b₁, b₂, tail, rfl, hw⟩ := (decodeThree_eq_ok_iff (by omega) (by omega)).mp hread
      exact ⟨_, tail, rfl, rfl, hw⟩
    split at h
    case isTrue =>
      obtain ⟨_, hread, ⟨⟩⟩ := map_eq_ok_iff.mp h
      obtain ⟨b₁, b₂, b₃, tail, rfl, hw⟩ := (decodeFour_eq_ok_iff (by omega) (by omega)).mp hread
      exact ⟨_, tail, rfl, rfl, hw⟩
    case isFalse => cases h
  · rintro ⟨bytes, tail, hbytes, hlength, hw⟩
    cases hw with
    | one h hb =>
        obtain ⟨rfl, rfl⟩ := List.cons.inj hbytes
        obtain rfl : more = 0 := by simpa using hlength.symm
        rw [if_pos (by omega), (ofNat_eq_iff (by omega)).mpr hb.symm]
    | two hlow hhigh hb h₁ =>
        obtain ⟨rfl, rfl⟩ := List.cons.inj hbytes
        obtain rfl : more = 1 := by simpa using hlength.symm
        rw [if_neg (by omega), if_neg (by omega), if_pos (by omega), map_eq_ok_iff]
        refine ⟨c, (decodeTwo_eq_ok_iff (by omega) (by omega)).mpr ?_, rfl⟩
        exact ⟨_, tail, rfl, .two hlow hhigh hb h₁⟩
    | three hlow hhigh hb h₁ h₂ =>
        obtain ⟨rfl, rfl⟩ := List.cons.inj hbytes
        obtain rfl : more = 2 := by simpa using hlength.symm
        rw [if_neg (by omega), if_neg (by omega), if_neg (by omega), if_pos (by omega),
          map_eq_ok_iff]
        refine ⟨c, (decodeThree_eq_ok_iff (by omega) (by omega)).mpr ?_, rfl⟩
        exact ⟨_, _, tail, rfl, .three hlow hhigh hb h₁ h₂⟩
    | four hlow hb h₁ h₂ h₃ =>
        obtain ⟨rfl, rfl⟩ := List.cons.inj hbytes
        obtain rfl : more = 3 := by simpa using hlength.symm
        rw [if_neg (by omega), if_neg (by omega), if_neg (by omega), if_neg (by omega),
          if_pos (by omega), map_eq_ok_iff]
        refine ⟨c, (decodeFour_eq_ok_iff (by omega) (by omega)).mpr ?_, rfl⟩
        exact ⟨_, _, _, tail, rfl, .four hlow hb h₁ h₂ h₃⟩

/-- A character is read back from its bytes, whatever follows. -/
theorem exists_decodeChar {tail : List UInt8} (h : b :: rest = encodeChar c ++ tail) :
    ∃ more, decodeChar b rest = .ok (c, more) ∧ rest.drop more = tail := by
  cases hc : encodeChar c with
  | nil => cases written_iff.mpr hc
  | cons x bytes =>
      rw [hc] at h
      obtain ⟨rfl, rfl⟩ := List.cons.inj h
      refine ⟨bytes.length, decodeChar_eq_ok_iff.mpr ⟨b :: bytes, tail, rfl, rfl, hc⟩, ?_⟩
      exact List.drop_left

/-- What is read as a character is written for it. -/
theorem encodeChar_append_drop {more : Nat} (h : decodeChar b rest = .ok (c, more)) :
    encodeChar c ++ rest.drop more = b :: rest := by
  obtain ⟨bytes, tail, hbytes, hlength, rfl⟩ := decodeChar_eq_ok_iff.mp h
  rw [hbytes, ← List.drop_succ_cons, hbytes, ← hlength, List.drop_left]

end

/-! ## Reading a text -/

theorem encodeUtf8_cons (c : Char) (cs : List Char) :
    encodeUtf8 (c :: cs) = encodeChar c ++ encodeUtf8 cs := List.flatMap_cons

/-- A text is read from the bytes that are written for it and from no others. -/
theorem decodeFrom_eq_ok_iff {index : Nat} {bytes : List UInt8} {cs : List Char} :
    decodeFrom index bytes = .ok cs ↔ bytes = encodeUtf8 cs := by
  fun_induction decodeFrom index bytes generalizing cs with
  | case1 index =>
      cases cs with
      | nil => exact iff_of_true rfl rfl
      | cons c cs =>
          refine iff_of_false nofun fun h => ?_
          rw [encodeUtf8_cons] at h
          cases written_iff.mpr (List.append_eq_nil_iff.mp h.symm).1
  | case2 index b rest length herror =>
      refine iff_of_false nofun fun h => ?_
      cases cs with
      | nil => cases h
      | cons c cs =>
          rw [encodeUtf8_cons] at h
          obtain ⟨more, hok, -⟩ := exists_decodeChar h
          rw [hok] at herror
          cases herror
  | case3 index b rest c more hok ih =>
      rw [map_eq_ok_iff]
      constructor
      · rintro ⟨cs', hcs, rfl⟩
        rw [encodeUtf8_cons, ← ih.mp hcs, encodeChar_append_drop hok]
      · intro h
        cases cs with
        | nil => cases h
        | cons c' cs =>
            rw [encodeUtf8_cons] at h
            obtain ⟨more', hok', hdrop⟩ := exists_decodeChar h
            obtain ⟨rfl, rfl⟩ := Prod.mk.inj (Except.ok.inj (hok.symm.trans hok'))
            exact ⟨cs, ih.mpr hdrop, rfl⟩

theorem decodeUtf8_eq_ok_iff {bytes : List UInt8} {cs : List Char} :
    decodeUtf8 bytes = .ok cs ↔ bytes = encodeUtf8 cs := decodeFrom_eq_ok_iff

end LegacyShader.Text
