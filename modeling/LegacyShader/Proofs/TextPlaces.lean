import LegacyShader.Proofs.Utf8
import LegacyShader.Text.Offset

/-!
# Places in a text and in its bytes

A cursor in the bytes of a text stands at a place of the text if whole characters are in
front of it (`Stands`).  A text can be cut at its places and nowhere else
(`dropBytes?_eq_some_iff`).

Bytes below 128 stand for themselves, and the bytes of all other characters are 128 or
more.  So a byte below 128 is always at a place (`exists_stands_of_getElem?`), and a
class of such bytes is found where the same class of characters is (`ByteClass`).
-/

namespace LegacyShader.Text

/-! ## The bytes of a text -/

/-- A character has as many bytes as its size says. -/
theorem length_encodeChar (c : Char) : (encodeChar c).length = c.utf8Size := by
  have hval : c.val.toNat = c.toNat := rfl
  simp only [encodeChar, Char.utf8Size, UInt32.le_iff_toNat_le, UInt32.toNat_ofNatLT, hval]
  repeat' split
  all_goals first | rfl | omega

/-- The byte of a character below 128. -/
def byteOf (c : Char) : UInt8 := c.toNat.toUInt8

/-- A character below 128 is one byte. -/
theorem encodeChar_of_lt {c : Char} (h : c.toNat < 128) : encodeChar c = [byteOf c] := if_pos h

theorem encodeChar_ne_nil (c : Char) : encodeChar c ≠ [] := by
  intro h
  cases written_iff.mpr h

/-- All bytes of other characters are at least 128. -/
theorem le_of_mem_encodeChar {c : Char} (h : 128 ≤ c.toNat) {b : UInt8} (hb : b ∈ encodeChar c) :
    128 ≤ b.toNat := by
  have hwritten : Written c.toNat (encodeChar c) := written_iff.mpr rfl
  generalize encodeChar c = bytes at hwritten hb
  cases hwritten <;> simp only [List.mem_cons, List.not_mem_nil, or_false] at hb <;> grind

/-- A byte below 128 is a character of its own. -/
theorem toNat_lt_of_mem_encodeChar {c : Char} {b : UInt8} (hb : b ∈ encodeChar c)
    (h : b.toNat < 128) : c.toNat < 128 := by
  rcases Nat.lt_or_ge c.toNat 128 with hlow | hhigh
  · exact hlow
  · have := le_of_mem_encodeChar hhigh hb
    omega

theorem toNat_byteOf {c : Char} (h : c.toNat < 128) : (byteOf c).toNat = c.toNat :=
  (eq_toUInt8_iff (by omega)).mp rfl

/-- So a byte below 128 is in no other character than its own. -/
theorem byteOf_mem_encodeChar_iff {c d : Char} (hc : c.toNat < 128) :
    byteOf c ∈ encodeChar d ↔ d = c := by
  constructor
  · intro hmem
    have hd : d.toNat < 128 := toNat_lt_of_mem_encodeChar hmem (by rwa [toNat_byteOf hc])
    rw [encodeChar_of_lt hd, List.mem_singleton] at hmem
    rw [← Char.toNat_inj, ← toNat_byteOf hd, ← hmem, toNat_byteOf hc]
  · rintro rfl
    rw [encodeChar_of_lt hc]
    exact List.mem_singleton_self _

@[simp] theorem encodeUtf8_nil : encodeUtf8 [] = [] := rfl

@[simp] theorem encodeUtf8_append (cs ds : List Char) :
    encodeUtf8 (cs ++ ds) = encodeUtf8 cs ++ encodeUtf8 ds := List.flatMap_append

@[simp] theorem byteLength_append (cs ds : List Char) :
    byteLength (cs ++ ds) = byteLength cs + byteLength ds := by
  induction cs with
  | nil => simp [byteLength]
  | cons c cs ih => simp only [List.cons_append, byteLength, ih, Nat.add_assoc]

/-- The bytes of a text are as many as its length in bytes. -/
theorem length_encodeUtf8 (cs : List Char) : (encodeUtf8 cs).length = byteLength cs := by
  induction cs with
  | nil => rfl
  | cons c cs ih => rw [encodeUtf8_cons, List.length_append, length_encodeChar, ih, byteLength]

/-- A text of some characters, in the form in which cuts look at it. -/
theorem exists_byteLength_cons (c : Char) (cs : List Char) :
    ∃ m, byteLength (c :: cs) = m + 1 ∧ c.utf8Size ≤ m + 1 ∧
      m + 1 - c.utf8Size = byteLength cs := by
  have hpos := c.utf8Size_pos
  refine ⟨c.utf8Size + byteLength cs - 1, ?_, ?_, ?_⟩
  · rw [byteLength]
    omega
  · omega
  · omega

theorem byteLength_pos {cs : List Char} (h : cs ≠ []) : 0 < byteLength cs := by
  cases cs with
  | nil => exact absurd rfl h
  | cons c cs =>
      obtain ⟨m, hm, -⟩ := exists_byteLength_cons c cs
      rw [hm]
      exact Nat.succ_pos m

theorem head?_encodeUtf8_cons (c : Char) (cs : List Char) :
    (encodeUtf8 (c :: cs)).head? = (encodeChar c).head? := by
  rw [encodeUtf8_cons]
  cases h : encodeChar c with
  | nil => exact absurd h (encodeChar_ne_nil c)
  | cons b bytes => rfl

/-- A text starts with a byte below 128 if it starts with the character. -/
theorem head?_encodeUtf8_eq_byteOf_iff {c : Char} (hc : c.toNat < 128) {cs : List Char} :
    (encodeUtf8 cs).head? = some (byteOf c) ↔ cs.head? = some c := by
  cases cs with
  | nil => simp
  | cons d cs =>
      rw [head?_encodeUtf8_cons, List.head?_cons, Option.some.injEq]
      constructor
      · exact fun h => (byteOf_mem_encodeChar_iff hc).mp (List.mem_of_head? h)
      · rintro rfl
        rw [encodeChar_of_lt hc]
        rfl

/-! ## Places -/

/-- A cursor stands in front of the rest of a text. -/
def Stands (text : List Char) (cursor : Nat) (rest : List Char) : Prop :=
  ∃ front, text = front ++ rest ∧ byteLength front = cursor

/-- The place in front of a character, which is given by its number. -/
def place (text : List Char) (k : Nat) : Nat := byteLength (text.take k)

section

variable {text rest middle : List Char} {n : Nat}

theorem stands_zero (text : List Char) : Stands text 0 text := ⟨[], rfl, rfl⟩

theorem stands_place (text : List Char) (k : Nat) : Stands text (place text k) (text.drop k) :=
  ⟨text.take k, (List.take_append_drop k text).symm, rfl⟩

/-- Characters move a place by their length in bytes. -/
theorem place_add (text : List Char) (k j : Nat) :
    place text (k + j) = place text k + byteLength ((text.drop k).take j) := by
  rw [place, List.take_add, byteLength_append, place]

theorem place_lt_place {k j : Nat} (h : k < j) (hk : k < text.length) :
    place text k < place text j := by
  obtain ⟨m, rfl⟩ : ∃ m, j = k + m := ⟨j - k, by omega⟩
  have hne : (text.drop k).take m ≠ [] := by
    rw [← List.length_pos_iff, List.length_take, List.length_drop]
    omega
  have := byteLength_pos hne
  rw [place_add]
  omega

/-- Places are in the order of the characters. -/
theorem place_lt_place_iff {k j : Nat} (hk : k ≤ text.length) (hj : j ≤ text.length) :
    place text k < place text j ↔ k < j := by
  constructor
  · intro h
    rcases Nat.lt_trichotomy k j with hlt | rfl | hgt
    · exact hlt
    · omega
    · have := place_lt_place hgt (by omega : j < text.length)
      omega
  · exact fun h => place_lt_place h (by omega)

namespace Stands

/-- Behind some characters there is a place again. -/
theorem skip (front : List Char) (h : Stands text n (front ++ rest)) :
    Stands text (n + byteLength front) rest := by
  obtain ⟨before, rfl, rfl⟩ := h
  exact ⟨before ++ front, (List.append_assoc before front rest).symm, byteLength_append _ _⟩

/-- From a place on, the bytes are those of the rest. -/
theorem drop_encodeUtf8 (h : Stands text n rest) :
    (encodeUtf8 text).drop n = encodeUtf8 rest := by
  obtain ⟨before, rfl, rfl⟩ := h
  rw [encodeUtf8_append, List.drop_left' (length_encodeUtf8 before)]

theorem getElem?_encodeUtf8 (h : Stands text n rest) :
    (encodeUtf8 text)[n]? = (encodeUtf8 rest).head? := by
  rw [← h.drop_encodeUtf8, List.head?_drop]

/-- At a place, a byte below 128 is the next character. -/
theorem getElem?_eq_byteOf_iff (h : Stands text n rest) {c : Char} (hc : c.toNat < 128) :
    (encodeUtf8 text)[n]? = some (byteOf c) ↔ rest.head? = some c := by
  rw [h.getElem?_encodeUtf8, head?_encodeUtf8_eq_byteOf_iff hc]

theorem add_byteLength (h : Stands text n rest) : n + byteLength rest = byteLength text := by
  obtain ⟨before, rfl, rfl⟩ := h
  exact (byteLength_append _ _).symm

end Stands

/-- A text can be cut at a place. -/
theorem dropBytes?_byteLength (front rest : List Char) :
    dropBytes? (byteLength front) (front ++ rest) = some rest := by
  induction front with
  | nil => exact dropBytes?.eq_1 rest
  | cons c front ih =>
      obtain ⟨m, hm, hle, hrest⟩ := exists_byteLength_cons c front
      rw [hm, List.cons_append, dropBytes?, if_pos hle, hrest, ih]

/-- A text is cut at its places and nowhere else. -/
theorem dropBytes?_eq_some_iff : dropBytes? n text = some rest ↔ Stands text n rest := by
  constructor
  · intro h
    induction text generalizing n with
    | nil =>
        cases n with
        | zero => exact ⟨[], Option.some.inj h, rfl⟩
        | succ n => cases h
    | cons c text ih =>
        cases n with
        | zero => exact ⟨[], Option.some.inj h, rfl⟩
        | succ n =>
            rw [dropBytes?] at h
            obtain ⟨hle, h⟩ := Option.ite_none_right_eq_some.mp h
            obtain ⟨front, rfl, hfront⟩ := ih h
            exact ⟨c :: front, rfl, by rw [byteLength]; omega⟩
  · rintro ⟨front, rfl, rfl⟩
    exact dropBytes?_byteLength front rest

theorem takeBytes?_byteLength (front rest : List Char) :
    takeBytes? (byteLength front) (front ++ rest) = some front := by
  induction front with
  | nil => exact takeBytes?.eq_1 rest
  | cons c front ih =>
      obtain ⟨m, hm, hle, hrest⟩ := exists_byteLength_cons c front
      rw [hm, List.cons_append, takeBytes?, if_pos hle, hrest, ih]
      rfl

/-- A text can be cut nowhere else. -/
theorem takeBytes?_eq_some_iff {front : List Char} :
    takeBytes? n text = some front ↔ ∃ rest, text = front ++ rest ∧ byteLength front = n := by
  constructor
  · intro h
    induction text generalizing n front with
    | nil =>
        cases n with
        | zero =>
            obtain rfl := Option.some.inj h
            exact ⟨[], rfl, rfl⟩
        | succ n => cases h
    | cons c text ih =>
        cases n with
        | zero =>
            obtain rfl := Option.some.inj h
            exact ⟨c :: text, rfl, rfl⟩
        | succ n =>
            rw [takeBytes?] at h
            obtain ⟨hle, h⟩ := Option.ite_none_right_eq_some.mp h
            obtain ⟨front, hfront, rfl⟩ := Option.map_eq_some_iff.mp h
            obtain ⟨rest, rfl, hlength⟩ := ih hfront
            exact ⟨rest, rfl, by rw [byteLength]; omega⟩
  · rintro ⟨rest, rfl, rfl⟩
    exact takeBytes?_byteLength front rest

/-- A part of a text is cut out between two of its places. -/
theorem slice?_eq_some_iff {m : Nat} :
    slice? text n m = some middle ↔
      (∃ rest, Stands text n (middle ++ rest)) ∧ m = n + byteLength middle := by
  rw [slice?]
  constructor
  · intro h
    obtain ⟨hle, h⟩ := Option.ite_none_right_eq_some.mp h
    obtain ⟨cs, hdrop, htake⟩ := Option.bind_eq_some_iff.mp h
    obtain ⟨rest, rfl, hmiddle⟩ := takeBytes?_eq_some_iff.mp htake
    exact ⟨⟨rest, dropBytes?_eq_some_iff.mp hdrop⟩, by omega⟩
  · rintro ⟨⟨rest, h⟩, rfl⟩
    rw [if_pos (Nat.le_add_right _ _), dropBytes?_eq_some_iff.mpr h, Nat.add_sub_cancel_left]
    exact takeBytes?_byteLength middle rest

/-- At a place there is one rest. -/
theorem Stands.unique {rest' : List Char} (h : Stands text n rest) (h' : Stands text n rest') :
    rest = rest' :=
  Option.some.inj ((dropBytes?_eq_some_iff.mpr h).symm.trans (dropBytes?_eq_some_iff.mpr h'))

theorem Stands.slice?_cons {c : Char} {m : Nat} (h : Stands text n (c :: rest))
    (hcut : slice? text (n + c.utf8Size) m = some middle) :
    slice? text n m = some (c :: middle) := by
  obtain ⟨⟨behind, hbehind⟩, rfl⟩ := slice?_eq_some_iff.mp hcut
  obtain rfl : rest = middle ++ behind := (Stands.skip [c] h).unique hbehind
  exact slice?_eq_some_iff.mpr ⟨⟨behind, h⟩, Nat.add_assoc _ _ _⟩

/-- A byte below 128 is at a place, and it is the character there.  The bytes of a longer
character are all too large. -/
theorem exists_stands_of_getElem? {b : UInt8} (h : (encodeUtf8 text)[n]? = some b)
    (hb : b.toNat < 128) : ∃ c rest, Stands text n (c :: rest) ∧ c.toNat = b.toNat := by
  induction text generalizing n with
  | nil => cases h
  | cons c text ih =>
      rw [encodeUtf8_cons, List.getElem?_append, length_encodeChar] at h
      split at h
      · next hlt =>
        have hc := toNat_lt_of_mem_encodeChar (List.mem_of_getElem? h) hb
        rw [encodeChar_of_lt hc] at h
        cases n with
        | zero =>
            refine ⟨c, text, stands_zero _, ?_⟩
            exact ((eq_toUInt8_iff (by omega)).mp (Option.some.inj h)).symm
        | succ n => cases h
      · next hge =>
        obtain ⟨c', rest, ⟨front, rfl, hfront⟩, heq⟩ := ih h
        exact ⟨c', rest, ⟨c :: front, rfl, by rw [byteLength]; omega⟩, heq⟩

end

theorem encodeUtf8_eq_take_append_drop (text : List Char) (k : Nat) :
    encodeUtf8 text = encodeUtf8 (text.take k) ++ encodeUtf8 (text.drop k) := by
  rw [← encodeUtf8_append, List.take_append_drop]

theorem take_encodeUtf8_place (text : List Char) (k : Nat) :
    (encodeUtf8 text).take (place text k) = encodeUtf8 (text.take k) := by
  rw [encodeUtf8_eq_take_append_drop text k, place, List.take_left' (length_encodeUtf8 _)]

/-- Characters below 128 are found in a text where their bytes are. -/
theorem encodeUtf8_prefix_iff {word cs : List Char} (hlow : ∀ c ∈ word, c.toNat < 128) :
    encodeUtf8 word <+: encodeUtf8 cs ↔ word <+: cs := by
  constructor
  · intro h
    induction word generalizing cs with
    | nil => exact List.nil_prefix
    | cons c word ih =>
        obtain ⟨hc, hlow⟩ := List.forall_mem_cons.mp hlow
        have hhead : (encodeUtf8 cs).head? = some (byteOf c) := by
          obtain ⟨rest, hrest⟩ := h
          rw [← hrest, encodeUtf8_cons, encodeChar_of_lt hc]
          rfl
        rw [head?_encodeUtf8_eq_byteOf_iff hc] at hhead
        obtain ⟨cs, rfl⟩ := List.head?_eq_some_iff.mp hhead
        rw [encodeUtf8_cons, encodeUtf8_cons, List.prefix_append_right_inj] at h
        exact (List.prefix_cons_inj c).mpr (ih hlow h)
  · rintro ⟨rest, rfl⟩
    exact ⟨encodeUtf8 rest, (encodeUtf8_append _ _).symm⟩

/-! ## Classes of bytes -/

/-- A class of bytes and a class of characters have the same members, all below 128. -/
structure ByteClass (p : UInt8 → Bool) (q : Char → Bool) : Prop where
  /-- A byte below 128 is in the one if the character is in the other. -/
  same : ∀ n, n < 128 → p n.toUInt8 = q (Char.ofNat n)
  /-- No other byte is in the class. -/
  low_byte : ∀ b, p b = true → b.toNat < 128
  /-- No other character is in the class. -/
  low_char : ∀ c, q c = true → c.toNat < 128

namespace ByteClass

variable {p : UInt8 → Bool} {q : Char → Bool}

/-- All bytes of a character are in the class if the character is. -/
theorem of_encodeChar (h : ByteClass p q) {c : Char} {b : UInt8} (hb : b ∈ encodeChar c) :
    p b = q c := by
  rcases Nat.lt_or_ge c.toNat 128 with hlow | hhigh
  · rw [encodeChar_of_lt hlow, List.mem_singleton] at hb
    rw [hb, byteOf, h.same _ hlow, Char.ofNat_toNat]
  · have hbyte : p b = false := Bool.eq_false_iff.mpr fun hp => by
      have := h.low_byte b hp
      have := le_of_mem_encodeChar hhigh hb
      omega
    have hchar : q c = false := Bool.eq_false_iff.mpr fun hq => by
      have := h.low_char c hq
      omega
    rw [hbyte, hchar]

theorem any_head?_encodeUtf8 (h : ByteClass p q) (cs : List Char) :
    (encodeUtf8 cs).head?.any p = cs.head?.any q := by
  cases cs with
  | nil => rfl
  | cons c cs =>
      rw [head?_encodeUtf8_cons, List.head?_eq_some_head (encodeChar_ne_nil c)]
      exact h.of_encodeChar (List.head_mem _)

theorem any_getLast?_encodeUtf8 (h : ByteClass p q) (cs : List Char) :
    (encodeUtf8 cs).getLast?.any p = cs.getLast?.any q := by
  rcases List.eq_nil_or_concat cs with rfl | ⟨cs, c, rfl⟩
  · rfl
  · have hsingle : encodeUtf8 [c] = encodeChar c := by
      rw [encodeUtf8_cons, encodeUtf8_nil, List.append_nil]
    rw [List.concat_eq_append, encodeUtf8_append, hsingle, List.getLast?_append,
      List.getLast?_eq_some_getLast (encodeChar_ne_nil c), List.getLast?_concat, Option.some_or]
    exact h.of_encodeChar (List.getLast_mem _)

/-- Bytes of a class are taken as characters of the class are. -/
theorem takeWhile_encodeUtf8 (h : ByteClass p q) (cs : List Char) :
    (encodeUtf8 cs).takeWhile p = encodeUtf8 (cs.takeWhile q) := by
  induction cs with
  | nil => rfl
  | cons c cs ih =>
      rw [encodeUtf8_cons, List.takeWhile_cons]
      cases hc : q c with
      | true =>
          rw [List.takeWhile_append_of_pos fun b hb => (h.of_encodeChar hb).trans hc, ih]
          exact (encodeUtf8_cons _ _).symm
      | false =>
          obtain ⟨b, bytes, hbytes⟩ := List.exists_cons_of_ne_nil (encodeChar_ne_nil c)
          have hb : p b = false :=
            (h.of_encodeChar (hbytes ▸ List.mem_cons_self)).trans hc
          rw [hbytes, List.cons_append, List.takeWhile_cons, hb]
          rfl

end ByteClass

end LegacyShader.Text
