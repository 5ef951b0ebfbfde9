import LegacyShader.ProgramFile
import LegacyShader.Proofs.Utf8
import Mathlib.Data.List.Nodup

/-!
# Program files are read as they are written

A reader and a writer belong together if the reader takes exactly what the writer
gives for a value, whatever comes behind it, and returns that value (`Decoder.Reads`).
Each part of a program file has such a pair, down to its numbers and texts.  A pair
for a record follows from those of its fields, read one after the other, and a pair
for a list from that of its entries (`Decoder.Reads.list`).

Numbers are written in a fixed width, so a length that does not fit eight bytes is
lost.  Values whose lengths fit are those that can be stored, and a file of them is
`Storable`.
-/

namespace LegacyShader.ProgramFile

/-! ## Readers and writers that belong together -/

/-- A reader takes exactly the bytes that are written for values of some kind. -/
def Decoder.Reads {α : Type} (get : Decoder α) (put : α → List UInt8) (fits : α → Prop) : Prop :=
  ∀ bytes a rest, get bytes = .ok (a, rest) ↔ fits a ∧ bytes = put a ++ rest

namespace Decoder

variable {α β : Type} {d : Decoder α} {f : α → Decoder β} {bytes rest : List UInt8} {b : β}

/-- Readers in turn read what the first one leaves with the second one. -/
theorem bind_eq_ok_iff :
    (d >>= f) bytes = .ok (b, rest) ↔
      ∃ a behind, d bytes = .ok (a, behind) ∧ f a behind = .ok (b, rest) := by
  change Decoder.bind d f bytes = _ ↔ _
  unfold Decoder.bind
  cases d bytes with
  | error e => simp
  | ok result => simp [Prod.ext_iff]

theorem pure_eq_ok_iff {a a' : α} :
    (Pure.pure a : Decoder α) bytes = .ok (a', rest) ↔ a = a' ∧ bytes = rest := by
  change Except.ok (a, bytes) = _ ↔ _
  simp

namespace Reads

variable {put : α → List UInt8} {fits : α → Prop}

/-- What is written in front is read first. -/
theorem bind_put (h : d.Reads put fits) {a : α} (ha : fits a) :
    (d >>= f) (put a ++ rest) = f a rest := by
  change Decoder.bind d f (put a ++ rest) = _
  rw [Decoder.bind, (h _ a rest).mpr ⟨ha, rfl⟩]

/-- What is read first is written in front. -/
theorem exists_of_bind (h : d.Reads put fits) (hok : (d >>= f) bytes = .ok (b, rest)) :
    ∃ a behind, fits a ∧ bytes = put a ++ behind ∧ f a behind = .ok (b, rest) := by
  obtain ⟨a, behind, ha, hf⟩ := bind_eq_ok_iff.mp hok
  obtain ⟨hfits, hbytes⟩ := (h bytes a behind).mp ha
  exact ⟨a, behind, hfits, hbytes, hf⟩

end Reads

end Decoder

/-! ## Numbers -/

/-- The least number that needs more than so many bytes. -/
def byteBound : Nat → Nat
  | 0 => 1
  | count + 1 => 256 * byteBound count

example : byteBound 8 = 0x10000000000000000 := rfl

/-- A number is read back from its bytes.  The first byte is the lowest digit, and the rest
is the number above it. -/
theorem reads_getLittleEndian (count : Nat) :
    (getLittleEndian count).Reads (littleEndian count) (· < byteBound count) := by
  induction count with
  | zero =>
      intro bytes n rest
      rw [getLittleEndian, Decoder.pure_eq_ok_iff, littleEndian, List.nil_append]
      exact and_congr_left fun _ => eq_comm.trans Nat.lt_one_iff.symm
  | succ count ih =>
      intro bytes n rest
      cases bytes with
      | nil => simp [getLittleEndian, littleEndian]
      | cons b bytes =>
          have hb : b.toNat < 256 := b.toNat_lt
          have hstep : getLittleEndian (count + 1) (b :: bytes) = .ok (n, rest) ↔
              ∃ high, getLittleEndian count bytes = .ok (high, rest) ∧
                b.toNat + 256 * high = n := by
            simp only [getLittleEndian]
            cases getLittleEndian count bytes with
            | error e => simp
            | ok result =>
                obtain ⟨high, behind⟩ := result
                simp [and_comm]
          have hdigit : b = (n % 256).toUInt8 ↔ b.toNat = n % 256 := by
            rw [eq_comm, Text.eq_toUInt8_iff (by omega)]
          rw [hstep, littleEndian, byteBound, List.cons_append, List.cons.injEq, hdigit]
          constructor
          · rintro ⟨high, hhigh, rfl⟩
            obtain ⟨hlt, rfl⟩ := (ih _ _ _).mp hhigh
            rw [show (b.toNat + 256 * high) / 256 = high by omega]
            exact ⟨by omega, by omega, rfl⟩
          · rintro ⟨hlt, hb, rfl⟩
            exact ⟨n / 256, (ih _ _ _).mpr ⟨by omega, rfl⟩, by omega⟩

theorem reads_getWord : getWord.Reads putWord fun _ => True := by
  intro bytes w rest
  constructor
  · intro h
    obtain ⟨n, _, hn, rfl, hw⟩ := (reads_getLittleEndian 4).exists_of_bind h
    obtain ⟨rfl, rfl⟩ := Decoder.pure_eq_ok_iff.mp hw
    rw [putWord, Nat.toUInt32, UInt32.toNat_ofNat_of_lt' hn]
    exact ⟨trivial, rfl⟩
  · rintro ⟨-, rfl⟩
    rw [getWord, putWord, (reads_getLittleEndian 4).bind_put w.toNat_lt_size,
      Decoder.pure_eq_ok_iff]
    exact ⟨UInt32.ofNat_toNat, rfl⟩

theorem reads_getLength : getLength.Reads putLength (· < byteBound 8) := reads_getLittleEndian 8

/-- An alternative is read by its index if no two have the same. -/
theorem reads_getIndex {α : Type} [DecidableEq α] {all : List α} (hall : ∀ a, a ∈ all)
    (hnodup : all.Nodup) (hlength : all.length ≤ byteBound 4) :
    (getIndex all).Reads (putIndex all) fun _ => True := by
  intro bytes a rest
  constructor
  · intro h
    obtain ⟨index, behind, -, rfl, ha⟩ := (reads_getLittleEndian 4).exists_of_bind h
    cases hget : all[index]? with
    | none =>
        rw [hget] at ha
        cases ha
    | some a' =>
        rw [hget] at ha
        obtain ⟨rfl, rfl⟩ := Decoder.pure_eq_ok_iff.mp ha
        obtain ⟨hindex, rfl⟩ := List.getElem?_eq_some_iff.mp hget
        rw [putIndex, hnodup.idxOf_getElem index hindex]
        exact ⟨trivial, rfl⟩
  · rintro ⟨-, rfl⟩
    have hindex : all.idxOf a < byteBound 4 :=
      Nat.lt_of_lt_of_le (List.idxOf_lt_length_iff.mpr (hall a)) hlength
    rw [getIndex, putIndex, (reads_getLittleEndian 4).bind_put hindex,
      List.getElem?_idxOf (hall a)]
    exact Decoder.pure_eq_ok_iff.mpr ⟨rfl, rfl⟩

theorem reads_getKind : getKind.Reads putKind fun _ => True :=
  reads_getIndex (fun k => by cases k <;> decide) (by decide) (by decide)

theorem reads_getStage : getStage.Reads putStage fun _ => True :=
  reads_getIndex (fun s => by cases s <;> decide) (by decide) (by decide)

theorem reads_getVersion :
    (getIndex FileVersion.all).Reads (putIndex FileVersion.all) fun _ => True :=
  reads_getIndex (fun v => by cases v; decide) (by decide) (by decide)

/-! ## Values that may be missing, texts and lists -/

/-- A value that may be missing is read back from its mark and itself. -/
theorem Decoder.Reads.option {α : Type} {get : Decoder α} {put : α → List UInt8}
    (h : get.Reads put fun _ => True) :
    (getOption get).Reads (putOption put) fun _ => True := by
  intro bytes o rest
  constructor
  · intro hok
    unfold getOption at hok
    split at hok
    case h_1 => cases hok
    case h_2 b behind =>
      split at hok
      case isTrue hb =>
        obtain ⟨rfl, rfl⟩ := Prod.mk.inj (Except.ok.inj hok)
        exact ⟨trivial, by rw [hb]; rfl⟩
      split at hok
      case isFalse => cases hok
      case isTrue hb =>
        split at hok
        case h_1 => cases hok
        case h_2 a behind ha =>
          obtain ⟨rfl, rfl⟩ := Prod.mk.inj (Except.ok.inj hok)
          obtain ⟨-, rfl⟩ := (h _ _ _).mp ha
          exact ⟨trivial, by rw [hb]; rfl⟩
  · rintro ⟨-, rfl⟩
    cases o with
    | none => rfl
    | some a =>
        have hread : get (put a ++ rest) = .ok (a, rest) := (h _ _ _).mpr ⟨trivial, rfl⟩
        simp [getOption, putOption, hread]

/-- A text whose length in bytes can be written. -/
def TextFits (s : String) : Prop := (Text.encodeUtf8 s.toList).length < byteBound 8

instance (s : String) : Decidable (TextFits s) := Nat.decLt ..

/-- A text is read back from its length and its bytes.  The length counts bytes and not
characters. -/
theorem reads_getText : getText.Reads putText TextFits := by
  intro bytes s rest
  constructor
  · intro h
    obtain ⟨length, behind, hlength, rfl, hs⟩ := reads_getLength.exists_of_bind h
    split at hs
    case isTrue => cases hs
    case isFalse hle =>
      split at hs
      case h_1 => cases hs
      case h_2 cs hcs =>
        obtain ⟨rfl, rfl⟩ := Prod.mk.inj (Except.ok.inj hs)
        have htake : behind.take length = Text.encodeUtf8 cs := Text.decodeUtf8_eq_ok_iff.mp hcs
        have hcount : (Text.encodeUtf8 cs).length = length := by
          rw [← htake, List.length_take_of_le (Nat.le_of_not_lt hle)]
        rw [TextFits, putText, String.toList_ofList, hcount, ← htake, List.append_assoc,
          List.take_append_drop]
        exact ⟨hlength, rfl⟩
  · rintro ⟨hs, rfl⟩
    rw [getText, putText, List.append_assoc, reads_getLength.bind_put hs]
    have hread : Text.decodeUtf8 (Text.encodeUtf8 s.toList) = .ok s.toList :=
      Text.decodeUtf8_eq_ok_iff.mpr rfl
    rw [if_neg (by simp), List.take_left, List.drop_left, hread]
    simp

/-- A list whose length can be written, of entries that can. -/
def ListFits {α : Type} (fits : α → Prop) (xs : List α) : Prop :=
  xs.length < byteBound 8 ∧ ∀ a ∈ xs, fits a

instance {α : Type} (fits : α → Prop) [DecidablePred fits] (xs : List α) :
    Decidable (ListFits fits xs) :=
  instDecidableAnd

/-- Values in a row are read back if their number is known. -/
theorem Decoder.Reads.many {α : Type} {get : Decoder α} {put : α → List UInt8} {fits : α → Prop}
    (h : get.Reads put fits) (count : Nat) :
    (getMany get count).Reads (·.flatMap put) fun xs => xs.length = count ∧ ∀ a ∈ xs, fits a := by
  induction count with
  | zero =>
      intro bytes xs rest
      rw [getMany, Decoder.pure_eq_ok_iff]
      constructor
      · rintro ⟨rfl, rfl⟩
        simp
      · rintro ⟨⟨hxs, -⟩, rfl⟩
        obtain rfl := List.length_eq_zero_iff.mp hxs
        exact ⟨rfl, rfl⟩
  | succ count ih =>
      intro bytes xs rest
      constructor
      · intro hok
        obtain ⟨a, _, ha, rfl, h₁⟩ := h.exists_of_bind hok
        obtain ⟨as, _, ⟨hcount, has⟩, rfl, h₂⟩ := ih.exists_of_bind h₁
        obtain ⟨rfl, rfl⟩ := Decoder.pure_eq_ok_iff.mp h₂
        refine ⟨⟨by rw [List.length_cons, hcount], List.forall_mem_cons.mpr ⟨ha, has⟩⟩, ?_⟩
        beta_reduce
        rw [List.flatMap_cons, List.append_assoc]
      · rintro ⟨⟨hcount, hxs⟩, rfl⟩
        cases xs with
        | nil => cases hcount
        | cons a as =>
            obtain ⟨ha, has⟩ := List.forall_mem_cons.mp hxs
            beta_reduce
            rw [getMany, List.flatMap_cons, List.append_assoc, h.bind_put ha,
              ih.bind_put ⟨Nat.succ.inj hcount, has⟩]
            exact Decoder.pure_eq_ok_iff.mpr ⟨rfl, rfl⟩

/-- A list is read back, since its length stands in front. -/
theorem Decoder.Reads.list {α : Type} {get : Decoder α} {put : α → List UInt8} {fits : α → Prop}
    (h : get.Reads put fits) : (getList get).Reads (putList put) (ListFits fits) := by
  intro bytes xs rest
  constructor
  · intro hok
    obtain ⟨length, behind, hlength, rfl, hmany⟩ := reads_getLength.exists_of_bind hok
    obtain ⟨⟨rfl, hxs⟩, rfl⟩ := (h.many length _ _ _).mp hmany
    exact ⟨⟨hlength, hxs⟩, by rw [putList, List.append_assoc]⟩
  · rintro ⟨⟨hlength, hxs⟩, rfl⟩
    rw [getList, putList, List.append_assoc, reads_getLength.bind_put hlength]
    exact (h.many _ _ _ _).mpr ⟨⟨rfl, hxs⟩, rfl⟩

/-! ## Records -/

theorem reads_getAttrib : getAttrib.Reads putAttrib fun a => TextFits a.name := by
  intro bytes a rest
  constructor
  · intro h
    obtain ⟨name, _, hname, rfl, h₁⟩ := reads_getText.exists_of_bind h
    obtain ⟨kind, _, -, rfl, h₂⟩ := reads_getKind.exists_of_bind h₁
    obtain ⟨location, _, -, rfl, h₃⟩ := reads_getWord.exists_of_bind h₂
    obtain ⟨rfl, rfl⟩ := Decoder.pure_eq_ok_iff.mp h₃
    exact ⟨hname, by simp only [putAttrib, List.append_assoc]⟩
  · rintro ⟨hname, rfl⟩
    simp only [putAttrib, List.append_assoc]
    rw [getAttrib, reads_getText.bind_put hname, reads_getKind.bind_put trivial,
      reads_getWord.bind_put trivial]
    rfl

theorem reads_getBlock : getBlock.Reads putBlock fun _ => True := by
  intro bytes b rest
  constructor
  · intro h
    obtain ⟨binding, _, -, rfl, h₁⟩ := reads_getWord.exists_of_bind h
    obtain ⟨size, _, -, rfl, h₂⟩ := reads_getWord.exists_of_bind h₁
    obtain ⟨stage, _, -, rfl, h₃⟩ := reads_getStage.exists_of_bind h₂
    obtain ⟨rfl, rfl⟩ := Decoder.pure_eq_ok_iff.mp h₃
    exact ⟨trivial, by simp only [putBlock, List.append_assoc]⟩
  · rintro ⟨-, rfl⟩
    simp only [putBlock, List.append_assoc]
    rw [getBlock, reads_getWord.bind_put trivial, reads_getWord.bind_put trivial,
      reads_getStage.bind_put trivial]
    rfl

theorem reads_getUniform : getUniform.Reads putUniform fun u => TextFits u.name := by
  have hword : (getOption getWord).Reads (putOption putWord) fun _ => True := reads_getWord.option
  intro bytes u rest
  constructor
  · intro h
    obtain ⟨name, _, hname, rfl, h₁⟩ := reads_getText.exists_of_bind h
    obtain ⟨kind, _, -, rfl, h₂⟩ := reads_getKind.exists_of_bind h₁
    obtain ⟨arraySize, _, -, rfl, h₃⟩ := reads_getWord.exists_of_bind h₂
    obtain ⟨blockIndex, _, -, rfl, h₄⟩ := hword.exists_of_bind h₃
    obtain ⟨blockOffset, _, -, rfl, h₅⟩ := reads_getWord.exists_of_bind h₄
    obtain ⟨binding, _, -, rfl, h₆⟩ := hword.exists_of_bind h₅
    obtain ⟨arrayStride, _, -, rfl, h₇⟩ := reads_getWord.exists_of_bind h₆
    obtain ⟨matrixStride, _, -, rfl, h₈⟩ := reads_getWord.exists_of_bind h₇
    obtain ⟨stage, _, -, rfl, h₉⟩ := reads_getStage.exists_of_bind h₈
    obtain ⟨rfl, rfl⟩ := Decoder.pure_eq_ok_iff.mp h₉
    exact ⟨hname, by simp only [putUniform, List.append_assoc]⟩
  · rintro ⟨hname, rfl⟩
    simp only [putUniform, List.append_assoc]
    rw [getUniform, reads_getText.bind_put hname, reads_getKind.bind_put trivial,
      reads_getWord.bind_put trivial, hword.bind_put trivial, reads_getWord.bind_put trivial,
      hword.bind_put trivial, reads_getWord.bind_put trivial, reads_getWord.bind_put trivial,
      reads_getStage.bind_put trivial]
    rfl

/-- The lengths in a reflection can be written. -/
structure ReflectionFits (r : ProgramReflection) : Prop where
  /-- The number of attributes and the lengths of their names. -/
  attribs : ListFits (fun a => TextFits a.name) r.attribs
  /-- The number of uniform blocks. -/
  uniformBlocks : ListFits (fun _ => True) r.uniformBlocks
  /-- The number of uniforms and the lengths of their names. -/
  uniforms : ListFits (fun u => TextFits u.name) r.uniforms

instance (r : ProgramReflection) : Decidable (ReflectionFits r) :=
  decidable_of_iff (_ ∧ _ ∧ _) ⟨fun h => ⟨h.1, h.2.1, h.2.2⟩, fun h => ⟨h.1, h.2, h.3⟩⟩

theorem reads_getReflection : getReflection.Reads putReflection ReflectionFits := by
  intro bytes r rest
  constructor
  · intro h
    obtain ⟨attribs, _, hattribs, rfl, h₁⟩ := reads_getAttrib.list.exists_of_bind h
    obtain ⟨uniformBlocks, _, hblocks, rfl, h₂⟩ := reads_getBlock.list.exists_of_bind h₁
    obtain ⟨uniforms, _, huniforms, rfl, h₃⟩ := reads_getUniform.list.exists_of_bind h₂
    obtain ⟨rfl, rfl⟩ := Decoder.pure_eq_ok_iff.mp h₃
    exact ⟨⟨hattribs, hblocks, huniforms⟩, by simp only [putReflection, List.append_assoc]⟩
  · rintro ⟨hr, rfl⟩
    simp only [putReflection, List.append_assoc]
    rw [getReflection, reads_getAttrib.list.bind_put hr.attribs,
      reads_getBlock.list.bind_put hr.uniformBlocks, reads_getUniform.list.bind_put hr.uniforms]
    rfl

/-- The lengths in a program file can be written. -/
structure Storable (f : ProgramFile) : Prop where
  /-- The number of words of the vertex stage. -/
  vertexWords : ListFits (fun _ => True) f.vertexWords
  /-- The number of words of the fragment stage. -/
  fragmentWords : ListFits (fun _ => True) f.fragmentWords
  /-- The reflection. -/
  reflection : ReflectionFits f.reflection

instance (f : ProgramFile) : Decidable f.Storable :=
  decidable_of_iff (_ ∧ _ ∧ _) ⟨fun h => ⟨h.1, h.2.1, h.2.2⟩, fun h => ⟨h.1, h.2, h.3⟩⟩

/-- Entries of at least one byte each fit if the bytes of their list do. -/
theorem ListFits.of_length_lt {α : Type} (put : α → List UInt8) {fits : α → Prop} {xs : List α}
    (hlt : (putList put xs).length < byteBound 8) (hpos : ∀ a, 0 < (put a).length)
    (hfits : ∀ a, (put a).length < byteBound 8 → fits a) : ListFits fits xs := by
  have hcount : ∀ ys : List α, ys.length ≤ (ys.flatMap put).length := by
    intro ys
    induction ys with
    | nil => simp
    | cons a ys ih =>
      have := hpos a
      simp only [List.flatMap_cons, List.length_cons, List.length_append]
      omega
  have hput : (xs.flatMap put).length < byteBound 8 := by
    simp only [putList, List.length_append] at hlt
    omega
  refine ⟨Nat.lt_of_le_of_lt (hcount xs) hput, fun a ha => hfits a ?_⟩
  obtain ⟨front, back, rfl⟩ := List.append_of_mem ha
  simp only [List.flatMap_append, List.flatMap_cons, List.length_append] at hput
  omega

theorem TextFits.of_length_lt {s : String} (h : (putText s).length < byteBound 8) :
    TextFits s := by
  simp only [putText, List.length_append] at h
  rw [TextFits]
  omega

/-- A file of fewer bytes than a length can count can be written. -/
theorem storable_of_length_lt {f : ProgramFile} (h : f.encode.length < byteBound 8) :
    f.Storable := by
  have hword : ∀ w, 0 < (putWord w).length := fun w => by simp [putWord, littleEndian]
  have htext : ∀ s, 0 < (putText s).length := fun s => by simp [putText, putLength, littleEndian]
  simp only [encode, putReflection, List.length_append] at h
  constructor
  · exact .of_length_lt putWord (by omega) hword fun _ _ => trivial
  · exact .of_length_lt putWord (by omega) hword fun _ _ => trivial
  · constructor
    · refine .of_length_lt putAttrib (by omega) ?_ fun a ha => .of_length_lt ?_
      · intro a
        have := htext a.name
        simp only [putAttrib, List.length_append]
        omega
      · simp only [putAttrib, List.length_append] at ha
        omega
    · refine .of_length_lt putBlock (by omega) ?_ fun _ _ => trivial
      intro b
      have := hword b.binding
      simp only [putBlock, List.length_append]
      omega
    · refine .of_length_lt putUniform (by omega) ?_ fun u hu => .of_length_lt ?_
      · intro u
        have := htext u.name
        simp only [putUniform, List.length_append]
        omega
      · simp only [putUniform, List.length_append] at hu
        omega

/-- A program file is read from the bytes that are written for it, and from no others. -/
theorem reads_getFile : getFile.Reads encode Storable := by
  intro bytes f rest
  constructor
  · intro h
    obtain ⟨version, _, -, rfl, h₁⟩ := reads_getVersion.exists_of_bind h
    obtain ⟨vertexWords, _, hvertex, rfl, h₂⟩ := reads_getWord.list.exists_of_bind h₁
    obtain ⟨fragmentWords, _, hfragment, rfl, h₃⟩ := reads_getWord.list.exists_of_bind h₂
    obtain ⟨reflection, _, hreflection, rfl, h₄⟩ := reads_getReflection.exists_of_bind h₃
    obtain ⟨rfl, rfl⟩ := Decoder.pure_eq_ok_iff.mp h₄
    exact ⟨⟨hvertex, hfragment, hreflection⟩, by simp only [encode, List.append_assoc]⟩
  · rintro ⟨hf, rfl⟩
    simp only [encode, List.append_assoc]
    rw [getFile, reads_getVersion.bind_put trivial, reads_getWord.list.bind_put hf.vertexWords,
      reads_getWord.list.bind_put hf.fragmentWords, reads_getReflection.bind_put hf.reflection]
    rfl

/-! ## Files -/

/-- A file is read back, whatever follows it. -/
theorem decode_encode_append {f : ProgramFile} (hf : f.Storable) (tail : List UInt8) :
    decode (f.encode ++ tail) = .ok f := by
  have hread : getFile (f.encode ++ tail) = .ok (f, tail) := (reads_getFile _ _ _).mpr ⟨hf, rfl⟩
  rw [decode, hread]
  rfl

/-- A file is read back whatever stands behind it.  So the bytes of a file are not the
front part of the bytes of another. -/
theorem uniquelyDecodable_encode {f : ProgramFile} (hf : f.Storable) :
    (∀ tail, decode (f.encode ++ tail) = .ok f) ∧
      ∀ g : ProgramFile, g.Storable → f.encode <+: g.encode → f = g := by
  refine ⟨decode_encode_append hf, ?_⟩
  rintro g hg ⟨tail, htail⟩
  have hread : decode g.encode = .ok f := by
    rw [← htail]
    exact decode_encode_append hf tail
  rw [← List.append_nil g.encode, decode_encode_append hg []] at hread
  exact (Except.ok.inj hread).symm

/-- A file with a texture and a uniform of a block, under names of several scripts. -/
def sampleFile : ProgramFile where
  version := .v1
  vertexWords := [0x07230203]
  fragmentWords := []
  reflection :=
    { attribs := [{ name := "größe", kind := .floatVec3, location := 2 }]
      uniformBlocks := [{ binding := 1, size := 64, stage := .fragment }]
      uniforms :=
        [{ name := "色", kind := .sampler2D, arraySize := 1, blockIndex := none, blockOffset := 0,
           binding := some 0, arrayStride := 0, matrixStride := 0, stage := .fragment },
         { name := "𝑢.x", kind := .floatMat4, arraySize := 1, blockIndex := some 0,
           blockOffset := 0, binding := none, arrayStride := 0, matrixStride := 16,
           stage := .fragment }] }

/-- A file with other bytes behind it, and one that it is no beginning of. -/
theorem uniquelyDecodable_encode_of_sampleFile :
    sampleFile.Storable ∧ decode (sampleFile.encode ++ [1, 0, 255]) = .ok sampleFile ∧
      ¬ sampleFile.encode <+: { sampleFile with fragmentWords := [0, 0] }.encode := by
  have hf : sampleFile.Storable := by decide +kernel
  have hg : { sampleFile with fragmentWords := [0, 0] }.Storable := by decide +kernel
  obtain ⟨hread, hfront⟩ := uniquelyDecodable_encode hf
  refine ⟨hf, hread [1, 0, 255], fun h => ?_⟩
  exact absurd (hfront _ hg h) (by decide +kernel)

end LegacyShader.ProgramFile
