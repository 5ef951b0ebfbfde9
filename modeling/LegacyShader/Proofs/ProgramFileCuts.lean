import LegacyShader.Proofs.ProgramFileFormat

/-!
# Program files that are cut short

The bytes of a file are *cut* if some at the end are missing.  A reader that belongs
to a writer notices that: it runs out of bytes, and it does so before anything else
can go wrong (`Decoder.NoticesCuts`).  This is shown part by part like the reading
itself.  A cut through two parts in a row goes through the first one, or it leaves the
first one whole and goes through the second (`Cut.append_cases`).

The other direction is about any bytes at all.  What is read from them has its own
bytes at their front (`decode_eq_ok_iff`), so no two spellings of a file exist.
-/

namespace LegacyShader.ProgramFile

/-! ## Cuts -/

/-- Bytes are the front part of others, and not all of them. -/
def Cut (front whole : List UInt8) : Prop := front <+: whole ∧ front ≠ whole

instance (front whole : List UInt8) : Decidable (Cut front whole) := instDecidableAnd

theorem not_cut_nil {front : List UInt8} : ¬ Cut front [] := by
  rintro ⟨hfront, hne⟩
  exact hne (List.prefix_nil.mp hfront)

/-- A cut is in front of the first byte or behind it. -/
theorem Cut.cons_cases {front rest : List UInt8} {b : UInt8} (h : Cut front (b :: rest)) :
    front = [] ∨ ∃ front', front = b :: front' ∧ Cut front' rest := by
  obtain ⟨hfront, hne⟩ := h
  rcases List.prefix_cons_iff.mp hfront with rfl | ⟨front', rfl, hfront'⟩
  · exact .inl rfl
  · exact .inr ⟨front', rfl, hfront', fun heq => hne (by rw [heq])⟩

/-- A cut goes through the first of two parts or, behind it, through the second. -/
theorem Cut.append_cases {front first second : List UInt8} (h : Cut front (first ++ second)) :
    Cut front first ∨ ∃ front', front = first ++ front' ∧ Cut front' second := by
  induction first generalizing front with
  | nil => exact .inr ⟨front, rfl, h⟩
  | cons b first ih =>
      rcases h.cons_cases with rfl | ⟨front', rfl, hcut⟩
      · exact .inl ⟨List.nil_prefix, by simp⟩
      · rcases ih hcut with hfirst | ⟨front'', rfl, hsecond⟩
        · exact .inl ⟨List.cons_prefix_cons.mpr ⟨rfl, hfirst.1⟩,
            fun heq => hfirst.2 (List.cons.inj heq).2⟩
        · exact .inr ⟨front'', rfl, hsecond⟩

/-! ## Readers that run out of bytes -/

/-- Whether an error says that bytes are missing. -/
def DecodeError.isShort : DecodeError → Bool
  | .endOfFile | .endOfText => true
  | .badIndex .. | .badTag _ | .badText _ => false

namespace Decoder

variable {α β : Type}

/-- A reader runs out of bytes. -/
def RunsShort (d : Decoder α) (bytes : List UInt8) : Prop :=
  ∃ e, e.isShort = true ∧ d bytes = .error e

/-- A reader runs out of bytes whenever those of a value are cut. -/
def NoticesCuts (get : Decoder α) (put : α → List UInt8) (fits : α → Prop) : Prop :=
  ∀ a, fits a → ∀ front, Cut front (put a) → get.RunsShort front

variable {d : Decoder α} {f : α → Decoder β} {put : α → List UInt8} {fits : α → Prop}
variable {front tail : List UInt8} {a : α}

/-- A reader that runs short does so whatever was to be read behind it. -/
theorem RunsShort.bind (h : d.RunsShort front) : (d >>= f).RunsShort front := by
  obtain ⟨e, he, hd⟩ := h
  refine ⟨e, he, ?_⟩
  change Decoder.bind d f front = _
  rw [Decoder.bind, hd]

/-- Readers in a row notice a cut if the first one does and those behind it do. -/
theorem NoticesCuts.bind (h : d.NoticesCuts put fits) (hreads : d.Reads put fits) (ha : fits a)
    (hcut : Cut front (put a ++ tail))
    (hf : ∀ front', Cut front' tail → (f a).RunsShort front') : (d >>= f).RunsShort front := by
  rcases hcut.append_cases with hfirst | ⟨front', rfl, hsecond⟩
  · exact (h a ha front hfirst).bind
  · obtain ⟨e, he, hf⟩ := hf front' hsecond
    exact ⟨e, he, by rw [hreads.bind_put ha, hf]⟩

end Decoder

/-! ## Numbers, texts and lists -/

/-- A number that lacks a byte is noticed. -/
theorem runsShort_getLittleEndian {count n : Nat} {front : List UInt8}
    (hcut : Cut front (littleEndian count n)) : (getLittleEndian count).RunsShort front := by
  induction count generalizing n front with
  | zero => exact absurd hcut not_cut_nil
  | succ count ih =>
      rcases hcut.cons_cases with rfl | ⟨front', rfl, hcut'⟩
      · exact ⟨.endOfFile, rfl, rfl⟩
      · obtain ⟨e, he, hhigh⟩ := ih hcut'
        exact ⟨e, he, by simp only [getLittleEndian, hhigh]⟩

theorem noticesCuts_getWord : getWord.NoticesCuts putWord fun _ => True := by
  intro w _ front hcut
  exact (runsShort_getLittleEndian hcut).bind

theorem noticesCuts_getLength : getLength.NoticesCuts putLength (· < byteBound 8) := by
  intro n _ front hcut
  exact runsShort_getLittleEndian hcut

/-- So is an index into a list. -/
theorem noticesCuts_getIndex {α : Type} [DecidableEq α] (all : List α) :
    (getIndex all).NoticesCuts (putIndex all) fun _ => True := by
  intro a _ front hcut
  exact (runsShort_getLittleEndian hcut).bind

theorem noticesCuts_getKind : getKind.NoticesCuts putKind fun _ => True :=
  noticesCuts_getIndex VariableKind.all

theorem noticesCuts_getStage : getStage.NoticesCuts putStage fun _ => True :=
  noticesCuts_getIndex Stage.all

theorem noticesCuts_getVersion :
    (getIndex FileVersion.all).NoticesCuts (putIndex FileVersion.all) fun _ => True :=
  noticesCuts_getIndex FileVersion.all

/-- A value that may be missing is cut in its mark or in itself. -/
theorem Decoder.NoticesCuts.option {α : Type} {get : Decoder α} {put : α → List UInt8}
    (h : get.NoticesCuts put fun _ => True) :
    (getOption get).NoticesCuts (putOption put) fun _ => True := by
  intro o _ front hcut
  cases o with
  | none =>
      rcases hcut.cons_cases with rfl | ⟨front', -, hcut'⟩
      · exact ⟨.endOfFile, rfl, rfl⟩
      · exact absurd hcut' not_cut_nil
  | some a =>
      rcases hcut.cons_cases with rfl | ⟨front', rfl, hcut'⟩
      · exact ⟨.endOfFile, rfl, rfl⟩
      · obtain ⟨e, he, hget⟩ := h a trivial front' hcut'
        exact ⟨e, he, by simp [getOption, hget]⟩

/-- A text that is cut behind its length is too short for the length. -/
theorem noticesCuts_getText : getText.NoticesCuts putText TextFits := by
  intro s hs front hcut
  refine noticesCuts_getLength.bind reads_getLength hs hcut fun front' hcut' => ?_
  refine ⟨.endOfText, rfl, if_pos ?_⟩
  obtain ⟨hfront, hne⟩ := hcut'
  exact Nat.lt_of_le_of_ne hfront.length_le fun heq => hne (hfront.eq_of_length heq)

/-- Values in a row are cut in one of them, behind which nothing is read. -/
theorem Decoder.NoticesCuts.many {α : Type} {get : Decoder α} {put : α → List UInt8}
    {fits : α → Prop} (h : get.NoticesCuts put fits) (hreads : get.Reads put fits) {xs : List α}
    (hxs : ∀ a ∈ xs, fits a) {front : List UInt8} (hcut : Cut front (xs.flatMap put)) :
    (getMany get xs.length).RunsShort front := by
  induction xs generalizing front with
  | nil => exact absurd hcut not_cut_nil
  | cons a as ih =>
      obtain ⟨ha, has⟩ := List.forall_mem_cons.mp hxs
      rw [List.flatMap_cons] at hcut
      exact h.bind hreads ha hcut fun front' hcut' => (ih has hcut').bind

/-- A list is cut in its length or in one of its items. -/
theorem Decoder.NoticesCuts.list {α : Type} {get : Decoder α} {put : α → List UInt8}
    {fits : α → Prop} (h : get.NoticesCuts put fits) (hreads : get.Reads put fits) :
    (getList get).NoticesCuts (putList put) (ListFits fits) := by
  rintro xs ⟨hlength, hxs⟩ front hcut
  exact noticesCuts_getLength.bind reads_getLength hlength hcut
    fun front' hcut' => h.many hreads hxs hcut'

/-! ## Records -/

theorem noticesCuts_getAttrib : getAttrib.NoticesCuts putAttrib fun a => TextFits a.name := by
  intro a hname front hcut
  simp only [putAttrib, List.append_assoc] at hcut
  refine noticesCuts_getText.bind reads_getText hname hcut fun front hcut => ?_
  refine noticesCuts_getKind.bind reads_getKind trivial hcut fun front hcut => ?_
  exact (noticesCuts_getWord _ trivial front hcut).bind

theorem noticesCuts_getBlock : getBlock.NoticesCuts putBlock fun _ => True := by
  intro b _ front hcut
  simp only [putBlock, List.append_assoc] at hcut
  refine noticesCuts_getWord.bind reads_getWord trivial hcut fun front hcut => ?_
  refine noticesCuts_getWord.bind reads_getWord trivial hcut fun front hcut => ?_
  exact (noticesCuts_getStage _ trivial front hcut).bind

theorem noticesCuts_getUniform : getUniform.NoticesCuts putUniform fun u => TextFits u.name := by
  have hoption := noticesCuts_getWord.option
  have hreads := reads_getWord.option
  intro u hname front hcut
  simp only [putUniform, List.append_assoc] at hcut
  refine noticesCuts_getText.bind reads_getText hname hcut fun front hcut => ?_
  refine noticesCuts_getKind.bind reads_getKind trivial hcut fun front hcut => ?_
  refine noticesCuts_getWord.bind reads_getWord trivial hcut fun front hcut => ?_
  refine hoption.bind hreads trivial hcut fun front hcut => ?_
  refine noticesCuts_getWord.bind reads_getWord trivial hcut fun front hcut => ?_
  refine hoption.bind hreads trivial hcut fun front hcut => ?_
  refine noticesCuts_getWord.bind reads_getWord trivial hcut fun front hcut => ?_
  refine noticesCuts_getWord.bind reads_getWord trivial hcut fun front hcut => ?_
  exact (noticesCuts_getStage _ trivial front hcut).bind

theorem noticesCuts_getReflection : getReflection.NoticesCuts putReflection ReflectionFits := by
  intro r hr front hcut
  simp only [putReflection, List.append_assoc] at hcut
  refine (noticesCuts_getAttrib.list reads_getAttrib).bind reads_getAttrib.list hr.attribs hcut
    fun front hcut => ?_
  refine (noticesCuts_getBlock.list reads_getBlock).bind reads_getBlock.list hr.uniformBlocks hcut
    fun front hcut => ?_
  exact (noticesCuts_getUniform.list reads_getUniform _ hr.uniforms front hcut).bind

/-- A file that was cut anywhere is not read. -/
theorem noticesCuts_getFile : getFile.NoticesCuts encode Storable := by
  have hwords := noticesCuts_getWord.list reads_getWord
  intro f hf front hcut
  simp only [encode, List.append_assoc] at hcut
  refine noticesCuts_getVersion.bind reads_getVersion trivial hcut fun front hcut => ?_
  refine hwords.bind reads_getWord.list hf.vertexWords hcut fun front hcut => ?_
  refine hwords.bind reads_getWord.list hf.fragmentWords hcut fun front hcut => ?_
  exact (noticesCuts_getReflection _ hf.reflection front hcut).bind

/-! ## Files -/

/-- Bytes are read as a file exactly if they begin with what is written for it. -/
theorem decode_eq_ok_iff {bytes : List UInt8} {f : ProgramFile} :
    decode bytes = .ok f ↔ f.Storable ∧ f.encode <+: bytes := by
  constructor
  · intro h
    cases hget : getFile bytes with
    | error e =>
        rw [decode, hget] at h
        cases h
    | ok result =>
        obtain ⟨g, rest⟩ := result
        rw [decode, hget] at h
        obtain rfl : g = f := Except.ok.inj h
        obtain ⟨hg, hbytes⟩ := (reads_getFile bytes g rest).mp hget
        exact ⟨hg, rest, hbytes.symm⟩
  · rintro ⟨hf, rest, rfl⟩
    exact decode_encode_append hf rest

/-- Whatever bytes a file is read from, the reader has taken exactly the bytes that are
written for the file.  A file whose bytes are cut anywhere is not read at all, and the
error says that bytes are missing. -/
theorem decode_canonical_and_notices_cuts :
    (∀ bytes f, decode bytes = .ok f → f.encode <+: bytes) ∧
    (∀ bytes f rest, getFile bytes = .ok (f, rest) → bytes = f.encode ++ rest) ∧
    ∀ f : ProgramFile, f.Storable → ∀ front, front <+: f.encode → front ≠ f.encode →
      ∃ e, e.isShort = true ∧ decode front = .error e := by
  refine ⟨?_, ?_, ?_⟩
  · intro bytes f h
    exact (decode_eq_ok_iff.mp h).2
  · intro bytes f rest h
    exact ((reads_getFile bytes f rest).mp h).2
  · intro f hf front hfront hne
    obtain ⟨e, he, hget⟩ := noticesCuts_getFile f hf front ⟨hfront, hne⟩
    refine ⟨e, he, ?_⟩
    rw [decode, hget]
    rfl

/-- A cut behind the first byte of a character of three, and bytes behind a file. -/
theorem decode_canonical_and_notices_cuts_of_sampleFile :
    sampleFile.Storable ∧ Cut (sampleFile.encode.take 92) sampleFile.encode ∧
      (∃ e, e.isShort = true ∧ decode (sampleFile.encode.take 92) = .error e) ∧
      decode (sampleFile.encode ++ [7]) = .ok sampleFile ∧
      sampleFile.encode <+: sampleFile.encode ++ [7] := by
  have hf : sampleFile.Storable := by decide +kernel
  have hcut : Cut (sampleFile.encode.take 92) sampleFile.encode := by decide +kernel
  have hread : decode (sampleFile.encode ++ [7]) = .ok sampleFile := by decide +kernel
  obtain ⟨hcanonical, -, hcuts⟩ := decode_canonical_and_notices_cuts
  exact ⟨hf, hcut, hcuts sampleFile hf _ hcut.1 hcut.2, hread, hcanonical _ _ hread⟩

end LegacyShader.ProgramFile
