import LegacyShader.Proofs.UniformBytes

/-!
# Each use of the keyword once

The scan over bytes comes to its end without a fault, with the result of a scan over
characters (`finishes_scanUniforms`).  One search of it goes on from the place of a
character to the place of a later one, and what it finds is what the other scan finds
between them (`exists_step?`).  The search goes on at three kinds of places: behind a
declaration, behind a keyword that starts none, and behind a keyword inside of a longer
word.  None is lost, since the keyword does not overlap itself.

So the places that are found are all those of the keyword as a whole word, each once, but
for the ones inside of a declaration (`scan_finds_each_use_once`).
-/

namespace LegacyShader.Modern

open Text (byteLength encodeUtf8 place)

/-! ## The keyword -/

theorem findKeyword?_eq_none {cs : List Char} (h : findKeyword? cs = none) (k : Nat) :
    ¬ keyword <+: cs.drop k := by
  induction cs generalizing k with
  | nil =>
      rw [List.drop_nil, List.prefix_nil, keyword_eq]
      exact List.cons_ne_nil _ _
  | cons c cs ih =>
      rw [findKeyword?] at h
      split at h
      · cases h
      · next hnot =>
        cases k with
        | zero => rwa [List.isPrefixOf_iff_prefix] at hnot
        | succ k => exact ih (Option.map_eq_none_iff.mp h) k

/-- The distance in bytes leads to the first place of the keyword. -/
theorem findKeyword?_eq_some {cs : List Char} {distance : Nat}
    (h : findKeyword? cs = some distance) :
    ∃ k, distance = byteLength (cs.take k) ∧ keyword <+: cs.drop k ∧
      ∀ i < k, ¬ keyword <+: cs.drop i := by
  induction cs generalizing distance with
  | nil => cases h
  | cons c cs ih =>
      rw [findKeyword?] at h
      split at h
      · next hkey =>
        rw [List.isPrefixOf_iff_prefix] at hkey
        exact ⟨0, (Option.some.inj h).symm, hkey, by simp⟩
      · next hnot =>
        rw [List.isPrefixOf_iff_prefix] at hnot
        obtain ⟨distance, hfound, rfl⟩ := Option.map_eq_some_iff.mp h
        obtain ⟨k, rfl, hkey, hfirst⟩ := ih hfound
        refine ⟨k + 1, rfl, hkey, fun i hi => ?_⟩
        cases i with
        | zero => exact hnot
        | succ i => exact hfirst i (by omega)

section

variable {text : List Char} {k : Nat}

/-- The byte in front of a place tells whether a word goes on there. -/
theorem wordBefore?_place (text : List Char) (k : Nat) :
    wordBefore? (encodeUtf8 text) (place text k) =
      some ((text.take k).getLast?.any Text.isWordChar) := by
  rw [← byteClass_isWordByte.any_getLast?_encodeUtf8, wordBefore?, place,
    ← Text.length_encodeUtf8, Text.encodeUtf8_eq_take_append_drop text k]
  generalize encodeUtf8 (text.take k) = front
  rcases List.eq_nil_or_concat front with rfl | ⟨front, b, rfl⟩
  · rfl
  · simp

theorem place_add_keyword (hkey : keyword <+: text.drop k) :
    place text (k + keyword.length) = place text k + keyword.length := by
  obtain ⟨rest, hrest⟩ := hkey
  rw [Text.place_add, ← hrest, List.take_left]
  rfl

/-- The keyword is a whole word if no word byte is next to it. -/
theorem keywordAt_iff_bytes (hkey : keyword <+: text.drop k) :
    KeywordAt text k ↔ (text.take k).getLast?.any Text.isWordChar = false ∧
      (encodeUtf8 text)[place text k + keyword.length]?.any isWordByte = false := by
  rw [← place_add_keyword hkey, (Text.stands_place text _).getElem?_encodeUtf8,
    byteClass_isWordByte.any_head?_encodeUtf8, KeywordAt, startsKeyword,
    List.isPrefixOf_iff_prefix.mpr hkey, List.drop_drop]
  simp

/-- The keyword does not start again inside of itself. -/
theorem scanAt_behind_keyword (hkey : keyword <+: text.drop k) :
    scanAt text (k + 1) = scanAt text (k + keyword.length) := by
  have hlength : k + keyword.length = k + 1 + (keyword.length - 1) := by
    rw [keyword_eq]
    rfl
  rw [hlength]
  refine scanAt_add_of_no_keyword fun i hi => ?_
  rw [List.drop_drop, Nat.add_assoc, ← List.drop_drop]
  exact not_keyword_prefix_drop hkey (by omega) (by omega)

end

/-! ## What is found, in bytes -/

/-- A declaration with its place and its length in bytes. -/
def UniformDecl.inBytes (text : List Char) (d : UniformDecl) : UniformDecl :=
  { d with
    offset := place text d.offset
    length := byteLength ((text.drop d.offset).take d.length) }

/-- An unrecognized use with its place in bytes. -/
def UnrecognizedUniform.inBytes (text : List Char) (u : UnrecognizedUniform) :
    UnrecognizedUniform :=
  { u with offset := place text u.offset }

/-- What a scan has found, with its places in bytes. -/
def UniformScan.inBytes (text : List Char) (scan : UniformScan) : UniformScan :=
  ⟨scan.decls.map (·.inBytes text), scan.unrecognized.map (·.inBytes text)⟩

theorem UniformDecl.stop_inBytes (text : List Char) (d : UniformDecl) :
    (d.inBytes text).stop = place text d.stop :=
  (Text.place_add text d.offset d.length).symm

/-- A scan that goes on with more uses, which are given with their characters counted. -/
def UniformScan.extend (text : List Char) (scan : UniformScan) : List UniformUse → UniformScan
  | [] => scan
  | .declared d :: uses =>
      extend text { scan with decls := scan.decls ++ [d.inBytes text] } uses
  | .unrecognized u :: uses =>
      extend text { scan with unrecognized := scan.unrecognized ++ [u.inBytes text] } uses

/-- The declaration of a use, if it is one. -/
def UniformUse.declared? : UniformUse → Option UniformDecl
  | .declared d => some d
  | .unrecognized _ => none

/-- The use, if it is no declaration. -/
def UniformUse.unrecognized? : UniformUse → Option UnrecognizedUniform
  | .declared _ => none
  | .unrecognized u => some u

theorem scanUniforms_eq (text : List Char) :
    scanUniforms text = ⟨(scanAt text 0).filterMap UniformUse.declared?,
      (scanAt text 0).filterMap UniformUse.unrecognized?⟩ := rfl

theorem extend_eq (text : List Char) (scan : UniformScan) (uses : List UniformUse) :
    scan.extend text uses =
      ⟨scan.decls ++ (uses.filterMap UniformUse.declared?).map (·.inBytes text),
        scan.unrecognized ++ (uses.filterMap UniformUse.unrecognized?).map (·.inBytes text)⟩ := by
  induction uses generalizing scan with
  | nil => simp [UniformScan.extend]
  | cons u uses ih =>
      cases u with
      | declared d =>
          simp [UniformScan.extend, ih, List.filterMap_cons, UniformUse.declared?,
            UniformUse.unrecognized?]
      | unrecognized u =>
          simp [UniformScan.extend, ih, List.filterMap_cons, UniformUse.declared?,
            UniformUse.unrecognized?]

/-! ## The loop -/

section

variable {text : List Char} {k : Nat} {found : UniformScan}

theorem step?_of_no_keyword (h : findKeyword? (text.drop k) = none) :
    ByteScan.step? text ⟨place text k, found⟩ = some none := by
  simp only [ByteScan.step?, Text.dropBytes?_eq_some_iff.mpr (Text.stands_place text k), h, bind,
    Option.bind_some, pure]

theorem scanAt_of_no_keyword (h : findKeyword? (text.drop k) = none) : scanAt text k = [] := by
  have hskip : scanAt text k = scanAt text (k + text.length) :=
    scanAt_add_of_no_keyword fun i _ => findKeyword?_eq_none h i
  rw [hskip, scanAt_of_length_le (Nat.le_add_left text.length k)]

/-- A use of the keyword is taken as in a scan over characters. -/
theorem exists_takeUse? (n : Nat) (h : KeywordAt text k) :
    ∃ k' found', k < k' ∧ k' ≤ text.length ∧
      ByteScan.takeUse? text ⟨n, found⟩ (place text k) = some ⟨place text k', found'⟩ ∧
      found.extend text (scanAt text k) = found'.extend text (scanAt text k') := by
  have hkey := (startsKeyword_iff.mp h).1
  have hstands := Text.stands_place text k
  unfold ByteScan.takeUse?
  cases hd : parseDecl? k (text.drop k) with
  | none =>
      have hpos : 0 < keyword.length := by decide
      have hlength := hkey.length_le
      rw [List.length_drop] at hlength
      refine ⟨k + keyword.length, { found with unrecognized := found.unrecognized ++
        [⟨place text k, statementText (text.drop k)⟩] }, by omega, by omega, ?_, ?_⟩
      · rw [spansAt?_of_parseDecl?_none hstands hkey hd, statementAt?_eq hstands,
          place_add_keyword hkey]
        rfl
      · rw [scanAt_of_unrecognized h hd, scanAt_behind_keyword hkey]
        rfl
  | some d =>
      obtain ⟨spans, hspans, hcut⟩ := exists_spansAt? hstands hkey hd
      obtain ⟨hoffset, hlong, hstop, -⟩ := decl_bounds hd
      have hbytes : spans.cut? text = some (d.inBytes text) := by
        rw [hcut, UniformDecl.inBytes, hoffset]
      refine ⟨d.stop, { found with decls := found.decls ++ [d.inBytes text] }, ?_, hstop, ?_, ?_⟩
      · rw [UniformDecl.stop]
        omega
      · rw [hspans, ← d.stop_inBytes]
        simp only [hbytes, bind, Option.bind_some, pure]
      · rw [scanAt_of_decl h hd]
        rfl

/-- A search that finds the keyword goes on at a later place, and what it has found is what
a scan over characters finds up to there.  A longer word is passed over, since the keyword
does not start again inside of itself. -/
theorem exists_step? {distance : Nat} (h : findKeyword? (text.drop k) = some distance) :
    ∃ k' found', k < k' ∧ k' ≤ text.length ∧
      ByteScan.step? text ⟨place text k, found⟩ = some (some ⟨place text k', found'⟩) ∧
      found.extend text (scanAt text k) = found'.extend text (scanAt text k') := by
  obtain ⟨j, rfl, hkey, hfirst⟩ := findKeyword?_eq_some h
  rw [List.drop_drop] at hkey
  rw [scanAt_add_of_no_keyword hfirst]
  simp only [ByteScan.step?, Text.dropBytes?_eq_some_iff.mpr (Text.stands_place text k), h,
    ← Text.place_add, wordBefore?_place, bind, Option.bind_some, pure]
  by_cases hword : KeywordAt text (k + j)
  · obtain ⟨hbefore, hafter⟩ := (keywordAt_iff_bytes hkey).mp hword
    obtain ⟨k', found', hlt, hle, huse, hextend⟩ := exists_takeUse? (place text k) hword
    refine ⟨k', found', by omega, hle, ?_, hextend⟩
    rw [hbefore, hafter, huse]
    rfl
  · have hlength := hkey.length_le
    have hpos : 0 < keyword.length := by decide
    rw [List.length_drop] at hlength
    refine ⟨k + j + keyword.length, found, by omega, by omega, ?_, ?_⟩
    · rw [if_pos, place_add_keyword hkey]
      rw [keywordAt_iff_bytes hkey, Decidable.not_and_iff_not_or_not, Bool.not_eq_false,
        Bool.not_eq_false] at hword
      exact Bool.or_eq_true_iff.mpr hword
    · rw [scanAt_of_not_keywordAt hword, scanAt_behind_keyword hkey]

/-- A scan over bytes comes to its end, and it finds what a scan over characters finds. -/
theorem finishes_scanAt (found : UniformScan) (hk : k ≤ text.length) :
    ByteScan.Finishes text ⟨place text k, found⟩ (found.extend text (scanAt text k)) := by
  induction hleft : text.length - k using Nat.strong_induction_on generalizing k found with
  | _ left ih =>
      cases hfind : findKeyword? (text.drop k) with
      | none =>
          rw [scanAt_of_no_keyword hfind]
          exact .done (step?_of_no_keyword hfind)
      | some distance =>
          obtain ⟨k', found', hlt, hle, hstep, hextend⟩ := exists_step? hfind
          rw [hextend]
          exact .next hstep (ih _ (by omega) found' hle rfl)

/-- The search over bytes finds what the scan over characters finds. -/
theorem finishes_scanUniforms (text : List Char) :
    ByteScan.Finishes text ⟨0, ⟨[], []⟩⟩ ((scanUniforms text).inBytes text) := by
  have hfinishes := finishes_scanAt ⟨[], []⟩ (Nat.zero_le text.length)
  rwa [extend_eq] at hfinishes

end

/-! ## Each use once -/

/-- The bytes of the keyword are at a place, and no word byte is next to them. -/
def KeywordBytesAt (bytes : List UInt8) (n : Nat) : Prop :=
  encodeUtf8 keyword <+: bytes.drop n ∧ (bytes.take n).getLast?.any isWordByte = false ∧
    bytes[n + keyword.length]?.any isWordByte = false

theorem keywordBytesAt_place_iff {text : List Char} {k : Nat} :
    KeywordBytesAt (encodeUtf8 text) (place text k) ↔ KeywordAt text k := by
  rw [KeywordBytesAt, (Text.stands_place text k).drop_encodeUtf8,
    Text.encodeUtf8_prefix_iff (by simp [keyword_eq]), Text.take_encodeUtf8_place,
    byteClass_isWordByte.any_getLast?_encodeUtf8]
  constructor
  · rintro ⟨hkey, hnext⟩
    exact (keywordAt_iff_bytes hkey).mpr hnext
  · intro h
    have hkey := (startsKeyword_iff.mp h).1
    exact ⟨hkey, (keywordAt_iff_bytes hkey).mp h⟩

/-- Bytes of the keyword are those of its characters. -/
theorem keywordBytesAt_iff {text : List Char} {n : Nat} :
    KeywordBytesAt (encodeUtf8 text) n ↔ ∃ k, KeywordAt text k ∧ place text k = n := by
  constructor
  · intro h
    obtain ⟨cs, ⟨front, rfl, rfl⟩, -⟩ := exists_stands_of_keyword_bytes h.1
    have hplace : place (front ++ cs) front.length = byteLength front := by
      rw [place, List.take_left]
    rw [← hplace, keywordBytesAt_place_iff] at h
    exact ⟨front.length, h, hplace⟩
  · rintro ⟨k, hkey, rfl⟩
    exact keywordBytesAt_place_iff.mpr hkey

/-- The places of a scan, declarations first. -/
def UniformScan.offsets (scan : UniformScan) : List Nat :=
  scan.decls.map UniformDecl.offset ++ scan.unrecognized.map UnrecognizedUniform.offset

theorem offsets_inBytes_perm (text : List Char) :
    ((scanUniforms text).inBytes text).offsets.Perm
      ((scanAt text 0).map fun u => place text u.offset) := by
  rw [scanUniforms_eq]
  induction scanAt text 0 with
  | nil => exact .nil
  | cons u uses ih =>
      cases u with
      | declared d => exact ih.cons _
      | unrecognized u => exact List.perm_middle.trans (ih.cons _)

theorem decls_inBytes (text : List Char) :
    ((scanUniforms text).inBytes text).decls =
      (scanAt text 0).filterMap fun u => u.declared?.map (·.inBytes text) := by
  rw [scanUniforms_eq, UniformScan.inBytes, List.map_filterMap]

theorem mem_decls_inBytes_iff {text : List Char} {d : UniformDecl} :
    d ∈ ((scanUniforms text).inBytes text).decls ↔
      ∃ d', .declared d' ∈ scanAt text 0 ∧ d'.inBytes text = d := by
  rw [decls_inBytes, List.mem_filterMap]
  constructor
  · rintro ⟨u, hu, hd⟩
    cases u with
    | declared d' => exact ⟨d', hu, Option.some.inj hd⟩
    | unrecognized u => cases hd
  · rintro ⟨d', hd', rfl⟩
    exact ⟨.declared d', hd', rfl⟩

section

variable {text : List Char}

/-- A declaration is a part of the text that is not empty. -/
theorem bounds_of_mem_decls {d : UniformDecl} (hd : d ∈ ((scanUniforms text).inBytes text).decls) :
    d.offset < d.stop ∧ d.stop ≤ (encodeUtf8 text).length ∧
      (Text.dropBytes? d.offset text).isSome ∧ (Text.dropBytes? d.stop text).isSome := by
  obtain ⟨d, hmem, rfl⟩ := mem_decls_inBytes_iff.mp hd
  obtain ⟨-, hlt, hle⟩ := (uses_scanAt text (Nat.zero_le _)).inside _ hmem
  have hcut (k : Nat) : (Text.dropBytes? (place text k) text).isSome := by
    rw [Text.dropBytes?_eq_some_iff.mpr (Text.stands_place text k)]
    rfl
  rw [UniformDecl.stop_inBytes, Text.length_encodeUtf8]
  refine ⟨Text.place_lt_place hlt (Nat.lt_of_lt_of_le hlt hle), ?_, hcut _, hcut _⟩
  have := (Text.stands_place text d.stop).add_byteLength
  omega

/-- The uses of a scan are in order, and none reaches into the next. -/
theorem pairwise_place_scanAt (text : List Char) :
    (scanAt text 0).Pairwise fun u v =>
      place text u.offset < place text v.offset ∧ place text u.stop ≤ place text v.offset := by
  have huses := uses_scanAt text (Nat.zero_le _)
  refine huses.apart.imp_of_mem fun {u v} hu hv hle => ?_
  obtain ⟨-, hlt, hstop⟩ := huses.inside u hu
  obtain ⟨-, hlt', hstop'⟩ := huses.inside v hv
  refine ⟨Text.place_lt_place (Nat.lt_of_lt_of_le hlt hle) (Nat.lt_of_lt_of_le hlt hstop), ?_⟩
  rw [← Nat.not_lt, Text.place_lt_place_iff (by omega) hstop]
  omega

theorem pairwise_decls_inBytes (text : List Char) :
    ((scanUniforms text).inBytes text).decls.Pairwise fun d d' =>
      d.offset < d'.offset ∧ d.stop ≤ d'.offset := by
  rw [decls_inBytes, List.pairwise_filterMap]
  refine (pairwise_place_scanAt text).imp fun {u v} huv d hd d' hd' => ?_
  cases u with
  | unrecognized u => cases hd
  | declared u =>
      cases v with
      | unrecognized v => cases hd'
      | declared v =>
          obtain rfl := Option.some.inj hd
          obtain rfl := Option.some.inj hd'
          rw [UniformDecl.stop_inBytes]
          exact huv

/-- No use is found twice. -/
theorem nodup_offsets_inBytes (text : List Char) :
    ((scanUniforms text).inBytes text).offsets.Nodup := by
  rw [(offsets_inBytes_perm text).nodup_iff, List.Nodup, List.pairwise_map]
  exact (pairwise_place_scanAt text).imp fun huv => Nat.ne_of_lt huv.1

/-- A scan over bytes finds the uses of the keyword outside of declarations.  Being inside
of a declaration is the same in bytes and in characters. -/
theorem mem_offsets_inBytes_iff {n : Nat} :
    n ∈ ((scanUniforms text).inBytes text).offsets ↔
      KeywordBytesAt (encodeUtf8 text) n ∧
        ∀ d ∈ ((scanUniforms text).inBytes text).decls, ¬ (d.offset < n ∧ n < d.stop) := by
  have huses := uses_scanAt text (Nat.zero_le _)
  have hinside {d : UniformDecl} (hd : .declared d ∈ scanAt text 0) {k : Nat}
      (hk : k ≤ text.length) :
      (d.inBytes text).offset < place text k ∧ place text k < (d.inBytes text).stop ↔
        d.offset < k ∧ k < d.stop := by
    obtain ⟨-, hlt, hstop⟩ := huses.inside _ hd
    have hoffset : d.offset ≤ text.length := Nat.le_of_lt (Nat.lt_of_lt_of_le hlt hstop)
    rw [UniformDecl.stop_inBytes]
    exact and_congr (Text.place_lt_place_iff hoffset hk) (Text.place_lt_place_iff hk hstop)
  rw [(offsets_inBytes_perm text).mem_iff, List.mem_map]
  constructor
  · rintro ⟨u, hu, rfl⟩
    obtain ⟨hkey, hout⟩ :=
      (huses.exact u.offset (Nat.zero_le _)).mp (List.mem_map_of_mem hu)
    refine ⟨keywordBytesAt_place_iff.mpr hkey, fun d hd => ?_⟩
    obtain ⟨d, hmem, rfl⟩ := mem_decls_inBytes_iff.mp hd
    rw [hinside hmem (Nat.le_of_lt hkey.lt_length)]
    exact hout _ hmem
  · rintro ⟨hbytes, hout⟩
    obtain ⟨k, hkey, rfl⟩ := keywordBytesAt_iff.mp hbytes
    have hmem : k ∈ (scanAt text 0).map UniformUse.offset := by
      refine (huses.exact k (Nat.zero_le _)).mpr ⟨hkey, fun u hu => ?_⟩
      cases u with
      | declared d =>
          have hd := hout _ (mem_decls_inBytes_iff.mpr ⟨d, hu, rfl⟩)
          rwa [hinside hu (Nat.le_of_lt hkey.lt_length)] at hd
      | unrecognized u =>
          rintro ⟨hlt, hstop⟩
          exact Nat.lt_irrefl _ (Nat.lt_of_lt_of_le hlt (Nat.le_of_lt_succ hstop))
    obtain ⟨u, hu, rfl⟩ := List.mem_map.mp hmem
    exact ⟨u, hu, rfl⟩

end

/-- Every scan comes to its end and finds each use of the keyword once: as a declaration,
or as another use, or inside of a declaration. -/
theorem scan_finds_each_use_once (text : List Char) :
    let bytes := encodeUtf8 text
    let scan := (scanUniforms text).inBytes text
    ByteScan.Finishes text ⟨0, ⟨[], []⟩⟩ scan ∧
      (∀ d ∈ scan.decls, d.offset < d.stop ∧ d.stop ≤ bytes.length ∧
        (Text.dropBytes? d.offset text).isSome ∧ (Text.dropBytes? d.stop text).isSome) ∧
      scan.decls.Pairwise (fun d d' => d.offset < d'.offset ∧ d.stop ≤ d'.offset) ∧
      scan.offsets.Nodup ∧
      ∀ n, n ∈ scan.offsets ↔
        KeywordBytesAt bytes n ∧ ∀ d ∈ scan.decls, ¬ (d.offset < n ∧ n < d.stop) :=
  ⟨finishes_scanUniforms text, fun _ => bounds_of_mem_decls, pairwise_decls_inBytes text,
    nodup_offsets_inBytes text, fun _ => mem_offsets_inBytes_iff⟩

end LegacyShader.Modern
