import LegacyShader.Proofs.UniformGrammar

/-!
# The scan for uniforms

The scan goes through a text once.  Where the keyword stands as a whole word, it goes on
behind the declaration that starts there, or behind one character if none does.
Elsewhere it goes on with the next character.  So a scan is a function of the place where
it stands (`scanAt`), and one equation says what it does at each kind of place.

The uses that are found do not overlap, and together they are all uses of the keyword but
those inside a declaration (`uses_scanAt`).
-/

namespace LegacyShader.Modern

/-! ## Places of the keyword -/

/-- The keyword stands at a place as a whole word. -/
def KeywordAt (text : List Char) (n : Nat) : Prop :=
  startsKeyword (text.take n).getLast? (text.drop n) = true

instance (text : List Char) (n : Nat) : Decidable (KeywordAt text n) := instDecidableEqBool _ _

theorem keyword_eq : keyword = ['u', 'n', 'i', 'f', 'o', 'r', 'm'] := by decide

theorem isWord_keyword : IsWord keyword := by
  rw [keyword_eq]
  decide

/-- The keyword is a whole word. -/
theorem startsKeyword_iff {previous : Option Char} {text : List Char} :
    startsKeyword previous text = true ↔
      keyword <+: text ∧ (∀ c ∈ previous, Text.isWordChar c = false) ∧
        Stops Text.isWordChar (text.drop keyword.length) := by
  simp only [startsKeyword, Bool.and_eq_true, List.isPrefixOf_iff_prefix, and_assoc, Stops]
  cases previous <;> cases (text.drop keyword.length).head? <;> simp

theorem KeywordAt.lt_length {text : List Char} {n : Nat} (h : KeywordAt text n) :
    n < text.length := by
  obtain ⟨hfront, -, -⟩ := startsKeyword_iff.mp h
  have hlength := hfront.length_le
  rw [keyword_eq, List.length_drop] at hlength
  simp only [List.length_cons, List.length_nil] at hlength
  omega

/-- The keyword does not overlap itself. -/
theorem not_keyword_prefix_drop {text : List Char} (h : keyword <+: text) {k : Nat} (hpos : 0 < k)
    (hlt : k < keyword.length) : ¬ keyword <+: text.drop k := by
  obtain ⟨rest, rfl⟩ := h
  simp only [keyword_eq, List.length_cons, List.length_nil] at hlt ⊢
  obtain rfl | rfl | rfl | rfl | rfl | rfl :
      k = 1 ∨ k = 2 ∨ k = 3 ∨ k = 4 ∨ k = 5 ∨ k = 6 := by omega
  all_goals simp

/-! ## Scanning from a place -/

/-- The uses that a scan finds from a place on. -/
def scanAt (text : List Char) (n : Nat) : List UniformUse :=
  scanFrom n (text.take n).getLast? (text.drop n)

section

variable {text : List Char} {n m : Nat}

theorem scanAt_of_length_le (h : text.length ≤ n) : scanAt text n = [] := by
  rw [scanAt, List.drop_eq_nil_of_le h, scanFrom]

/-- What stands in front of the next character. -/
theorem getLast?_take_succ {c : Char} {rest : List Char} (h : text.drop n = c :: rest) :
    (text.take (n + 1)).getLast? = some c := by
  have hget : text[n]? = some c := by rw [← List.head?_drop, h, List.head?_cons]
  rw [List.take_add_one, hget]
  simp

theorem exists_drop_eq_cons (h : n < text.length) : ∃ c rest, text.drop n = c :: rest :=
  ⟨_, _, List.drop_eq_getElem_cons h⟩

/-- Where there is no keyword, the scan goes on at the next character. -/
theorem scanAt_of_not_keywordAt (h : ¬ KeywordAt text n) :
    scanAt text n = scanAt text (n + 1) := by
  rcases Nat.lt_or_ge n text.length with hlt | hge
  · obtain ⟨c, rest, hdrop⟩ := exists_drop_eq_cons hlt
    rw [KeywordAt, hdrop] at h
    rw [scanAt, hdrop, scanFrom, if_neg h, scanAt, getLast?_take_succ hdrop, ← List.drop_drop,
      hdrop]
    rfl
  · rw [scanAt_of_length_le hge, scanAt_of_length_le (by omega)]

/-- Where the parser makes nothing of the keyword, it is reported and the scan goes on at
the next character. -/
theorem scanAt_of_unrecognized (h : KeywordAt text n)
    (hnone : parseDecl? n (text.drop n) = none) :
    scanAt text n =
      .unrecognized ⟨n, statementText (text.drop n)⟩ :: scanAt text (n + 1) := by
  obtain ⟨c, rest, hdrop⟩ := exists_drop_eq_cons h.lt_length
  rw [KeywordAt, hdrop] at h
  rw [hdrop] at hnone
  rw [scanAt, hdrop, scanFrom, if_pos h, hnone, scanAt, getLast?_take_succ hdrop, ← List.drop_drop,
    hdrop]
  rfl

/-- A declaration at a place starts there, reaches beyond the keyword and ends at a
semicolon of the text. -/
theorem decl_bounds {d : UniformDecl} (hd : parseDecl? n (text.drop n) = some d) :
    d.offset = n ∧ keyword.length < d.length ∧ d.stop ≤ text.length ∧
      (text.take d.stop).getLast? = some ';' := by
  obtain ⟨front, rest, hdrop, hfront, hoffset, hlength⟩ := exists_front_of_parseDecl? hd
  have hle : n ≤ text.length := by
    by_contra hlt
    rw [List.drop_eq_nil_of_le (by omega)] at hdrop
    cases front <;> cases hdrop
  have htext : text = (text.take n ++ (front ++ [';'])) ++ rest := by
    rw [List.append_assoc, List.append_assoc, List.singleton_append, ← hdrop,
      List.take_append_drop]
  have hstop : d.stop = (text.take n ++ (front ++ [';'])).length := by
    rw [UniformDecl.stop, hoffset, hlength]
    simp [hle]
  refine ⟨hoffset, by omega, ?_, ?_⟩
  · have hsplit := congrArg List.length htext
    rw [List.length_append, ← hstop] at hsplit
    omega
  · have htake : text.take d.stop = text.take n ++ (front ++ [';']) :=
      (congrArg (List.take d.stop) htext).trans (List.take_left' hstop.symm)
    rw [htake]
    simp

/-- Where the parser makes a declaration of it, the scan goes on behind the declaration. -/
theorem scanAt_of_decl (h : KeywordAt text n) {d : UniformDecl}
    (hd : parseDecl? n (text.drop n) = some d) :
    scanAt text n = .declared d :: scanAt text d.stop := by
  obtain ⟨hoffset, hlength, -, hlast⟩ := decl_bounds hd
  obtain ⟨c, rest, hdrop⟩ := exists_drop_eq_cons h.lt_length
  have hbehind : rest.drop (d.length - 1) = text.drop d.stop := by
    rw [UniformDecl.stop, hoffset, ← List.drop_drop, hdrop,
      show d.length = d.length - 1 + 1 by omega]
    rfl
  rw [KeywordAt, hdrop] at h
  rw [hdrop] at hd
  rw [scanAt, hdrop, scanFrom, if_pos h, hd, scanAt, hlast]
  dsimp only
  rw [hbehind, UniformDecl.stop, hoffset, Nat.max_eq_right (by omega)]

/-- A scan passes over places where the keyword does not stand. -/
theorem scanAt_eq_of_not_keywordAt (hle : n ≤ m)
    (h : ∀ k, n ≤ k → k < m → ¬ KeywordAt text k) : scanAt text n = scanAt text m := by
  induction hle with
  | refl => rfl
  | step hle ih =>
      rw [ih fun k hn hk => h k hn (Nat.lt_succ_of_lt hk),
        scanAt_of_not_keywordAt (h _ hle (Nat.lt_succ_self _))]

/-- A scan finds nothing up to the next place of the keyword. -/
theorem scanAt_add_of_no_keyword (h : ∀ k < m, ¬ keyword <+: (text.drop n).drop k) :
    scanAt text n = scanAt text (n + m) := by
  refine scanAt_eq_of_not_keywordAt (Nat.le_add_right n m) fun k hn hk hkey => ?_
  refine h (k - n) (by omega) ?_
  rw [List.drop_drop, Nat.add_sub_cancel' hn]
  exact (startsKeyword_iff.mp hkey).1

end

/-! ## What is found -/

namespace UniformUse

/-- Where a use starts. -/
def offset : UniformUse → Nat
  | .declared d => d.offset
  | .unrecognized u => u.offset

/-- Where the scan goes on behind a use. -/
def stop : UniformUse → Nat
  | .declared d => d.stop
  | .unrecognized u => u.offset + 1

end UniformUse

/-- Uses are all places of the keyword from a place on, but those inside of a use, and
they do not overlap. -/
structure Uses (text : List Char) (start : Nat) (uses : List UniformUse) : Prop where
  /-- Each use is a part of the text and not empty. -/
  inside : ∀ u ∈ uses, start ≤ u.offset ∧ u.offset < u.stop ∧ u.stop ≤ text.length
  /-- Each use ends before the next one starts. -/
  apart : uses.Pairwise fun u v => u.stop ≤ v.offset
  /-- A place of the keyword is one of a use, or inside of one. -/
  exact : ∀ n, start ≤ n → (n ∈ uses.map UniformUse.offset ↔
    KeywordAt text n ∧ ∀ u ∈ uses, ¬ (u.offset < n ∧ n < u.stop))

namespace Uses

variable {text : List Char} {n : Nat} {u : UniformUse} {us : List UniformUse}

theorem nil (h : text.length ≤ n) : Uses text n [] := by
  refine ⟨by simp, .nil, fun k hk => ?_⟩
  have hnot : ¬ KeywordAt text k := fun hkey => by
    have := hkey.lt_length
    omega
  simp [hnot]

theorem skip (h : Uses text (n + 1) us) (hnot : ¬ KeywordAt text n) : Uses text n us := by
  refine ⟨fun u hu => ?_, h.apart, fun k hk => ?_⟩
  · obtain ⟨hstart, hrest⟩ := h.inside u hu
    exact ⟨by omega, hrest⟩
  · rcases Nat.eq_or_lt_of_le hk with rfl | hlt
    · refine iff_of_false (fun hmem => ?_) fun hkey => hnot hkey.1
      obtain ⟨u, hu, heq⟩ := List.mem_map.mp hmem
      have := (h.inside u hu).1
      omega
    · exact h.exact k hlt

/-- A use in front of others.  The places inside of it are no places of uses. -/
theorem cons (h : Uses text u.stop us) (hkey : KeywordAt text u.offset)
    (hlt : u.offset < u.stop) (hle : u.stop ≤ text.length) : Uses text u.offset (u :: us) := by
  refine ⟨?_, ?_, fun k hk => ?_⟩
  · refine List.forall_mem_cons.mpr ⟨⟨le_rfl, hlt, hle⟩, fun v hv => ?_⟩
    obtain ⟨hstart, hrest⟩ := h.inside v hv
    exact ⟨by omega, hrest⟩
  · exact .cons (fun v hv => (h.inside v hv).1) h.apart
  · rw [List.map_cons, List.mem_cons, List.forall_mem_cons]
    rcases Nat.eq_or_lt_of_le hk with rfl | hafter
    · refine iff_of_true (.inl rfl) ⟨hkey, by omega, fun v hv => ?_⟩
      have := (h.inside v hv).1
      omega
    · rcases Nat.lt_or_ge k u.stop with hin | hout
      · refine iff_of_false ?_ fun hall => hall.2.1 ⟨hafter, hin⟩
        rintro (rfl | hmem)
        · omega
        · obtain ⟨v, hv, rfl⟩ := List.mem_map.mp hmem
          have := (h.inside v hv).1
          omega
      · have hne : k ≠ u.offset := by omega
        have hbehind : ¬ (u.offset < k ∧ k < u.stop) := by omega
        simp only [hne, false_or, hbehind, not_false_eq_true, true_and]
        exact h.exact k hout

end Uses

/-- A scan from a place on finds the uses from there on.  The induction is on what is left
of the text. -/
theorem uses_scanAt (text : List Char) {n : Nat} (hn : n ≤ text.length) :
    Uses text n (scanAt text n) := by
  induction hleft : text.length - n using Nat.strong_induction_on generalizing n with
  | _ left ih =>
      rcases Nat.eq_or_lt_of_le hn with rfl | hlt
      · rw [scanAt_of_length_le le_rfl]
        exact .nil le_rfl
      · by_cases hkey : KeywordAt text n
        · cases hd : parseDecl? n (text.drop n) with
          | none =>
              rw [scanAt_of_unrecognized hkey hd]
              exact (ih _ (by omega) hlt rfl).cons (u := .unrecognized ⟨n, _⟩) hkey
                (Nat.lt_succ_self n) hlt
          | some d =>
              obtain ⟨rfl, hlength, hstop, -⟩ := decl_bounds hd
              have hafter : d.offset < d.stop := by
                rw [UniformDecl.stop]
                omega
              rw [scanAt_of_decl hkey hd]
              exact (ih _ (by omega) hstop rfl).cons (u := .declared d) hkey hafter hstop
        · rw [scanAt_of_not_keywordAt hkey]
          exact (ih _ (by omega) hlt rfl).skip hkey

/-- A use is what the parser makes of the text at its place. -/
def UniformUse.Found (text : List Char) : UniformUse → Prop
  | .declared d => parseDecl? d.offset (text.drop d.offset) = some d
  | .unrecognized u =>
      parseDecl? u.offset (text.drop u.offset) = none ∧ u.text = statementText (text.drop u.offset)

/-- What is found is what the parser makes of the place. -/
theorem found_of_mem_scanAt {text : List Char} {n : Nat} (hn : n ≤ text.length) {u : UniformUse}
    (hu : u ∈ scanAt text n) : u.Found text := by
  induction hleft : text.length - n using Nat.strong_induction_on generalizing n with
  | _ left ih =>
      rcases Nat.eq_or_lt_of_le hn with rfl | hlt
      · rw [scanAt_of_length_le le_rfl] at hu
        cases hu
      · by_cases hkey : KeywordAt text n
        · cases hd : parseDecl? n (text.drop n) with
          | none =>
              rw [scanAt_of_unrecognized hkey hd] at hu
              rcases List.mem_cons.mp hu with rfl | hu
              · exact ⟨hd, rfl⟩
              · exact ih _ (by omega) hlt hu rfl
          | some d =>
              obtain ⟨rfl, hlength, hstop, -⟩ := decl_bounds hd
              rw [scanAt_of_decl hkey hd] at hu
              rcases List.mem_cons.mp hu with rfl | hu
              · exact hd
              · have hafter : d.offset < d.stop := by
                  rw [UniformDecl.stop]
                  omega
                exact ih _ (by omega) hstop hu rfl
        · rw [scanAt_of_not_keywordAt hkey] at hu
          exact ih _ (by omega) hlt hu rfl

theorem mem_decls_iff {text : List Char} {d : UniformDecl} :
    d ∈ (scanUniforms text).decls ↔ .declared d ∈ scanAt text 0 := by
  refine List.mem_filterMap.trans ⟨?_, fun h => ⟨_, h, rfl⟩⟩
  rintro ⟨use, huse, heq⟩
  cases use with
  | unrecognized => cases heq
  | declared d' => exact Option.some.inj heq ▸ huse

theorem mem_unrecognized_iff {text : List Char} {u : UnrecognizedUniform} :
    u ∈ (scanUniforms text).unrecognized ↔ .unrecognized u ∈ scanAt text 0 := by
  refine List.mem_filterMap.trans ⟨?_, fun h => ⟨_, h, rfl⟩⟩
  rintro ⟨use, huse, heq⟩
  cases use with
  | unrecognized u' => exact Option.some.inj heq ▸ huse
  | declared => cases heq

theorem keywordAt_of_mem_scanAt {text : List Char} {u : UniformUse} (hu : u ∈ scanAt text 0) :
    KeywordAt text u.offset :=
  (((uses_scanAt text (Nat.zero_le _)).exact u.offset (Nat.zero_le _)).mp
    (List.mem_map_of_mem hu)).1

theorem keywordAt_of_mem_decls {text : List Char} {d : UniformDecl}
    (hd : d ∈ (scanUniforms text).decls) : KeywordAt text d.offset :=
  keywordAt_of_mem_scanAt (mem_decls_iff.mp hd)

theorem parseDecl?_of_mem_decls {text : List Char} {d : UniformDecl}
    (hd : d ∈ (scanUniforms text).decls) : parseDecl? d.offset (text.drop d.offset) = some d :=
  found_of_mem_scanAt (Nat.zero_le _) (mem_decls_iff.mp hd)

end LegacyShader.Modern
