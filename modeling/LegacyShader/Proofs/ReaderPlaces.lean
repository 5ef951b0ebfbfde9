import LegacyShader.Preprocess.Reader
import LegacyShader.Proofs.Passes
import LegacyShader.Proofs.TokenOrigins

/-!
# How a reader moves through its text

A reader never goes back: what is left of its lexemes is always a part of what was left
before, and the macros that it defines are made of lexemes that it has passed
(`Reader.Sound`).  So it is a reader in the sense of `Tracking` (`Reader.tracking`).

The tokens of a text are those of a run of the expander over such a reader.  `markedFrom`
is this run with a mark at each token that it takes with no macro in use.  A marked token
starts behind the end of every token in front of it, and at a place of the text
(`InTurn`, `exists_marked_of_tokens`).
-/

namespace LegacyShader.Preprocess

open LegacyShader.Text (Stands byteLength)

/-- A pass over a list that succeeds has succeeded at every item. -/
theorem map_eq_of_mapM_eq_ok {ε α β : Type} {f : α → Except ε β} {as : List α} {bs : List β}
    (h : as.mapM f = .ok bs) : as.map f = bs.map .ok := by
  induction as generalizing bs with
  | nil =>
      cases h
      rfl
  | cons a as ih =>
      rw [List.mapM_cons] at h
      obtain ⟨b, hb, h⟩ := bind_eq_ok_iff.mp h
      obtain ⟨bs', hbs, h⟩ := bind_eq_ok_iff.mp h
      cases h
      rw [List.map_cons, List.map_cons, hb, ih hbs]

/-! ## Lexemes that are still to come -/

/-- The start of the first lexeme, or the end of the source. -/
def startOf (source : List Char) : List LexItem → Nat
  | [] => byteLength source
  | .error _ :: rest => startOf source rest
  | .ok l :: _ => l.span.start

namespace ItemRun

variable {source : List Char} {n : Nat} {item : LexItem} {items items' front back : List LexItem}

theorem tail (h : ItemRun source n (item :: items)) : ItemRun source n items := by
  cases h with
  | fault hitems => exact hitems
  | lexeme hn hplaced hitems => exact hitems.mono (Nat.le_trans hn hplaced.ordered)

/-- Lexemes that are left over from others lie one after another as well. -/
theorem sublist (h : ItemRun source n items) (hsub : items'.Sublist items) :
    ItemRun source n items' := by
  induction hsub generalizing n with
  | slnil => exact h
  | cons item _ ih => exact ih h.tail
  | cons_cons item _ ih =>
      cases h with
      | fault hitems => exact .fault (ih hitems)
      | lexeme hn hplaced hitems => exact .lexeme hn hplaced (ih hitems)

theorem startOf (h : ItemRun source n items) :
    n ≤ startOf source items ∧ ItemRun source (startOf source items) items := by
  induction h with
  | nil hn => exact ⟨hn, .nil (Nat.le_refl _)⟩
  | fault _ ih => exact ⟨ih.1, .fault ih.2⟩
  | lexeme hn hplaced hitems _ => exact ⟨hn, .lexeme (Nat.le_refl _) hplaced hitems⟩

/-- Leaving lexemes out does not bring the first one forward. -/
theorem startOf_le_of_sublist (h : ItemRun source n items) (hsub : items'.Sublist items) :
    Preprocess.startOf source items ≤ Preprocess.startOf source items' :=
  (h.startOf.2.sublist hsub).startOf.1

/-- Lexemes end before those behind them start. -/
theorem of_append {l : Lexeme} (h : ItemRun source n (front ++ back)) (hl : .ok l ∈ front) :
    l.Placed source ∧ l.span.stop ≤ Preprocess.startOf source back := by
  induction front generalizing n with
  | nil => cases hl
  | cons item front ih =>
      rcases List.mem_cons.mp hl with rfl | hl
      · cases h with
        | lexeme _ hplaced hitems =>
            exact ⟨hplaced, (hitems.sublist (List.sublist_append_right _ _)).startOf.1⟩
      · exact ih h.tail hl

end ItemRun

/-! ## Directives -/

/-- The tokens on a line end in front of an offset. -/
def DirectiveLine.Within (n : Nat) (line : DirectiveLine) : Prop :=
  ∀ l value, .ok l ∈ line.items → l.value = .value value → Token.Within n ⟨value, l.span, l.line⟩

namespace DirectiveLine

variable {n : Nat} {line rest : DirectiveLine}

theorem Within.of_suffix (h : line.Within n) (hsuffix : rest.items <:+ line.items) :
    rest.Within n := fun l value hl => h l value (hsuffix.subset hl)

theorem items_of_take {l : Lexeme} (h : line.take = .ok (l, rest)) :
    line.items = .ok l :: rest.items := by
  unfold take at h
  split at h
  · cases h
  · cases h
  · next heq =>
    cases h
    exact heq

/-- What a directive leaves of its line is the end of the line. -/
theorem suffix_of_takeName {name : String} {span : Span}
    (h : line.takeName = .ok (name, span, rest)) : rest.items <:+ line.items := by
  obtain ⟨⟨l, rest'⟩, htake, h⟩ := bind_eq_ok_iff.mp h
  rw [items_of_take htake]
  dsimp only at h
  split at h
  · cases h
    exact List.suffix_cons _ _
  · cases h

theorem suffix_of_takeParams {stop : Span} {params params' : List String} {items : List LexItem}
    (h : takeParams stop params items = .ok (params', rest)) : rest.items <:+ items := by
  fun_induction takeParams stop params items with
  | case3 params l items _ =>
      cases h
      exact List.suffix_cons _ _
  | case7 params l _ l' items' name _ _ ih =>
      exact (ih h).trans ((List.suffix_cons _ _).trans (List.suffix_cons _ _))
  | case1 | case2 | case4 | case5 | case6 | case8 | case9 => cases h

theorem suffix_of_takeAllParams {params : List String}
    (h : line.takeAllParams = .ok (params, rest)) : rest.items <:+ line.items := by
  obtain ⟨⟨l, rest'⟩, htake, h⟩ := bind_eq_ok_iff.mp h
  rw [items_of_take htake]
  dsimp only at h
  split at h
  · cases h
    exact List.suffix_cons _ _
  · exact (suffix_of_takeParams h).trans (List.suffix_cons _ _)
  · cases h

/-- The tokens of a line end where the line does. -/
theorem within_of_tokens {tokens : List Token} (h : line.Within n)
    (htokens : line.tokens = .ok tokens) : ∀ t ∈ tokens, t.Within n := by
  intro t ht
  have hmem : .ok t ∈ tokens.map (Except.ok (ε := Fault)) := List.mem_map_of_mem ht
  rw [← map_eq_of_mapM_eq_ok htokens] at hmem
  obtain ⟨item, hitem, hitemRead⟩ := List.mem_map.mp hmem
  obtain ⟨l, rfl, hread⟩ := bind_eq_ok_iff.mp hitemRead
  split at hread
  · next value hvalue =>
    cases hread
    exact h l value hitem hvalue
  · cases hread

/-- So do the tokens in the body of a macro. -/
theorem within_of_takeMacro {name : String} {span : Span} {meaning : Macro} (h : line.Within n)
    (hmeaning : line.takeMacro = .ok (name, span, meaning)) : ∀ t ∈ meaning.body, t.Within n := by
  obtain ⟨⟨name', span', rest⟩, hname, hmeaning⟩ := bind_eq_ok_iff.mp hmeaning
  have hrest := h.of_suffix (suffix_of_takeName hname)
  dsimp only at hmeaning
  split at hmeaning
  · next items heq =>
    obtain ⟨⟨params, body⟩, hparams, hmeaning⟩ := bind_eq_ok_iff.mp hmeaning
    obtain ⟨tokens, htokens, hmeaning⟩ := bind_eq_ok_iff.mp hmeaning
    cases hmeaning
    have hsuffix : body.items <:+ rest.items :=
      (suffix_of_takeAllParams hparams).trans (heq ▸ List.suffix_cons _ _)
    exact within_of_tokens (hrest.of_suffix hsuffix) htokens
  · obtain ⟨tokens, htokens, hmeaning⟩ := bind_eq_ok_iff.mp hmeaning
    cases hmeaning
    exact within_of_tokens hrest htokens

theorem behind_sublist (line : DirectiveLine) (fault : Fault) :
    (line.behind fault).Sublist line.items := by
  unfold behind
  split
  · exact List.nil_sublist _
  · exact (List.tail_sublist _).trans (List.dropWhile_sublist _)

end DirectiveLine

/-- A line with what stands behind it is cut out of the lexemes. -/
theorem exists_of_takeLine (items : List LexItem) :
    ∃ ends, items = (takeLine items).1.items ++ ends ++ (takeLine items).2 := by
  have hitems := List.takeWhile_append_dropWhile (p := fun i => !LexItem.isNewline i) (l := items)
  unfold takeLine
  dsimp only
  split
  · next newline rest heq =>
    rw [heq] at hitems
    exact ⟨[.ok newline], by rw [List.append_assoc]; exact hitems.symm⟩
  · exact ⟨[], by rw [List.append_nil]; exact hitems.symm⟩

/-- A macro that ends in front of an offset can be added to others that do. -/
theorem MacroTable.Within.insert {n : Nat} {table : MacroTable} (h : table.Within n)
    {name : String} {meaning : Macro} (hbody : ∀ t ∈ meaning.body, t.Within n) :
    (table.insert name meaning).Within n := by
  intro entry hentry t ht
  rcases List.mem_cons.mp hentry with rfl | hentry
  · exact (hbody t ht).mono (Nat.le_max_left _ _)
  · exact h entry (List.mem_filter.mp hentry).1 t ht

theorem MacroTable.Within.erase {n : Nat} {table : MacroTable} (h : table.Within n)
    (name : String) : (table.erase name).Within n :=
  fun entry hentry => h entry (List.mem_filter.mp hentry).1

namespace Reader

variable {source : List Char} {r r' : Reader} {n : Nat} {line : DirectiveLine}
  {value : Option TokenValue}

/-- What a directive that is obeyed does to a reader. -/
structure Obeys (n : Nat) (r : Reader) (out : Option TokenValue × Reader) : Prop where
  /-- It takes no lexeme. -/
  items : out.2.items = r.items
  /-- The tokens of macros end in front of the offset. -/
  macros : out.2.macros.Within n
  /-- If it is a token, it is a directive. -/
  value : ∀ value, out.1 = some value → value = .directive

/-- A directive that leaves no token and keeps the macros. -/
theorem Obeys.quiet (h : r.macros.Within n) (hitems : r'.items = r.items)
    (hmacros : r'.macros = r.macros) : Obeys n r (none, r') :=
  ⟨hitems, hmacros ▸ h, fun _ hvalue => (nomatch hvalue)⟩

section

variable {name : String} {span : Span} {lineNumber : Nat} {out : Option TokenValue × Reader}

/-- Directives on blocks of lines define no macro. -/
theorem obeys_of_openBlock {holds : Except Fault Bool} (h : r.macros.Within n)
    (hok : r.openBlock span holds = .ok out) : Obeys n r out := by
  obtain ⟨taken, -, hok⟩ := bind_eq_ok_iff.mp hok
  cases hok
  exact .quiet h rfl rfl

theorem obeys_of_obeyElif (h : r.macros.Within n) (hok : r.obeyElif span line = .ok out) :
    Obeys n r out := by
  unfold obeyElif at hok
  split at hok
  · cases hok
  · split at hok
    · cases hok
    · split at hok
      · obtain ⟨_, -, hok⟩ := bind_eq_ok_iff.mp hok
        cases hok
        exact .quiet h rfl rfl
      · obtain ⟨_, -, hok⟩ := bind_eq_ok_iff.mp hok
        obtain ⟨_, -, hok⟩ := bind_eq_ok_iff.mp hok
        cases hok
        exact .quiet h rfl rfl

theorem obeys_of_obeyElse (h : r.macros.Within n) (hok : r.obeyElse span line = .ok out) :
    Obeys n r out := by
  obtain ⟨_, -, hok⟩ := bind_eq_ok_iff.mp hok
  dsimp only at hok
  split at hok
  · cases hok
  · split at hok
    · cases hok
    · cases hok
      exact .quiet h rfl rfl

theorem obeys_of_obeyEndif (h : r.macros.Within n) (hok : r.obeyEndif span line = .ok out) :
    Obeys n r out := by
  unfold obeyEndif at hok
  split at hok
  · cases hok
  · split at hok
    all_goals
      obtain ⟨_, -, hok⟩ := bind_eq_ok_iff.mp hok
      cases hok
      exact .quiet h rfl rfl

/-- A definition adds a macro whose tokens are on the line of the directive. -/
theorem obeys_of_obeyDefine (h : r.macros.Within n) (hline : line.Within n)
    (hok : r.obeyDefine line = .ok out) : Obeys n r out := by
  obtain ⟨⟨name, span, meaning⟩, hmeaning, hok⟩ := bind_eq_ok_iff.mp hok
  dsimp only at hok
  split at hok
  · split at hok
    · cases hok
      exact .quiet h rfl rfl
    · cases hok
  · cases hok
    exact ⟨rfl, h.insert (DirectiveLine.within_of_takeMacro hline hmeaning),
      fun _ hvalue => (nomatch hvalue)⟩

theorem obeys_of_obeyUndef (h : r.macros.Within n) (hok : r.obeyUndef line = .ok out) :
    Obeys n r out := by
  obtain ⟨⟨name, span, rest⟩, -, hok⟩ := bind_eq_ok_iff.mp hok
  obtain ⟨_, -, hok⟩ := bind_eq_ok_iff.mp hok
  cases hok
  exact ⟨rfl, h.erase name, fun _ hvalue => (nomatch hvalue)⟩

/-- Any directive in a block that is taken. -/
theorem obeys_of_obeyTaken (h : r.macros.Within n) (hline : line.Within n)
    (hok : r.obeyTaken name span lineNumber line = .ok out) : Obeys n r out := by
  unfold obeyTaken at hok
  split at hok
  · exact obeys_of_openBlock h hok
  · exact obeys_of_openBlock h hok
  · exact obeys_of_openBlock h hok
  · exact obeys_of_obeyDefine h hline hok
  · exact obeys_of_obeyUndef h hok
  · cases hok
  · obtain ⟨_, -, hok⟩ := bind_eq_ok_iff.mp hok
    obtain ⟨_, -, hok⟩ := bind_eq_ok_iff.mp hok
    cases hok
    exact .quiet h rfl rfl
  iterate 3
    · obtain ⟨_, -, hok⟩ := bind_eq_ok_iff.mp hok
      cases hok
      exact ⟨rfl, h, fun _ hvalue => (Option.some.inj hvalue).symm⟩
  · cases hok

/-- Any directive in a block that is skipped. -/
theorem obeys_of_obeySkipped (h : r.macros.Within n)
    (hok : r.obeySkipped name span line = .ok out) : Obeys n r out := by
  unfold obeySkipped openSkippedBlock at hok
  split at hok
  all_goals
    obtain ⟨_, -, hok⟩ := bind_eq_ok_iff.mp hok
    cases hok
    exact .quiet h rfl rfl

/-- No directive takes lexemes back, and none makes a macro of anything but its line. -/
theorem obeys_of_obey (h : r.macros.Within n) (hline : line.Within n)
    (hok : r.obey name span lineNumber line = .ok out) : Obeys n r out := by
  unfold obey at hok
  split at hok
  · exact obeys_of_obeyElif h hok
  · exact obeys_of_obeyElse h hok
  · exact obeys_of_obeyEndif h hok
  · split at hok
    · exact obeys_of_obeySkipped h hok
    · exact obeys_of_obeyTaken h hline hok

end

/-! ## Pulling -/

/-- The lexemes to come lie one after another, and no macro reaches into them. -/
structure Sound (source : List Char) (r : Reader) : Prop where
  /-- The lexemes to come lie one after another. -/
  items : ItemRun source 0 r.items
  /-- No macro reaches into them. -/
  macros : r.macros.Within (startOf source r.items)

/-- What becomes of a reader when a token is taken. -/
structure Pulls (source : List Char) (r : Reader) (out : Step × Reader) : Prop where
  /-- The reader stays sound. -/
  sound : out.2.Sound source
  /-- It does not go back. -/
  start_le : startOf source r.items ≤ startOf source out.2.items
  /-- A token starts between two characters that the reader has passed. -/
  token : ∀ t, out.1 = .token t → startOf source r.items ≤ t.span.start ∧
    (∃ rest, Stands source t.span.start rest) ∧ t.Within (startOf source out.2.items)

namespace Pulls

/-- No token is handed out. -/
theorem of_within (h : r.Sound source) (hitems : r'.items.Sublist r.items)
    (hmacros : r'.macros.Within (startOf source r'.items)) {step : Step}
    (hstep : ∀ t, step ≠ .token t) : Pulls source r (step, r') :=
  ⟨⟨h.items.sublist hitems, hmacros⟩, h.items.startOf_le_of_sublist hitems,
    fun t ht => absurd ht (hstep t)⟩

/-- Lexemes are passed over, and perhaps blocks change. -/
theorem of_passed (h : r.Sound source) {rest : List LexItem} (hrest : rest.Sublist r.items)
    (blocks : List Block) {step : Step} (hstep : ∀ t, step ≠ .token t) :
    Pulls source r (step, { r with items := rest, blocks }) := by
  refine of_within h ?_ ?_ hstep
  · exact hrest
  · exact h.macros.mono (h.items.startOf_le_of_sublist hrest)

/-- The first lexeme is handed out, or a token in its place. -/
theorem of_lexeme (h : r.Sound source) {l : Lexeme} (passed : List LexItem)
    (hitems : r.items = .ok l :: passed ++ r'.items)
    (hmacros : r'.macros.Within (startOf source r'.items)) (hvalue : l.value ≠ .newline) {t : Token}
    (hspan : t.span = l.span) (hfits : t.value.Fits t.span.stop) :
    Pulls source r (.token t, r') := by
  have hrest : r'.items.Sublist r.items := hitems ▸ List.sublist_append_right _ _
  have hrun := h.items
  rw [hitems] at hrun
  obtain ⟨hplaced, hstop⟩ := hrun.of_append List.mem_cons_self
  refine ⟨⟨h.items.sublist hrest, hmacros⟩, h.items.startOf_le_of_sublist hrest, ?_⟩
  rintro _ ⟨⟩
  refine ⟨?_, hspan ▸ hplaced.place hvalue, hspan ▸ hplaced.ordered, hspan ▸ hstop, hfits⟩
  rw [hitems, hspan]
  exact Nat.le_refl _

/-- Two tokens that are taken in turn. -/
theorem trans {step : Step} {out : Step × Reader} (h : Pulls source r (step, r'))
    (h' : Pulls source r' out) : Pulls source r out where
  sound := h'.sound
  start_le := Nat.le_trans h.start_le h'.start_le
  token t ht := by
    obtain ⟨hle, hplace, hwithin⟩ := h'.token t ht
    exact ⟨Nat.le_trans h.start_le hle, hplace, hwithin⟩

end Pulls

theorem again_ne_token (t : Token) : Step.again ≠ .token t := nofun

theorem failed_ne_token (fault : Fault) (t : Token) : Step.failed fault ≠ .token t := nofun

/-- A directive leaves a reader sound.  What it may look at lies in front of what it leaves.
-/
theorem pulls_directive (h : r.Sound source) : Pulls source r r.directive := by
  obtain ⟨ends, hcut⟩ := exists_of_takeLine r.items
  unfold directive
  generalize htake : takeLine r.items = cut at hcut
  obtain ⟨line, rest⟩ := cut
  have hrest : rest.Sublist r.items := hcut ▸ List.sublist_append_right _ _
  have hpassed : ∀ step, (∀ t, step ≠ .token t) →
      Pulls source r (step, { r with items := rest }) := fun _ => .of_passed h hrest r.blocks
  dsimp only
  split
  · split
    · exact hpassed _ again_ne_token
    · exact hpassed _ (failed_ne_token _)
  · exact hpassed _ (failed_ne_token _)
  · next l line' hl =>
    have hline := DirectiveLine.items_of_take hl
    split
    · next name hname =>
      rw [hline] at hcut
      have hwithin : line'.Within (startOf source rest) := by
        intro l' value hl' hvalue
        have hmem : .ok l' ∈ .ok l :: line'.items ++ ends :=
          List.mem_append_left _ (List.mem_cons_of_mem _ hl')
        obtain ⟨hplaced, hstop⟩ := (hcut ▸ h.items).of_append hmem
        exact ⟨hplaced.ordered, hstop, hplaced.fits value hvalue⟩
      have hmacros : r.macros.Within (startOf source rest) :=
        h.macros.mono (h.items.startOf_le_of_sublist hrest)
      have hobeys : ∀ out, obey { r with items := rest } name l.span l.line line' = .ok out →
          Obeys (startOf source rest) { r with items := rest } out :=
        fun out hok => obeys_of_obey hmacros hwithin hok
      split
      · next fault _ =>
        refine .of_passed h ?_ r.blocks (failed_ne_token fault)
        rw [hcut]
        refine List.Sublist.append ?_ (List.Sublist.refl rest)
        exact ((line'.behind_sublist fault).trans (List.sublist_cons_self _ _)).trans
          (List.sublist_append_left _ _)
      · next r₁ hok =>
        obtain ⟨hitems, hmacros, -⟩ := hobeys _ hok
        dsimp only at hitems hmacros
        exact .of_within h (hitems ▸ hrest) (hitems ▸ hmacros) again_ne_token
      · next value r₁ hok =>
        obtain ⟨hitems, hmacros, hvalue⟩ := hobeys _ hok
        dsimp only at hitems hmacros
        obtain rfl := hvalue value rfl
        refine .of_lexeme h (line'.items ++ ends) ?_ (hitems ▸ hmacros) ?_ rfl trivial
        · rw [hitems, hcut, List.cons_append]
        · rw [hname]
          exact nofun
    · split
      · split
        · exact hpassed _ again_ne_token
        · exact hpassed _ (failed_ne_token _)
      · exact hpassed _ (failed_ne_token _)

/-- A reader stays sound when a token is taken, and the token lies between what it has
passed. -/
theorem pulls_pull (h : r.Sound source) : Pulls source r r.pull := by
  unfold pull
  split
  · split
    · exact .of_within h (List.Sublist.refl _) h.macros nofun
    · next b below _ => exact .of_passed h (List.Sublist.refl _) below (failed_ne_token _)
  · next fault rest hitems =>
    exact .of_passed h (hitems ▸ List.sublist_cons_self _ _) r.blocks (failed_ne_token _)
  · next l rest hitems =>
    have hrest : rest.Sublist r.items := hitems ▸ List.sublist_cons_self _ _
    have hpassed : ∀ step, (∀ t, step ≠ .token t) →
        Pulls source r (step, { r with items := rest }) := fun _ => .of_passed h hrest r.blocks
    dsimp only
    split
    · exact hpassed _ again_ne_token
    · split
      · have hbehind := hpassed _ again_ne_token
        exact hbehind.trans (pulls_directive hbehind.sound)
      · split
        · exact hpassed _ again_ne_token
        · exact hpassed _ (failed_ne_token _)
    · next value hvalue =>
      split
      · exact hpassed _ again_ne_token
      · have hplaced : l.Placed source := by
          have hrun := h.items
          rw [hitems] at hrun
          cases hrun with
          | lexeme _ hplaced _ => exact hplaced
        refine .of_lexeme h [] ?_ ?_ ?_ rfl (hplaced.fits value hvalue)
        · exact hitems
        · exact h.macros.mono (h.items.startOf_le_of_sublist hrest)
        · rw [hvalue]
          exact nofun

/-- A reader moves through its text. -/
def tracking (source : List Char) : Tracking source reading where
  reach r := startOf source r.items
  Sound := Sound source
  sound_pull h := (pulls_pull h).sound
  reach_pull h := (pulls_pull h).start_le
  start_of_pull h ht := ⟨((pulls_pull h).token _ ht).1, ((pulls_pull h).token _ ht).2.1⟩
  within_of_pull h ht := ((pulls_pull h).token _ ht).2.2
  within_macros h := h.macros

/-- A reader is sound at the start, if the macros come from no source. -/
theorem sound_ofText (source : List Char) {macros : MacroTable} (h : macros.Within 0) :
    (ofText source macros).Sound source :=
  ⟨itemRun_lexemes source, h.mono (Nat.zero_le _)⟩

end Reader

/-- A macro that stands for a text of its own reaches no further than that text. -/
theorem Macro.within_ofText (body : String) :
    ∀ t ∈ (Macro.ofText body).body, t.Within (byteLength body.toList) := by
  intro t ht
  obtain ⟨item, hitem, hread⟩ := List.mem_filterMap.mp ht
  split at hread
  · next value span line spaced first =>
    obtain rfl := Option.some.inj hread
    have hrun := itemRun_lexemes body.toList
    rw [← List.append_nil (lexemes body.toList)] at hrun
    obtain ⟨hplaced, hstop⟩ := hrun.of_append hitem
    exact ⟨hplaced.ordered, hstop, hplaced.fits value rfl⟩
  · cases hread

/-! ## Marked runs -/

/-- A list without its marks. -/
def unmarked {α : Type} (marked : List (α × Bool)) : List α := marked.map Prod.fst

/-- The run of an expander in order.  A token is marked if it is taken with no macro in use. -/
def markedFrom : Nat → Expander Reader → List (Except Fault (Token × Bool))
  | 0, _ => []
  | fuel + 1, e =>
      match e.next Reader.reading with
      | (.finished, _) => []
      | (.again, rest) => markedFrom fuel rest
      | (.token t, rest) => .ok (t, e.stack.isEmpty) :: markedFrom fuel rest
      | (.failed fault, rest) => .error fault :: markedFrom fuel rest

/-- The tokens of a text and the faults between them, with a mark at each token that comes
from no macro. -/
def markedTokens (text : List Char) (macros : MacroTable) : List (Except Fault (Token × Bool)) :=
  markedFrom Expander.stepBound (.ofSource (.live (Reader.ofText text macros)))

/-- The tokens that are collected are those that are marked, without their marks. -/
theorem collectFrom_eq (fuel : Nat) (e : Expander Reader) (done : List (Except Fault Token)) :
    collectFrom fuel e done = ((markedFrom fuel e).map (Except.map Prod.fst)).reverse ++ done := by
  induction fuel generalizing e done with
  | zero => rfl
  | succ fuel ih =>
      rw [collectFrom, markedFrom]
      obtain ⟨step, rest⟩ := e.next Reader.reading
      cases step with
      | finished => rfl
      | again => exact ih rest done
      | token t | failed fault =>
          dsimp only
          rw [ih, List.map_cons, List.reverse_cons, List.append_assoc]
          rfl

theorem exists_of_map_eq {ε α β : Type} {f : α → β} {as : List (Except ε α)} {bs : List β}
    (h : as.map (Except.map f) = bs.map .ok) : ∃ cs : List α, as = cs.map .ok ∧ cs.map f = bs := by
  induction as generalizing bs with
  | nil =>
      cases bs with
      | nil => exact ⟨[], rfl, rfl⟩
      | cons => cases h
  | cons a as ih =>
      cases bs with
      | nil => cases h
      | cons b bs =>
          obtain ⟨hhead, htail⟩ := List.cons.inj h
          obtain ⟨cs, rfl, rfl⟩ := ih htail
          cases a with
          | error => cases hhead
          | ok c =>
              cases hhead
              exact ⟨c :: cs, rfl, rfl⟩

/-- The marks aside, the tokens of a text are those of the marked run. -/
theorem exists_marked_of_tokens {text : List Char} {macros : MacroTable} {ts : List Token}
    (h : tokens text macros = .ok ts) :
    ∃ marked : List (Token × Bool),
      markedTokens text macros = marked.map .ok ∧ unmarked marked = ts := by
  have hall : allTokens text macros = (markedTokens text macros).map (Except.map Prod.fst) := by
    rw [allTokens, collectFrom_eq, List.append_nil, List.reverse_reverse]
    rfl
  have hok := map_eq_of_mapM_eq_ok h
  rw [List.map_id, hall] at hok
  exact exists_of_map_eq hok

/-- Tokens that come in turn: each marked one starts at a place of the source, behind an
offset and behind the end of every token in front of it. -/
inductive InTurn (source : List Char) : Nat → List (Token × Bool) → Prop where
  | nil {n : Nat} : InTurn source n []
  | cons {n : Nat} {t : Token} {direct : Bool} {rest : List (Token × Bool)} :
      t.Within t.span.stop →
      (direct = true → n ≤ t.span.start ∧ ∃ behind, Stands source t.span.start behind) →
      InTurn source (max n t.span.stop) rest → InTurn source n ((t, direct) :: rest)

/-- The tokens of a tracked expander come in turn. -/
theorem InTurn.of_tracked {source : List Char} {fuel n : Nat} {e : Expander Reader}
    {marked : List (Token × Bool)} (h : e.Tracked (Reader.tracking source) n)
    (hmarked : markedFrom fuel e = marked.map .ok) : InTurn source n marked := by
  induction fuel generalizing e n marked with
  | zero =>
      cases marked with
      | nil => exact .nil
      | cons => cases hmarked
  | succ fuel ih =>
      rw [markedFrom] at hmarked
      split at hmarked
      · cases marked with
        | nil => exact .nil
        | cons => cases hmarked
      · next rest hnext => exact ih (h.of_again hnext) hmarked
      · next t rest hnext =>
        cases marked with
        | nil => cases hmarked
        | cons item marked =>
            obtain ⟨hitem, hrest⟩ := List.cons.inj hmarked
            cases hitem
            obtain ⟨htracked, hwithin, hstart⟩ := h.of_token hnext
            refine .cons hwithin (fun hempty => ?_) (ih htracked hrest)
            exact hstart (List.isEmpty_iff.mp hempty)
      · cases marked with
        | nil => cases hmarked
        | cons => cases hmarked

/-- The tokens of a source come in turn. -/
theorem inTurn_markedTokens {source : List Char} {macros : MacroTable}
    {marked : List (Token × Bool)} (hmacros : macros.Within 0)
    (h : markedTokens source macros = marked.map .ok) : InTurn source 0 marked := by
  have hsound : Expander.Sound (Reader.tracking source) 0
      (.ofSource (.live (Reader.ofText source macros))) :=
    ⟨Reader.sound_ofText source hmacros, fun _ hi => (nomatch hi), fun _ ht => (nomatch ht)⟩
  exact .of_tracked ⟨hsound, rfl, Nat.zero_le _, fun _ _ ht => (nomatch ht)⟩ h

end LegacyShader.Preprocess
