import LegacyShader.CommandLine.Compilation

/-!
# Side paths

The stages in WGSL go to *side paths*, which are made from the path of the output by another
extension.  This module says what that does to a path, for every path with a file name.

A path is taken apart into what stands in front of its last name, that name, and *slack*, the
slashes and single dots behind it (`Splits`).  Another extension leaves the front, drops the
slack and puts the new extension behind the stem of the name (`withExtension_of_splits`).  There
is one exception: cutting the extension off a name such as `..a` leaves two dots.  They are the
name of the directory above, so they take no extension, and the side paths of both stages are
that directory (`withExtension_of_dotted`).  Everywhere else the last names of the output and of
its side paths are pairwise different (`nodup_lastNames`).
-/

namespace LegacyShader.CommandLine.Path

/-! ## Slack -/

/-- Slashes, and single dots that each follow a slash. -/
inductive Slack : List Char → Prop
  | nil : Slack []
  | slash {s : List Char} : Slack s → Slack (s ++ ['/'])
  | dot {s : List Char} : Slack s → Slack (s ++ ['/', '.'])

/-- Slack at the end of a path is trimmed. -/
theorem trimReversed_slack {s : List Char} (h : Slack s) (r : List Char) :
    trimReversed (s.reverse ++ r) = trimReversed r := by
  induction h with
  | nil => rfl
  | slash _ ih => simpa [trimReversed] using ih
  | dot _ ih => simpa [trimReversed] using ih

/-- What is trimmed from the end of a path is slack. -/
theorem exists_slack (r : List Char) :
    ∃ s, Slack s ∧ r.reverse = (trimReversed r).reverse ++ s := by
  fun_induction trimReversed r with
  | case1 rest ih =>
    obtain ⟨s, hs, heq⟩ := ih
    exact ⟨s ++ ['/'], hs.slash, by simp [heq]⟩
  | case2 rest ih =>
    obtain ⟨s, hs, heq⟩ := ih
    exact ⟨s ++ ['/', '.'], hs.dot, by simp [heq]⟩
  | case3 cs => exact ⟨[], .nil, by simp⟩

theorem Slack.take {s : List Char} (h : Slack s) (n : Nat) : Slack (s.take n) := by
  induction h generalizing n with
  | nil => simpa using Slack.nil
  | @slash s hs ih =>
    by_cases hn : n ≤ s.length
    · rw [List.take_append_of_le_length hn]
      exact ih n
    · rw [List.take_of_length_le (by simp; omega)]
      exact hs.slash
  | @dot s hs ih =>
    by_cases hn : n ≤ s.length
    · rw [List.take_append_of_le_length hn]
      exact ih n
    · by_cases hn' : n = s.length + 1
      · subst hn'
        rw [List.take_length_add_append]
        exact hs.slash
      · rw [List.take_of_length_le (by simp; omega)]
        exact hs.dot

/-! ## The parts of a path -/

/-- A path is a front, a name and slack.  The name is not a single dot. -/
structure Splits (p : Path) (front name slack : List Char) : Prop where
  /-- The three parts make up the path. -/
  eq : p = front ++ name ++ slack
  /-- The front is empty or ends in a slash. -/
  atSlash : ∀ c ∈ front.getLast?, c = '/'
  /-- The name has no slash. -/
  noSlash : '/' ∉ name
  /-- The name is not empty. -/
  ne_nil : name ≠ []
  /-- The name is not a single dot. -/
  ne_dot : name ≠ ['.']
  /-- What stands behind the name does not count. -/
  isSlack : Slack slack

theorem ne_of_mem {mark : Char} {n : List Char} (hn : mark ∉ n) :
    ∀ c ∈ n, decide (c ≠ mark) = true := by
  intro c hc
  simpa using ne_of_mem_of_not_mem hc hn

theorem takeWhile_ne {mark : Char} {n f : List Char} (hn : mark ∉ n)
    (hf : ∀ c ∈ f.head?, c = mark) : (n ++ f).takeWhile (· ≠ mark) = n := by
  rw [List.takeWhile_append_of_pos (ne_of_mem hn)]
  cases f with
  | nil => simp
  | cons c f => simp [hf c rfl]

theorem dropWhile_ne {mark : Char} {n f : List Char} (hn : mark ∉ n)
    (hf : ∀ c ∈ f.head?, c = mark) : (n ++ f).dropWhile (· ≠ mark) = f := by
  rw [List.dropWhile_append_of_pos (ne_of_mem hn)]
  cases f with
  | nil => simp
  | cons c f => simp [hf c rfl]

/-- A name that is not a single dot is not trimmed. -/
theorem trimReversed_name {n : List Char} (hn : '/' ∉ n) (hnil : n ≠ []) (hdot : n ≠ ['.'])
    (f : List Char) : trimReversed (n ++ f) = n ++ f := by
  rw [trimReversed]
  · intro rest heq
    cases n with
    | nil => contradiction
    | cons c n => simp_all
  · intro rest heq
    match n with
    | [] => contradiction
    | [c] => simp_all
    | c :: d :: n => simp_all

namespace Splits

variable {p : Path} {front name slack : List Char}

theorem head_front (h : Splits p front name slack) : ∀ c ∈ front.reverse.head?, c = '/' := by
  rw [List.head?_reverse]
  exact h.atSlash

theorem trimmed_eq (h : Splits p front name slack) : p.trimmed = front ++ name := by
  have hname : trimReversed (name.reverse ++ front.reverse) = name.reverse ++ front.reverse :=
    trimReversed_name (by simpa using h.noSlash) (by simpa using h.ne_nil)
      (fun heq => h.ne_dot (by simpa using congrArg List.reverse heq)) _
  rw [trimmed, h.eq, List.reverse_append, trimReversed_slack h.isSlack, List.reverse_append, hname]
  simp

theorem lastName_eq (h : Splits p front name slack) : p.lastName = name := by
  rw [lastName, h.trimmed_eq, List.reverse_append,
    takeWhile_ne (by simpa using h.noSlash) h.head_front, List.reverse_reverse]

theorem front_eq (h : Splits p front name slack) : p.front = front := by
  rw [Path.front, h.trimmed_eq, List.reverse_append,
    dropWhile_ne (by simpa using h.noSlash) h.head_front, List.reverse_reverse]

/-- A path in parts has its name as the file name. -/
theorem fileName?_eq (h : Splits p front name slack) (hup : name ≠ ['.', '.']) :
    p.fileName? = some name := by
  simp [fileName?, h.lastName_eq, h.ne_nil, h.ne_dot, hup]

theorem fileName?_eq_none (h : Splits p front ['.', '.'] slack) : p.fileName? = none := by
  simp [fileName?, h.lastName_eq]

end Splits

/-- A path with a file name has parts. -/
theorem exists_splits {p : Path} {name : List Char} (h : p.fileName? = some name) :
    ∃ front slack, Splits p front name slack ∧ name ≠ ['.', '.'] := by
  simp only [fileName?, Option.ite_none_left_eq_some, not_or, Option.some.injEq] at h
  obtain ⟨⟨hnil, hdot, hup⟩, rfl⟩ := h
  obtain ⟨slack, hslack, heq⟩ := exists_slack p.reverse
  refine ⟨p.front, slack, ⟨?_, ?_, ?_, hnil, hdot, hslack⟩, hup⟩
  · rw [front, lastName, ← List.reverse_append, List.takeWhile_append_dropWhile,
      List.reverse_reverse, trimmed, ← heq, List.reverse_reverse]
  · intro c hc
    rw [front, List.getLast?_reverse] at hc
    have hhead := List.head?_dropWhile_not (· ≠ '/') p.trimmed.reverse
    rw [hc] at hhead
    simpa using hhead
  · intro hmem
    rw [lastName, List.mem_reverse] at hmem
    simpa using List.all_eq_true.mp List.all_takeWhile _ hmem

/-! ## Extensions -/

/-- The extension is what stands behind the last dot. -/
theorem splitExtension?_append {st old : List Char} (hst : st ≠ []) (hold : '.' ∉ old) :
    splitExtension? (st ++ '.' :: old) = some (st, old) := by
  have htake : (st ++ '.' :: old).reverse.takeWhile (· ≠ '.') = old.reverse := by
    rw [List.reverse_append, List.reverse_cons, List.append_assoc]
    exact takeWhile_ne (by simpa using hold) (by simp)
  have hlength : (st ++ '.' :: old).length - old.length - 1 = st.length := by simp; omega
  simp only [splitExtension?, htake, List.reverse_reverse, hlength, List.take_left']

/-- A dot at the start of a name starts no extension. -/
theorem splitExtension?_eq_none {name : List Char} (hname : '.' ∉ name.tail) :
    splitExtension? name = none := by
  have hlength : name.length ≤ (name.reverse.takeWhile (· ≠ '.')).length + 1 := by
    cases name with
    | nil => simp
    | cons c name =>
      rw [List.reverse_cons, List.takeWhile_append_of_pos (ne_of_mem (by simpa using hname))]
      simp
  have hzero : name.length - (name.reverse.takeWhile (· ≠ '.')).length - 1 = 0 := by omega
  simp only [splitExtension?, List.length_reverse, hzero, List.take_zero]

/-- Either a name ends in an extension, or all of it is its stem. -/
theorem extension_cases (name : List Char) :
    (∃ st old, name = st ++ '.' :: old ∧ st ≠ [] ∧ '.' ∉ old) ∨ splitExtension? name = none := by
  cases name with
  | nil => exact .inr (splitExtension?_eq_none (by simp))
  | cons c name =>
    by_cases hdot : '.' ∈ name
    · obtain ⟨r, st, heq, hr⟩ := List.eq_append_cons_of_mem (List.mem_reverse.mpr hdot)
      refine .inl ⟨c :: st.reverse, r.reverse, ?_, by simp, by simpa using hr⟩
      simpa using congrArg List.reverse heq
    · exact .inr (splitExtension?_eq_none hdot)

theorem stem_append {st old : List Char} (hst : st ≠ []) (hold : '.' ∉ old) :
    stem (st ++ '.' :: old) = st := by
  simp only [stem, splitExtension?_append hst hold]

theorem stem_of_none {name : List Char} (h : splitExtension? name = none) : stem name = name := by
  simp only [stem, h]

/-- The stem of a name with another extension behind it is another name, if a dot is inside that
extension. -/
theorem stem_append_ne (name : List Char) {extension : List Char} (hdot : '.' ∈ extension) :
    name ≠ stem name ++ '.' :: extension := by
  obtain ⟨st, old, rfl, hst, hold⟩ | hnone := extension_cases name
  · rw [stem_append hst hold]
    intro heq
    have hsame : old = extension := by simpa using heq
    exact hold (hsame ▸ hdot)
  · rw [stem_of_none hnone]
    intro heq
    simpa using congrArg List.length heq

/-- To set an extension puts it behind the stem, and drops the slack. -/
theorem setExtension_of_splits {p : Path} {front name slack extension : List Char}
    (h : Splits p front name slack) (hup : name ≠ ['.', '.']) (he : extension ≠ []) :
    p.setExtension extension = front ++ stem name ++ '.' :: extension := by
  simp only [setExtension, h.fileName?_eq hup, h.front_eq]

section WithExtension

variable {p : Path} {front name st old slack extension : List Char}

theorem extension?_of_splits (h : Splits p front name slack) (hup : name ≠ ['.', '.']) :
    p.extension? = (splitExtension? name).map (·.2) := by
  rw [extension?, h.fileName?_eq hup, Option.bind_some]

theorem extension?_append (h : Splits p front (st ++ '.' :: old) slack)
    (hup : st ++ '.' :: old ≠ ['.', '.']) (hst : st ≠ []) (hold : '.' ∉ old) :
    p.extension? = some old := by
  rw [extension?_of_splits h hup, splitExtension?_append hst hold, Option.map_some]

/-- Cutting the length of the extension off a path leaves its front, its stem and the dot.
Slack may keep some of the extension. -/
theorem take_of_splits (h : Splits p front (st ++ '.' :: old) slack) :
    p.take (p.length - old.length) =
      front ++ (st ++ '.' :: old.take slack.length) ++ slack.take (slack.length - old.length) := by
  have hlength : p.length - old.length = (front ++ (st ++ ['.'])).length + slack.length := by
    rw [h.eq]
    simp only [List.length_append, List.length_cons, List.length_nil]
    omega
  have heq : p = (front ++ (st ++ ['.'])) ++ (old ++ slack) := by
    rw [h.eq]
    simp
  calc p.take (p.length - old.length)
      = ((front ++ (st ++ ['.'])) ++ (old ++ slack)).take
          ((front ++ (st ++ ['.'])).length + slack.length) := by rw [hlength, ← heq]
    _ = (front ++ (st ++ ['.'])) ++ (old ++ slack).take slack.length :=
        List.take_length_add_append _
    _ = _ := by simp [List.take_append]

/-- A path without the letters of its extension, whichever of them they are if there is
slack. -/
theorem splits_take (h : Splits p front (st ++ '.' :: old) slack) (hst : st ≠ []) :
    Splits (p.take (p.length - old.length)) front (st ++ '.' :: old.take slack.length)
      (slack.take (slack.length - old.length)) where
  eq := take_of_splits h
  atSlash := h.atSlash
  noSlash := by
    intro hmem
    apply h.noSlash
    simp only [List.mem_append, List.mem_cons] at hmem ⊢
    exact hmem.imp_right (Or.imp_right List.mem_of_mem_take)
  ne_nil := by simp
  ne_dot := by
    intro heq
    have hlength := congrArg List.length heq
    have hpos := List.length_pos_iff.mpr hst
    simp only [List.length_append, List.length_cons, List.length_nil] at hlength
    omega
  isSlack := h.isSlack.take _

theorem eq_of_append_eq_dots {rest : List Char} (hst : st ≠ [])
    (h : st ++ '.' :: rest = ['.', '.']) : st = ['.'] ∧ rest = [] := by
  cases st with
  | nil => contradiction
  | cons c st =>
    cases st with
    | nil => simpa using h
    | cons d st => simp at h

/-- Another extension takes the place of the old one and of the slack, unless a stem that is
a single dot is left alone.  What the cut leaves has the same stem, and it is a file name
unless it is two dots. -/
theorem withExtension_of_splits (h : Splits p front name slack) (hup : name ≠ ['.', '.'])
    (halone : slack ≠ [] ∨ stem name ≠ ['.']) (he : extension ≠ []) :
    p.withExtension extension = front ++ stem name ++ '.' :: extension := by
  obtain ⟨st, old, rfl, hst, hold⟩ | hnone := extension_cases name
  · have hkept : '.' ∉ old.take slack.length := fun hmem => hold (List.mem_of_mem_take hmem)
    have hup' : st ++ '.' :: old.take slack.length ≠ ['.', '.'] := by
      intro heq
      obtain ⟨rfl, htake⟩ := eq_of_append_eq_dots hst heq
      have hslack := halone.resolve_right (not_not_intro (stem_append hst hold))
      obtain hzero | rfl := List.take_eq_nil_iff.mp htake
      · exact hslack (List.length_eq_zero_iff.mp hzero)
      · exact hup rfl
    rw [withExtension, extension?_append h hup hst hold]
    simp only [setExtension_of_splits (splits_take h hst) hup' he, stem_append hst hkept,
      stem_append hst hold]
  · have hno : p.extension? = none := by
      rw [extension?_of_splits h hup, hnone, Option.map_none]
    rw [withExtension, hno]
    exact setExtension_of_splits h hup he

/-- A path that ends in two dots and an extension has the directory above as its side path. -/
theorem withExtension_of_dotted (h : Splits p front (['.'] ++ '.' :: old) [])
    (hold : '.' ∉ old) (hne : old ≠ []) : p.withExtension extension = front ++ ['.', '.'] := by
  have hdot : ['.'] ≠ ([] : List Char) := by simp
  have hup : ['.'] ++ '.' :: old ≠ ['.', '.'] := by simpa using hne
  have hcut : Splits (p.take (p.length - old.length)) front ['.', '.'] [] := by
    simpa using splits_take h hdot
  rw [withExtension, extension?_append h hup hdot hold]
  simp only [setExtension, hcut.fileName?_eq_none]
  simpa using hcut.eq

end WithExtension

/-! ## Side paths -/

/-- The path of a stage in WGSL, for an output at a path. -/
def sidePath (p : Path) (stage : Stage) : Path := p.withExtension (Product.wgslExtension stage)

/-- An output and its side paths. -/
def withSides (p : Path) : List Path := p :: Stage.all.map p.sidePath

/-- A path ends in a name of two dots and an extension. -/
def Dotted (p : Path) : Prop :=
  ∃ front extension, p = front ++ '.' :: '.' :: extension ∧ (∀ c ∈ front.getLast?, c = '/') ∧
    extension ≠ [] ∧ '.' ∉ extension ∧ '/' ∉ extension

theorem Splits.dotted {p : Path} {front name : List Char} (h : Splits p front name [])
    (hup : name ≠ ['.', '.']) (hstem : stem name = ['.']) : p.Dotted := by
  obtain ⟨st, old, rfl, hst, hold⟩ | hnone := extension_cases name
  · rw [stem_append hst hold] at hstem
    subst hstem
    refine ⟨front, old, by simp [h.eq], h.atSlash, ?_, hold, ?_⟩
    · rintro rfl
      exact hup rfl
    · exact fun hmem => h.noSlash (by simp [hmem])
  · rw [stem_of_none hnone] at hstem
    exact absurd hstem h.ne_dot

/-- A side path has the name of the path with another extension, unless the path is dotted.
-/
theorem Splits.sidePath {p : Path} {front name slack : List Char} (h : Splits p front name slack)
    (hup : name ≠ ['.', '.']) (hdotted : ¬ p.Dotted) (stage : Stage) :
    Splits (p.sidePath stage) front (stem name ++ '.' :: Product.wgslExtension stage) [] := by
  have halone : slack ≠ [] ∨ stem name ≠ ['.'] := by
    by_cases hslack : slack = []
    · subst hslack
      exact .inr fun hstem => hdotted (h.dotted hup hstem)
    · exact .inl hslack
  have hstem : '/' ∉ stem name := by
    obtain ⟨st, old, rfl, hst, hold⟩ | hnone := extension_cases name
    · rw [stem_append hst hold]
      exact fun hmem => h.noSlash (List.mem_append_left _ hmem)
    · rw [stem_of_none hnone]
      exact h.noSlash
  have hne : Product.wgslExtension stage ≠ [] := by cases stage <;> decide
  have hslash : '/' ∉ Product.wgslExtension stage := by cases stage <;> decide
  refine ⟨?_, h.atSlash, ?_, by simp, ?_, .nil⟩
  · simp [Path.sidePath, withExtension_of_splits h hup halone hne]
  · simpa using ⟨hstem, hslash⟩
  · intro heq
    have hlength := congrArg List.length heq
    have hpos := List.length_pos_iff.mpr hne
    simp only [List.length_append, List.length_cons, List.length_nil] at hlength
    omega

/-- The last names of an output and its side paths are pairwise different, unless the output ends
in two dots and an extension. -/
theorem nodup_lastNames {p : Path} (hname : p.fileName?.isSome) (hdotted : ¬ p.Dotted) :
    (p.withSides.map lastName).Nodup := by
  obtain ⟨name, hname⟩ := Option.isSome_iff_exists.mp hname
  obtain ⟨front, slack, h, hup⟩ := exists_splits hname
  have hside : ∀ stage, (p.sidePath stage).lastName =
      stem name ++ '.' :: Product.wgslExtension stage :=
    fun stage => (h.sidePath hup hdotted stage).lastName_eq
  have hne : ∀ stage, name ≠ stem name ++ '.' :: Product.wgslExtension stage :=
    fun stage => stem_append_ne name (by cases stage <;> decide)
  have hstages : Product.wgslExtension .vertex ≠ Product.wgslExtension .fragment := by decide
  simp [withSides, Stage.all, h.lastName_eq, hside, hne, hstages]

/-- Two dots and an extension give both stages one side path. -/
theorem Dotted.sidePath_eq {p : Path} (h : p.Dotted) :
    p.sidePath .vertex = p.sidePath .fragment := by
  obtain ⟨front, old, heq, hslash, hne, hold, hname⟩ := h
  have hsplits : Splits p front (['.'] ++ '.' :: old) [] :=
    ⟨by simp [heq], hslash, by simpa using hname, by simp, by simp, .nil⟩
  rw [sidePath, sidePath, withExtension_of_dotted hsplits hold hne,
    withExtension_of_dotted hsplits hold hne]

theorem nodup_withSides_iff {p : Path} (hname : p.fileName?.isSome) :
    p.withSides.Nodup ↔ ¬ p.Dotted := by
  constructor
  · intro hnodup hdotted
    simp [withSides, Stage.all, hdotted.sidePath_eq] at hnodup
  · intro hdotted
    have hne : ∀ a b : Path, a.lastName ≠ b.lastName → a ≠ b := by
      rintro a b hlast rfl
      exact hlast rfl
    exact List.Pairwise.of_map lastName hne (nodup_lastNames hname hdotted)

end LegacyShader.CommandLine.Path
