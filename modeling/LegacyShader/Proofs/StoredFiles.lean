import LegacyShader.CommandLine.FileTree
import LegacyShader.Proofs.Passes

/-!
# Stored files

What storing files one after another does to a file tree.  Directories are only added, and a
write changes what is at one place that holds no directory.  So a directory stays a directory,
and a path leads where it led before (`Keeps`).

A file that has been stored can be read back, until another path that leads to the same place is
stored (`FileAt.of_stores`).
-/

namespace LegacyShader.CommandLine.FileTree

/-! ## Places -/

/-- Taking away what is at one place leaves the other places. -/
theorem lookup_filter_ne {place other : Place} (h : other ≠ place) (nodes : List (Place × Node)) :
    (nodes.filter (·.1 ≠ place)).lookup other = nodes.lookup other := by
  induction nodes with
  | nil => rfl
  | cons entry nodes ih =>
    obtain ⟨key, node⟩ := entry
    by_cases hkey : key = place
    · have hother : (other == key) = false := beq_false_of_ne (hkey ▸ h)
      rw [List.filter_cons_of_neg (by simpa using hkey), ih, List.lookup_cons, hother]
    · rw [List.filter_cons_of_pos (by simpa using hkey), List.lookup_cons, List.lookup_cons, ih]

/-- What is at a place after something has been put at one that can be changed. -/
theorem node?_put (t : FileTree) {place : Place} (h : isAlwaysThere place = false) (node : Node)
    (other : Place) :
    (t.put place node).node? other = if other = place then some node else t.node? other := by
  by_cases hother : other = place
  · subst hother
    simp [node?, put, h]
  · have hne : (other == place) = false := beq_false_of_ne hother
    simp only [node?, put, List.lookup_cons, hne, lookup_filter_ne hother, if_neg hother]

theorem isAlwaysThere_eq_false {t : FileTree} {place : Place}
    (h : t.node? place ≠ some .directory) : isAlwaysThere place = false := by
  by_cases halways : isAlwaysThere place = true
  · exact absurd (if_pos halways) h
  · simpa using halways

/-! ## Paths in changed trees -/

/-- Directories stay directories in another tree with the same working directory. -/
structure Keeps (t t' : FileTree) : Prop where
  /-- The working directory is the same. -/
  workingDirectory : t'.workingDirectory = t.workingDirectory
  /-- A directory is still there. -/
  directory : ∀ place, t.node? place = some .directory → t'.node? place = some .directory

theorem Keeps.refl (t : FileTree) : Keeps t t := ⟨rfl, fun _ h => h⟩

theorem Keeps.trans {t t' t'' : FileTree} (h : Keeps t t') (h' : Keeps t' t'') : Keeps t t'' :=
  ⟨h'.workingDirectory.trans h.workingDirectory, fun place hd =>
    h'.directory place (h.directory place hd)⟩

/-- The place that a name leads to from a directory. -/
def enter (place : Place) (name : List Char) : Except FileError Place :=
  if name = ['.'] then .ok place
  else if name = upName then .ok (above place)
  else if Path.isLongName name then .error .nameTooLong
  else .ok (place ++ [name])

theorem walk_cons_eq_ok_iff {t : FileTree} {start stop : Place} {name : List Char}
    {names : List (List Char)} :
    t.walk start (name :: names) = .ok stop ↔
      t.node? start = some .directory ∧
        ∃ next, enter start name = .ok next ∧ t.walk next names = .ok stop := by
  rw [walk]
  cases hnode : t.node? start with
  | none => simp
  | some node =>
    cases node with
    | file bytes => simp
    | directory =>
      simp only [enter, true_and]
      split
      · simp
      · split
        · simp
        · split
          · simp
          · simp

/-- A way through directories stays a way if directories stay. -/
theorem Keeps.walk {t t' : FileTree} (h : Keeps t t') {start stop : Place}
    {names : List (List Char)} (hwalk : t.walk start names = .ok stop) :
    t'.walk start names = .ok stop := by
  induction names generalizing start with
  | nil => exact hwalk
  | cons name names ih =>
    obtain ⟨hnode, next, henter, hrest⟩ := walk_cons_eq_ok_iff.mp hwalk
    exact walk_cons_eq_ok_iff.mpr ⟨h.directory start hnode, next, henter, ih hrest⟩

/-- A path leads to a place. -/
def LeadsTo (t : FileTree) (p : Path) (place : Place) : Prop :=
  t.place (t.namesFrom p) = .ok place

/-- A path leads to the same place if directories stay. -/
theorem Keeps.leadsTo {t t' : FileTree} (h : Keeps t t') {p : Path} {place : Place}
    (hp : t.LeadsTo p place) : t'.LeadsTo p place := by
  have hnames : t'.namesFrom p = t.namesFrom p := by simp only [namesFrom, h.workingDirectory]
  rw [LeadsTo, hnames]
  rw [LeadsTo] at hp
  cases hlist : t.namesFrom p with
  | nil =>
    rw [hlist] at hp
    exact hp
  | cons name rest =>
    rw [hlist] at hp
    by_cases hroot : name = Path.rootName
    · rw [FileTree.place, if_pos hroot] at hp ⊢
      exact h.walk hp
    · rw [FileTree.place, if_neg hroot] at hp ⊢
      exact h.walk hp

/-- Two paths lead to the same place. -/
def SameFile (t : FileTree) (p q : Path) : Prop := ∃ place, t.LeadsTo p place ∧ t.LeadsTo q place

/-- Putting something at a place without a directory keeps the directories. -/
theorem keeps_put {t : FileTree} {place : Place} (h : t.node? place ≠ some .directory)
    (node : Node) : Keeps t (t.put place node) := by
  refine ⟨rfl, fun other hother => ?_⟩
  rw [node?_put t (isAlwaysThere_eq_false h), if_neg, hother]
  rintro rfl
  exact h hother

/-! ## Directories -/

/-- Another tree has all that is in a tree. -/
structure Grows (t t' : FileTree) : Prop where
  /-- The working directory is the same. -/
  workingDirectory : t'.workingDirectory = t.workingDirectory
  /-- What is at a place stays there. -/
  node : ∀ place node, t.node? place = some node → t'.node? place = some node

theorem Grows.refl (t : FileTree) : Grows t t := ⟨rfl, fun _ _ h => h⟩

theorem Grows.trans {t t' t'' : FileTree} (h : Grows t t') (h' : Grows t' t'') : Grows t t'' :=
  ⟨h'.workingDirectory.trans h.workingDirectory, fun place node hn =>
    h'.node place node (h.node place node hn)⟩

theorem Grows.keeps {t t' : FileTree} (h : Grows t t') : Keeps t t' :=
  ⟨h.workingDirectory, fun place => h.node place .directory⟩

/-- A new directory takes no place that was taken. -/
theorem grows_makeDirectory {t t' : FileTree} {names : List (List Char)}
    (h : t.makeDirectory names = .ok t') : Grows t t' := by
  obtain ⟨place, -, h⟩ := bind_eq_ok_iff.mp h
  split at h
  · next hnone =>
    cases h
    have halways : isAlwaysThere place = false := isAlwaysThere_eq_false (t := t) (by simp [hnone])
    refine ⟨rfl, fun other node hother => ?_⟩
    rw [node?_put t halways, if_neg, hother]
    rintro rfl
    simp [hnone] at hother
  · cases h
    exact .refl t
  · cases h

theorem grows_makeDirectoriesReversed {t t' : FileTree} {names : List (List Char)}
    (h : t.makeDirectoriesReversed names = .ok t') : Grows t t' := by
  induction names generalizing t t' with
  | nil =>
    cases h
    exact .refl t
  | cons name names ih =>
    rw [makeDirectoriesReversed] at h
    split at h
    · obtain ⟨t₁, habove, h⟩ := bind_eq_ok_iff.mp h
      exact (ih habove).trans (grows_makeDirectory h)
    · exact grows_makeDirectory h

/-- Directories on the way to a path take no such place either. -/
theorem grows_makeDirectories {t t' : FileTree} {p : Path} (h : t.makeDirectories p = .ok t') :
    Grows t t' := by
  rw [makeDirectories] at h
  split at h
  · cases h
  · exact grows_makeDirectoriesReversed h

/-! ## Files -/

/-- A path leads to a file with some bytes. -/
structure FileAt (t : FileTree) (p : Path) (place : Place) (bytes : List UInt8) : Prop where
  /-- The path is not too long. -/
  short : p.isLong = false
  /-- The path does not ask for a directory. -/
  noSlash : p.endsInSlash = false
  /-- The path leads to the place. -/
  leadsTo : t.LeadsTo p place
  /-- The file is at the place. -/
  node : t.node? place = some (.file bytes)

theorem FileAt.read {t : FileTree} {p : Path} {place : Place} {bytes : List UInt8}
    (h : t.FileAt p place bytes) : t.read p = .ok bytes := by
  have hfind : t.find p = .ok (.file bytes) := by
    have hplace : t.place (t.namesFrom p) = .ok place := h.leadsTo
    simp [find, h.short, h.noSlash, hplace, h.node, bind, Except.bind, pure, Except.pure]
  simp [FileTree.read, hfind, bind, Except.bind, pure, Except.pure]

/-- A file is written at a place that held no directory, and nothing else changes. -/
theorem put_of_write {t t' : FileTree} {p : Path} {bytes : List UInt8}
    (h : t.write p bytes = .ok t') :
    ∃ place, p.isLong = false ∧ p.endsInSlash = false ∧ t.LeadsTo p place ∧
      t.node? place ≠ some .directory ∧ t' = t.put place (.file bytes) := by
  rw [write] at h
  split at h
  · cases h
  · next hlong =>
    obtain ⟨place, hplace, h⟩ := bind_eq_ok_iff.mp h
    by_cases hslash : p.endsInSlash = true
    · rw [if_pos hslash] at h
      cases h
    · rw [if_neg hslash] at h
      refine ⟨place, by simpa using hlong, by simpa using hslash, hplace, ?_⟩
      split at h
      · cases h
      · next hnode =>
        cases h
        exact ⟨hnode, rfl⟩

/-! ## Files one after another -/

/-- A file is stored in a tree that may have grown before. -/
def Stored (t : FileTree) (p : Path) (bytes : List UInt8) (t' : FileTree) : Prop :=
  ∃ grown, Grows t grown ∧ grown.write p bytes = .ok t'

/-- Files are stored one after another. -/
inductive Stores : FileTree → List (Path × List UInt8) → FileTree → Prop
  | nil {t : FileTree} : Stores t [] t
  | cons {t t₁ t' : FileTree} {p : Path} {bytes : List UInt8} {rest : List (Path × List UInt8)} :
      Stored t p bytes t₁ → Stores t₁ rest t' → Stores t ((p, bytes) :: rest) t'

section

variable {t t₁ t' : FileTree} {p q : Path} {bytes other : List UInt8} {place : Place}
  {files : List (Path × List UInt8)}

theorem Stored.keeps (h : Stored t p bytes t') : Keeps t t' := by
  obtain ⟨grown, hgrown, hwrite⟩ := h
  obtain ⟨place, -, -, -, hnode, rfl⟩ := put_of_write hwrite
  exact hgrown.keeps.trans (keeps_put hnode _)

/-- Storing files keeps directories where they are. -/
theorem Stores.keeps (h : Stores t files t') : Keeps t t' := by
  induction h with
  | nil => exact .refl _
  | cons hfirst _ ih => exact hfirst.keeps.trans ih

/-- A stored file is at the place that its path leads to. -/
theorem Stored.fileAt (h : Stored t p bytes t') : ∃ place, t'.FileAt p place bytes := by
  obtain ⟨grown, hgrown, hwrite⟩ := h
  obtain ⟨place, hshort, hslash, hleads, hnode, rfl⟩ := put_of_write hwrite
  refine ⟨place, hshort, hslash, (keeps_put hnode _).leadsTo hleads, ?_⟩
  rw [node?_put grown (isAlwaysThere_eq_false hnode), if_pos rfl]

/-- Storing a file changes no file but that at its own place. -/
theorem FileAt.of_stored (hq : t.FileAt q place other) (h : Stored t p bytes t')
    (hdiffer : ¬ t'.LeadsTo p place) : t'.FileAt q place other := by
  have hleads := h.keeps.leadsTo hq.leadsTo
  obtain ⟨grown, hgrown, hwrite⟩ := h
  obtain ⟨here, -, -, hhere, hnode, rfl⟩ := put_of_write hwrite
  refine ⟨hq.short, hq.noSlash, hleads, ?_⟩
  rw [node?_put grown (isAlwaysThere_eq_false hnode), if_neg]
  · exact hgrown.node place _ hq.node
  · rintro rfl
    exact hdiffer ((keeps_put hnode _).leadsTo hhere)

/-- A file stays as long as no path that leads to its place is stored. -/
theorem FileAt.of_stores (hq : t.FileAt q place other) (h : Stores t files t')
    (hdiffer : ∀ file ∈ files, ¬ t'.SameFile q file.1) : t'.FileAt q place other := by
  induction h with
  | nil => exact hq
  | @cons t t₁ t' p bytes rest hfirst hrest ih =>
    have hfirst' : ¬ t₁.LeadsTo p place := by
      intro hp
      have hlast : t'.LeadsTo q place := (hfirst.keeps.trans hrest.keeps).leadsTo hq.leadsTo
      exact hdiffer (p, bytes) List.mem_cons_self ⟨place, hlast, hrest.keeps.leadsTo hp⟩
    exact ih (hq.of_stored hfirst hfirst') fun file hfile =>
      hdiffer file (List.mem_cons_of_mem _ hfile)

/-- Files that are stored in a row are stored in two runs. -/
theorem Stores.split {front back : List (Path × List UInt8)} (h : Stores t (front ++ back) t') :
    ∃ mid, Stores t front mid ∧ Stores mid back t' := by
  induction front generalizing t with
  | nil => exact ⟨t, .nil, h⟩
  | cons file front ih =>
    cases h with
    | cons hfirst hrest =>
      obtain ⟨mid, hfront, hback⟩ := ih hrest
      exact ⟨mid, .cons hfirst hfront, hback⟩

end

end LegacyShader.CommandLine.FileTree
