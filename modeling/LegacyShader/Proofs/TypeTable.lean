import LegacyShader.Proofs.Stripped

/-!
# Locations in a table of types

A module keeps its types in a table and refers to them by their places in it.  The struct
that an entry point returns is one of them, so the locations of its members stand in the
table and not at the entry point.

Locations are written in one loop.  Those of arguments and of a single result are written
at once.  The members of a struct are copied when the first of them is to be written, and
are written in the copy, with a flag that tells whether a location differs from the one
before.  Behind the loop, a copy with the flag set replaces the type.  A table holds no
type twice, so it is a fault to put in a type that it already has.

The loop changes each decoration at its own slot, and those of members in the copy
(`LocationLoop.Running.exists_foldlM_step?`).  If no slot is written twice, the flag tells
whether the copy differs from the type (`MemberBuffer.changed_foldl_setLocation`).  So the
locations are all written, unless the result becomes another type of the table
(`StoredEntry.applyLocations?_eq_some_iff`).  What is stored then is the entry point with
these locations (`StoredEntry.Shows.applyLocations?_eq`).
-/

namespace LegacyShader

/-! ## Equality of types -/

mutual

/-- Types are compared by their parts. -/
theorem ShaderType.same_iff (s t : ShaderType) : s.same t = true ↔ s = t := by
  cases s <;> cases t <;>
    simp [ShaderType.same, and_assoc, ShaderType.same_iff, StructMember.sameAll_iff]

theorem StructMember.same_iff (m n : StructMember) : m.same n = true ↔ m = n := by
  obtain ⟨name, type, offset⟩ := m
  obtain ⟨name', type', offset'⟩ := n
  simp [StructMember.same, and_assoc, ShaderType.same_iff]

theorem StructMember.sameAll_iff (ms ns : List StructMember) :
    StructMember.sameAll ms ns = true ↔ ms = ns := by
  cases ms <;> cases ns <;> simp [StructMember.sameAll, StructMember.same_iff,
    StructMember.sameAll_iff]

end

instance : DecidableEq ShaderType := fun s t => decidable_of_iff _ (s.same_iff t)

/-! ## Entry points with a table of types -/

/-- A member of a struct in the table. -/
structure StoredMember where
  /-- Its name, if it has one. -/
  name : Option String
  /-- Its type. -/
  type : ShaderType
  /-- Its byte offset in the struct. -/
  offset : Nat
  /-- Where it goes to, if the struct is a result. -/
  decoration : Option Decoration
  /-- How it is found for a fragment. -/
  interpolation : Interpolation
  deriving DecidableEq

/-- What a type of the table is, apart from its name. -/
inductive StoredShape where
  /-- A struct of `span` bytes. -/
  | struct (members : List StoredMember) (span : Nat)
  /-- Any other type. -/
  | other (type : ShaderType)
  deriving DecidableEq

/-- A type of the table. -/
structure StoredType where
  /-- Its name, if it has one. -/
  name : Option String
  /-- What it is. -/
  shape : StoredShape
  deriving DecidableEq

/-- An input of an entry point. -/
structure StoredArgument where
  /-- Its name, if it has one. -/
  name : Option String
  /-- Its type. -/
  type : ShaderType
  /-- Where it comes from, if that is not said at the members of its type. -/
  decoration : Option Decoration
  /-- How it is found for a fragment. -/
  interpolation : Interpolation
  deriving DecidableEq

/-- The result of an entry point. -/
structure StoredResult where
  /-- The place of its type in the table. -/
  type : Nat
  /-- Where it goes to, if that is not said at the members of its type. -/
  decoration : Option Decoration
  deriving DecidableEq

/-- An entry point and the table of types of its module. -/
structure StoredEntry where
  /-- The table of types. -/
  types : List StoredType
  /-- The inputs. -/
  arguments : List StoredArgument
  /-- The result, if there is one. -/
  result : Option StoredResult
  deriving DecidableEq

/-- An input with a change to its decoration. -/
def StoredArgument.mapDecoration (f : Decoration → Decoration) (a : StoredArgument) :
    StoredArgument :=
  { a with decoration := a.decoration.map f }

/-- A result with a change to its own decoration. -/
def StoredResult.mapDecoration (f : Decoration → Decoration) (r : StoredResult) : StoredResult :=
  { r with decoration := r.decoration.map f }

/-- A member with a change to its decoration. -/
def StoredMember.mapDecoration (f : Decoration → Decoration) (m : StoredMember) : StoredMember :=
  { m with decoration := m.decoration.map f }

/-- A type of the table without decorations. -/
def StoredType.type (t : StoredType) : ShaderType :=
  match t.shape with
  | .struct members span =>
      .struct t.name (members.map fun m => .mk m.name m.type m.offset) span
  | .other type => type

/-- An input as it is stored. -/
def StoredArgument.ofArgument (a : EntryArgument) : StoredArgument :=
  ⟨a.name, a.type, some a.decoration, a.interpolation⟩

/-- One output among several as it is stored. -/
def StoredMember.ofResult (m : ResultMember) : StoredMember :=
  ⟨m.name, m.type, m.offset, some m.decoration, m.interpolation⟩

/-- What an entry point returns, as its result is stored. -/
inductive ShowsResult (types : List StoredType) : Option StoredResult → EntryResult → Prop where
  /-- There is no result. -/
  | none : ShowsResult types none .none
  /-- A result with a decoration of its own is one output. -/
  | value {place : Nat} {t : StoredType} {d : Decoration} (ht : types[place]? = some t) :
      ShowsResult types (some ⟨place, some d⟩) (.value t.type d)
  /-- A struct without one has several outputs. -/
  | struct {place : Nat} {name : Option String} {members : List ResultMember} {span : Nat}
      (ht : types[place]? = some ⟨name, .struct (members.map StoredMember.ofResult) span⟩) :
      ShowsResult types (some ⟨place, none⟩) (.struct members span)

/-- An entry point, as it is stored. -/
structure StoredEntry.Shows (s : StoredEntry) (e : EntryPoint) : Prop where
  /-- Its inputs are the stored ones. -/
  arguments : s.arguments = e.arguments.map StoredArgument.ofArgument
  /-- Its outputs are read off the table. -/
  result : ShowsResult s.types s.result e.result

/-! ## The loop -/

/-- A decoration with another location, if it is one, and whether that changes it. -/
def Decoration.moveTo (location : Nat) : Decoration → Decoration × Bool
  | .location number =>
      if number ≠ location then (.location location, true) else (.location number, false)
  | .builtIn value => (.builtIn value, false)

/-- A copy of the members of a result. -/
structure MemberBuffer where
  /-- The place of the type in the table. -/
  type : Nat
  /-- The members. -/
  members : List StoredMember
  /-- The size of the struct in bytes. -/
  span : Nat
  /-- Whether a location was changed. -/
  changed : Bool
  deriving DecidableEq

namespace MemberBuffer

/-- A copy of the members of a type, of which there are none if it is no struct. -/
def ofType (place : Nat) (t : StoredType) : MemberBuffer :=
  match t.shape with
  | .struct members span => ⟨place, members, span, false⟩
  | .other _ => ⟨place, [], 0, false⟩

/-- Writes the location of a member, if there is one with a decoration. -/
def write (b : MemberBuffer) (index location : Nat) : MemberBuffer :=
  { b with
    members := b.members.modify index (.mapDecoration fun d => (d.moveTo location).1)
    changed := b.changed ||
      (b.members[index]?.bind (·.decoration)).any fun d => (d.moveTo location).2 }

end MemberBuffer

/-- Where the loop is: the entry point, and the copy of the members if there is one yet. -/
structure LocationLoop where
  /-- The entry point with the locations that are written at once. -/
  entry : StoredEntry
  /-- The copy of the members of its result. -/
  buffer : Option MemberBuffer
  deriving DecidableEq

namespace LocationLoop

/-- Writes the location of a variable.  It is a fault if there is no such argument, or if
the type of the result is not in the table. -/
def step? (l : LocationLoop) (v : InterfaceVar) : Option LocationLoop :=
  match v.slot with
  | .argument index =>
      if index < l.entry.arguments.length then
        some { l with
          entry.arguments := l.entry.arguments.modify index
            (.mapDecoration fun d => (d.moveTo v.location).1) }
      else none
  | .result =>
      some { l with
        entry.result := l.entry.result.map (.mapDecoration fun d => (d.moveTo v.location).1) }
  | .resultMember index =>
      match l.entry.result with
      | none => some l
      | some r => do
          let b ← l.buffer <|> (l.entry.types[r.type]?).map (.ofType r.type)
          return { l with buffer := some (b.write index v.location) }

end LocationLoop

/-- A table with a type in place of another one.  It is a fault if the table has it. -/
def replaceType? (types : List StoredType) (place : Nat) (t : StoredType) :
    Option (List StoredType) :=
  if t ∈ types then none else some (types.set place t)

/-- The end of the loop, where a changed copy replaces its type. -/
def LocationLoop.finish? (l : LocationLoop) : Option StoredEntry :=
  match l.buffer with
  | none => some l.entry
  | some b =>
      if b.changed then do
        let old ← l.entry.types[b.type]?
        let types ← replaceType? l.entry.types b.type ⟨old.name, .struct b.members b.span⟩
        return { l.entry with types }
      else some l.entry

/-- Writes the locations of variables. -/
def StoredEntry.applyLocations? (s : StoredEntry) (vars : List InterfaceVar) :
    Option StoredEntry :=
  vars.foldlM LocationLoop.step? ⟨s, none⟩ >>= LocationLoop.finish?

/-! ## Changes to decorations -/

/-- What variables do to the decoration at a slot. -/
def relocateBy (vars : List InterfaceVar) (slot : LocationSlot) (d : Decoration) : Decoration :=
  vars.foldl (fun d v => EntryPoint.relocate v slot d) d

/-- Members of a struct with a change to each decoration. -/
def StoredMember.mapDecorations (f : LocationSlot → Decoration → Decoration)
    (members : List StoredMember) : List StoredMember :=
  members.mapIdx fun i => mapDecoration (f (.resultMember i))

/-- A type with a change to each decoration. -/
def StoredType.mapDecorations (f : LocationSlot → Decoration → Decoration) (t : StoredType) :
    StoredType :=
  match t.shape with
  | .struct members span => ⟨t.name, .struct (StoredMember.mapDecorations f members) span⟩
  | .other _ => t

namespace StoredEntry

/-- An entry point with a change to each decoration that is not in the table. -/
def mapOwn (f : LocationSlot → Decoration → Decoration) (s : StoredEntry) : StoredEntry :=
  { s with
    arguments := s.arguments.mapIdx fun i => .mapDecoration (f (.argument i))
    result := s.result.map (.mapDecoration (f .result)) }

/-- An entry point with a change to each decoration.  In the table, only the type of the
result has them. -/
def mapDecorations (f : LocationSlot → Decoration → Decoration) (s : StoredEntry) :
    StoredEntry :=
  { s.mapOwn f with
    types := s.result.elim s.types fun r => s.types.modify r.type (StoredType.mapDecorations f) }

/-- An entry point with every location set to zero.  Nothing else changes, neither of the
entry point nor in the table. -/
def unlocated (s : StoredEntry) : StoredEntry := s.mapDecorations fun _ d => d.withLocation 0

/-- If variables change the type of the result, they make it no other type of the table. -/
def Apart (s : StoredEntry) (vars : List InterfaceVar) : Prop :=
  ∀ r t, s.result = some r → s.types[r.type]? = some t → t.mapDecorations (relocateBy vars) ≠ t →
    t.mapDecorations (relocateBy vars) ∉ s.types

end StoredEntry

section

variable {f g : LocationSlot → Decoration → Decoration} {vars : List InterfaceVar}

theorem relocateBy_cons (v : InterfaceVar) (vars : List InterfaceVar) (slot : LocationSlot)
    (d : Decoration) :
    relocateBy (v :: vars) slot d = relocateBy vars slot (EntryPoint.relocate v slot d) := rfl

theorem EntryPoint.relocate_of_eq {v : InterfaceVar} {slot : LocationSlot} (h : v.slot = slot) :
    relocate v slot = Decoration.withLocation v.location := funext fun _ => if_pos h

theorem EntryPoint.relocate_of_ne {v : InterfaceVar} {slot : LocationSlot} (h : v.slot ≠ slot) :
    relocate v slot = id := funext fun _ => if_neg h

@[simp] theorem StoredArgument.mapDecoration_id : mapDecoration id = id := by
  funext a
  simp [mapDecoration]

@[simp] theorem StoredResult.mapDecoration_id : mapDecoration id = id := by
  funext r
  simp [mapDecoration]

/-- The decoration at a slot that is not written stays. -/
theorem relocateBy_of_not_mem {slot : LocationSlot} (h : slot ∉ vars.map (·.slot))
    (d : Decoration) : relocateBy vars slot d = d := by
  induction vars with
  | nil => rfl
  | cons v vars ih =>
      rw [List.map_cons, List.mem_cons, not_or] at h
      rw [relocateBy_cons, EntryPoint.relocate, if_neg (Ne.symm h.1), ih h.2]

/-- A change at a place is none if the item there stays. -/
theorem modify_eq_self_iff {α : Type} {l : List α} {i : Nat} {f : α → α} :
    l.modify i f = l ↔ ∀ a, l[i]? = some a → f a = a := by
  constructor
  · intro h a ha
    have hget := congrArg (·[i]?) h
    simpa [ha] using hget
  · intro h
    refine List.ext_getElem? fun j => ?_
    rw [List.getElem?_modify]
    cases ha : l[j]? with
    | none => rfl
    | some a =>
        by_cases hj : i = j
        · simp [hj, h a (hj ▸ ha)]
        · simp [hj]

/-- A change to each item that leaves all but one of them is a change at one place. -/
theorem mapIdx_eq_modify {α : Type} {l : List α} {i : Nat} {f : Nat → α → α} {g : α → α}
    (hself : ∀ a, f i a = g a) (hother : ∀ j a, i ≠ j → f j a = a) :
    l.mapIdx f = l.modify i g := by
  refine List.ext_getElem? fun j => ?_
  rw [List.getElem?_mapIdx, List.getElem?_modify]
  cases l[j]? with
  | none => rfl
  | some a =>
      by_cases hj : i = j
      · simp [← hj, hself]
      · simp [hj, hother j a hj]

theorem mapIdx_eq_self {α : Type} {l : List α} {f : Nat → α → α} (h : ∀ i a, f i a = a) :
    l.mapIdx f = l := by
  simp only [h, List.mapIdx_eq_zipIdx_map, List.zipIdx_map_fst]

theorem mapIdx_id {α : Type} (l : List α) : l.mapIdx (fun _ => id) = l :=
  mapIdx_eq_self fun _ _ => rfl

namespace StoredMember

theorem mapDecoration_eq_self_iff {m : StoredMember} {f : Decoration → Decoration} :
    m.mapDecoration f = m ↔ ∀ d, m.decoration = some d → f d = d := by
  obtain ⟨name, type, offset, decoration, interpolation⟩ := m
  cases decoration <;> simp [mapDecoration]

theorem getElem?_mapDecorations (members : List StoredMember) (i : Nat) :
    (mapDecorations f members)[i]? = (members[i]?).map (mapDecoration (f (.resultMember i))) :=
  List.getElem?_mapIdx

theorem getElem?_mapDecorations_of_id {members : List StoredMember} {i : Nat}
    (h : ∀ d, f (.resultMember i) d = d) : (mapDecorations f members)[i]? = members[i]? := by
  rw [getElem?_mapDecorations]
  cases members[i]? with
  | none => rfl
  | some m => exact congrArg some (mapDecoration_eq_self_iff.mpr fun d _ => h d)

theorem mapDecorations_mapDecorations (members : List StoredMember) :
    mapDecorations g (mapDecorations f members) =
      mapDecorations (fun slot d => g slot (f slot d)) members := by
  simp only [mapDecorations, List.mapIdx_mapIdx, mapDecoration, Function.comp_def, Option.map_map]
  rfl

/-- Stored outputs are changed as the outputs are. -/
theorem mapDecorations_ofResult (members : List ResultMember) :
    mapDecorations f (members.map ofResult) =
      (members.mapIdx fun i m =>
        { m with decoration := f (.resultMember i) m.decoration }).map ofResult := by
  refine List.ext_getElem? fun i => ?_
  rw [getElem?_mapDecorations, List.getElem?_map, List.getElem?_map, List.getElem?_mapIdx,
    Option.map_map, Option.map_map]
  rfl

end StoredMember

theorem StoredType.mapDecorations_mapDecorations (t : StoredType) :
    (t.mapDecorations f).mapDecorations g =
      t.mapDecorations fun slot d => g slot (f slot d) := by
  obtain ⟨name, shape⟩ := t
  cases shape with
  | struct members span =>
      simp only [mapDecorations, StoredMember.mapDecorations_mapDecorations]
  | other type => rfl

/-- Variables that are not at members of the result leave its type alone. -/
theorem StoredType.mapDecorations_relocateBy (h : ∀ v ∈ vars, ∀ i, v.slot ≠ .resultMember i)
    (t : StoredType) : t.mapDecorations (relocateBy vars) = t := by
  obtain ⟨name, shape⟩ := t
  cases shape with
  | struct members span =>
      have hmembers : StoredMember.mapDecorations (relocateBy vars) members = members := by
        refine List.ext_getElem? fun i => StoredMember.getElem?_mapDecorations_of_id fun d => ?_
        refine relocateBy_of_not_mem (fun hmem => ?_) d
        obtain ⟨v, hv, hslot⟩ := List.mem_map.mp hmem
        exact h v hv i hslot
      simp only [mapDecorations, hmembers]
  | other type => rfl

/-- Changes to decorations are no changes to the type without them. -/
theorem StoredType.type_mapDecorations (t : StoredType) : (t.mapDecorations f).type = t.type := by
  obtain ⟨name, shape⟩ := t
  cases shape with
  | struct members span =>
      simp only [mapDecorations, type, ShaderType.struct.injEq, true_and, and_true]
      refine List.ext_getElem? fun i => ?_
      rw [List.getElem?_map, List.getElem?_map, StoredMember.getElem?_mapDecorations,
        Option.map_map]
      rfl
  | other type => rfl

namespace StoredEntry

theorem mapOwn_mapOwn (s : StoredEntry) :
    (s.mapOwn f).mapOwn g = s.mapOwn fun slot d => g slot (f slot d) := by
  simp only [mapOwn, List.mapIdx_mapIdx, Option.map_map, Function.comp_def,
    StoredArgument.mapDecoration, StoredResult.mapDecoration]
  rfl

/-- What is stored is changed as the entry point is. -/
theorem Shows.mapDecorations {s : StoredEntry} {e : EntryPoint} (h : s.Shows e) :
    (s.mapDecorations f).Shows (e.mapDecorations f) where
  arguments := by
    refine List.ext_getElem? fun i => ?_
    simp only [StoredEntry.mapDecorations, mapOwn, EntryPoint.mapDecorations, h.arguments,
      List.getElem?_map, List.getElem?_mapIdx, Option.map_map]
    rfl
  result := by
    obtain ⟨types, arguments, result⟩ := s
    obtain ⟨stage, inputs, shown, body, earlyTests, groupSize⟩ := e
    obtain ⟨-, hresult⟩ := h
    cases hresult with
    | none => exact .none
    | @value place t d ht =>
        have hnew : (types.modify place (StoredType.mapDecorations f))[place]? =
            some (t.mapDecorations f) := by
          rw [List.getElem?_modify_eq, ht]
          rfl
        have hvalue := ShowsResult.value (d := f .result d) hnew
        rwa [StoredType.type_mapDecorations] at hvalue
    | @struct place name members span ht =>
        have hnew : (types.modify place (StoredType.mapDecorations f))[place]? =
            some ⟨name, .struct ((members.mapIdx fun i m =>
              { m with decoration := f (.resultMember i) m.decoration }).map
                StoredMember.ofResult) span⟩ := by
          rw [List.getElem?_modify_eq, ht, ← StoredMember.mapDecorations_ofResult]
          rfl
        exact .struct hnew

end StoredEntry

end

/-! ## What the loop leaves -/

section

variable {s : StoredEntry} {b : MemberBuffer} {v : InterfaceVar} {vars : List InterfaceVar}

namespace Decoration

theorem fst_moveTo (location : Nat) (d : Decoration) :
    (d.moveTo location).1 = d.withLocation location := by
  cases d <;> grind [moveTo, withLocation]

/-- A move is reported if it is a change. -/
theorem snd_moveTo_iff (location : Nat) (d : Decoration) :
    (d.moveTo location).2 = true ↔ d.withLocation location ≠ d := by
  cases d <;> grind [moveTo, withLocation]

end Decoration

namespace MemberBuffer

/-- A write changes the decoration of its own member. -/
theorem members_write (b : MemberBuffer) (index location : Nat) :
    (b.write index location).members =
      b.members.modify index (.mapDecoration (Decoration.withLocation location)) := by
  simp only [write, Decoration.fst_moveTo]

/-- The flag is set if the write is a change. -/
theorem changed_write (b : MemberBuffer) (index location : Nat) :
    (b.write index location).changed = true ↔
      b.changed = true ∨ (b.write index location).members ≠ b.members := by
  rw [members_write, Ne, modify_eq_self_iff]
  simp only [write, Bool.or_eq_true, Option.any_eq_true, Option.bind_eq_some_iff,
    Decoration.snd_moveTo_iff, StoredMember.mapDecoration_eq_self_iff, not_forall]
  refine or_congr_right ⟨?_, ?_⟩
  · rintro ⟨d, ⟨m, hm, hd⟩, hne⟩
    exact ⟨m, hm, d, hd, hne⟩
  · rintro ⟨m, hm, d, hd, hne⟩
    exact ⟨d, ⟨m, hm, hd⟩, hne⟩

/-- A copy of members with the location of a variable, if that is at a member. -/
def setLocation (b : MemberBuffer) (v : InterfaceVar) : MemberBuffer :=
  match v.slot with
  | .resultMember index => b.write index v.location
  | _ => b

theorem setLocation_of_ne (h : ∀ index, v.slot ≠ .resultMember index) : b.setLocation v = b := by
  grind [setLocation]

theorem setLocation_of_eq {index : Nat} (h : v.slot = .resultMember index) :
    b.setLocation v = b.write index v.location := by
  rw [setLocation, h]

/-- Members are written as decorations of their slots. -/
theorem members_setLocation (b : MemberBuffer) (v : InterfaceVar) :
    (b.setLocation v).members = StoredMember.mapDecorations (EntryPoint.relocate v) b.members := by
  have hother (i : Nat) (m : StoredMember) (hi : v.slot ≠ .resultMember i) :
      m.mapDecoration (EntryPoint.relocate v (.resultMember i)) = m :=
    StoredMember.mapDecoration_eq_self_iff.mpr fun d _ => if_neg hi
  cases hslot : v.slot with
  | resultMember index =>
      rw [setLocation_of_eq hslot, members_write]
      refine (mapIdx_eq_modify (fun m => ?_) fun j m hj => hother j m ?_).symm
      · rw [EntryPoint.relocate_of_eq hslot]
      · rwa [hslot, Ne, LocationSlot.resultMember.injEq]
  | _ =>
      rw [setLocation_of_ne (by simp [hslot])]
      exact (mapIdx_eq_self fun i m => hother i m (by simp [hslot])).symm

theorem changed_setLocation (b : MemberBuffer) (v : InterfaceVar) :
    (b.setLocation v).changed = true ↔
      b.changed = true ∨ (b.setLocation v).members ≠ b.members := by
  cases hslot : v.slot with
  | resultMember index =>
      rw [setLocation_of_eq hslot]
      exact changed_write b index v.location
  | _ =>
      rw [setLocation_of_ne (by simp [hslot])]
      simp

theorem type_span_setLocation (b : MemberBuffer) (v : InterfaceVar) :
    (b.setLocation v).type = b.type ∧ (b.setLocation v).span = b.span := by
  unfold setLocation
  split <;> exact ⟨rfl, rfl⟩

/-- Writes one after the other change each member by what is written to its slot. -/
theorem members_foldl_setLocation (b : MemberBuffer) (vars : List InterfaceVar) :
    (vars.foldl setLocation b).members =
      StoredMember.mapDecorations (relocateBy vars) b.members := by
  induction vars generalizing b with
  | nil =>
      exact (mapIdx_eq_self fun i m =>
        StoredMember.mapDecoration_eq_self_iff.mpr fun _ _ => rfl).symm
  | cons v vars ih =>
      rw [List.foldl_cons, ih, members_setLocation, StoredMember.mapDecorations_mapDecorations]
      rfl

theorem type_span_foldl_setLocation (b : MemberBuffer) (vars : List InterfaceVar) :
    (vars.foldl setLocation b).type = b.type ∧ (vars.foldl setLocation b).span = b.span := by
  induction vars generalizing b with
  | nil => exact ⟨rfl, rfl⟩
  | cons v vars ih =>
      obtain ⟨htype, hspan⟩ := b.type_span_setLocation v
      rw [List.foldl_cons, ← htype, ← hspan]
      exact ih _

/-- A change to a member is not undone by variables at other slots. -/
theorem members_foldl_ne (hfresh : v.slot ∉ vars.map (·.slot))
    (hne : (b.setLocation v).members ≠ b.members) :
    (vars.foldl setLocation (b.setLocation v)).members ≠ b.members := by
  intro heq
  refine hne (List.ext_getElem? fun i => ?_)
  by_cases hslot : v.slot = .resultMember i
  · rw [← heq, members_foldl_setLocation, StoredMember.getElem?_mapDecorations_of_id fun d =>
      relocateBy_of_not_mem (hslot ▸ hfresh) d]
  · rw [members_setLocation, StoredMember.getElem?_mapDecorations_of_id fun d => if_neg hslot]

/-- If no slot is written twice, the flag tells whether the members have changed. -/
theorem changed_foldl_setLocation (hslots : (vars.map (·.slot)).Nodup) :
    (vars.foldl setLocation b).changed = true ↔
      b.changed = true ∨ (vars.foldl setLocation b).members ≠ b.members := by
  induction vars generalizing b with
  | nil => simp
  | cons v vars ih =>
      obtain ⟨hfresh, hrest⟩ := List.nodup_cons.mp hslots
      rw [List.foldl_cons, ih hrest, changed_setLocation, or_assoc]
      refine or_congr_right ⟨?_, fun h => ?_⟩
      · rintro (hne | hne)
        · exact members_foldl_ne hfresh hne
        · by_cases hstep : (b.setLocation v).members = b.members
          · rwa [hstep] at hne
          · exact members_foldl_ne hfresh hstep
      · by_cases hstep : (b.setLocation v).members = b.members
        · exact .inr (hstep ▸ h)
        · exact .inl hstep

end MemberBuffer

namespace StoredEntry

/-- The copy of the members of the result, before any of them is written. -/
def fresh? (s : StoredEntry) : Option MemberBuffer :=
  s.result.bind fun r => (s.types[r.type]?).map (.ofType r.type)

/-- Changes outside of the table do not change the copy. -/
theorem fresh?_mapOwn (f : LocationSlot → Decoration → Decoration) :
    (s.mapOwn f).fresh? = s.fresh? := by
  obtain ⟨types, arguments, result⟩ := s
  cases result <;> rfl

theorem mapOwn_id : (s.mapOwn fun _ d => d) = s := by
  have hid : (fun d : Decoration => d) = id := rfl
  simp only [mapOwn, hid, StoredArgument.mapDecoration_id, StoredResult.mapDecoration_id,
    mapIdx_id, Option.map_id, id_eq]

variable {index : Nat}

/-- A variable at an argument changes the decoration of that argument. -/
theorem mapOwn_relocate_of_argument (h : v.slot = .argument index) :
    s.mapOwn (EntryPoint.relocate v) =
      { s with
        arguments := s.arguments.modify index
          (.mapDecoration (Decoration.withLocation v.location)) } := by
  have harguments : (s.arguments.mapIdx fun i =>
      StoredArgument.mapDecoration (EntryPoint.relocate v (.argument i))) =
        s.arguments.modify index (.mapDecoration (Decoration.withLocation v.location)) := by
    refine mapIdx_eq_modify (fun a => ?_) fun j a hj => ?_
    · rw [EntryPoint.relocate_of_eq h]
    · rw [EntryPoint.relocate_of_ne (by rwa [h, Ne, LocationSlot.argument.injEq]),
        StoredArgument.mapDecoration_id, id]
  have hresult : EntryPoint.relocate v .result = id := EntryPoint.relocate_of_ne (by simp [h])
  simp only [mapOwn, harguments, hresult, StoredResult.mapDecoration_id, Option.map_id, id]

/-- Any other variable changes no argument. -/
theorem mapOwn_relocate_of_not_argument (h : ∀ i, v.slot ≠ .argument i) :
    s.mapOwn (EntryPoint.relocate v) =
      { s with result := s.result.map (.mapDecoration (EntryPoint.relocate v .result)) } := by
  have harguments (i : Nat) : EntryPoint.relocate v (.argument i) = id :=
    EntryPoint.relocate_of_ne (h i)
  simp only [mapOwn, harguments, StoredArgument.mapDecoration_id, mapIdx_id]

/-- A variable at a member of the result changes nothing outside of the table. -/
theorem mapOwn_relocate_of_resultMember (h : v.slot = .resultMember index) :
    s.mapOwn (EntryPoint.relocate v) = s := by
  have hresult : EntryPoint.relocate v .result = id := EntryPoint.relocate_of_ne (by simp [h])
  rw [mapOwn_relocate_of_not_argument (by simp [h]), hresult, StoredResult.mapDecoration_id,
    Option.map_id, id]

end StoredEntry

namespace LocationLoop

variable {l : LocationLoop} {r : StoredResult}

/-- The copy of the members of the result, or what it would be. -/
def pending (l : LocationLoop) : Option MemberBuffer := l.buffer <|> l.entry.fresh?

/-- A loop that no step stops. -/
structure Running (l : LocationLoop) : Prop where
  /-- The type of the result is in the table. -/
  place : ∀ r, l.entry.result = some r → ∃ t, l.entry.types[r.type]? = some t
  /-- Without a result, there is no copy of its members. -/
  empty : l.entry.result = none → l.buffer = none

theorem Running.mapOwn (hl : l.Running) (f : LocationSlot → Decoration → Decoration) :
    Running ⟨l.entry.mapOwn f, l.buffer⟩ where
  place := by
    intro r hr
    obtain ⟨old, hold, rfl⟩ := Option.map_eq_some_iff.mp hr
    exact hl.place old hold
  empty := fun h => hl.empty (Option.map_eq_none_iff.mp h)

theorem pending_eq (hr : l.entry.result = some r) :
    l.pending = (l.buffer <|> (l.entry.types[r.type]?).map (.ofType r.type)) := by
  rw [pending, StoredEntry.fresh?, hr]
  rfl

theorem Running.exists_pending (hl : l.Running) (hr : l.entry.result = some r) :
    ∃ b, l.pending = some b := by
  obtain ⟨t, ht⟩ := hl.place r hr
  rw [pending_eq hr, ht]
  cases l.buffer with
  | none => exact ⟨_, rfl⟩
  | some b => exact ⟨b, rfl⟩

/-- One step changes the decoration at the slot of its variable, in the entry point or in
the copy. -/
theorem Running.exists_step? (hl : l.Running)
    (hindex : ∀ i, v.slot = .argument i → i < l.entry.arguments.length) :
    ∃ next, l.step? v = some next ∧ next.Running ∧
      next.entry = l.entry.mapOwn (EntryPoint.relocate v) ∧
      next.pending = l.pending.map (·.setLocation v) := by
  have hpending (hslot : ∀ i, v.slot ≠ .resultMember i) :
      pending ⟨l.entry.mapOwn (EntryPoint.relocate v), l.buffer⟩ =
        l.pending.map (·.setLocation v) := by
    simp only [pending, StoredEntry.fresh?_mapOwn, MemberBuffer.setLocation_of_ne hslot,
      Option.map_id']
  cases hslot : v.slot with
  | argument index =>
      refine ⟨_, ?_, hl.mapOwn (EntryPoint.relocate v), rfl, hpending (by simp [hslot])⟩
      simp only [step?, hslot, if_pos (hindex index hslot), Decoration.fst_moveTo,
        StoredEntry.mapOwn_relocate_of_argument hslot]
  | result =>
      refine ⟨_, ?_, hl.mapOwn (EntryPoint.relocate v), rfl, hpending (by simp [hslot])⟩
      simp only [step?, hslot, Decoration.fst_moveTo, EntryPoint.relocate_of_eq hslot,
        StoredEntry.mapOwn_relocate_of_not_argument (v := v) (by simp [hslot])]
  | resultMember index =>
      rw [StoredEntry.mapOwn_relocate_of_resultMember hslot]
      cases hr : l.entry.result with
      | none =>
          refine ⟨l, by simp only [step?, hslot, hr], hl, rfl, ?_⟩
          simp only [pending, StoredEntry.fresh?, hl.empty hr, hr]
          rfl
      | some r =>
          obtain ⟨b, hb⟩ := hl.exists_pending hr
          have hread := (pending_eq hr).symm.trans hb
          refine ⟨{ l with buffer := some (b.write index v.location) }, ?_, ⟨hl.place, ?_⟩, rfl, ?_⟩
          · simp only [step?, hslot, hr, hread]
            rfl
          · simp [hr]
          · rw [hb, Option.map_some, MemberBuffer.setLocation_of_eq hslot]
            rfl

/-- The loop changes each decoration at its own slot, in the entry point or in the copy. -/
theorem Running.exists_foldlM_step? (hl : l.Running)
    (hindex : ∀ v ∈ vars, ∀ i, v.slot = .argument i → i < l.entry.arguments.length) :
    ∃ last, vars.foldlM step? l = some last ∧
      last.entry = l.entry.mapOwn (relocateBy vars) ∧
      last.pending = l.pending.map (vars.foldl MemberBuffer.setLocation ·) := by
  induction vars generalizing l with
  | nil =>
      refine ⟨l, rfl, ?_, ?_⟩
      · exact StoredEntry.mapOwn_id.symm
      · simp only [List.foldl_nil, Option.map_id']
  | cons v vars ih =>
      obtain ⟨hv, hvars⟩ := List.forall_mem_cons.mp hindex
      obtain ⟨next, hstep, hnext, hentry, hpending⟩ := hl.exists_step? hv
      have hlength : next.entry.arguments.length = l.entry.arguments.length := by
        rw [hentry, StoredEntry.mapOwn, List.length_mapIdx]
      obtain ⟨last, hrun, hlast, hlastPending⟩ := ih hnext (by rwa [hlength])
      refine ⟨last, ?_, ?_, ?_⟩
      · rw [List.foldlM_cons, hstep]
        exact hrun
      · rw [hlast, hentry, StoredEntry.mapOwn_mapOwn]
        rfl
      · rw [hlastPending, hpending, Option.map_map]
        rfl

end LocationLoop

/-! ## Behind the loop -/

/-- A copy that was never made need not be written back. -/
theorem LocationLoop.finish?_of_pending (l : LocationLoop) :
    l.finish? = finish? ⟨l.entry, l.pending⟩ := by
  obtain ⟨s, buffer⟩ := l
  cases buffer with
  | some b => rfl
  | none =>
      cases hfresh : s.fresh? with
      | none => simp [pending, hfresh]
      | some b =>
          obtain ⟨r, -, hb⟩ := Option.bind_eq_some_iff.mp hfresh
          obtain ⟨t, -, rfl⟩ := Option.map_eq_some_iff.mp hb
          have hunchanged : (MemberBuffer.ofType r.type t).changed = false := by
            unfold MemberBuffer.ofType
            split <;> rfl
          simp [pending, hfresh, finish?, hunchanged]

/-- A copy that has not changed leaves the table alone, and one that has replaces its type,
if the table does not have it. -/
theorem LocationLoop.finish?_eq_some_iff {t : StoredEntry} {old : StoredType}
    (hold : s.types[b.type]? = some old) :
    finish? ⟨s, some b⟩ = some t ↔
      (b.changed = true → (⟨old.name, .struct b.members b.span⟩ : StoredType) ∉ s.types) ∧
      t = if b.changed = true then
          { s with types := s.types.set b.type ⟨old.name, .struct b.members b.span⟩ }
        else s := by
  cases hb : b.changed with
  | true =>
      by_cases hmem : (⟨old.name, .struct b.members b.span⟩ : StoredType) ∈ s.types
      · simp [finish?, hb, hold, replaceType?, hmem]
      · simp [finish?, hb, hold, replaceType?, hmem, eq_comm (a := t)]
  | false => simp [finish?, hb, eq_comm (a := t)]

namespace MemberBuffer

/-- What is copied from a type and written differs from it just if the flag is set, and is
then the type with the new locations. -/
theorem foldl_setLocation_ofType (hslots : (vars.map (·.slot)).Nodup) (place : Nat)
    (t : StoredType) :
    let b := vars.foldl setLocation (ofType place t)
    (b.changed = true ↔ t.mapDecorations (relocateBy vars) ≠ t) ∧
      (b.changed = true → (⟨t.name, .struct b.members b.span⟩ : StoredType) =
        t.mapDecorations (relocateBy vars)) := by
  intro b
  have hchanged := changed_foldl_setLocation (b := ofType place t) hslots
  have hmembers := members_foldl_setLocation (ofType place t) vars
  have hspan := (type_span_foldl_setLocation (ofType place t) vars).2
  obtain ⟨name, shape⟩ := t
  cases shape with
  | struct members span =>
      simp only [b, hchanged, hmembers, hspan]
      simp [ofType, StoredType.mapDecorations]
  | other type =>
      have hunchanged : ¬ b.changed = true := by
        rw [hchanged, hmembers]
        simp [ofType, StoredMember.mapDecorations]
      exact ⟨iff_of_false hunchanged fun hne => hne rfl, fun h => absurd h hunchanged⟩

end MemberBuffer

namespace StoredEntry

variable {r : StoredResult} {old : StoredType}

theorem mapDecorations_of_result (hr : s.result = some r)
    (f : LocationSlot → Decoration → Decoration) :
    s.mapDecorations f =
      { s.mapOwn f with types := s.types.modify r.type (StoredType.mapDecorations f) } := by
  rw [mapDecorations, hr]
  rfl

/-- Only the type of the result counts. -/
theorem apart_iff (hr : s.result = some r) (hold : s.types[r.type]? = some old) :
    s.Apart vars ↔ (old.mapDecorations (relocateBy vars) ≠ old →
      old.mapDecorations (relocateBy vars) ∉ s.types) := by
  constructor
  · intro h
    exact h r old hr hold
  · intro h r' t hr' ht
    rw [hr, Option.some_inj] at hr'
    subst hr'
    rw [hold, Option.some_inj] at ht
    exact ht ▸ h

/-- Behind a loop over slots that are all different, the type of the result is replaced as its
decorations were changed, unless it becomes another type of the table. -/
theorem finish?_mapOwn_eq_some_iff {t : StoredEntry} (hr : s.result = some r)
    (hold : s.types[r.type]? = some old) (hslots : (vars.map (·.slot)).Nodup) :
    LocationLoop.finish? ⟨s.mapOwn (relocateBy vars),
        some (vars.foldl MemberBuffer.setLocation (.ofType r.type old))⟩ = some t ↔
      s.Apart vars ∧ t = s.mapDecorations (relocateBy vars) := by
  obtain ⟨hchanged, hnew⟩ := MemberBuffer.foldl_setLocation_ofType hslots r.type old
  have htype : (vars.foldl MemberBuffer.setLocation (.ofType r.type old)).type = r.type := by
    rw [(MemberBuffer.type_span_foldl_setLocation _ vars).1, MemberBuffer.ofType]
    split <;> rfl
  generalize vars.foldl MemberBuffer.setLocation (.ofType r.type old) = b at *
  rw [LocationLoop.finish?_eq_some_iff (by rw [htype]; exact hold), apart_iff hr hold,
    ← hchanged, mapDecorations_of_result hr, htype]
  by_cases hb : b.changed = true
  · rw [if_pos hb, hnew hb, List.modify_eq_set_getElem?, hold]
    rfl
  · have hself : s.types.modify r.type (StoredType.mapDecorations (relocateBy vars)) =
        s.types := by
      refine modify_eq_self_iff.mpr fun a ha => ?_
      rw [hold, Option.some_inj] at ha
      exact ha ▸ not_not.mp (mt hchanged.mpr hb)
    have hsame : { s.mapOwn (relocateBy vars) with types := s.types } =
        s.mapOwn (relocateBy vars) := rfl
    rw [if_neg hb, hself, hsame, and_iff_right fun h => absurd h hb,
      and_iff_right fun h => absurd h hb]

/-- The locations of variables at different slots are written each at its own slot, unless
the type of the result becomes another one of the table. -/
theorem applyLocations?_eq_some_iff {t : StoredEntry}
    (hplace : ∀ r, s.result = some r → ∃ t, s.types[r.type]? = some t)
    (hindex : ∀ v ∈ vars, ∀ i, v.slot = .argument i → i < s.arguments.length)
    (hslots : (vars.map (·.slot)).Nodup) :
    s.applyLocations? vars = some t ↔
      s.Apart vars ∧ t = s.mapDecorations (relocateBy vars) := by
  have hrunning : LocationLoop.Running ⟨s, none⟩ := ⟨hplace, fun _ => rfl⟩
  obtain ⟨last, hrun, hentry, hpending⟩ := hrunning.exists_foldlM_step? hindex
  have hstart : LocationLoop.pending ⟨s, none⟩ = s.fresh? := rfl
  rw [applyLocations?, hrun, Option.bind_eq_bind, Option.bind_some,
    LocationLoop.finish?_of_pending, hentry, hpending, hstart]
  cases hr : s.result with
  | none =>
      have hfresh : s.fresh? = none := by rw [fresh?, hr, Option.bind_none]
      have hapart : s.Apart vars := fun r _ h => by simp [hr] at h
      have hmap : s.mapDecorations (relocateBy vars) = s.mapOwn (relocateBy vars) := by
        simp only [mapDecorations, hr]
        rfl
      rw [hfresh, hmap, Option.map_none, LocationLoop.finish?, Option.some_inj,
        and_iff_right hapart, eq_comm]
  | some r =>
      obtain ⟨old, hold⟩ := hplace r hr
      have hfresh : s.fresh? = some (.ofType r.type old) := by simp [fresh?, hr, hold]
      rw [hfresh, Option.map_some]
      exact finish?_mapOwn_eq_some_iff hr hold hslots

end StoredEntry

/-! ## Runs -/

namespace StoredEntry

variable {e : EntryPoint} {f g : LocationSlot → Decoration → Decoration}

/-- The type of a result that shows an entry point is in the table. -/
theorem Shows.exists_type (h : s.Shows e) (r : StoredResult) (hr : s.result = some r) :
    ∃ t, s.types[r.type]? = some t := by
  have hresult := h.result
  rw [hr] at hresult
  generalize e.result = shown at hresult
  cases hresult with
  | value ht => exact ⟨_, ht⟩
  | struct ht => exact ⟨_, ht⟩

theorem mapDecorations_mapDecorations :
    (s.mapDecorations f).mapDecorations g = s.mapDecorations fun slot d => g slot (f slot d) := by
  have hown := s.mapOwn_mapOwn (f := f) (g := g)
  obtain ⟨types, arguments, result⟩ := s
  cases result with
  | none => exact hown
  | some r =>
      have htypes : (types.modify r.type (StoredType.mapDecorations f)).modify r.type
          (StoredType.mapDecorations g) =
            types.modify r.type (StoredType.mapDecorations fun slot d => g slot (f slot d)) := by
        rw [List.modify_modify_eq]
        congr 1
        funext t
        exact StoredType.mapDecorations_mapDecorations t
      exact congrArg₂ (fun types (own : StoredEntry) => { own with types }) htypes hown

/-- Locations are all that is written. -/
theorem unlocated_mapDecorations_relocateBy (s : StoredEntry) (vars : List InterfaceVar) :
    (s.mapDecorations (relocateBy vars)).unlocated = s.unlocated := by
  rw [unlocated, mapDecorations_mapDecorations, unlocated]
  congr 1
  funext slot d
  exact EntryPoint.withLocation_zero_foldl_relocate vars slot d

/-- Writing locations into what is stored is writing them into the entry point. -/
theorem Shows.applyLocations?_eq (h : s.Shows e) (hapart : s.Apart vars)
    (hindex : ∀ v ∈ vars, ∀ i, v.slot = .argument i → i < e.arguments.length)
    (hslots : (vars.map (·.slot)).Nodup) :
    s.applyLocations? vars = some (s.mapDecorations (relocateBy vars)) ∧
      (s.mapDecorations (relocateBy vars)).Shows (vars.foldl EntryPoint.setLocation e) := by
  have hlength : s.arguments.length = e.arguments.length := by rw [h.arguments, List.length_map]
  refine ⟨(applyLocations?_eq_some_iff h.exists_type (hlength ▸ hindex) hslots).mpr
    ⟨hapart, rfl⟩, ?_⟩
  rw [EntryPoint.foldl_setLocation_eq_mapDecorations]
  exact h.mapDecorations

/-- Variables that are not at members of the result leave the table alone. -/
theorem types_mapDecorations_relocateBy (h : ∀ v ∈ vars, ∀ i, v.slot ≠ .resultMember i) :
    (s.mapDecorations (relocateBy vars)).types = s.types := by
  cases hr : s.result with
  | none => rw [mapDecorations, hr, Option.elim_none]
  | some r =>
      rw [mapDecorations_of_result hr]
      exact modify_eq_self_iff.mpr fun t _ => StoredType.mapDecorations_relocateBy h t

/-- Variables at arguments do not change how the result differs from other types. -/
theorem Apart.mapDecorations_relocateBy {outputs : List InterfaceVar} (hapart : s.Apart outputs)
    (h : ∀ v ∈ vars, ∀ i, v.slot ≠ .resultMember i) :
    (s.mapDecorations (relocateBy vars)).Apart outputs := by
  intro r t hr ht hne
  obtain ⟨old, hold, rfl⟩ := Option.map_eq_some_iff.mp hr
  rw [types_mapDecorations_relocateBy h] at ht ⊢
  exact hapart old t hold ht hne

end StoredEntry

end

end LegacyShader
