import LegacyShader.Proofs.Reservations

/-!
# Failures of attribute placement

A placement of vertex inputs can fail in two ways.  A pin *clashes* if its extent reaches
beyond the capacity or meets the extent of a pin before it.  An input without a pin has
*no room* if the pins and the inputs before it leave no extent of its size, where active
inputs come before inactive ones.  Both are stated on sets of slots, without a pool.

The first pass fails exactly at the first pin that clashes (`reservePins_eq_error_iff`).
The other two passes are one pass over the inputs without pins in the order of placement
(`placeAttribs_eq_error_iff`), which fails exactly at the first input that has no room
(`placeEach_fitStep_eq_error_iff`).  There is no third way to fail
(`placeAttribs_fails_exactly`).
-/

namespace LegacyShader

variable {pins : Pins} {capacity : Nat} {inputs before : List InterfaceVar} {v : InterfaceVar}
variable {pool left : LocationPool} {free : Set Nat} {e : PlacementError}

/-! ## Clashes of pins -/

namespace Pins

/-- The extent of a variable at its pin exceeds the capacity, or it meets that of a
variable before it. -/
def Clash (pins : Pins) (capacity : Nat) (before : List InterfaceVar) (v : InterfaceVar) : Prop :=
  ∃ x, pins.extent? v = some x ∧
    (¬ x.slots ⊆ Set.Ico 0 capacity ∨
      ∃ w ∈ before, ∃ y, pins.extent? w = some y ∧ ¬ Disjoint x.slots y.slots)

/-- No pin of a list clashes. -/
def Fit (pins : Pins) (capacity : Nat) (inputs : List InterfaceVar) : Prop :=
  ∀ before v after, inputs = before ++ v :: after → ¬ pins.Clash capacity before v

/-- What the pins of some inputs leave free. -/
def unreserved (pins : Pins) (capacity : Nat) (inputs : List InterfaceVar) : Set Nat :=
  Set.Ico 0 capacity \ occupied (pins.pinnedExtents inputs)

theorem not_fit_iff : ¬ pins.Fit capacity inputs ↔
    ∃ before v after, inputs = before ++ v :: after ∧ pins.Clash capacity before v := by
  simp only [Fit, not_forall, not_not, exists_prop]

theorem clash_iff : pins.Clash capacity before v ↔
    ∃ x, pins.extent? v = some x ∧ ¬ x.slots ⊆ pins.unreserved capacity before := by
  unfold Clash unreserved
  refine exists_congr fun x => and_congr_right fun _ => ?_
  rw [subset_sdiff_occupied_iff, not_and_or, pinnedExtents]
  refine or_congr_right ?_
  simp only [List.mem_filterMap, not_forall, exists_prop]
  constructor
  · rintro ⟨w, hw, y, hy, hmeet⟩
    exact ⟨y, ⟨w, hw, hy⟩, hmeet⟩
  · rintro ⟨y, ⟨w, hw, hy⟩, hmeet⟩
    exact ⟨w, hw, y, hy, hmeet⟩

theorem fit_of_inTurn
    (h : InTurn Extent.Within (Set.Ico 0 capacity) (pins.pinnedExtents inputs)) :
    pins.Fit capacity inputs := by
  rintro before v after rfl hclash
  obtain ⟨x, hx, hsub⟩ := clash_iff.mp hclash
  simp only [pinnedExtents, List.filterMap_append, List.filterMap_cons_some hx] at h
  exact hsub (InTurn.append_iff.mp h).2.1

/-- Two variables of one name have the same pin, and they meet there. -/
theorem not_fit_of_repeated {w : InterfaceVar} (hsub : [v, w].Sublist inputs)
    (hname : v.name = w.name) (hpinned : pins.pinned v = true) :
    ¬ pins.Fit capacity inputs := by
  obtain ⟨location, hpin⟩ := Option.isSome_iff_exists.mp hpinned
  obtain ⟨front, rest, rfl, hv, hrest⟩ := List.cons_sublist_iff.mp hsub
  obtain ⟨between, after, rfl⟩ := List.append_of_mem (List.singleton_sublist.mp hrest)
  refine not_fit_iff.mpr ⟨front ++ between, w, after, by simp, ⟨location, w.footprint⟩, ?_, ?_⟩
  · simp [extent?, ← hname, hpin]
  · refine .inr ⟨v, by simp [hv], ⟨location, v.footprint⟩, by simp [extent?, hpin], ?_⟩
    intro hdisjoint
    have hw := w.footprint_pos
    have hv := v.footprint_pos
    exact Set.disjoint_left.mp hdisjoint (show location ∈ _ from ⟨le_rfl, by simp; omega⟩)
      ⟨le_rfl, by simp; omega⟩

end Pins

theorem pinStep_eq_error_iff (hpool : pool.Holds free) :
    pinStep pins pool v = .error e ↔
      ∃ x, pins.extent? v = some x ∧ ¬ x.slots ⊆ free ∧
        e = .attribUnavailable v.name x.location := by
  cases hpin : pins.get? v.name with
  | none => simp [pinStep_of_unpinned hpin, Pins.extent?, hpin]
  | some location =>
      have hnone : pool.reserve? location v.footprint = none ↔
          ¬ (⟨location, v.footprint⟩ : Extent).slots ⊆ free :=
        hpool.reserve?_eq_none_iff v.footprint_pos
      cases hreserve : pool.reserve? location v.footprint with
      | none =>
          have hsub := hnone.mp hreserve
          simp [pinStep_of_taken hpin hreserve, Pins.extent?, hpin, hsub, eq_comm]
      | some next =>
          have hsub := mt hnone.mpr (by simp [hreserve])
          simp [pinStep_of_reserved hpin hreserve, Pins.extent?, hpin, hsub]

/-- What is left behind pins that fit. -/
theorem holds_of_reservePins {vs : List InterfaceVar}
    (h : reservePins pins (.ofCapacity capacity) inputs = .ok (left, vs)) :
    pins.Fit capacity inputs ∧ left.Holds (pins.unreserved capacity inputs) := by
  have hall := reservePins_eq_ok_iff.mp ⟨vs, h⟩
  obtain ⟨hturn, hleft⟩ := ((LocationPool.ofCapacity_holds capacity).reserveAll?_eq_some_iff
    fun x => Pins.size_pos_of_mem).mp hall
  exact ⟨Pins.fit_of_inTurn hturn, hleft⟩

/-- The step at which the first pass fails is that of a pin which clashes. -/
theorem clash_of_reservePins (h : reservePins pins (.ofCapacity capacity) inputs = .error e) :
    ∃ before v after x, inputs = before ++ v :: after ∧ pins.Fit capacity before ∧
      pins.Clash capacity before v ∧ pins.extent? v = some x ∧
      e = .attribUnavailable v.name x.location := by
  rw [reservePins_eq_placeEach] at h
  obtain ⟨before, v, after, next, ws, hsplit, hbefore, hstep⟩ := placeEach_eq_error_iff.mp h
  rw [← reservePins_eq_placeEach] at hbefore
  obtain ⟨hfit, hnext⟩ := holds_of_reservePins hbefore
  obtain ⟨x, hx, hsub, he⟩ := (pinStep_eq_error_iff hnext).mp hstep
  exact ⟨before, v, after, x, hsplit, hfit, Pins.clash_iff.mpr ⟨x, hx, hsub⟩, hx, he⟩

/-- Pins that do not clash are all reserved. -/
theorem exists_reservePins (h : pins.Fit capacity inputs) :
    ∃ left vs, reservePins pins (.ofCapacity capacity) inputs = .ok (left, vs) := by
  cases hpins : reservePins pins (.ofCapacity capacity) inputs with
  | error e =>
      obtain ⟨before, v, after, x, hsplit, -, hclash, -⟩ := clash_of_reservePins hpins
      exact absurd hclash (h before v after hsplit)
  | ok result => exact ⟨result.1, result.2, rfl⟩

/-- The first pass fails exactly at the first pin that clashes. -/
theorem reservePins_eq_error_iff :
    reservePins pins (.ofCapacity capacity) inputs = .error e ↔
      ∃ before v after x, inputs = before ++ v :: after ∧ pins.Fit capacity before ∧
        pins.Clash capacity before v ∧ pins.extent? v = some x ∧
        e = .attribUnavailable v.name x.location := by
  refine ⟨clash_of_reservePins, ?_⟩
  rintro ⟨before, v, after, x, hsplit, hfit, hclash, hx, he⟩
  obtain ⟨next, ws, hbefore⟩ := exists_reservePins hfit
  have hnext := (holds_of_reservePins hbefore).2
  obtain ⟨x', hx', hsub⟩ := Pins.clash_iff.mp hclash
  obtain rfl := Option.some.inj (hx.symm.trans hx')
  rw [reservePins_eq_placeEach] at hbefore ⊢
  exact placeEach_eq_error_iff.mpr ⟨before, v, after, next, ws, hsplit, hbefore,
    (pinStep_eq_error_iff hnext).mpr ⟨x, hx, hsub, he⟩⟩

/-! ## Inputs without room -/

/-- Some variables have found their places in turn, and they leave no extent for another
one. -/
def NoRoom (free : Set Nat) (before : List InterfaceVar) (v : InterfaceVar) : Prop :=
  ∃ placed : List InterfaceVar,
    placed.map InterfaceVar.unplaced = before.map InterfaceVar.unplaced ∧
      InTurn Extent.Lowest free (extents placed) ∧
      ∀ l, ¬ Set.Ico l (l + v.footprint) ⊆ free \ occupied (extents placed)

/-- A pass that finds places fails exactly at the first variable that has no room. -/
theorem placeEach_fitStep_eq_error_iff {space : Namespace} {vs : List InterfaceVar}
    (hpool : pool.Holds free) :
    placeEach (fitStep space) pool vs = .error e ↔
      ∃ before v after, vs = before ++ v :: after ∧ NoRoom free before v ∧
        e = .exhausted space v.name := by
  rw [placeEach_eq_error_iff]
  constructor
  · rintro ⟨before, v, after, next, placed, hsplit, hbefore, hstep⟩
    obtain ⟨hsame, hturn⟩ := (placeEach_fitStep_eq_ok_iff hpool).mp ⟨next, hbefore⟩
    have hnext := (inTurn_of_placeEach (fitStep_follows space) hpool hbefore).2
    rw [List.filter_true] at hnext
    obtain ⟨he, hfull⟩ := (fitStep_eq_error_iff hnext).mp hstep
    exact ⟨before, v, after, hsplit, ⟨placed, hsame, hturn, hfull⟩, he⟩
  · rintro ⟨before, v, after, hsplit, ⟨placed, hsame, hturn, hfull⟩, he⟩
    obtain ⟨next, hbefore⟩ : ∃ next, placeEach (fitStep space) pool before = .ok (next, placed) :=
      (placeEach_fitStep_eq_ok_iff hpool).mpr ⟨hsame, hturn⟩
    have hnext := (inTurn_of_placeEach (fitStep_follows space) hpool hbefore).2
    rw [List.filter_true] at hnext
    exact ⟨before, v, after, next, placed, hsplit, hbefore,
      (fitStep_eq_error_iff hnext).mpr ⟨he, hfull⟩⟩

/-- Reserving pins does not move inputs without pins. -/
theorem filter_unpinned_of_reservePins {vs : List InterfaceVar}
    (h : reservePins pins pool inputs = .ok (left, vs)) :
    vs.filter pins.unpinned = inputs.filter pins.unpinned := by
  rw [reservePins_eq_placeEach] at h
  refine filter_eq_of_placeEach (fun _ => rfl) ?_ h
  intro pool v left w hstep
  obtain ⟨-, -, rfl⟩ | ⟨location, hpin, -, rfl⟩ := pinStep_cases hstep
  · exact ⟨rfl, fun _ => rfl⟩
  · refine ⟨rfl, fun hunpinned => ?_⟩
    simp [Pins.unpinned, hpin] at hunpinned

/-- Two passes over the variables of a test, active ones first, are one pass over them in the
order of placement.  The first leaves the inactive ones as they are to the second. -/
theorem placeWhere_twice_eq_error_iff {space : Namespace} {keep : InterfaceVar → Bool}
    (hkeep : IgnoresLocation keep) {vs : List InterfaceVar} :
    (placeWhere space (fun v => keep v && v.active) pool vs = .error e ∨
      ∃ next ws, placeWhere space (fun v => keep v && v.active) pool vs = .ok (next, ws) ∧
        placeWhere space (fun v => keep v && !v.active) next ws = .error e) ↔
      placeEach (fitStep space) pool (placementOrder (vs.filter keep)) = .error e := by
  have hactive : IgnoresLocation fun v => keep v && v.active := hkeep.and fun _ => rfl
  have hinactive : IgnoresLocation fun v => keep v && !v.active := hkeep.and fun _ => rfl
  rw [← filter_append_filter_eq_placementOrder, placeEach_append_eq_error_iff,
    ← placeWhere_eq_error_iff hactive]
  refine or_congr_right ?_
  cases hfirst : placeWhere space (fun v => keep v && v.active) pool vs with
  | error e' =>
      have hfailed := (placeWhere_eq_error_iff hactive).mp hfirst
      simp [hfailed]
  | ok result =>
      obtain ⟨next, ws⟩ := result
      have hkept : ws.filter (fun v => keep v && !v.active) =
          vs.filter (fun v => keep v && !v.active) :=
        filter_eq_of_placeWhere hinactive (fun v hv => by simp_all) hfirst
      rw [placeEach_filter_of_placeWhere hactive hfirst, ← hkept]
      simp only [Except.ok.injEq, Prod.mk.injEq, exists_and_left, exists_eq_left', and_assoc,
        placeWhere_eq_error_iff hinactive]

theorem placeAttribs_eq_error_iff :
    placeAttribs pins capacity inputs = .error e ↔
      reservePins pins (.ofCapacity capacity) inputs = .error e ∨
        ∃ left vs, reservePins pins (.ofCapacity capacity) inputs = .ok (left, vs) ∧
          placeEach (fitStep .attributes) left (placementOrder (inputs.filter pins.unpinned)) =
            .error e := by
  simp only [placeAttribs, bind_eq_error_iff, Prod.exists]
  refine or_congr_right (exists_congr fun next => exists_congr fun vs => and_congr_right fun h => ?_)
  rw [← filter_unpinned_of_reservePins h, ← placeWhere_twice_eq_error_iff fun _ => rfl]
  refine or_congr_right (exists_congr fun last => exists_congr fun ws => and_congr_right fun _ => ?_)
  constructor
  · rintro (hthird | ⟨_, _, -, hpure⟩)
    · exact hthird
    · cases hpure
  · exact .inl

/-! ## The two ways to fail -/

/-- With pins that fit, exactly the inputs without pins can be in the way. -/
theorem placeAttribs_eq_error_iff_noRoom (hfit : pins.Fit capacity inputs) :
    placeAttribs pins capacity inputs = .error e ↔
      ∃ before v after, placementOrder (inputs.filter pins.unpinned) = before ++ v :: after ∧
        NoRoom (pins.unreserved capacity inputs) before v ∧
        e = .exhausted .attributes v.name := by
  obtain ⟨left, vs, hpins⟩ := exists_reservePins hfit
  have hleft := (holds_of_reservePins hpins).2
  rw [placeAttribs_eq_error_iff, ← placeEach_fitStep_eq_error_iff hleft, hpins]
  simp

/-- With pins that do not fit, the first one that clashes is in the way. -/
theorem placeAttribs_eq_error_iff_clash (hfit : ¬ pins.Fit capacity inputs) :
    placeAttribs pins capacity inputs = .error e ↔
      ∃ before v after x, inputs = before ++ v :: after ∧ pins.Fit capacity before ∧
        pins.Clash capacity before v ∧ pins.extent? v = some x ∧
        e = .attribUnavailable v.name x.location := by
  rw [placeAttribs_eq_error_iff, ← reservePins_eq_error_iff]
  refine or_iff_left ?_
  rintro ⟨left, vs, hpins, -⟩
  exact hfit (holds_of_reservePins hpins).1

theorem attribUnavailable_iff {name : String} {location : Nat} :
    placeAttribs pins capacity inputs = .error (.attribUnavailable name location) ↔
      ∃ before v after, inputs = before ++ v :: after ∧ pins.Fit capacity before ∧
        pins.Clash capacity before v ∧ v.name = name ∧ pins.get? name = some location := by
  by_cases hfit : pins.Fit capacity inputs
  · rw [placeAttribs_eq_error_iff_noRoom hfit]
    constructor
    · rintro ⟨before, v, after, -, -, he⟩
      cases he
    · rintro ⟨before, v, after, hsplit, -, hclash, -⟩
      exact absurd hclash (hfit before v after hsplit)
  · rw [placeAttribs_eq_error_iff_clash hfit]
    constructor
    · rintro ⟨before, v, after, x, hsplit, hbefore, hclash, hx, he⟩
      obtain ⟨location, hpin, rfl⟩ := Option.map_eq_some_iff.mp hx
      cases he
      exact ⟨before, v, after, hsplit, hbefore, hclash, rfl, hpin⟩
    · rintro ⟨before, v, after, hsplit, hbefore, hclash, rfl, hpin⟩
      refine ⟨before, v, after, ⟨location, v.footprint⟩, hsplit, hbefore, hclash, ?_, rfl⟩
      simp [Pins.extent?, hpin]

theorem exists_attribUnavailable_iff :
    (∃ name location, placeAttribs pins capacity inputs =
      .error (.attribUnavailable name location)) ↔ ¬ pins.Fit capacity inputs := by
  constructor
  · rintro ⟨name, location, h⟩ hfit
    obtain ⟨before, v, after, hsplit, -, hclash, -⟩ := attribUnavailable_iff.mp h
    exact hfit before v after hsplit hclash
  · intro hfit
    cases hpins : reservePins pins (.ofCapacity capacity) inputs with
    | error e =>
        obtain ⟨before, v, after, x, -, -, -, -, rfl⟩ := clash_of_reservePins hpins
        exact ⟨v.name, x.location, placeAttribs_eq_error_iff.mpr (.inl hpins)⟩
    | ok result => exact absurd (holds_of_reservePins hpins).1 hfit

theorem exhausted_iff {space : Namespace} {name : String} :
    placeAttribs pins capacity inputs = .error (.exhausted space name) ↔
      space = .attributes ∧ pins.Fit capacity inputs ∧
        ∃ before v after, placementOrder (inputs.filter pins.unpinned) = before ++ v :: after ∧
          NoRoom (pins.unreserved capacity inputs) before v ∧ v.name = name := by
  constructor
  · intro h
    have hfit : pins.Fit capacity inputs := by
      by_contra hfit
      obtain ⟨name', location, h'⟩ := exists_attribUnavailable_iff.mpr hfit
      cases h.symm.trans h'
    obtain ⟨before, v, after, hsplit, hroom, he⟩ := (placeAttribs_eq_error_iff_noRoom hfit).mp h
    cases he
    exact ⟨rfl, hfit, before, v, after, hsplit, hroom, rfl⟩
  · rintro ⟨rfl, hfit, before, v, after, hsplit, hroom, rfl⟩
    exact (placeAttribs_eq_error_iff_noRoom hfit).mpr ⟨before, v, after, hsplit, hroom, rfl⟩

theorem exists_placed_iff :
    (∃ placed, placeAttribs pins capacity inputs = .ok placed) ↔
      pins.Fit capacity inputs ∧
        ∀ before v after, placementOrder (inputs.filter pins.unpinned) = before ++ v :: after →
          ¬ NoRoom (pins.unreserved capacity inputs) before v := by
  constructor
  · rintro ⟨placed, h⟩
    have hfit : pins.Fit capacity inputs := by
      by_contra hfit
      obtain ⟨name, location, h'⟩ := exists_attribUnavailable_iff.mpr hfit
      cases h.symm.trans h'
    refine ⟨hfit, fun before v after hsplit hroom => ?_⟩
    have herror := (placeAttribs_eq_error_iff_noRoom hfit).mpr ⟨before, v, after, hsplit, hroom, rfl⟩
    cases h.symm.trans herror
  · rintro ⟨hfit, hroom⟩
    cases houtcome : placeAttribs pins capacity inputs with
    | error e =>
        obtain ⟨before, v, after, hsplit, hnone, -⟩ :=
          (placeAttribs_eq_error_iff_noRoom hfit).mp houtcome
        exact absurd hnone (hroom before v after hsplit)
    | ok placed => exact ⟨placed, rfl⟩

/-- Placing attributes fails with an unavailable pin exactly if a pin clashes, and then at
the first one that does.  So it always fails if two inputs share a pinned name.  It fails
for lack of room exactly if all pins fit and an input without a pin has no room, and then
at the first one in the order of placement.  Otherwise it succeeds. -/
theorem placeAttribs_fails_exactly (pins : Pins) (capacity : Nat) (inputs : List InterfaceVar) :
    let outcome := placeAttribs pins capacity inputs
    let order := placementOrder (inputs.filter pins.unpinned)
    let free := pins.unreserved capacity inputs
    (∀ name location, outcome = .error (.attribUnavailable name location) ↔
      ∃ before v after, inputs = before ++ v :: after ∧ pins.Fit capacity before ∧
        pins.Clash capacity before v ∧ v.name = name ∧ pins.get? name = some location) ∧
    ((∃ name location, outcome = .error (.attribUnavailable name location)) ↔
      ∃ before v after, inputs = before ++ v :: after ∧ pins.Clash capacity before v) ∧
    (∀ v w, [v, w].Sublist inputs → v.name = w.name → pins.pinned v = true →
      ∃ name location, outcome = .error (.attribUnavailable name location)) ∧
    (∀ space name, outcome = .error (.exhausted space name) ↔
      space = .attributes ∧ pins.Fit capacity inputs ∧
        ∃ before v after, order = before ++ v :: after ∧ NoRoom free before v ∧ v.name = name) ∧
    ((∃ placed, outcome = .ok placed) ↔
      pins.Fit capacity inputs ∧
        ∀ before v after, order = before ++ v :: after → ¬ NoRoom free before v) := by
  intro outcome order free
  refine ⟨fun name location => attribUnavailable_iff, ?_, ?_, fun space name => exhausted_iff,
    exists_placed_iff⟩
  · rw [← Pins.not_fit_iff]
    exact exists_attribUnavailable_iff
  · intro v w hsub hname hpinned
    exact exists_attribUnavailable_iff.mpr (Pins.not_fit_of_repeated hsub hname hpinned)

/-- A pinned matrix takes the last two of four locations, and a second input of its name
fails.  Without that one, a vector and a scalar leave no room for an inactive scalar, which
is named although it comes first. -/
theorem placeAttribs_fails_exactly_at_capacity :
    let input (name : String) (type : ShaderType) (index : Nat) (active : Bool) : InterfaceVar :=
      ⟨name, type, .argument index, 0, active⟩
    let spare := input "spare" (.scalar .f32) 0 false
    let model := input "model" (.matrix .two .two .f32) 1 true
    let place := input "place" (.vector .four .f32) 2 true
    let weight := input "weight" (.scalar .f32) 3 true
    let again := input "model" (.scalar .f32) 4 true
    let pins : Pins := [("model", 2)]
    let inputs := [spare, model, place, weight]
    ([model, again].Sublist [spare, model, place, again] ∧ model.name = again.name ∧
      pins.pinned model = true ∧
      ∃ name location, placeAttribs pins 4 [spare, model, place, again] =
        .error (.attribUnavailable name location)) ∧
    placeAttribs pins 4 inputs = .error (.exhausted .attributes "spare") ∧
      pins.Fit 4 inputs ∧
      ∃ before v after, placementOrder (inputs.filter pins.unpinned) = before ++ v :: after ∧
        NoRoom (pins.unreserved 4 inputs) before v ∧ v.name = "spare" := by
  intro input spare model place weight again pins inputs
  obtain ⟨-, -, hrepeated, -⟩ := placeAttribs_fails_exactly pins 4 [spare, model, place, again]
  obtain ⟨-, -, -, hexhausted, -⟩ := placeAttribs_fails_exactly pins 4 inputs
  have hsub : [model, again].Sublist [spare, model, place, again] :=
    .cons _ (.cons_cons _ (.cons _ (.refl _)))
  have hfull : placeAttribs pins 4 inputs = .error (.exhausted .attributes "spare") := rfl
  refine ⟨⟨hsub, rfl, rfl, hrepeated model again hsub rfl rfl⟩, hfull, ?_⟩
  exact ((hexhausted .attributes "spare").mp hfull).2

end LegacyShader
