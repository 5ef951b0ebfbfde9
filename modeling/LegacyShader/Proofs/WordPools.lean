import LegacyShader.Proofs.CheckedWords
import LegacyShader.Proofs.PoolRuns

/-!
# Pools on words

The ranges of a pool are kept as words of 32 bits.  Where a request for given slots ends is a
word of 64 bits, since it can lie past the last word of 32.  `WordPool` serves requests with
checked operations on such words.

A pool on words answers as the pool of the same ranges does, without a fault, as long as no
range stops past the last word (`WordPool.exists_serve`).  The free list of a run stays below
its capacity, because what is free has not been granted (`PoolRun.Sound.freeList`).  So no run
ever faults, at any capacity (`WordPool.run_exact`).
-/

namespace LegacyShader

/-! ## Free lists -/

/-- Ranges as a pool keeps them. -/
structure FreeList (capacity : Nat) (ranges : List FreeRange) : Prop where
  /-- The ranges are strictly ascending. -/
  ascending : ranges.Pairwise fun a b => a.location < b.location
  /-- No range is empty. -/
  nonempty : ∀ r ∈ ranges, 1 ≤ r.size
  /-- Each range stops before the later ones start, so no two of them touch. -/
  apart : ranges.Pairwise fun a b => a.stop < b.location
  /-- No range goes past the capacity. -/
  below : ∀ r ∈ ranges, r.stop ≤ capacity

/-- The ranges of a sound run are a free list.  The last slot of a range is free, and so it is
below the capacity. -/
theorem PoolRun.Sound.freeList {capacity : Nat} {run : PoolRun} (h : run.Sound capacity) :
    FreeList capacity run.pool.ranges := by
  obtain ⟨hnonempty, hordered⟩ := h.holds.separated
  refine ⟨hordered.imp fun {a b} hbefore => ?_, hnonempty, hordered, fun r hr => ?_⟩
  · exact Nat.lt_of_le_of_lt (Nat.le_add_right _ _) hbefore
  · have hsize := hnonempty r hr
    have hlast : run.pool.Free (r.stop - 1) := by
      refine ⟨r, hr, ?_⟩
      simp only [FreeRange.stop]
      omega
    have hungranted : r.stop - 1 ∈ run.ungranted capacity := h.holds.free_eq ▸ hlast
    have hlt : r.stop - 1 < capacity := hungranted.1.2
    omega

/-! ## Ranges of words -/

/-- A run of free slots, on words. -/
structure WordRange where
  /-- The first free slot. -/
  location : UInt32
  /-- The number of free slots. -/
  size : UInt32
  deriving DecidableEq, Repr

namespace WordRange

/-- The range of the same numbers. -/
def range (r : WordRange) : FreeRange := ⟨r.location.toNat, r.size.toNat⟩

/-- The first slot past a run, which need not be a word of 32 bits. -/
def stopOf (location size : UInt32) : Checked UInt64 :=
  Checked.add64 location.toUInt64 size.toUInt64

/-- What is left of a range in front of a location. -/
def front (r : WordRange) (location : UInt32) : Checked (List WordRange) :=
  if r.location < location then do
    let size ← Checked.sub32 location r.location
    return [⟨r.location, size⟩]
  else return []

/-- What is left behind a run that stops at `stop`, of a range that stops at `last`. -/
def back (stop last : UInt64) : Checked (List WordRange) :=
  if stop < last then do
    let location ← Checked.narrow stop
    let size ← Checked.narrow (← Checked.sub64 last stop)
    return [⟨location, size⟩]
  else return []

/-- Takes slots off the front of the first range that has them. -/
def takeFront (size : UInt32) : List WordRange → Checked (Option (UInt32 × List WordRange))
  | [] => return none
  | r :: rest =>
      if size ≤ r.size then
        if size < r.size then do
          let location ← Checked.add32 r.location size
          let left ← Checked.sub32 r.size size
          return some (r.location, ⟨location, left⟩ :: rest)
        else return some (r.location, rest)
      else do
        let found ← takeFront size rest
        return found.map fun x => (x.1, r :: x.2)

/-- Cuts the slots from `location` up to `stop` out of the range that contains them. -/
def carve (location : UInt32) (stop : UInt64) : List WordRange → Checked (Option (List WordRange))
  | [] => return none
  | r :: rest => do
      let last ← stopOf r.location r.size
      if r.location ≤ location ∧ stop ≤ last then do
        let front ← r.front location
        let back ← back stop last
        return some (front ++ back ++ rest)
      else do
        let found ← carve location stop rest
        return found.map (r :: ·)

variable {r : WordRange} {location size : UInt32} {ranges : List WordRange}

/-- Where a run stops is always a word of 64 bits. -/
theorem exists_stopOf (location size : UInt32) :
    ∃ stop, stopOf location size = .ok stop ∧ stop.toNat = location.toNat + size.toNat := by
  have hlocation := location.toNat_lt_size
  have hsize := size.toNat_lt_size
  have hfits : location.toUInt64.toNat + size.toUInt64.toNat < UInt64.size :=
    (Nat.add_lt_add hlocation hsize).trans (by decide)
  exact Checked.exists_add64 hfits

theorem exists_front (r : WordRange) (location : UInt32) :
    ∃ left, r.front location = .ok left ∧ left.map range =
      if r.range.location < location.toNat then
        [⟨r.range.location, location.toNat - r.range.location⟩] else [] := by
  unfold front
  split
  next hlt =>
    have hlt' : r.location.toNat < location.toNat := UInt32.lt_iff_toNat_lt.mp hlt
    obtain ⟨size, hsub, hsize⟩ := Checked.exists_sub32 hlt'.le
    refine ⟨[⟨r.location, size⟩], ?_, ?_⟩
    · rw [hsub]
      rfl
    · rw [range, if_pos hlt', ← hsize]
      rfl
  next hge =>
    rw [UInt32.lt_iff_toNat_lt] at hge
    exact ⟨[], rfl, (if_neg hge).symm⟩

/-- The back of a range that stops at a word of 32 bits is a range of words. -/
theorem exists_back {stop last : UInt64} (hlast : last.toNat < UInt32.size) :
    ∃ left, back stop last = .ok left ∧ left.map range =
      if stop.toNat < last.toNat then [⟨stop.toNat, last.toNat - stop.toNat⟩] else [] := by
  unfold back
  split
  next hlt =>
    have hlt' : stop.toNat < last.toNat := UInt64.lt_iff_toNat_lt.mp hlt
    obtain ⟨location, hnarrow, hlocation⟩ := Checked.exists_narrow (hlt'.trans hlast)
    obtain ⟨rest, hsub, hrest⟩ := Checked.exists_sub64 hlt'.le
    have hfits : rest.toNat < UInt32.size :=
      hrest ▸ (Nat.sub_le _ _).trans_lt hlast
    obtain ⟨size, hnarrow', hsize⟩ := Checked.exists_narrow hfits
    refine ⟨[⟨location, size⟩], ?_, ?_⟩
    · rw [hnarrow, hsub]
      simp only [bind, Except.bind, hnarrow']
      rfl
    · rw [if_pos hlt', ← hrest, ← hsize, ← hlocation]
      rfl
  next hge =>
    rw [UInt64.lt_iff_toNat_lt] at hge
    exact ⟨[], rfl, (if_neg hge).symm⟩

/-- Slots are taken off the front as from the ranges of the same numbers. -/
theorem exists_takeFront (size : UInt32) (hbelow : ∀ r ∈ ranges, r.range.stop < UInt32.size) :
    ∃ found, takeFront size ranges = .ok found ∧
      found.map (fun x => (x.1.toNat, x.2.map range)) =
        LocationPool.takeFront size.toNat (ranges.map range) := by
  induction ranges with
  | nil => exact ⟨none, rfl, rfl⟩
  | cons r rest ih =>
      obtain ⟨hr, hrest⟩ := List.forall_mem_cons.mp hbelow
      rw [takeFront, List.map_cons, LocationPool.takeFront]
      have hfits : size ≤ r.size ↔ size.toNat ≤ r.range.size := UInt32.le_iff_toNat_le
      have hpart : size < r.size ↔ size.toNat < r.range.size := UInt32.lt_iff_toNat_lt
      simp only [hfits, hpart]
      split
      next hle =>
        split
        next hlt =>
          have hroom : r.location.toNat + size.toNat < UInt32.size :=
            (Nat.add_le_add_left hle _).trans_lt hr
          obtain ⟨location, hadd, hlocation⟩ := Checked.exists_add32 hroom
          obtain ⟨left, hsub, hleft⟩ := Checked.exists_sub32 hle
          refine ⟨some (r.location, ⟨location, left⟩ :: rest), ?_, ?_⟩
          · simp only [hadd, hsub, bind, Except.bind]
            rfl
          · rw [Option.map_some, List.map_cons, range, hlocation, hleft]
            rfl
        next => exact ⟨some (r.location, rest), rfl, rfl⟩
      next =>
        obtain ⟨found, hfound, hsame⟩ := ih hrest
        refine ⟨found.map fun x => (x.1, r :: x.2), ?_, ?_⟩
        · rw [hfound]
          rfl
        · rw [← hsame]
          cases found <;> rfl

/-- Slots are cut out as from the ranges of the same numbers. -/
theorem exists_carve {stop : UInt64} (hstop : stop.toNat = location.toNat + size.toNat)
    (hbelow : ∀ r ∈ ranges, r.range.stop < UInt32.size) :
    ∃ found, carve location stop ranges = .ok found ∧
      found.map (List.map range) =
        LocationPool.carve location.toNat size.toNat (ranges.map range) := by
  induction ranges with
  | nil => exact ⟨none, rfl, rfl⟩
  | cons r rest ih =>
      obtain ⟨hr, hrest⟩ := List.forall_mem_cons.mp hbelow
      obtain ⟨last, hsum, hlast⟩ := exists_stopOf r.location r.size
      have hlast' : last.toNat = r.range.stop := hlast
      have hcontains : (r.location ≤ location ∧ stop ≤ last) ↔
          (r.range.location ≤ location.toNat ∧ location.toNat + size.toNat ≤ r.range.stop) := by
        rw [UInt32.le_iff_toNat_le, UInt64.le_iff_toNat_le, hstop, hlast']
        rfl
      rw [carve, List.map_cons, LocationPool.carve, hsum]
      simp only [bind, Except.bind, hcontains]
      split
      next =>
        obtain ⟨front, hfront, hfronts⟩ := r.exists_front location
        obtain ⟨back, hback, hbacks⟩ := @exists_back stop last (hlast' ▸ hr)
        refine ⟨some (front ++ back ++ rest), ?_, ?_⟩
        · simp only [hfront, hback]
          rfl
        · rw [Option.map_some, List.map_append, List.map_append, hfronts, hbacks, hstop, hlast']
          rfl
      next =>
        obtain ⟨found, hfound, hsame⟩ := ih hrest
        refine ⟨found.map (r :: ·), ?_, ?_⟩
        · rw [hfound]
          rfl
        · rw [← hsame]
          cases found <;> rfl

end WordRange

/-! ## Pools of words -/

/-- A request to a pool, on words. -/
inductive WordRequest where
  /-- For a number of slots, wherever they are. -/
  | allocate (size : UInt32)
  /-- For the slots from a location on. -/
  | reserve (location size : UInt32)
  deriving DecidableEq, Repr

/-- The request for the same numbers. -/
def WordRequest.request : WordRequest → PoolRequest
  | .allocate size => .allocate size.toNat
  | .reserve location size => .reserve location.toNat size.toNat

/-- The free slots of one namespace, on words. -/
structure WordPool where
  /-- The free ranges, lowest first. -/
  ranges : List WordRange
  deriving DecidableEq, Repr

namespace WordPool

/-- The pool of the same numbers. -/
def pool (p : WordPool) : LocationPool := ⟨p.ranges.map WordRange.range⟩

/-- The pool in which every slot below `capacity` is free. -/
def ofCapacity (capacity : UInt32) : WordPool :=
  ⟨if capacity = 0 then [] else [⟨0, capacity⟩]⟩

/-- The location that a request is granted, if it is, and the pool behind it. -/
def serve (p : WordPool) : WordRequest → Checked (Option UInt32 × WordPool)
  | .allocate size => do
      match ← WordRange.takeFront size p.ranges with
      | some (location, left) => return (some location, ⟨left⟩)
      | none => return (none, p)
  | .reserve location size => do
      let stop ← WordRange.stopOf location size
      match ← WordRange.carve location stop p.ranges with
      | some left => return (some location, ⟨left⟩)
      | none => return (none, p)

/-- The pool behind some requests. -/
def run (p : WordPool) : List WordRequest → Checked WordPool
  | [] => return p
  | q :: requests => do
      let (_, next) ← p.serve q
      next.run requests

variable {p : WordPool} {q : WordRequest}

theorem pool_ofCapacity (capacity : UInt32) :
    (ofCapacity capacity).pool = .ofCapacity capacity.toNat := by
  have hzero : capacity = 0 ↔ capacity.toNat = 0 := UInt32.toNat_inj.symm
  simp only [pool, ofCapacity, LocationPool.ofCapacity, hzero]
  split <;> rfl

/-- A pool whose ranges stop at words serves a request without a fault, and as the pool of
the same numbers does. -/
theorem exists_serve (hbelow : ∀ r ∈ p.pool.ranges, r.stop < UInt32.size) (q : WordRequest) :
    ∃ answer next, p.serve q = .ok (answer, next) ∧
      p.pool.serve q.request = (answer.map UInt32.toNat, next.pool) := by
  have hwords : ∀ r ∈ p.ranges, r.range.stop < UInt32.size := fun r hr =>
    hbelow r.range (List.mem_map_of_mem hr)
  cases q with
  | allocate size =>
      obtain ⟨found, hfound, hsame⟩ := WordRange.exists_takeFront size hwords
      have hallocate : p.pool.allocate? size.toNat =
          found.map fun x => (x.1.toNat, (⟨x.2⟩ : WordPool).pool) := by
        rw [LocationPool.allocate?, pool, ← hsame]
        cases found <;> rfl
      simp only [serve, WordRequest.request, LocationPool.serve, hfound, hallocate, bind,
        Except.bind]
      cases found with
      | none => exact ⟨none, p, rfl, rfl⟩
      | some x => exact ⟨some x.1, ⟨x.2⟩, rfl, rfl⟩
  | reserve location size =>
      obtain ⟨stop, hsum, hstop⟩ := WordRange.exists_stopOf location size
      obtain ⟨found, hfound, hsame⟩ := WordRange.exists_carve hstop hwords
      have hreserve : p.pool.reserve? location.toNat size.toNat =
          found.map fun left => (⟨left⟩ : WordPool).pool := by
        rw [LocationPool.reserve?, pool, ← hsame]
        cases found <;> rfl
      simp only [serve, WordRequest.request, LocationPool.serve, hsum, hfound, hreserve, bind,
        Except.bind]
      cases found with
      | none => exact ⟨none, p, rfl, rfl⟩
      | some left => exact ⟨some location, ⟨left⟩, rfl, rfl⟩

end WordPool

/-! ## Runs -/

theorem PoolRun.pool_step (run : PoolRun) (q : PoolRequest) :
    (run.step q).pool = (run.pool.serve q).2 := by
  unfold step
  split
  next hserve => rw [hserve]
  next hserve => rw [hserve]

namespace WordPool

variable {p : WordPool} {run : PoolRun} {capacity : Nat}

/-- In a sound run below the last word, no range stops past it. -/
theorem stop_lt_of_sound (hcapacity : capacity < UInt32.size) (hsound : run.Sound capacity) :
    ∀ r ∈ run.pool.ranges, r.stop < UInt32.size := fun r hr =>
  (hsound.freeList.below r hr).trans_lt hcapacity

/-- Requests are served one after the other without a fault, as in the run of the same
numbers. -/
theorem exists_run (hcapacity : capacity < UInt32.size) (hsound : run.Sound capacity)
    (hpool : p.pool = run.pool) {requests : List WordRequest}
    (hpos : ∀ q ∈ requests, 0 < q.request.size) :
    ∃ next, p.run requests = .ok next ∧
      next.pool = ((requests.map WordRequest.request).foldl PoolRun.step run).pool := by
  induction requests generalizing p run with
  | nil => exact ⟨p, rfl, hpool⟩
  | cons q requests ih =>
      obtain ⟨hq, hrest⟩ := List.forall_mem_cons.mp hpos
      obtain ⟨answer, next, hserve, hsame⟩ :=
        exists_serve (hpool ▸ stop_lt_of_sound hcapacity hsound) q
      have hnext : next.pool = (run.step q.request).pool := by
        rw [PoolRun.pool_step, ← hpool, hsame]
      obtain ⟨last, hrun, hlast⟩ := ih (hsound.step hq) hnext hrest
      refine ⟨last, ?_, hlast⟩
      simp only [WordPool.run, hserve, bind, Except.bind, hrun]

/-- From every capacity, requests for at least one slot each are served without an overflow,
an underflow or a truncation, and so is any request after them.  The free list is that of the
run of the same numbers: strictly ascending, without empty ranges or ranges that touch, and
below the capacity. -/
theorem run_exact (capacity : UInt32) (requests : List WordRequest)
    (hpos : ∀ q ∈ requests, 0 < q.request.size) :
    ∃ p, (ofCapacity capacity).run requests = .ok p ∧
      p.pool = (PoolRun.ofRequests capacity.toNat (requests.map WordRequest.request)).pool ∧
      FreeList capacity.toNat p.pool.ranges ∧
      ∀ q, ∃ answer next, p.serve q = .ok (answer, next) ∧
        p.pool.serve q.request = (answer.map UInt32.toNat, next.pool) := by
  have hcapacity := capacity.toNat_lt_size
  have hstart : PoolRun.Sound capacity.toNat ⟨.ofCapacity capacity.toNat, []⟩ :=
    PoolRun.sound_ofRequests capacity.toNat (List.forall_mem_nil _)
  obtain ⟨p, hrun, hpool⟩ := exists_run hcapacity hstart (pool_ofCapacity capacity) hpos
  have hsound : (PoolRun.ofRequests capacity.toNat (requests.map WordRequest.request)).Sound
      capacity.toNat := by
    refine PoolRun.sound_ofRequests _ fun q hq => ?_
    obtain ⟨w, hw, rfl⟩ := List.mem_map.mp hq
    exact hpos w hw
  refine ⟨p, hrun, hpool, ?_, ?_⟩
  · rw [hpool]
    exact hsound.freeList
  · refine exists_serve ?_
    rw [hpool]
    exact stop_lt_of_sound hcapacity hsound

/-- The largest capacity.  The last slot is reserved, a request that stops past the last word
is refused, a hole is cut into the front, and the range behind it is used up but for a slot. -/
theorem run_exact_at_last_word :
    let requests : List WordRequest := [.reserve 4294967294 1, .reserve 4294967295 4294967295,
      .reserve 2 3, .allocate 4294967288]
    let p : WordPool := ⟨[⟨0, 2⟩, ⟨4294967293, 1⟩]⟩
    (∀ q ∈ requests, 0 < q.request.size) ∧ (ofCapacity 4294967295).run requests = .ok p ∧
      FreeList 4294967295 p.pool.ranges ∧
      ∃ answer next, p.serve (.reserve 4294967293 1) = .ok (answer, next) ∧
        p.pool.serve (.reserve 4294967293 1) = (answer.map UInt32.toNat, next.pool) := by
  intro requests p
  have hpos : ∀ q ∈ requests, 0 < q.request.size := by decide
  have hrun : (ofCapacity 4294967295).run requests = .ok p := by decide +kernel
  obtain ⟨p', hrun', -, hlist, hserve⟩ := run_exact 4294967295 requests hpos
  obtain rfl : p = p' := Except.ok.inj (hrun.symm.trans hrun')
  exact ⟨hpos, hrun, hlist, hserve (.reserve 4294967293 1)⟩

end WordPool

end LegacyShader
