import LegacyShader.Proofs.Extents
import LegacyShader.Proofs.FreeSlots

/-!
# Runs of a pool

A pool serves one request after the other.  A request that is refused leaves the
pool as it is.  One that is granted takes an extent out of it.  A *run* is the pool
after some requests, with the extents it has granted.

`Answers` says how a plain set of free slots answers a request.  After every run, a
pool answers like the set of those slots below its capacity that it has not granted
(`PoolRun.refines_free_slots`).  The invariant behind it is `PoolRun.Sound`.  One
request keeps it (`PoolRun.Sound.step`), so every run has it.
-/

namespace LegacyShader

/-! ## Requests -/

/-- A request to a pool. -/
inductive PoolRequest where
  /-- For a number of slots, wherever they are. -/
  | allocate (size : Nat)
  /-- For the slots from a location on. -/
  | reserve (location size : Nat)
  deriving DecidableEq, Repr

/-- The number of slots that a request asks for. -/
def PoolRequest.size : PoolRequest → Nat
  | .allocate size => size
  | .reserve _ size => size

/-- The location that a request is granted, if it is, and the pool behind it. -/
def LocationPool.serve (pool : LocationPool) : PoolRequest → Option Nat × LocationPool
  | .allocate size =>
      match pool.allocate? size with
      | some (location, left) => (some location, left)
      | none => (none, pool)
  | .reserve location size =>
      match pool.reserve? location size with
      | some left => (some location, left)
      | none => (none, pool)

/-- How a set of free slots answers a request. -/
def Answers (free : Set Nat) : PoolRequest → Option Nat → Prop
  | .allocate size, some l => IsLeast {l | Set.Ico l (l + size) ⊆ free} l
  | .allocate size, none => ¬ ∃ l, Set.Ico l (l + size) ⊆ free
  | .reserve location size, some l =>
      l = location ∧ Set.Ico location (location + size) ⊆ free
  | .reserve location size, none => ¬ Set.Ico location (location + size) ⊆ free

/-- A set has one answer to a request. -/
theorem Answers.unique {free : Set Nat} {q : PoolRequest} {a b : Option Nat}
    (ha : Answers free q a) (hb : Answers free q b) : a = b := by
  cases q with
  | allocate size =>
      cases a <;> cases b
      · rfl
      · exact absurd ⟨_, hb.1⟩ ha
      · exact absurd ⟨_, ha.1⟩ hb
      · exact congrArg some (IsLeast.unique ha hb)
  | reserve location size =>
      cases a <;> cases b
      · rfl
      · exact absurd hb.2 ha
      · exact absurd ha.2 hb
      · exact congrArg some (ha.1.trans hb.1.symm)

namespace LocationPool

variable {pool : LocationPool} {free : Set Nat} {q : PoolRequest}

/-- A pool answers as the set of its free slots does. -/
theorem Holds.serve_answers (h : pool.Holds free) (hq : 0 < q.size) :
    Answers free q (pool.serve q).1 := by
  cases q with
  | allocate size =>
      simp only [serve]
      split
      next location left hsome => exact (h.of_allocate? hq hsome).1
      next hnone => exact not_exists.mpr ((h.allocate?_eq_none_iff hq).mp hnone)
  | reserve location size =>
      simp only [serve]
      split
      next left hsome => exact ⟨rfl, (h.of_reserve? hq hsome).1⟩
      next hnone => exact (h.reserve?_eq_none_iff hq).mp hnone

theorem serve_answer_iff (h : pool.Holds free) (hq : 0 < q.size) {answer : Option Nat} :
    (pool.serve q).1 = answer ↔ Answers free q answer := by
  constructor
  · rintro rfl
    exact h.serve_answers hq
  · exact (h.serve_answers hq).unique

/-- A refused request leaves the pool as it is. -/
theorem serve_refused (h : (pool.serve q).1 = none) : (pool.serve q).2 = pool := by
  cases q <;> simp only [serve] at h ⊢ <;> split at h <;> simp_all

/-- A granted request takes a free extent out of the pool, and nothing else. -/
theorem Holds.serve_granted (h : pool.Holds free) (hq : 0 < q.size) {location : Nat}
    (hgrant : (pool.serve q).1 = some location) :
    Set.Ico location (location + q.size) ⊆ free ∧
      (pool.serve q).2.Holds (free \ Set.Ico location (location + q.size)) := by
  cases q with
  | allocate size =>
      simp only [serve] at hgrant ⊢
      split at hgrant
      next l left hsome =>
        obtain rfl := Option.some.inj hgrant
        obtain ⟨hleast, hleft⟩ := h.of_allocate? hq hsome
        exact ⟨hleast.1, hleft⟩
      next => cases hgrant
  | reserve l size =>
      simp only [serve] at hgrant ⊢
      split at hgrant
      next left hsome =>
        obtain rfl := Option.some.inj hgrant
        exact h.of_reserve? hq hsome
      next => cases hgrant

end LocationPool

/-! ## Runs -/

/-- A pool and what it has granted so far. -/
structure PoolRun where
  /-- The pool. -/
  pool : LocationPool
  /-- The granted extents, oldest first. -/
  grants : List Extent
  deriving DecidableEq, Repr

namespace PoolRun

/-- Serves one more request. -/
def step (run : PoolRun) (q : PoolRequest) : PoolRun :=
  match run.pool.serve q with
  | (some location, pool) => ⟨pool, run.grants ++ [⟨location, q.size⟩]⟩
  | (none, pool) => ⟨pool, run.grants⟩

/-- The run of some requests on a new pool. -/
def ofRequests (capacity : Nat) (requests : List PoolRequest) : PoolRun :=
  requests.foldl step ⟨.ofCapacity capacity, []⟩

/-- The slots below a capacity that have not been granted. -/
def ungranted (capacity : Nat) (run : PoolRun) : Set Nat :=
  Set.Ico 0 capacity \ occupied run.grants

/-- Grants were free when they were made, and all other slots still are. -/
structure Sound (capacity : Nat) (run : PoolRun) : Prop where
  /-- Each grant was free in its turn. -/
  grants : InTurn Extent.Within (Set.Ico 0 capacity) run.grants
  /-- The pool has what is not granted. -/
  holds : run.pool.Holds (run.ungranted capacity)

theorem Sound.step {capacity : Nat} {run : PoolRun} (h : run.Sound capacity) {q : PoolRequest}
    (hq : 0 < q.size) : (run.step q).Sound capacity := by
  unfold PoolRun.step
  split
  next location pool hserve =>
    have hgrant : (run.pool.serve q).1 = some location := by rw [hserve]
    obtain ⟨hsub, hleft⟩ := h.holds.serve_granted hq hgrant
    rw [hserve] at hleft
    refine ⟨InTurn.append_iff.mpr ⟨h.grants, hsub, trivial⟩, ?_⟩
    have hungranted : run.ungranted capacity \ Set.Ico location (location + q.size) =
        ungranted capacity ⟨pool, run.grants ++ [⟨location, q.size⟩]⟩ := by
      simp [ungranted, Extent.slots, Set.sdiff_sdiff]
    exact hungranted ▸ hleft
  next pool hserve =>
    have hrefused : (run.pool.serve q).1 = none := by rw [hserve]
    obtain rfl : pool = run.pool := by rw [← LocationPool.serve_refused hrefused, hserve]
    exact h

theorem Sound.foldl {capacity : Nat} {run : PoolRun} (h : run.Sound capacity)
    {requests : List PoolRequest} (hpos : ∀ q ∈ requests, 0 < q.size) :
    (requests.foldl PoolRun.step run).Sound capacity := by
  induction requests generalizing run with
  | nil => exact h
  | cons q requests ih =>
      obtain ⟨hq, hrest⟩ := List.forall_mem_cons.mp hpos
      exact ih (h.step hq) hrest

/-- Every run is sound. -/
theorem sound_ofRequests (capacity : Nat) {requests : List PoolRequest}
    (hpos : ∀ q ∈ requests, 0 < q.size) : (ofRequests capacity requests).Sound capacity := by
  have hstart : Sound capacity ⟨.ofCapacity capacity, []⟩ :=
    ⟨trivial, by simpa [ungranted] using LocationPool.ofCapacity_holds capacity⟩
  exact hstart.foldl hpos

/-- What has been granted and what is free make up all slots below the capacity. -/
theorem Sound.cover {capacity : Nat} {run : PoolRun} (h : run.Sound capacity) :
    occupied run.grants ∪ {slot | run.pool.Free slot} = Set.Ico 0 capacity := by
  rw [h.holds.free_eq]
  exact Set.union_sdiff_cancel h.grants.occupied_subset

/-- After every run, a pool answers each request as the set of slots does that have
not been granted.  A refused request changes nothing.  A granted one takes exactly
its extent out of the free slots.  So no two grants meet, and no slot is lost. -/
theorem refines_free_slots (capacity : Nat) (requests : List PoolRequest)
    (hpos : ∀ q ∈ requests, 0 < q.size) :
    let run := ofRequests capacity requests
    let free := Set.Ico 0 capacity \ occupied run.grants
    (∀ q : PoolRequest, 0 < q.size → ∀ answer,
      (run.pool.serve q).1 = answer ↔ Answers free q answer) ∧
    (∀ q : PoolRequest, (run.pool.serve q).1 = none → (run.pool.serve q).2 = run.pool) ∧
    (∀ q : PoolRequest, 0 < q.size → ∀ l, (run.pool.serve q).1 = some l →
      {slot | (run.pool.serve q).2.Free slot} = free \ Set.Ico l (l + q.size)) ∧
    run.grants.Pairwise (fun d e => Disjoint d.slots e.slots) ∧
    {slot | run.pool.Free slot} = free ∧
    occupied run.grants ∪ {slot | run.pool.Free slot} = Set.Ico 0 capacity := by
  intro run free
  have hsound : run.Sound capacity := sound_ofRequests capacity hpos
  refine ⟨?_, ?_, ?_, ?_, ?_, ?_⟩
  · intro q hq answer
    exact LocationPool.serve_answer_iff hsound.holds hq
  · intro q hrefused
    exact LocationPool.serve_refused hrefused
  · intro q hq l hgrant
    exact (hsound.holds.serve_granted hq hgrant).2.free_eq
  · exact hsound.grants.pairwise_disjoint
  · exact hsound.holds.free_eq
  · exact hsound.cover

/-- A reservation in the middle, a request for which no range is large enough, and
one that goes into the front.  The lowest place for three more is behind the
reservation. -/
theorem refines_free_slots_around_hole :
    let requests : List PoolRequest := [.reserve 3 2, .allocate 4, .allocate 2]
    let run := ofRequests 8 requests
    (∀ q ∈ requests, 0 < q.size) ∧ run.grants = [⟨3, 2⟩, ⟨0, 2⟩] ∧
      (run.pool.serve (.allocate 3)).1 = some 5 ∧
      IsLeast {l | Set.Ico l (l + 3) ⊆ Set.Ico 0 8 \ occupied run.grants} 5 ∧
      occupied run.grants ∪ {slot | run.pool.Free slot} = Set.Ico 0 8 := by
  intro requests run
  have hpos : ∀ q ∈ requests, 0 < q.size := by decide
  obtain ⟨hanswer, -, -, -, -, hcover⟩ := refines_free_slots 8 requests hpos
  have hserve : (run.pool.serve (.allocate 3)).1 = some 5 := by decide
  exact ⟨hpos, by decide, hserve, (hanswer (.allocate 3) (by decide) (some 5)).mp hserve, hcover⟩

end PoolRun

end LegacyShader
