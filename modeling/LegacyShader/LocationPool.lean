/-!
# Pools of free locations

Attributes, varyings and resource bindings are numbered from three separate
namespaces.  A *pool* holds the numbers of one namespace that are still free, as
a list of ranges in ascending order.  Numbers only ever leave a pool.

* `allocate?` takes a run of slots from the lowest range that has room for it.
* `reserve?` takes the run that starts at a given location.

Both fail without an effect.  A range that is used up disappears, and a range
that is cut in the middle leaves its two ends in its place, so the ranges stay
ascending and no two of them touch.  Both walk the list once and are structural
in it.
-/

namespace LegacyShader

/-- A non-empty run of free slots. -/
structure FreeRange where
  /-- The first free slot. -/
  location : Nat
  /-- The number of free slots. -/
  size : Nat
  deriving DecidableEq, Repr, Inhabited

/-- The first slot past a range. -/
def FreeRange.stop (r : FreeRange) : Nat := r.location + r.size

/-- What is left of a range when `[location, location + size)` is cut out of
it: its front, its back, both or neither. -/
def FreeRange.cut (r : FreeRange) (location size : Nat) : List FreeRange :=
  (if r.location < location then [⟨r.location, location - r.location⟩] else []) ++
    (if location + size < r.stop then [⟨location + size, r.stop - (location + size)⟩] else [])

/-- The free slots of one namespace. -/
structure LocationPool where
  /-- The free ranges, lowest first. -/
  ranges : List FreeRange
  deriving DecidableEq, Repr, Inhabited

namespace LocationPool

/-- The pool in which every slot below `capacity` is free. -/
def ofCapacity (capacity : Nat) : LocationPool :=
  ⟨if capacity = 0 then [] else [⟨0, capacity⟩]⟩

/-- A slot of the pool. -/
def Free (pool : LocationPool) (slot : Nat) : Prop :=
  ∃ r ∈ pool.ranges, r.location ≤ slot ∧ slot < r.stop

/-- Takes `size` slots off the front of the first range that has them.  The
result is the first slot taken and the ranges that are left. -/
def takeFront (size : Nat) : List FreeRange → Option (Nat × List FreeRange)
  | [] => none
  | r :: rest =>
      if size ≤ r.size then
        some (r.location,
          if size < r.size then ⟨r.location + size, r.size - size⟩ :: rest else rest)
      else
        (takeFront size rest).map fun (location, left) => (location, r :: left)

/-- Cuts `[location, location + size)` out of the range that contains it. -/
def carve (location size : Nat) : List FreeRange → Option (List FreeRange)
  | [] => none
  | r :: rest =>
      if r.location ≤ location ∧ location + size ≤ r.stop then
        some (r.cut location size ++ rest)
      else
        (carve location size rest).map (r :: ·)

/-- The lowest run of `size` free slots, and the pool without it. -/
def allocate? (pool : LocationPool) (size : Nat) : Option (Nat × LocationPool) :=
  (takeFront size pool.ranges).map fun (location, left) => (location, ⟨left⟩)

/-- The pool without the slots `[location, location + size)`, if all of them
are free. -/
def reserve? (pool : LocationPool) (location size : Nat) : Option LocationPool :=
  (carve location size pool.ranges).map fun left => ⟨left⟩

end LocationPool

end LegacyShader
