import LegacyShader.Stage

/-!
# Sets of stages

Some code can only run in certain stages.
-/

namespace LegacyShader

/-- The stages in which something can run. -/
structure StageSet where
  /-- Whether it can run in a vertex stage. -/
  vertex : Bool := true
  /-- Whether it can run in a fragment stage. -/
  fragment : Bool := true
  deriving DecidableEq, Repr, Inhabited

namespace StageSet

/-- All stages. -/
def all : StageSet := ⟨true, true⟩

/-- The fragment stage only. -/
def fragmentOnly : StageSet := ⟨false, true⟩

/-- No stage. -/
def nowhere : StageSet := ⟨false, false⟩

/-- The stages that two sets share. -/
def meet (a b : StageSet) : StageSet := ⟨a.vertex && b.vertex, a.fragment && b.fragment⟩

/-- Whether a stage is in a set. -/
def contains (s : StageSet) : Stage → Bool
  | .vertex => s.vertex
  | .fragment => s.fragment

end StageSet

end LegacyShader
