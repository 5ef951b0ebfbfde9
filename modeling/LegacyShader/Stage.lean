/-!
# Shader stages

A program has two stages.  The vertex stage runs first and feeds the fragment
stage.  Every list that mixes both stages puts the vertex entries first.
-/

namespace LegacyShader

/-- A programmable stage of the pipeline. -/
inductive Stage where
  /-- Runs once per vertex. -/
  | vertex
  /-- Runs once per fragment. -/
  | fragment
  deriving DecidableEq, Repr, Inhabited

/-- The word for a stage in running text, as in log lines. -/
def Stage.word : Stage → String
  | .vertex => "vertex"
  | .fragment => "fragment"

/-- The capitalised name of a stage, as in stored reflections. -/
def Stage.name : Stage → String
  | .vertex => "Vertex"
  | .fragment => "Fragment"

/-- The stages in the order of their index in a program file. -/
def Stage.all : List Stage := [.vertex, .fragment]

end LegacyShader
