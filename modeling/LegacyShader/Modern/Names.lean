import LegacyShader.Stage

/-!
# Names in modern source

A legacy uniform may need another name in modern source.  A combined sampler
becomes a texture and a sampler, and a small matrix is stored in a wider one.  The
new names are the old ones behind fixed words, so that the old ones can be read
off again.
-/

namespace LegacyShader.Modern

/-- The word in front of the name of a texture. -/
def textureMark : String := "compat_texture_"

/-- The word in front of the name of a sampler. -/
def samplerMark : String := "compat_sampler_"

/-- The word in front of the name of a stored matrix. -/
def mat2Mark : String := "compat_mat2_"

/-- The color output of a fragment shader. -/
def colorOutput : String := "compat_FragColor"

/-- The name of the uniform block of a stage. -/
def blockName : Stage → String
  | .vertex => "compat_VertexUniforms"
  | .fragment => "compat_FragmentUniforms"

end LegacyShader.Modern
