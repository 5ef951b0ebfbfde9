/-!
# Formats of texels

How the texels of an image lie in memory.  Most formats have one, two or four channels of
equal width, and are written as the channels, the width and a mark for the coding of a channel.
The remaining ones pack three or four channels into 32 bits.
-/

namespace LegacyShader

/-- How a channel of a texel is coded. -/
inductive TexelCoding where
  /-- A number from zero to one. -/
  | unorm
  /-- A number from minus one to one. -/
  | snorm
  /-- An unsigned integer. -/
  | uint
  /-- A signed integer. -/
  | sint
  /-- A floating point number. -/
  | float
  deriving DecidableEq, Repr, Inhabited

/-- The channels of a texel of equal channels. -/
inductive TexelChannels where
  /-- One channel. -/
  | r
  /-- Two channels. -/
  | rg
  /-- Four channels. -/
  | rgba
  deriving DecidableEq, Repr, Inhabited

/-- The width of a channel. -/
inductive TexelWidth where
  /-- Eight bits. -/
  | bits8
  /-- Sixteen bits. -/
  | bits16
  /-- Thirty-two bits. -/
  | bits32
  deriving DecidableEq, Repr, Inhabited

/-- The format of a texel. -/
inductive TexelFormat where
  /-- Channels of equal width. -/
  | equal (channels : TexelChannels) (width : TexelWidth) (coding : TexelCoding)
  /-- Three channels of ten bits and one of two. -/
  | rgb10a2 (coding : TexelCoding)
  /-- Two channels of eleven bits and one of ten, all floating point. -/
  | rg11b10
  deriving DecidableEq, Repr, Inhabited

namespace TexelFormat

/-- The coding of the channels. -/
def coding : TexelFormat → TexelCoding
  | .equal _ _ coding | .rgb10a2 coding => coding
  | .rg11b10 => .float

/-! ## In sources -/

/-- The mark of a coding in sources. -/
def codingMark : TexelCoding → String
  | .unorm => ""
  | .snorm => "_snorm"
  | .uint => "ui"
  | .sint => "i"
  | .float => "f"

/-- The letters of some channels in sources. -/
def channelLetters : TexelChannels → String
  | .r => "r"
  | .rg => "rg"
  | .rgba => "rgba"

/-- The width of a channel in digits. -/
def widthDigits : TexelWidth → String
  | .bits8 => "8"
  | .bits16 => "16"
  | .bits32 => "32"

/-- The word for a format in sources. -/
def word : TexelFormat → String
  | .equal channels width coding =>
      channelLetters channels ++ widthDigits width ++ codingMark coding
  | .rgb10a2 coding => "rgb10_a2" ++ codingMark coding
  | .rg11b10 => "r11f_g11f_b10f"

/-- The codings of a width.  Wide channels are not scaled to one, and narrow ones are no
floating point numbers. -/
def codingsOf : TexelWidth → List TexelCoding
  | .bits8 => [.unorm, .snorm, .uint, .sint]
  | .bits16 => [.unorm, .snorm, .uint, .sint, .float]
  | .bits32 => [.uint, .sint, .float]

/-- All formats. -/
def all : List TexelFormat :=
  [.rgb10a2 .uint, .rgb10a2 .unorm, .rg11b10] ++
    [TexelWidth.bits8, .bits16, .bits32].flatMap fun width =>
      [TexelChannels.r, .rg, .rgba].flatMap fun channels =>
        (codingsOf width).map fun coding => .equal channels width coding

/-- The format that a word stands for. -/
def ofWord? (w : String) : Option TexelFormat := all.find? fun f => f.word == w

/-! ## In messages -/

/-- A coding in messages. -/
def codingShown : TexelCoding → String
  | .unorm => "Unorm"
  | .snorm => "Snorm"
  | .uint => "Uint"
  | .sint => "Sint"
  | .float => "Float"

/-- Some channels in messages. -/
def channelsShown : TexelChannels → String
  | .r => "R"
  | .rg => "Rg"
  | .rgba => "Rgba"

/-- A format in messages. -/
def shown : TexelFormat → String
  | .equal channels width coding =>
      channelsShown channels ++ widthDigits width ++ codingShown coding
  | .rgb10a2 coding => "Rgb10a2" ++ codingShown coding
  | .rg11b10 => "Rg11b10Float"

end TexelFormat

end LegacyShader
