/-!
# SPIR-V words

A SPIR-V module is a sequence of 32-bit words: five words of header, and then
instructions.  The first word of an instruction holds the number of its words and
its code.  A text is packed four bytes to a word, with a zero byte behind it.
-/

namespace LegacyShader.Spirv

/-- The first word of every module. -/
def magic : UInt32 := 0x07230203

/-- An instruction: its code and the words behind the first. -/
structure Instruction where
  /-- The code. -/
  code : Nat
  /-- The operands. -/
  operands : List UInt32
  deriving DecidableEq, Repr, Inhabited

/-- The words of an instruction. -/
def Instruction.words (i : Instruction) : List UInt32 :=
  ((i.operands.length + 1) * 65536 + i.code).toUInt32 :: i.operands

/-- The instructions of a sequence of words. -/
def instructions : List UInt32 → List Instruction
  | [] => []
  | w :: ws =>
      let count := w.toNat / 65536
      ⟨w.toNat % 65536, ws.take (count - 1)⟩ :: instructions (ws.drop (count - 1))
termination_by ws => ws.length
decreasing_by simp only [List.length_cons, List.length_drop]; omega

/-! ## Texts -/

/-- The word of at most four bytes. -/
def packWord : List UInt8 → UInt32
  | [] => 0
  | b :: bs => b.toUInt32 + 256 * packWord bs

/-- The words of some bytes. -/
def packBytes (bytes : List UInt8) : List UInt32 :=
  match bytes with
  | [] => []
  | b :: bs => packWord (b :: bs.take 3) :: packBytes (bs.drop 3)
termination_by bytes.length
decreasing_by simp only [List.length_cons, List.length_drop]; omega

/-- The four bytes of a word. -/
def unpackWord (w : UInt32) : List UInt8 :=
  [w.toUInt8, (w >>> 8).toUInt8, (w >>> 16).toUInt8, (w >>> 24).toUInt8]

/-- The words of a text, with the zero byte behind it. -/
def packText (s : String) : List UInt32 := packBytes (s.toUTF8.toList ++ [0])

/-- The text at the start of some words. -/
def unpackText (ws : List UInt32) : String :=
  let bytes := (ws.flatMap unpackWord).takeWhile (· != 0)
  (String.fromUTF8? ⟨bytes.toArray⟩).getD ""

end LegacyShader.Spirv
