import LegacyShader.Json.Reader

/-!
# Values that are passed over

A reader of a known shape passes over values that it has no use for.  Only their form
is looked at: escapes need not name characters, and numbers can be of any size.
-/

namespace LegacyShader.Json

/-! ## Texts -/

/-- Passes over what stands behind a backslash. -/
def skipEscape (cs : List Char) : Except Fault (List Char) :=
  match cs with
  | [] => fail .eofString []
  | 'u' :: rest => (readHex rest).map (·.2)
  | c :: rest => if (escaped? c).isSome then .ok rest else failAhead .invalidEscape (c :: rest)

/-- Passes over a text behind its opening quote.  Each step takes a character at
least, so as many steps as characters suffice. -/
def skipChars : Nat → List Char → Except Fault (List Char)
  | 0, _ => fail .eofString []
  | _ + 1, [] => fail .eofString []
  | steps + 1, c :: rest =>
      if c = '"' then .ok rest
      else if c = '\\' then skipEscape rest >>= skipChars steps
      else if isControl c then fail .controlCharacter (c :: rest)
      else skipChars steps rest

/-- Passes over a text behind its opening quote. -/
def skipText (cs : List Char) : Except Fault (List Char) := skipChars (cs.length + 1) cs

/-! ## Numbers -/

/-- Passes over digits, of which there has to be one.  A fault is reported behind the
next byte. -/
def skipDigits (cs : List Char) : Except Fault (List Char) :=
  match takeDigits cs with
  | ([], rest) => failAhead .invalidNumber rest
  | (_, rest) => .ok rest

/-- Passes over an exponent, if there is one. -/
def skipExponent (cs : List Char) : Except Fault (List Char) :=
  match cs with
  | 'e' :: rest | 'E' :: rest => skipDigits (takeSign rest).2
  | _ => .ok cs

/-- Passes over a fraction and an exponent, if there are any. -/
def skipFraction (cs : List Char) : Except Fault (List Char) :=
  match cs with
  | '.' :: rest => skipDigits rest >>= skipExponent
  | _ => skipExponent cs

/-- Passes over a number behind its sign. -/
def skipUnsigned (cs : List Char) : Except Fault (List Char) :=
  match cs with
  | '0' :: rest =>
      if rest.head?.any Char.isDigit then failAhead .invalidNumber rest else skipFraction rest
  | _ => skipDigits cs >>= skipFraction

/-- Passes over a number. -/
def skipNumber (cs : List Char) : Except Fault (List Char) :=
  match cs with
  | '-' :: rest => skipUnsigned rest
  | _ => skipUnsigned cs

/-! ## Values -/

/-- Whether an open bracket or brace is one of a list. -/
abbrev Frame := Bool

/-- Passes over the name of a member and the colon behind it. -/
def skipName (cs : List Char) : Except Fault (List Char) :=
  match skipSpace cs with
  | '"' :: rest => skipText rest >>= readColon
  | [] => failAhead .eofObject []
  | cs => failAhead .keyNotString cs

mutual

/-- Passes over a value.  `frames` holds what is open around it. -/
def skipValue : Nat → List Frame → List Char → Except Fault (List Char)
  | 0, _, cs => fail .recursionLimit cs
  | steps + 1, frames, cs =>
      match skipSpace cs with
      | [] => failAhead .eofValue []
      | c :: rest =>
          match c with
          | 'n' => readWord "ull".toList rest >>= skipAfter steps true frames
          | 't' => readWord "rue".toList rest >>= skipAfter steps true frames
          | 'f' => readWord "alse".toList rest >>= skipAfter steps true frames
          | '"' => skipText rest >>= skipAfter steps true frames
          | '[' => skipAfter steps false (true :: frames) rest
          | '\x7b' => skipAfter steps false (false :: frames) rest
          | _ =>
              if startsNumber c then skipNumber (c :: rest) >>= skipAfter steps true frames
              else failAhead .expectedValue (c :: rest)

/-- Goes on behind a value, or behind an opening bracket or brace. -/
def skipAfter : Nat → Bool → List Frame → List Char → Except Fault (List Char)
  | 0, _, _, cs => fail .recursionLimit cs
  | _ + 1, _, [], cs => .ok cs
  | steps + 1, comma, isList :: frames, cs =>
      match skipSpace cs with
      | [] => failAhead (if isList then .eofList else .eofObject) []
      | c :: rest =>
          if c = (if isList then ']' else '\x7d') then skipAfter steps true frames rest
          else if comma ∧ c ≠ ',' then
            failAhead (if isList then .expectedListCommaOrEnd else .expectedObjectCommaOrEnd)
              (c :: rest)
          else
            let cs := if comma then rest else c :: rest
            if isList then skipValue steps (isList :: frames) cs
            else skipName cs >>= skipValue steps (isList :: frames)

end

end LegacyShader.Json
