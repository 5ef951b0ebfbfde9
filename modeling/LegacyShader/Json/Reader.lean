import LegacyShader.Json.Number

/-!
# Reading JSON

Values are read to a bounded depth.  A reader of a known shape reports the first
thing that does not fit, before it looks at what follows.
-/

namespace LegacyShader.Json

/-! ## Values -/

mutual

/-- Reads a value, at most `depth` levels deep. -/
def readValue (depth : Nat) : Nat → Read Value
  | 0, cs => fail .recursionLimit cs
  | steps + 1, cs =>
      match skipSpace cs with
      | [] => failAhead .eofValue []
      | c :: rest =>
          match c with
          | 'n' => (readWord "ull".toList rest).map (Value.null, ·)
          | 't' => (readWord "rue".toList rest).map (Value.bool true, ·)
          | 'f' => (readWord "alse".toList rest).map (Value.bool false, ·)
          | '"' => (readText rest).map fun (s, rest) => (.string s, rest)
          | '[' =>
              match depth with
              | 0 => failAhead .recursionLimit (c :: rest)
              | depth + 1 => readFirstItem depth steps rest
          | '\x7b' =>
              match depth with
              | 0 => failAhead .recursionLimit (c :: rest)
              | depth + 1 => readFirstMember depth steps rest
          | _ =>
              if startsNumber c then
                (readNumber (c :: rest)).map fun (n, rest) => (n.value, rest)
              else failAhead .expectedValue (c :: rest)

/-- Reads the rest of a list behind its opening bracket. -/
def readFirstItem (depth : Nat) : Nat → Read Value
  | 0, cs => fail .recursionLimit cs
  | steps + 1, cs =>
      match skipSpace cs with
      | [] => failAhead .eofList []
      | ']' :: rest => .ok (.array [], rest)
      | cs =>
          match readValue depth steps cs with
          | .error f => .error f
          | .ok (v, rest) =>
              (readItems depth steps rest).map fun (vs, rest) => (.array (v :: vs), rest)

/-- Reads the items of a list behind the first one. -/
def readItems (depth : Nat) : Nat → Read (List Value)
  | 0, cs => fail .recursionLimit cs
  | steps + 1, cs =>
      match skipSpace cs with
      | [] => failAhead .eofList []
      | ']' :: rest => .ok ([], rest)
      | ',' :: rest =>
          match skipSpace rest with
          | [] => failAhead .eofValue []
          | ']' :: rest => failAhead .trailingComma (']' :: rest)
          | cs =>
              match readValue depth steps cs with
              | .error f => .error f
              | .ok (v, rest) => (readItems depth steps rest).map fun (vs, rest) => (v :: vs, rest)
      | cs => failAhead .expectedListCommaOrEnd cs

/-- Reads the rest of an object behind its opening brace. -/
def readFirstMember (depth : Nat) : Nat → Read Value
  | 0, cs => fail .recursionLimit cs
  | steps + 1, cs =>
      match skipSpace cs with
      | [] => failAhead .eofObject []
      | '\x7d' :: rest => .ok (.object [], rest)
      | cs =>
          match readMember depth steps cs with
          | .error f => .error f
          | .ok (m, rest) =>
              (readMembers depth steps rest).map fun (ms, rest) => (.object (m :: ms), rest)

/-- Reads a member of an object. -/
def readMember (depth : Nat) : Nat → Read Member
  | 0, cs => fail .recursionLimit cs
  | steps + 1, cs =>
      match cs with
      | '"' :: rest =>
          match readText rest with
          | .error f => .error f
          | .ok (name, rest) =>
              match skipSpace rest with
              | ':' :: rest =>
                  (readValue depth steps rest).map fun (v, rest) => (.mk name v, rest)
              | [] => failAhead .eofObject []
              | cs => failAhead .expectedColon cs
      | '\x7d' :: rest => failAhead .trailingComma ('\x7d' :: rest)
      | [] => failAhead .eofValue []
      | cs => failAhead .keyNotString cs

/-- Reads the members of an object behind the first one. -/
def readMembers (depth : Nat) : Nat → Read (List Member)
  | 0, cs => fail .recursionLimit cs
  | steps + 1, cs =>
      match skipSpace cs with
      | [] => failAhead .eofObject []
      | '\x7d' :: rest => .ok ([], rest)
      | ',' :: rest =>
          match readMember depth steps (skipSpace rest) with
          | .error f => .error f
          | .ok (m, rest) => (readMembers depth steps rest).map fun (ms, rest) => (m :: ms, rest)
      | cs => failAhead .expectedObjectCommaOrEnd cs

end

/-- So many levels deep may a value be. -/
def maxDepth : Nat := 127

/-- Steps that suffice to read any value of a text. -/
def stepsFor (cs : List Char) : Nat := 2 * cs.length + 2

/-- Runs a reader on a whole text. -/
def runRead {α : Type} (read : Read α) (text : List Char) : Except ReadError α :=
  match read text with
  | .error f => .error ⟨f.cause, f.position text⟩
  | .ok (a, rest) =>
      match skipSpace rest with
      | [] => .ok a
      | cs =>
          let f : Fault := ⟨.trailingCharacters, cs, 1⟩
          .error ⟨f.cause, f.position text⟩

/-- Reads a text as a value. -/
def parse (text : List Char) : Except ReadError Value :=
  runRead (readValue maxDepth (stepsFor text)) text

/-! ## Shapes -/

/-- The fault of a value of another type. -/
def wrongType {α : Type} (expected : String) : Read α := fun cs =>
  match cs with
  | [] => failAhead .eofValue []
  | c :: rest =>
      match c with
      | 'n' => readWord "ull".toList rest >>= fail (.invalidType .null expected)
      | 't' => readWord "rue".toList rest >>= fail (.invalidType (.bool true) expected)
      | 'f' => readWord "alse".toList rest >>= fail (.invalidType (.bool false) expected)
      | '"' =>
          readText rest >>= fun (s, rest) => fail (.invalidType (.string s) expected) rest
      | '[' => fail (.invalidType .array expected) cs
      | '\x7b' => fail (.invalidType .object expected) cs
      | _ =>
          if startsNumber c then
            readNumber cs >>= fun (n, rest) => fail (.invalidType n.value.unexpected expected) rest
          else failAhead .expectedValue cs

/-- Reads a truth value. -/
def readBool : Read Bool := fun cs =>
  match skipSpace cs with
  | 't' :: rest => (readWord "rue".toList rest).map (true, ·)
  | 'f' :: rest => (readWord "alse".toList rest).map (false, ·)
  | cs => wrongType "a boolean" cs

/-- Reads a number of 32 bits. -/
def readWord32 : Read Nat := fun cs =>
  match skipSpace cs with
  | [] => failAhead .eofValue []
  | c :: rest =>
      if startsNumber c then
        match readNumber (c :: rest) with
        | .error f => .error f
        | .ok (.integer n, rest) =>
            if 0 ≤ n ∧ n.toNat < Nat.pow 2 32 then .ok (n.toNat, rest)
            else fail (.invalidValue (.integer n) "u32") rest
        | .ok (n, rest) => fail (.invalidType n.value.unexpected "u32") rest
      else wrongType "u32" (c :: rest)

/-- Reads the name of a member and the colon behind it, or the end of the object.
`first` tells whether it is the first member. -/
def readName? (first : Bool) : Read (Option String) := fun cs =>
  let name (cs : List Char) : Except Fault (Option String × List Char) :=
    match cs with
    | '"' :: rest => (readText rest).map fun (s, rest) => (some s, rest)
    | '\x7d' :: _ => failAhead .trailingComma cs
    | [] => failAhead .eofValue []
    | cs => failAhead .keyNotString cs
  match skipSpace cs with
  | [] => failAhead .eofObject []
  | '\x7d' :: rest => .ok (none, '\x7d' :: rest)
  | c :: rest =>
      if first then name (c :: rest)
      else if c = ',' then name (skipSpace rest)
      else failAhead .expectedObjectCommaOrEnd (c :: rest)

/-- Reads the colon behind a name. -/
def readColon (cs : List Char) : Except Fault (List Char) :=
  match skipSpace cs with
  | ':' :: rest => .ok rest
  | [] => failAhead .eofObject []
  | cs => failAhead .expectedColon cs

/-- Reads the end of an object. -/
def readObjectEnd (cs : List Char) : Except Fault (List Char) :=
  match skipSpace cs with
  | '\x7d' :: rest => .ok rest
  | ',' :: rest => failAhead .trailingComma (',' :: rest)
  | [] => failAhead .eofObject []
  | cs => failAhead .trailingCharacters cs

/-- Reads the end of a list. -/
def readListEnd (cs : List Char) : Except Fault (List Char) :=
  match skipSpace cs with
  | ']' :: rest => .ok rest
  | ',' :: rest =>
      match skipSpace rest with
      | ']' :: rest => failAhead .trailingComma (']' :: rest)
      | cs => failAhead .trailingCharacters cs
  | [] => failAhead .eofList []
  | cs => failAhead .trailingCharacters cs

/-- Whether another item of a list follows, and the text in front of it.  `first`
tells whether it is the first item. -/
def readNextItem (first : Bool) (cs : List Char) : Except Fault (Bool × List Char) :=
  match skipSpace cs with
  | [] => failAhead .eofList []
  | ']' :: rest => .ok (false, ']' :: rest)
  | c :: rest =>
      if first then .ok (true, c :: rest)
      else if c = ',' then
        match skipSpace rest with
        | ']' :: rest => failAhead .trailingComma (']' :: rest)
        | [] => failAhead .eofValue []
        | cs => .ok (true, cs)
      else failAhead .expectedListCommaOrEnd (c :: rest)

end LegacyShader.Json
