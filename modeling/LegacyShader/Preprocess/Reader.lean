import LegacyShader.Preprocess.Condition

/-!
# Directives

The reader takes lexemes and obeys the directives among them.  It keeps the open
conditional blocks, the macros and the line shift.  Lines of a segment that is
not taken are dropped.  Their lexemes are still read, so a fault in one of them is
still a fault.

A directive that fails at a lexeme is given up there, and reading goes on behind it in the same
line.
-/

namespace LegacyShader.Preprocess

/-- An open conditional block. -/
structure Block where
  /-- The place of the directive that opened it. -/
  span : Span
  /-- Whether the block stands in a segment that is not taken. -/
  outerSkipped : Bool
  /-- Whether a segment of it has been taken. -/
  taken : Bool
  /-- Whether the present segment is not taken. -/
  skipping : Bool
  /-- Whether its `#else` has come. -/
  seenElse : Bool
  deriving Repr, Inhabited

/-- A reader in the middle of a text. -/
structure Reader where
  /-- The lexemes that are still to come. -/
  items : List LexItem
  /-- The open blocks, the innermost first. -/
  blocks : List Block
  /-- The macros that are defined. -/
  macros : MacroTable
  /-- What is added to line numbers. -/
  lineShift : Int

/-! ## Lines -/

/-- The rest of the line of a directive. -/
structure DirectiveLine where
  /-- The lexemes in front of the line end. -/
  items : List LexItem
  /-- The place of the line end. -/
  stop : Span

/-- Whether an item is the end of a line. -/
def LexItem.isNewline : LexItem → Bool
  | .ok l => l.value == .newline
  | .error _ => false

/-- Cuts the rest of a line off. -/
def takeLine (items : List LexItem) : DirectiveLine × List LexItem :=
  let line := items.takeWhile fun i => !LexItem.isNewline i
  match items.dropWhile fun i => !LexItem.isNewline i with
  | .ok newline :: rest => (⟨line, newline.span⟩, rest)
  | rest => (⟨line, startOfText⟩, rest)

namespace DirectiveLine

/-- The fault of a lexeme that does not belong where it stands. -/
def unexpected (l : Lexeme) : Fault :=
  match l.value with
  | .value value => ⟨.unexpectedToken value, l.span⟩
  | .hash => ⟨.unexpectedHash, l.span⟩
  | .newline => ⟨.unexpectedNewLine, l.span⟩

/-- Takes the next lexeme of the line, which has to be there. -/
def take (line : DirectiveLine) : Except Fault (Lexeme × DirectiveLine) :=
  match line.items with
  | [] => .error ⟨.unexpectedNewLine, line.stop⟩
  | .error fault :: _ => .error fault
  | .ok l :: rest => .ok (l, { line with items := rest })

/-- Takes a name. -/
def takeName (line : DirectiveLine) : Except Fault (String × Span × DirectiveLine) := do
  let (l, rest) ← line.take
  match l.value with
  | .value (.ident name) => return (name, l.span, rest)
  | _ => throw (unexpected l)

/-- Nothing may be left of the line. -/
def finish (line : DirectiveLine) : Except Fault Unit :=
  match line.items with
  | [] => .ok ()
  | .error fault :: _ => .error fault
  | .ok l :: _ => .error (unexpected l)

/-- All tokens that are left of the line. -/
def tokens (line : DirectiveLine) : Except Fault (List Token) :=
  line.items.mapM fun item => do
    let l ← item
    match l.value with
    | .value value => return ⟨value, l.span, l.line⟩
    | _ => throw (unexpected l)

/-- Passes over the line.  A fault in one of its lexemes is still a fault. -/
def skip (line : DirectiveLine) : Except Fault Unit := do
  for item in line.items do
    let _ ← item

/-- The parameters behind the first one, up to the closing parenthesis.  `params`
holds those so far, the last one first. -/
def takeParams (stop : Span) (params : List String) :
    List LexItem → Except Fault (List String × DirectiveLine)
  | [] => .error ⟨.unexpectedNewLine, stop⟩
  | .error fault :: _ => .error fault
  | .ok l :: rest =>
      match l.value with
      | .value (.punct .rightParen) => .ok (params.reverse, ⟨rest, stop⟩)
      | .value (.punct .comma) =>
          match rest with
          | [] => .error ⟨.unexpectedNewLine, stop⟩
          | .error fault :: _ => .error fault
          | .ok l :: rest =>
              match l.value with
              | .value (.ident name) =>
                  if params.contains name then .error ⟨.duplicateParameter, l.span⟩
                  else takeParams stop (name :: params) rest
              | _ => .error (unexpected l)
      | _ => .error (unexpected l)

/-- The parameters of a macro behind the opening parenthesis. -/
def takeAllParams (line : DirectiveLine) : Except Fault (List String × DirectiveLine) := do
  let (l, rest) ← line.take
  match l.value with
  | .value (.punct .rightParen) => return ([], rest)
  | .value (.ident name) => takeParams line.stop [name] rest.items
  | _ => throw (unexpected l)

/-- The name, its place and the meaning that a `#define` gives. -/
def takeMacro (line : DirectiveLine) : Except Fault (String × Span × Macro) := do
  let (name, span, rest) ← line.takeName
  match rest.items with
  | .ok ⟨.value (.punct .leftParen), _, _, false, _⟩ :: items =>
      let (params, body) ← takeAllParams { rest with items }
      return (name, span, ⟨some params, ← body.tokens⟩)
  | _ => return (name, span, ⟨none, ← rest.tokens⟩)

/-- Whether an item stands at a place. -/
def isAt (span : Span) : LexItem → Bool
  | .ok l => l.span == span
  | .error fault => fault.span == span

/-- What is left of a line behind the lexeme at which a directive fails.  Nothing is left where
the whole line has been read. -/
def behind (line : DirectiveLine) (fault : Fault) : List LexItem :=
  if fault.cause = .defineRedefined then []
  else (line.items.dropWhile fun i => !isAt fault.span i).tail

end DirectiveLine

/-! ## Obeying directives -/

namespace Reader

/-- A reader at the start of a text. -/
def ofText (text : List Char) (macros : MacroTable) : Reader := ⟨lexemes text, [], macros, 0⟩

/-- Whether the present line belongs to a segment that is not taken. -/
def skipping (r : Reader) : Bool :=
  match r.blocks with
  | [] => false
  | b :: _ => b.outerSkipped || b.skipping

/-- What a directive does: it changes the reader, and may leave a token. -/
abbrev Obeyed := Except Fault (Option TokenValue × Reader)

/-- Opens a block whose first segment is taken or not. -/
def openBlock (r : Reader) (span : Span) (holds : Except Fault Bool) : Obeyed := do
  let holds ← holds
  return (none, { r with blocks := ⟨span, false, holds, !holds, false⟩ :: r.blocks })

/-- Opens a block in a segment that is not taken. -/
def openSkippedBlock (r : Reader) (span : Span) (line : DirectiveLine) : Obeyed := do
  line.skip
  return (none, { r with blocks := ⟨span, true, false, true, false⟩ :: r.blocks })

/-- Whether the one name on a line is a macro. -/
def nameDefined (r : Reader) (line : DirectiveLine) : Except Fault Bool := do
  let (name, _, rest) ← line.takeName
  rest.finish
  return (r.macros.get? name).isSome

/-- Obeys `#elif`. -/
def obeyElif (r : Reader) (span : Span) (line : DirectiveLine) : Obeyed :=
  match r.blocks with
  | [] => .error ⟨.elifOutsideBlock, span⟩
  | b :: below =>
      if b.seenElse then .error ⟨.elifAfterElse, span⟩
      else if b.outerSkipped || b.taken then do
        line.skip
        return (none, { r with blocks := { b with skipping := true } :: below })
      else do
        let holds ← Condition.holds r.macros span (← line.tokens)
        return (none, { r with blocks := { b with taken := holds, skipping := !holds } :: below })

/-- Obeys `#else`. -/
def obeyElse (r : Reader) (span : Span) (line : DirectiveLine) : Obeyed := do
  line.finish
  match r.blocks with
  | [] => throw ⟨.elseOutsideBlock, span⟩
  | b :: below =>
      if b.seenElse then throw ⟨.secondElse, span⟩
      return (none,
        { r with blocks := { b with skipping := b.taken, taken := true, seenElse := true } :: below })

/-- Obeys `#endif`. -/
def obeyEndif (r : Reader) (span : Span) (line : DirectiveLine) : Obeyed :=
  match r.blocks with
  | [] => .error ⟨.endifOutsideBlock, span⟩
  | b :: below => do
      if b.outerSkipped then line.skip else line.finish
      return (none, { r with blocks := below })

/-- Obeys `#define`. -/
def obeyDefine (r : Reader) (line : DirectiveLine) : Obeyed := do
  let (name, span, meaning) ← line.takeMacro
  match r.macros.get? name with
  | some old =>
      if old.same meaning then return (none, r) else throw ⟨.defineRedefined, span⟩
  | none => return (none, { r with macros := r.macros.insert name meaning })

/-- Obeys `#undef`. -/
def obeyUndef (r : Reader) (line : DirectiveLine) : Obeyed := do
  let (name, _, rest) ← line.takeName
  rest.finish
  return (none, { r with macros := r.macros.erase name })

/-- Obeys a directive of a segment that is taken. -/
def obeyTaken (r : Reader) (name : String) (span : Span) (lineNumber : Nat)
    (line : DirectiveLine) : Obeyed :=
  match name with
  | "if" => r.openBlock span (line.tokens >>= Condition.holds r.macros span)
  | "ifdef" => r.openBlock span (r.nameDefined line)
  | "ifndef" => r.openBlock span (not <$> r.nameDefined line)
  | "define" => r.obeyDefine line
  | "undef" => r.obeyUndef line
  | "error" => .error ⟨.errorDirective, span⟩
  | "line" => do
      let number ← Condition.lineNumber r.macros span (← line.tokens)
      return (none, { r with lineShift := number - lineNumber })
  | "version" | "extension" | "pragma" => do
      let _ ← line.tokens
      return (some .directive, r)
  | _ => .error ⟨.unknownDirective, span⟩

/-- Obeys a directive of a segment that is not taken: only blocks matter. -/
def obeySkipped (r : Reader) (name : String) (span : Span) (line : DirectiveLine) : Obeyed :=
  match name with
  | "if" | "ifdef" | "ifndef" => r.openSkippedBlock span line
  | _ => do
      line.skip
      return (none, r)

/-- Obeys a directive. -/
def obey (r : Reader) (name : String) (span : Span) (lineNumber : Nat) (line : DirectiveLine) :
    Obeyed :=
  match name with
  | "elif" => r.obeyElif span line
  | "else" => r.obeyElse span line
  | "endif" => r.obeyEndif span line
  | _ =>
      if r.skipping then r.obeySkipped name span line else r.obeyTaken name span lineNumber line

/-- Obeys the directive behind a hash. -/
def directive (r : Reader) : Step × Reader :=
  let (line, rest) := takeLine r.items
  let behind := { r with items := rest }
  match line.take with
  | .error ⟨.unexpectedNewLine, span⟩ =>
      if r.skipping then (.again, behind) else (.failed ⟨.unexpectedNewLine, span⟩, behind)
  | .error fault => (.failed fault, behind)
  | .ok (l, line) =>
      match l.value with
      | .value (.ident name) =>
          match behind.obey name l.span l.line line with
          | .error fault => (.failed fault, { r with items := line.behind fault ++ rest })
          | .ok (none, r) => (.again, r)
          | .ok (some value, r) => (.token ⟨value, l.span, l.line⟩, r)
      | _ =>
          if r.skipping then
            match line.skip with
            | .ok () => (.again, behind)
            | .error fault => (.failed fault, behind)
          else (.failed (DirectiveLine.unexpected l), behind)

/-- Takes the next token. -/
def pull (r : Reader) : Step × Reader :=
  match r.items with
  | [] =>
      match r.blocks with
      | [] => (.finished, r)
      | b :: below => (.failed ⟨.unfinishedBlock, b.span⟩, { r with blocks := below })
  | .error fault :: rest => (.failed fault, { r with items := rest })
  | .ok l :: rest =>
      let behind := { r with items := rest }
      match l.value with
      | .newline => (.again, behind)
      | .hash =>
          if l.first then behind.directive
          else if r.skipping then (.again, behind)
          else (.failed ⟨.unexpectedHash, l.span⟩, behind)
      | .value value =>
          if r.skipping then (.again, behind) else (.token ⟨value, l.span, l.line⟩, behind)

/-- How tokens are taken from a reader. -/
def reading : Reading Reader := ⟨pull, macros, lineShift⟩

end Reader

/-! ## Whole texts -/

/-- Collects the tokens and faults of a text, the last one first. -/
def collectFrom : Nat → Expander Reader → List (Except Fault Token) → List (Except Fault Token)
  | 0, _, done => done
  | fuel + 1, e, done =>
      match e.next Reader.reading with
      | (.finished, _) => done
      | (.again, e) => collectFrom fuel e done
      | (.token t, e) => collectFrom fuel e (.ok t :: done)
      | (.failed fault, e) => collectFrom fuel e (.error fault :: done)

/-- The tokens of a text with conditionals resolved and macros expanded, and the
faults between them. -/
def allTokens (text : List Char) (macros : MacroTable) : List (Except Fault Token) :=
  (collectFrom Expander.stepBound (.ofSource (.live (Reader.ofText text macros))) []).reverse

/-- The tokens of a text, or its first fault. -/
def tokens (text : List Char) (macros : MacroTable) : Except Fault (List Token) :=
  (allTokens text macros).mapM id

end LegacyShader.Preprocess
