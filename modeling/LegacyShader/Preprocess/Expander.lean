import LegacyShader.Preprocess.Macro

/-!
# Expansion of macros

Tokens come from a *source*: a fixed list of them, or a live reader that may
change the macros while it reads.  The expander takes tokens from the source and
puts the meaning of a macro in place of its name.

A macro in use is an *invocation* on a stack, the innermost first.  It hands out
the tokens of its body one by one, and those of an argument in place of a
parameter.  While a macro is on the stack its name stands for itself, so no
expansion runs forever.  An argument is expanded on its own before it is used.

One request for a token may yield nothing yet: an invocation that ends, or an
argument that ends, is a step of its own.  Conditions depend on this, so the
expander hands such steps out as `Step.again`.

The recursion is bounded by a number of steps that no text reaches.
-/

namespace LegacyShader.Preprocess

/-- The outcome of one request for a token. -/
inductive Step where
  /-- A token. -/
  | token (token : Token)
  /-- Nothing yet. -/
  | again
  /-- No more tokens. -/
  | finished
  /-- A fault. -/
  | failed (fault : Fault)
  deriving Repr, Inhabited

/-- A macro in use. -/
structure Invocation where
  /-- The name of the macro. -/
  name : String
  /-- The line it is used on. -/
  line : Nat
  /-- The tokens of its body that are still to come. -/
  body : List Token
  /-- The expanded arguments by parameter. -/
  arguments : List (String × List Token)
  /-- What is left of the argument that is being handed out. -/
  current : Option (List Token)
  deriving Repr, Inhabited

/-- Takes a token of an invocation.  The second part is what is left of the
invocation, if it is not used up. -/
def Invocation.take (i : Invocation) : Step × Option Invocation :=
  match i.current with
  | some (t :: ts) => (.token t, some { i with current := some ts })
  | some [] => (.again, some { i with current := none })
  | none =>
      match i.body with
      | [] => (.again, none)
      | t :: ts =>
          let rest := { i with body := ts }
          match t.value with
          | .ident name =>
              match i.arguments.lookup name with
              | some tokens => (.again, some { rest with current := some tokens })
              | none => (.token t, some rest)
          | _ => (.token t, some rest)

/-- How tokens are taken from a live reader. -/
structure Reading (ρ : Type) where
  /-- Takes the next token. -/
  pull : ρ → Step × ρ
  /-- The macros that are defined now. -/
  macros : ρ → MacroTable
  /-- What is added to line numbers now. -/
  lineShift : ρ → Int

/-- Where tokens come from. -/
inductive Source (ρ : Type) where
  /-- A list of tokens, and the macros that apply to them. -/
  | fixed (tokens : List Token) (macros : MacroTable)
  /-- A reader. -/
  | live (reader : ρ)

/-- An expander in the middle of its work. -/
structure Expander (ρ : Type) where
  /-- Where tokens come from. -/
  source : Source ρ
  /-- The macros in use, the innermost first. -/
  stack : List Invocation
  /-- Names that stand for themselves here. -/
  blocked : List String
  /-- A step that was looked at and put back. -/
  peeked : Option Step

namespace Expander

variable {ρ : Type}

/-- An expander at the start of a source. -/
def ofSource (source : Source ρ) : Expander ρ := ⟨source, [], [], none⟩

/-- The macros that apply now. -/
def macros (reading : Reading ρ) (e : Expander ρ) : MacroTable :=
  match e.source with
  | .fixed _ macros => macros
  | .live reader => reading.macros reader

/-- What is added to line numbers now. -/
def lineShift (reading : Reading ρ) (e : Expander ρ) : Int :=
  match e.source with
  | .fixed _ _ => 0
  | .live reader => reading.lineShift reader

/-- Takes a token from the source. -/
def pull (reading : Reading ρ) (e : Expander ρ) : Step × Expander ρ :=
  match e.source with
  | .fixed [] _ => (.finished, e)
  | .fixed (t :: ts) macros => (.token t, { e with source := .fixed ts macros })
  | .live reader =>
      let (step, reader) := reading.pull reader
      (step, { e with source := .live reader })

/-- Takes a token as it stands. -/
def raw (reading : Reading ρ) (e : Expander ρ) : Step × Expander ρ :=
  match e.peeked with
  | some step => (step, { e with peeked := none })
  | none =>
      match e.stack with
      | [] => e.pull reading
      | top :: below =>
          let (step, rest) := top.take
          (step, { e with stack := rest.toList ++ below })

/-- The line that `__LINE__` speaks of: that of the outermost macro in use, or of
the token itself. -/
def lineOf (reading : Reading ρ) (e : Expander ρ) (t : Token) : Int :=
  let line := (e.stack.getLast?.map (·.line)).getD t.line
  line + e.lineShift reading

/-- Line numbers are below this one. -/
def lineLimit : Int := Nat.pow 2 32

/-- Takes a token and puts a number in place of `__LINE__`. -/
def step (reading : Reading ρ) (e : Expander ρ) : Step × Expander ρ :=
  match e.raw reading with
  | (.token t, rest) =>
      if t.value = .ident "__LINE__" then
        -- the macros in use are those of before the token was taken
        let line := e.lineOf reading t
        if line < 0 ∨ lineLimit ≤ line then (.failed ⟨.lineOverflow, t.span⟩, rest)
        else (.token { t with value := .integer { value := line.toNat, signed := false } }, rest)
      else (.token t, rest)
  | outcome => outcome

/-- More steps than any text takes. -/
def stepBound : Nat := Nat.pow 2 62

/-- The outcome when the bound is reached. -/
def exhausted (span : Span) : Fault := ⟨.unexpectedEnd, span⟩

/-- Takes a token, however many steps that needs. -/
def settle (reading : Reading ρ) : Nat → Expander ρ → Step × Expander ρ
  | 0, e => (.failed (exhausted startOfText), e)
  | fuel + 1, e =>
      match e.step reading with
      | (.again, e) => settle reading fuel e
      | outcome => outcome

/-- The arguments of a macro while they are collected. -/
structure Collected where
  /-- The arguments that are complete, the last one first. -/
  done : List (List Token)
  /-- The tokens of the open argument, the last one first. -/
  current : List Token
  /-- The number of open parentheses. -/
  depth : Nat
  /-- The last token read. -/
  last : Token

/-- The arguments in order. -/
def Collected.toList (c : Collected) : List (List Token) :=
  (c.current.reverse :: c.done).reverse

/-- Takes the arguments of a macro up to the closing parenthesis. -/
def collect (reading : Reading ρ) :
    Nat → Collected → Expander ρ → Except Fault Collected × Expander ρ
  | 0, c, e => (.error (exhausted c.last.span), e)
  | fuel + 1, c, e =>
      match e.settle reading fuel with
      | (.token t, e) =>
          let c := { c with last := t }
          match t.value with
          | .punct .rightParen =>
              if c.depth = 0 then (.ok c, e)
              else collect reading fuel { c with current := t :: c.current, depth := c.depth - 1 } e
          | .punct .leftParen =>
              collect reading fuel { c with current := t :: c.current, depth := c.depth + 1 } e
          | .punct .comma =>
              if c.depth = 0 then
                collect reading fuel { c with done := c.current.reverse :: c.done, current := [] } e
              else collect reading fuel { c with current := t :: c.current } e
          | _ => collect reading fuel { c with current := t :: c.current } e
      | (.failed fault, e) => (.error fault, e)
      | (_, e) => (.error ⟨.unexpectedEnd, c.last.span⟩, e)

/-- Whether arguments fit parameters.  No argument at all reads as an empty one. -/
def checkArguments (params : List String) (arguments : List (List Token)) (span : Span) :
    Except Fault (List (List Token)) :=
  if params = [] ∧ arguments = [[]] then .ok []
  else if params.length < arguments.length then .error ⟨.tooManyArguments, span⟩
  else if arguments.length < params.length then .error ⟨.tooFewArguments, span⟩
  else .ok arguments

/-- The names that stand for themselves: those blocked here and those of the
macros in use. -/
def reserved (e : Expander ρ) : List String := e.blocked ++ e.stack.map (·.name)

/-- Puts a macro on the stack. -/
def push (e : Expander ρ) (i : Invocation) : Expander ρ := { e with stack := i :: e.stack }

mutual

/-- Starts the expansion of a name, if it is a macro that may be used here and its
arguments follow.  The answer says whether an expansion was started. -/
def start (reading : Reading ρ) :
    Nat → String → Token → Expander ρ → Except Fault Bool × Expander ρ
  | 0, _, t, e => (.error (exhausted t.span), e)
  | fuel + 1, name, t, e =>
      if e.reserved.contains name then (.ok false, e)
      else
        match (e.macros reading).get? name with
        | none => (.ok false, e)
        | some ⟨none, body⟩ => (.ok true, e.push ⟨name, t.line, body, [], none⟩)
        | some ⟨some params, body⟩ =>
            match e.settle reading fuel with
            | (.token opening, e) =>
                if opening.value = .punct .leftParen then
                  match collect reading fuel ⟨[], [], 0, opening⟩ e with
                  | (.error fault, e) => (.error fault, e)
                  | (.ok c, e) =>
                      match checkArguments params c.toList opening.span with
                      | .error fault => (.error fault, e)
                      | .ok arguments =>
                          match expandEach reading fuel (e.macros reading) e.reserved arguments with
                          | .error fault => (.error fault, e)
                          | .ok arguments =>
                              (.ok true,
                                e.push ⟨name, c.last.line, body, params.zip arguments, none⟩)
                else (.ok false, { e with peeked := some (.token opening) })
            | (outcome, e) => (.ok false, { e with peeked := some outcome })

/-- Expands each argument on its own. -/
def expandEach (reading : Reading ρ) :
    Nat → MacroTable → List String → List (List Token) → Except Fault (List (List Token))
  | _, _, _, [] => .ok []
  | 0, _, _, _ => .error (exhausted startOfText)
  | fuel + 1, macros, blocked, tokens :: rest =>
      match expandAll reading fuel ⟨.fixed tokens macros, [], blocked, none⟩ [] with
      | .error fault => .error fault
      | .ok expanded =>
          match expandEach reading fuel macros blocked rest with
          | .error fault => .error fault
          | .ok rest => .ok (expanded :: rest)

/-- Expands all that is left of a source.  `done` holds the tokens so far, the last
one first. -/
def expandAll (reading : Reading ρ) :
    Nat → Expander ρ → List Token → Except Fault (List Token)
  | 0, _, _ => .error (exhausted startOfText)
  | fuel + 1, e, done =>
      match e.step reading with
      | (.finished, _) => .ok done.reverse
      | (.failed fault, _) => .error fault
      | (.again, e) => expandAll reading fuel e done
      | (.token t, e) =>
          match t.value with
          | .ident name =>
              match start reading fuel name t e with
              | (.error fault, _) => .error fault
              | (.ok true, e) => expandAll reading fuel e done
              | (.ok false, e) => expandAll reading fuel e (t :: done)
          | _ => expandAll reading fuel e (t :: done)

end

/-- Takes a token, or starts the expansion of one. -/
def next (reading : Reading ρ) (e : Expander ρ) : Step × Expander ρ :=
  match e.step reading with
  | (.token t, e) =>
      match t.value with
      | .ident name =>
          match start reading stepBound name t e with
          | (.error fault, e) => (.failed fault, e)
          | (.ok true, e) => (.again, e)
          | (.ok false, e) => (.token t, e)
      | _ => (.token t, e)
  | outcome => outcome

end Expander

end LegacyShader.Preprocess
