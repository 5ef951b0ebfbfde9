import LegacyShader.Preprocess.Expander
import LegacyShader.Proofs.LexemePlaces

/-!
# Where the tokens of an expansion come from

A live reader moves through its text (`Tracking`).  The token that it hands out starts
behind the point that it had reached and ends in front of the point that it reaches with
it.  The expander mixes these tokens with those of macros, and none of either kind ends
behind the point that the reader has reached (`Expander.Sound`).

So a token that comes from the reader and from no macro starts behind the end of every
token that was handed out before it (`Tracked`, `tracked_next`), whatever the
macros do in between.
-/

namespace LegacyShader.Preprocess

open LegacyShader.Text (Stands)

/-! ## Tokens and macros -/

/-- A token ends in front of an offset. -/
structure Token.Within (n : Nat) (t : Token) : Prop where
  /-- It does not end before it starts. -/
  ordered : t.span.start ≤ t.span.stop
  /-- It ends in front of the offset. -/
  stop_le : t.span.stop ≤ n
  /-- A word is no longer than the text up to its end. -/
  fits : t.value.Fits t.span.stop

theorem Token.Within.mono {n m : Nat} {t : Token} (h : t.Within n) (hle : n ≤ m) : t.Within m :=
  ⟨h.ordered, Nat.le_trans h.stop_le hle, h.fits⟩

/-- The tokens that macros stand for end in front of an offset.  Those of a macro that no
text defines have places in a text of their own, which is no longer than the name. -/
def MacroTable.Within (n : Nat) (table : MacroTable) : Prop :=
  ∀ entry ∈ table, ∀ t ∈ entry.2.body, t.Within (max n entry.1.length)

theorem MacroTable.Within.mono {n m : Nat} {table : MacroTable} (h : table.Within n)
    (hle : n ≤ m) : table.Within m := fun entry hentry t ht =>
  (h entry hentry t ht).mono (by omega)

theorem MacroTable.mem_of_get? {table : MacroTable} {name : String} {meaning : Macro}
    (h : table.get? name = some meaning) : (name, meaning) ∈ table := by
  obtain ⟨front, back, rfl, -⟩ := List.lookup_eq_some_iff.mp h
  exact List.mem_append_right _ List.mem_cons_self

/-- Where a word stands, all that it may stand for lies in front of its end. -/
theorem MacroTable.Within.of_get? {n : Nat} {table : MacroTable} (h : table.Within n) {t : Token}
    (ht : t.Within n) {name : String} (hname : t.value = .ident name) {meaning : Macro}
    (hget : table.get? name = some meaning) : ∀ u ∈ meaning.body, u.Within n := by
  intro u hu
  have hfits := ht.fits
  rw [hname] at hfits
  have hlength : name.length ≤ n := Nat.le_trans hfits.1 ht.stop_le
  exact (h _ (mem_of_get? hget) u hu).mono (Nat.max_le.mpr ⟨Nat.le_refl _, hlength⟩)

/-- What a macro in use has still to hand out ends in front of an offset. -/
structure Invocation.Within (n : Nat) (i : Invocation) : Prop where
  /-- What is left of its body does. -/
  body : ∀ t ∈ i.body, t.Within n
  /-- What its arguments stand for does. -/
  arguments : ∀ a ∈ i.arguments, ∀ t ∈ a.2, t.Within n
  /-- What is left of an argument does. -/
  current : ∀ ts ∈ i.current, ∀ t ∈ ts, t.Within n

namespace Invocation.Within

variable {n m : Nat} {i : Invocation}

theorem mono (h : i.Within n) (hle : n ≤ m) : i.Within m where
  body t ht := (h.body t ht).mono hle
  arguments a ha t ht := (h.arguments a ha t ht).mono hle
  current ts hts t ht := (h.current ts hts t ht).mono hle

/-- A macro in use stays on the stack as long as it hands out tokens. -/
theorem take (h : i.Within n) :
    (∀ t, i.take.1 = .token t → t.Within n ∧ i.take.2 ≠ none) ∧
      ∀ j ∈ i.take.2, j.Within n := by
  have hagain : ∀ rest : Option Invocation, ∀ t : Token, Step.again = .token t →
      t.Within n ∧ rest ≠ none := by
    intro _ t ht
    cases ht
  unfold Invocation.take
  split
  · next t ts hcurrent =>
    obtain ⟨ht, hts⟩ := List.forall_mem_cons.mp (h.current _ hcurrent)
    refine ⟨?_, ?_⟩
    · rintro _ ⟨⟩
      exact ⟨ht, Option.some_ne_none _⟩
    · rintro _ ⟨⟩
      refine ⟨h.body, h.arguments, ?_⟩
      rintro _ ⟨⟩
      exact hts
  · refine ⟨hagain _, ?_⟩
    rintro _ ⟨⟩
    refine ⟨h.body, h.arguments, ?_⟩
    rintro _ ⟨⟩
  · next hcurrent =>
    split
    · refine ⟨hagain _, ?_⟩
      rintro _ ⟨⟩
    · next t ts hbody =>
      obtain ⟨ht, hts⟩ := List.forall_mem_cons.mp (hbody ▸ h.body)
      have hrest : Invocation.Within n { i with body := ts } := ⟨hts, h.arguments, h.current⟩
      have hhanded : (∀ u, Step.token t = .token u →
          u.Within n ∧ some { i with body := ts } ≠ none) ∧
          ∀ j ∈ some { i with body := ts }, j.Within n := by
        refine ⟨?_, ?_⟩
        · rintro _ ⟨⟩
          exact ⟨ht, Option.some_ne_none _⟩
        · rintro _ ⟨⟩
          exact hrest
      split
      · next name hname =>
        split
        · next tokens hlookup =>
          refine ⟨hagain _, ?_⟩
          rintro _ ⟨⟩
          obtain ⟨front, back, harguments, -⟩ := List.lookup_eq_some_iff.mp hlookup
          refine ⟨hts, h.arguments, ?_⟩
          rintro _ ⟨⟩
          exact h.arguments (name, tokens) (harguments ▸ by simp)
        · exact hhanded
      · exact hhanded

end Invocation.Within

/-! ## Readers -/

/-- How far a reader has come in its text, which is the source. -/
structure Tracking {ρ : Type} (source : List Char) (reading : Reading ρ) where
  /-- The point that the reader has reached. -/
  reach : ρ → Nat
  /-- What holds of a reader at any time. -/
  Sound : ρ → Prop
  sound_pull {r : ρ} : Sound r → Sound (reading.pull r).2
  reach_pull {r : ρ} : Sound r → reach r ≤ reach (reading.pull r).2
  start_of_pull {r : ρ} {t : Token} : Sound r → (reading.pull r).1 = .token t →
    reach r ≤ t.span.start ∧ ∃ rest, Stands source t.span.start rest
  within_of_pull {r : ρ} {t : Token} : Sound r → (reading.pull r).1 = .token t →
    t.Within (reach (reading.pull r).2)
  within_macros {r : ρ} : Sound r → (reading.macros r).Within (reach r)

namespace Expander

variable {ρ : Type} {source : List Char} {reading : Reading ρ}
  (k : Tracking source reading) (base : Nat)

/-- Whether the tokens come from a reader. -/
def isLive (e : Expander ρ) : Bool :=
  match e.source with
  | .fixed _ _ => false
  | .live _ => true

/-- The point that an expander has reached.  That of a fixed list of tokens is given. -/
def reach (e : Expander ρ) : Nat :=
  match e.source with
  | .fixed _ _ => base
  | .live reader => k.reach reader

/-- The tokens of a source end in front of the point that is reached. -/
def SourceSound : Source ρ → Prop
  | .fixed tokens macros => (∀ t ∈ tokens, t.Within base) ∧ macros.Within base
  | .live reader => k.Sound reader

/-- No token that an expander holds ends behind the point that it has reached. -/
structure Sound (e : Expander ρ) : Prop where
  /-- The reader is sound. -/
  source : SourceSound k base e.source
  /-- So is each macro in use. -/
  stack : ∀ i ∈ e.stack, i.Within (e.reach k base)
  /-- So is the token that was looked at. -/
  peeked : ∀ t, e.peeked = some (.token t) → t.Within (e.reach k base)

/-- What becomes of an expander. -/
structure Moves (e e' : Expander ρ) : Prop where
  /-- It stays sound. -/
  sound : e'.Sound k base
  /-- It does not go back. -/
  reach_le : e.reach k base ≤ e'.reach k base
  /-- It is live as before. -/
  live : e'.isLive = e.isLive

/-- What becomes of an expander when it takes a token, however many steps that needs. -/
structure Advances (e : Expander ρ) (out : Step × Expander ρ) : Prop extends
    Moves k base e out.2 where
  /-- The token ends in front of the point that is reached. -/
  within : ∀ t, out.1 = .token t → t.Within (out.2.reach k base)
  /-- Unless it fails, no token is looked at. -/
  peeked : (∀ fault, out.1 ≠ .failed fault) → out.2.peeked = none
  /-- A token that leaves no macro in use comes from the reader. -/
  start : e.isLive = true → e.peeked = none → out.2.stack = [] → ∀ t, out.1 = .token t →
    e.reach k base ≤ t.span.start ∧ ∃ rest, Stands source t.span.start rest

variable {k base} {e e' : Expander ρ}

theorem reach_of_not_isLive (h : e.isLive = false) : e.reach k base = base := by
  obtain ⟨source, stack, blocked, peeked⟩ := e
  cases source with
  | fixed => rfl
  | live => cases h

/-- The tokens of macros end in front of the point that is reached. -/
theorem Sound.within_macros (h : e.Sound k base) :
    (e.macros reading).Within (e.reach k base) := by
  obtain ⟨source, stack, blocked, peeked⟩ := e
  cases source with
  | fixed => exact h.source.2
  | live => exact k.within_macros h.source

theorem Moves.trans {e'' : Expander ρ} (h : Moves k base e e') (h' : Moves k base e' e'') :
    Moves k base e e'' :=
  ⟨h'.sound, Nat.le_trans h.reach_le h'.reach_le, h'.live.trans h.live⟩

theorem Moves.refl (h : e.Sound k base) : Moves k base e e := ⟨h, Nat.le_refl _, rfl⟩

/-- Steps in between do not hide where a token comes from. -/
theorem Advances.trans {e' : Expander ρ} {out : Step × Expander ρ}
    (h : Advances k base e (.again, e')) (h' : Advances k base e' out) :
    Advances k base e out where
  toMoves := h.toMoves.trans h'.toMoves
  within := h'.within
  peeked := h'.peeked
  start hlive _ hstack t ht := by
    have hpeeked := h.peeked fun fault hfault => (nomatch hfault)
    obtain ⟨hle, hplace⟩ := h'.start (h.live.trans hlive) hpeeked hstack t ht
    exact ⟨Nat.le_trans h.reach_le hle, hplace⟩

/-! ## Steps -/

/-- Without a macro in use, the token comes from the reader. -/
theorem advances_pull (h : e.Sound k base) (hpeeked : e.peeked = none) :
    Advances k base e (e.pull reading) := by
  obtain ⟨source, stack, blocked, peeked⟩ := e
  obtain rfl : peeked = none := hpeeked
  cases source with
  | fixed tokens macros =>
      cases tokens with
      | nil =>
          exact ⟨.refl h, fun t ht => (nomatch ht), fun _ => rfl, fun hlive => (nomatch hlive)⟩
      | cons t ts =>
          obtain ⟨ht, hts⟩ := List.forall_mem_cons.mp h.source.1
          refine ⟨⟨⟨⟨hts, h.source.2⟩, h.stack, h.peeked⟩, Nat.le_refl _, rfl⟩, ?_, fun _ => rfl,
            fun hlive => (nomatch hlive)⟩
          rintro _ ⟨⟩
          exact ht
  | live reader =>
      have hsound : k.Sound reader := h.source
      have hle := k.reach_pull hsound
      refine ⟨⟨⟨k.sound_pull hsound, ?_, fun t ht => (nomatch ht)⟩, hle, rfl⟩, ?_, fun _ => rfl, ?_⟩
      · exact fun i hi => (h.stack i hi).mono hle
      · exact fun t ht => k.within_of_pull hsound ht
      · exact fun _ _ _ t ht => k.start_of_pull hsound ht

/-- An expander that takes a token without expanding it stays sound.  A macro that hands out
a token is still in use. -/
theorem advances_raw (h : e.Sound k base) : Advances k base e (e.raw reading) := by
  unfold raw
  split
  · next step hstep =>
    refine ⟨⟨⟨h.source, h.stack, fun t ht => (nomatch ht)⟩, Nat.le_refl _, rfl⟩, ?_,
      fun _ => rfl, ?_⟩
    · rintro t rfl
      exact h.peeked t hstep
    · exact fun _ hnone => absurd (hstep.symm.trans hnone) (Option.some_ne_none _)
  · next hnone =>
    split
    · exact advances_pull h hnone
    · next top below hstack =>
      obtain ⟨htop, hbelow⟩ := List.forall_mem_cons.mp (hstack ▸ h.stack)
      obtain ⟨htoken, hrest⟩ := htop.take
      refine ⟨⟨⟨h.source, ?_, h.peeked⟩, Nat.le_refl _, rfl⟩, fun t ht => (htoken t ht).1,
        fun _ => hnone, ?_⟩
      · intro i hi
        rcases List.mem_append.mp hi with hi | hi
        · exact hrest i (Option.mem_toList.mp hi)
        · exact hbelow i hi
      · intro _ _ hempty t ht
        have hnone : top.take.2.toList = [] := (List.append_eq_nil_iff.mp hempty).1
        exact absurd (Option.toList_eq_nil_iff.mp hnone) (htoken t ht).2

/-- One step takes a token, or starts to expand a name. -/
theorem advances_step (h : e.Sound k base) : Advances k base e (e.step reading) := by
  have hraw := advances_raw h
  unfold step
  split
  · next t rest heq =>
    rw [heq] at hraw
    split
    · dsimp only
      split
      · exact ⟨hraw.toMoves, fun t ht => (nomatch ht), fun hfault => absurd rfl (hfault _),
          fun _ _ _ t ht => (nomatch ht)⟩
      · refine ⟨hraw.toMoves, ?_, fun _ => hraw.peeked fun _ hfault => (nomatch hfault), ?_⟩
        · rintro _ ⟨⟩
          exact ⟨(hraw.within t rfl).ordered, (hraw.within t rfl).stop_le, trivial⟩
        · rintro hlive hpeeked hstack _ ⟨⟩
          exact hraw.start hlive hpeeked hstack t rfl
    · exact hraw
  · exact hraw

/-- Steps are taken until there is a token. -/
theorem advances_settle (h : e.Sound k base) (fuel : Nat) :
    Advances k base e (e.settle reading fuel) := by
  induction fuel generalizing e with
  | zero =>
      exact ⟨.refl h, fun t ht => (nomatch ht), fun hfault => absurd rfl (hfault _),
        fun _ _ _ t ht => (nomatch ht)⟩
  | succ fuel ih =>
      have hstep := advances_step h
      rw [settle]
      split
      · next e' heq =>
        rw [heq] at hstep
        exact hstep.trans (ih hstep.sound)
      · exact hstep

/-! ## Arguments -/

/-- The collected tokens end in front of an offset. -/
structure Collected.Within (n : Nat) (c : Collected) : Prop where
  /-- Those of finished arguments do. -/
  done : ∀ tokens ∈ c.done, ∀ t ∈ tokens, t.Within n
  /-- Those of the argument under way do. -/
  current : ∀ t ∈ c.current, t.Within n

theorem Collected.Within.toList {n : Nat} {c : Collected} (h : c.Within n) :
    ∀ tokens ∈ c.toList, ∀ t ∈ tokens, t.Within n := by
  intro tokens htokens t ht
  rcases List.mem_cons.mp (List.mem_reverse.mp htokens) with rfl | hdone
  · exact h.current t (List.mem_reverse.mp ht)
  · exact h.done tokens hdone t ht

/-- Arguments are collected from tokens that end in front of the point that is reached. -/
theorem moves_collect (fuel : Nat) {c : Collected} (h : e.Sound k base)
    (hc : c.Within (e.reach k base)) :
    Moves k base e (collect reading fuel c e).2 ∧
      ∀ c', (collect reading fuel c e).1 = .ok c' →
        c'.Within ((collect reading fuel c e).2.reach k base) := by
  induction fuel generalizing e c with
  | zero => exact ⟨.refl h, fun c' hc' => (nomatch hc')⟩
  | succ fuel ih =>
      have hsettle := advances_settle h fuel
      rw [collect]
      split
      · next t e' heq =>
        rw [heq] at hsettle
        have ht := hsettle.within t rfl
        have hdone : ∀ tokens ∈ c.done, ∀ t ∈ tokens, t.Within (e'.reach k base) :=
          fun tokens htokens t ht => (hc.done tokens htokens t ht).mono hsettle.reach_le
        have hcurrent : ∀ t ∈ c.current, t.Within (e'.reach k base) :=
          fun t ht => (hc.current t ht).mono hsettle.reach_le
        have hmore : ∀ c' : Collected, c'.Within (e'.reach k base) →
            Moves k base e (collect reading fuel c' e').2 ∧
              ∀ c'', (collect reading fuel c' e').1 = .ok c'' →
                c''.Within ((collect reading fuel c' e').2.reach k base) :=
          fun c' hc' => ⟨hsettle.toMoves.trans (ih hsettle.sound hc').1, (ih hsettle.sound hc').2⟩
        have hpush : ∀ u ∈ t :: c.current, u.Within (e'.reach k base) :=
          List.forall_mem_cons.mpr ⟨ht, hcurrent⟩
        dsimp only
        split
        · split
          · refine ⟨hsettle.toMoves, ?_⟩
            rintro _ ⟨⟩
            exact ⟨hdone, hcurrent⟩
          · exact hmore _ ⟨hdone, hpush⟩
        · exact hmore _ ⟨hdone, hpush⟩
        · split
          · refine hmore _ ⟨List.forall_mem_cons.mpr ⟨?_, hdone⟩, fun u hu => (nomatch hu)⟩
            exact fun u hu => hcurrent u (List.mem_reverse.mp hu)
          · exact hmore _ ⟨hdone, hpush⟩
        · exact hmore _ ⟨hdone, hpush⟩
      · next fault e' heq =>
        rw [heq] at hsettle
        exact ⟨hsettle.toMoves, fun c' hc' => (nomatch hc')⟩
      · next out e' _ _ heq =>
        rw [heq] at hsettle
        exact ⟨hsettle.toMoves, fun c' hc' => (nomatch hc')⟩

theorem mem_of_checkArguments {params : List String} {arguments arguments' : List (List Token)}
    {span : Span} (h : checkArguments params arguments span = .ok arguments') :
    ∀ tokens ∈ arguments', tokens ∈ arguments := by
  unfold checkArguments at h
  split at h
  · cases h
    exact fun tokens htokens => (nomatch htokens)
  · split at h
    · cases h
    · split at h
      · cases h
      · cases h
        exact fun tokens htokens => htokens

/-! ## Expansions -/

/-- What becomes of an expander when it starts to expand a name. -/
structure Starts (k : Tracking source reading) (base : Nat) (e : Expander ρ)
    (out : Except Fault Bool × Expander ρ) : Prop extends Moves k base e out.2 where
  /-- A name that is expanded leaves a macro in use. -/
  pushed : out.1 = .ok true → out.2.stack ≠ []
  /-- The token that was looked at in vain comes from the reader if no macro is in use. -/
  start : out.1 = .ok false → e.isLive = true → e.peeked = none → out.2.stack = [] →
    ∀ t, out.2.peeked = some (.token t) →
      e.reach k base ≤ t.span.start ∧ ∃ rest, Stands source t.span.start rest

/-- Nothing is expanded, and nothing was looked at. -/
theorem Starts.refl (h : e.Sound k base) : Starts k base e (.ok false, e) where
  toMoves := .refl h
  pushed htrue := nomatch htrue
  start _ _ hpeeked _ _ ht := nomatch hpeeked.symm.trans ht

theorem Starts.of_error {fault : Fault} (h : Moves k base e e') :
    Starts k base e (.error fault, e') where
  toMoves := h
  pushed htrue := nomatch htrue
  start hfalse := nomatch hfalse

theorem Starts.of_push {i : Invocation} (h : Moves k base e e')
    (hi : i.Within (e'.reach k base)) : Starts k base e (.ok true, e'.push i) where
  sound := ⟨h.sound.source, List.forall_mem_cons.mpr ⟨hi, h.sound.stack⟩, h.sound.peeked⟩
  reach_le := h.reach_le
  live := h.live
  pushed _ := List.cons_ne_nil _ _
  start hfalse := nomatch hfalse

/-- A step that was looked at is put back. -/
theorem Starts.of_putBack {step : Step} (h : Advances k base e (step, e')) :
    Starts k base e (.ok false, { e' with peeked := some step }) where
  sound := ⟨h.sound.source, h.sound.stack, fun t ht => h.within t (Option.some.inj ht)⟩
  reach_le := h.reach_le
  live := h.live
  pushed htrue := nomatch htrue
  start _ hlive hpeeked hstack t ht := h.start hlive hpeeked hstack t (Option.some.inj ht)

section

variable (k) (fuel : Nat)

/-- What `start` does within a number of steps. -/
def StartSound : Prop :=
  ∀ (base : Nat) (name : String) (t : Token) (e : Expander ρ), e.Sound k base →
    t.value = .ident name → t.Within (e.reach k base) →
    Starts k base e (start reading fuel name t e)

/-- What `expandEach` does within a number of steps. -/
def EachSound (reading : Reading ρ) (fuel : Nat) : Prop :=
  ∀ (base : Nat) (macros : MacroTable) (blocked : List String)
    (arguments arguments' : List (List Token)), macros.Within base →
    (∀ tokens ∈ arguments, ∀ t ∈ tokens, t.Within base) →
    expandEach reading fuel macros blocked arguments = .ok arguments' →
    ∀ tokens ∈ arguments', ∀ t ∈ tokens, t.Within base

/-- What `expandAll` does within a number of steps. -/
def AllSound : Prop :=
  ∀ (base : Nat) (e : Expander ρ) (done tokens : List Token), e.Sound k base →
    e.isLive = false → (∀ t ∈ done, t.Within base) →
    expandAll reading fuel e done = .ok tokens → ∀ t ∈ tokens, t.Within base

end

variable {fuel : Nat}

/-- To start an expansion is sound if the expansion of each argument is. -/
theorem startSound_succ (ih : EachSound reading fuel) : StartSound k (fuel + 1) := by
  intro base name t e h hname ht
  rw [start]
  split
  · exact .refl h
  · split
    · exact .refl h
    · next body hget =>
      refine .of_push (.refl h) ⟨h.within_macros.of_get? ht hname hget, ?_, ?_⟩
      · exact fun a ha => (nomatch ha)
      · exact fun ts hts => (nomatch hts)
    · next params body hget =>
      have hsettle := advances_settle h fuel
      split
      · next opening e₁ heq =>
        rw [heq] at hsettle
        split
        · have hnone : Collected.Within (e₁.reach k base) ⟨[], [], 0, opening⟩ :=
            ⟨fun _ htokens => (nomatch htokens), fun _ hu => (nomatch hu)⟩
          obtain ⟨hcollect, hc⟩ := moves_collect fuel hsettle.sound hnone
          have hmoves := hsettle.toMoves.trans hcollect
          split
          · next fault e₂ heq₂ =>
            rw [heq₂] at hmoves
            exact .of_error hmoves
          · next c e₂ heq₂ =>
            rw [heq₂] at hmoves hc
            split
            · exact .of_error hmoves
            · next arguments hcheck =>
              split
              · exact .of_error hmoves
              · next arguments' heach =>
                refine .of_push hmoves ⟨fun u hu => ?_, fun a ha => ?_, fun _ hts => (nomatch hts)⟩
                · exact (h.within_macros.of_get? ht hname hget u hu).mono hmoves.reach_le
                · refine ih _ _ _ _ _ hmoves.sound.within_macros ?_ heach _ (List.of_mem_zip ha).2
                  intro tokens htokens
                  exact (hc c rfl).toList tokens (mem_of_checkArguments hcheck tokens htokens)
        · exact .of_putBack hsettle
      · next outcome e₁ _ heq =>
        rw [heq] at hsettle
        exact .of_putBack hsettle

/-- The expansion of each argument is sound if that of all its tokens is. -/
theorem eachSound_succ (ihEach : EachSound reading fuel) (ihAll : AllSound k fuel) :
    EachSound reading (fuel + 1) := by
  intro base macros blocked arguments arguments' hmacros harguments heach
  cases arguments with
  | nil =>
      cases heach
      exact fun tokens htokens => (nomatch htokens)
  | cons tokens rest =>
      obtain ⟨htokens, hrest⟩ := List.forall_mem_cons.mp harguments
      rw [expandEach] at heach
      split at heach
      · cases heach
      · next expanded hall =>
        split at heach
        · cases heach
        · next rest' heach' =>
          cases heach
          have hsound : Sound k base ⟨.fixed tokens macros, [], blocked, none⟩ :=
            ⟨⟨htokens, hmacros⟩, fun _ hi => (nomatch hi), fun _ ht => (nomatch ht)⟩
          refine List.forall_mem_cons.mpr ⟨?_, ?_⟩
          · exact ihAll base _ [] expanded hsound rfl (fun _ ht => (nomatch ht)) hall
          · exact ihEach base macros blocked rest rest' hmacros hrest heach'

/-- The expansion of all tokens is sound if each start of an expansion is. -/
theorem allSound_succ (ihStart : StartSound k fuel) (ihAll : AllSound k fuel) :
    AllSound k (fuel + 1) := by
  intro base e done tokens h hfixed hdone hall
  have hstep := advances_step h
  rw [expandAll] at hall
  split at hall
  · cases hall
    exact fun t ht => hdone t (List.mem_reverse.mp ht)
  · cases hall
  · next e' heq =>
    rw [heq] at hstep
    exact ihAll base e' done tokens hstep.sound (hstep.live.trans hfixed) hdone hall
  · next t e' heq =>
    rw [heq] at hstep
    have hfixed' := hstep.live.trans hfixed
    have ht := hstep.within t rfl
    rw [reach_of_not_isLive hfixed'] at ht
    have hpush : ∀ u ∈ t :: done, u.Within base := List.forall_mem_cons.mpr ⟨ht, hdone⟩
    split at hall
    · next name hname =>
      have hstart := ihStart base name t e' hstep.sound hname (hstep.within t rfl)
      split at hall
      · cases hall
      · next e'' heq' =>
        rw [heq'] at hstart
        exact ihAll base e'' done tokens hstart.sound (hstart.live.trans hfixed') hdone hall
      · next e'' heq' =>
        rw [heq'] at hstart
        exact ihAll base e'' _ tokens hstart.sound (hstart.live.trans hfixed') hpush hall
    · exact ihAll base e' _ tokens hstep.sound hfixed' hpush hall

/-- The three functions of an expansion keep tokens in front of the point that is
reached.  The induction is on the bound on their steps. -/
theorem expansion_sound (k : Tracking source reading) (fuel : Nat) :
    StartSound k fuel ∧ EachSound reading fuel ∧ AllSound k fuel := by
  induction fuel with
  | zero =>
      refine ⟨?_, ?_, ?_⟩
      · intro base name t e h _ _
        exact .of_error (.refl h)
      · intro base macros blocked arguments arguments' _ _ heach
        cases arguments with
        | nil =>
            cases heach
            exact fun tokens htokens => (nomatch htokens)
        | cons tokens rest => cases heach
      · intro base e done tokens _ _ _ hall
        cases hall
  | succ fuel ih =>
      obtain ⟨ihStart, ihEach, ihAll⟩ := ih
      exact ⟨startSound_succ ihEach, eachSound_succ ihEach ihAll, allSound_succ ihStart ihAll⟩

/-! ## Runs -/

/-- A live expander after it has handed out tokens that all end in front of an offset. -/
structure Tracked (k : Tracking source reading) (α : Nat) (e : Expander ρ) : Prop where
  /-- It is sound. -/
  sound : e.Sound k 0
  /-- It is live. -/
  live : e.isLive = true
  /-- It has reached the offset. -/
  le_reach : α ≤ e.reach k 0
  /-- A token that it looks at starts behind the offset if no macro is in use. -/
  peeked : e.stack = [] → ∀ t, e.peeked = some (.token t) →
    α ≤ t.span.start ∧ ∃ rest, Stands source t.span.start rest

/-- A number in place of `__LINE__` has the place of the word. -/
theorem raw_of_step {t : Token} (h : e.step reading = (.token t, e')) :
    ∃ u, e.raw reading = (.token u, e') ∧ t.span = u.span := by
  unfold step at h
  split at h
  · next u rest heq =>
    refine ⟨u, ?_⟩
    split at h
    · dsimp only at h
      split at h
      · cases h
      · cases h
        exact ⟨heq, rfl⟩
    · cases h
      exact ⟨heq, rfl⟩
  · exact ⟨t, h, rfl⟩

theorem raw_of_nil (hpeeked : e.peeked = none) (hstack : e.stack = []) :
    e.raw reading = e.pull reading := by
  simp only [raw, hpeeked, hstack]

theorem stack_pull (reading : Reading ρ) (e : Expander ρ) : (e.pull reading).2.stack = e.stack := by
  unfold pull
  split <;> rfl

variable {α : Nat}

namespace Tracked

/-- With no macro in use, the next token starts behind the end of all those before it. -/
theorem start_of_step (h : Tracked k α e) {t : Token}
    (hstep : e.step reading = (.token t, e')) (hstack : e.stack = []) :
    α ≤ t.span.start ∧ ∃ rest, Stands source t.span.start rest := by
  obtain ⟨u, hraw, hspan⟩ := raw_of_step hstep
  rw [hspan]
  cases hpeeked : e.peeked with
  | none =>
      have hadvances := advances_raw h.sound
      rw [hraw] at hadvances
      have hempty : e'.stack = [] := by
        rw [← hstack, ← stack_pull reading e, ← raw_of_nil hpeeked hstack, hraw]
      obtain ⟨hle, hplace⟩ := hadvances.start h.live hpeeked hempty u rfl
      exact ⟨Nat.le_trans h.le_reach hle, hplace⟩
  | some step =>
      simp only [raw, hpeeked, Prod.mk.injEq] at hraw
      exact h.peeked hstack u (hraw.1 ▸ hpeeked)

/-- A step that hands out no token. -/
theorem of_again (h : Tracked k α e) (hnext : e.next reading = (.again, e')) :
    Tracked k α e' := by
  have hadvances := advances_step h.sound
  unfold next at hnext
  split at hnext
  · next t e₁ hstep =>
    rw [hstep] at hadvances
    split at hnext
    · next name hname =>
      have hstart := (expansion_sound k stepBound).1 0 name t e₁ hadvances.sound hname
        (hadvances.within t rfl)
      split at hnext
      · cases hnext
      · next e₂ heq =>
        cases hnext
        rw [heq] at hstart
        have hmoves := hadvances.toMoves.trans hstart.toMoves
        exact ⟨hmoves.sound, hmoves.live.trans h.live, Nat.le_trans h.le_reach hmoves.reach_le,
          fun hempty => absurd hempty (hstart.pushed rfl)⟩
      · cases hnext
    · cases hnext
  · rw [hnext] at hadvances
    have hnone : e'.peeked = none := hadvances.peeked fun _ hfault => (nomatch hfault)
    exact ⟨hadvances.sound, hadvances.live.trans h.live,
      Nat.le_trans h.le_reach hadvances.reach_le, fun _ _ ht => (nomatch hnone.symm.trans ht)⟩

/-- A step that hands out a token.  A token that it has looked at was read after the one
that it hands out. -/
theorem of_token (h : Tracked k α e) {t : Token} (hnext : e.next reading = (.token t, e')) :
    Tracked k (max α t.span.stop) e' ∧ t.Within t.span.stop ∧
      (e.stack = [] → α ≤ t.span.start ∧ ∃ rest, Stands source t.span.start rest) := by
  have hadvances := advances_step h.sound
  unfold next at hnext
  split at hnext
  · next u e₁ hstep =>
    rw [hstep] at hadvances
    have hu := hadvances.within u rfl
    have hnone : e₁.peeked = none := hadvances.peeked fun _ hfault => (nomatch hfault)
    have hle : max α u.span.stop ≤ e₁.reach k 0 :=
      Nat.max_le.mpr ⟨Nat.le_trans h.le_reach hadvances.reach_le, hu.stop_le⟩
    have hwithin : u.Within u.span.stop := ⟨hu.ordered, Nat.le_refl _, hu.fits⟩
    have hlive := hadvances.live.trans h.live
    split at hnext
    · next name hname =>
      have hstart := (expansion_sound k stepBound).1 0 name u e₁ hadvances.sound hname hu
      split at hnext
      · cases hnext
      · cases hnext
      · next e₂ heq =>
        cases hnext
        rw [heq] at hstart
        refine ⟨⟨hstart.sound, hstart.live.trans hlive, Nat.le_trans hle hstart.reach_le, ?_⟩,
          hwithin, h.start_of_step hstep⟩
        intro hempty y hy
        obtain ⟨hstop, hplace⟩ := hstart.start rfl hlive hnone hempty y hy
        exact ⟨Nat.le_trans hle hstop, hplace⟩
    · cases hnext
      exact ⟨⟨hadvances.sound, hlive, hle, fun _ _ ht => (nomatch hnone.symm.trans ht)⟩, hwithin,
        h.start_of_step hstep⟩
  · next hnot => exact absurd hnext (hnot t e')

end Tracked

end Expander

end LegacyShader.Preprocess
