/-
What parsers take. `Takes m s Q` says that whenever the parser `m` has a result on the stream `s`, the rest it leaves is
what stood behind some tokens of `s`, and `Q` holds of these tokens and the result. There is one rule for each step of a
parser, so a statement about what a construct uses up is proved along its definition.
-/
import TemplateView.Grammar.Parser

namespace TemplateView.Parser

variable {α β σ : Type}

/-- whenever a parser has a result on a stream, it used up some tokens, and they and the result are as described -/
def Takes (m : Parser α) (s : TokenStream) (Q : List Token → α → Prop) : Prop :=
  ∀ a t, m s = .ok (a, t) → ∃ used, s = ⟨used ++ t.rest, t.finish⟩ ∧ Q used a

/-! ## How parsers run -/

theorem bind_run (m : Parser α) (f : α → Parser β) (s : TokenStream) : (m >>= f) s = (m s >>= fun p => f p.1 p.2) := rfl

theorem bind_ok_iff {m : Parser α} {f : α → Parser β} {s t : TokenStream} {b : β} :
    (m >>= f) s = .ok (b, t) ↔ ∃ a s', m s = .ok (a, s') ∧ f a s' = .ok (b, t) := by
  rw [bind_run]
  cases m s with
  | error e =>
    constructor
    · intro h; cases h
    · rintro ⟨_, _, h, _⟩; cases h
  | ok p =>
    constructor
    · intro h; exact ⟨p.1, p.2, rfl, h⟩
    · rintro ⟨a, s', h, hf⟩; cases h; exact hf

theorem bind_ok {m : Parser α} {f : α → Parser β} {s s' : TokenStream} {a : α} (h : m s = .ok (a, s')) :
    (m >>= f) s = f a s' := by
  rw [bind_run, h]
  rfl

theorem peek_run (b : Blanks) (s : TokenStream) : peek b s = .ok (s.peek b, s) := rfl

theorem peekNext_run (b : Blanks) (s : TokenStream) : peekNext b s = .ok (s.peekNext b, s) := rfl

theorem peekNth_run (n : Nat) (s : TokenStream) : peekNth n s = .ok (s.peekNth n, s) := rfl

theorem atEnd_run (s : TokenStream) : atEnd s = .ok (s.atEnd .kept, s) := rfl

theorem taking_eq_ok {call : TokenStream → Except LexError Token × TokenStream} {s s' : TokenStream} {t : Token} :
    taking call s = .ok (t, s') ↔ call s = (.ok t, s') := by
  unfold taking
  split
  · next u s₁ h => rw [h]; simp
  · next e s₁ h => rw [h]; simp

/-- a consuming call has a result exactly where a token is left, behind whitespace if that is skipped -/
theorem consume_eq_ok {b : Blanks} {s s' : TokenStream} {t : Token} :
    consume b s = .ok (t, s') ↔ s.passBlank b = ⟨t :: s'.rest, s'.finish⟩ := by
  rw [consume, taking_eq_ok, TokenStream.consume]
  constructor
  · intro h
    split at h
    · next u rest hr =>
      cases h
      rw [← hr]
    · cases h
  · intro h
    rw [h]

theorem consumeExpected_eq_ok {b : Blanks} {e : Expected} {s s' : TokenStream} {t : Token} :
    s.consumeExpected b e = (.ok t, s') ↔ s.passBlank b = ⟨t :: s'.rest, s'.finish⟩ ∧ e.matches t = true := by
  have hc : s.consume b = (.ok t, s') ↔ s.passBlank b = ⟨t :: s'.rest, s'.finish⟩ := by
    rw [← consume_eq_ok, consume, taking_eq_ok]
  have hp : s.passBlank b = ⟨t :: s'.rest, s'.finish⟩ → s.peek b = t := by
    intro h
    rw [TokenStream.peek, h]
    rfl
  unfold TokenStream.consumeExpected
  simp only
  split
  · next hm =>
    rw [hc]
    exact ⟨fun h => ⟨h, hp h ▸ hm⟩, And.left⟩
  · next hm =>
    constructor
    · intro h; cases h
    · rintro ⟨h, ht⟩; exact absurd (hp h ▸ ht) hm

/-- what a stream has passed over before its next token -/
theorem passBlank_eq {b : Blanks} {s s' : TokenStream} (h : s.passBlank b = s') :
    s = s' ∨ b = .skipped ∧ ∃ w, w.isWhitespace = true ∧ s = ⟨w :: s'.rest, s'.finish⟩ := by
  cases b with
  | kept => exact Or.inl h
  | skipped =>
    obtain ⟨rest, finish⟩ := s
    rw [TokenStream.passBlank] at h
    split at h
    · next hw =>
      cases rest with
      | nil => simp [TokenStream.peekNth, Token.endOfInput, Token.isWhitespace] at hw
      | cons w rest =>
        subst h
        exact Or.inr ⟨rfl, w, hw, rfl⟩
    · exact Or.inl h

/-! ## Steps -/

variable {P Q : List Token → α → Prop} {s : TokenStream}

theorem Takes.mono {m : Parser α} (h : Takes m s P) (hPQ : ∀ used a, P used a → Q used a) : Takes m s Q := by
  intro a t hm
  obtain ⟨used, hs, hp⟩ := h a t hm
  exact ⟨used, hs, hPQ used a hp⟩

theorem takes_pure {a : α} (h : Q [] a) : Takes (pure a) s Q := by
  intro a t hm
  cases hm
  exact ⟨[], rfl, h⟩

theorem takes_fail {e : ParseError} : Takes (fail e) s Q := by
  intro a t h
  cases h

theorem takes_stalled : Takes stalled s Q := by
  intro a t h
  cases h

theorem takes_bind {m : Parser α} {f : α → Parser β} {Q : List Token → β → Prop} (hm : Takes m s P)
    (hf : ∀ used a t, s = ⟨used ++ t.rest, t.finish⟩ → P used a → Takes (f a) t (fun more b => Q (used ++ more) b)) :
    Takes (m >>= f) s Q := by
  intro b t h
  obtain ⟨a, s', ha, hb⟩ := bind_ok_iff.1 h
  obtain ⟨used, hs, hp⟩ := hm a s' ha
  obtain ⟨more, hs', hq⟩ := hf used a s' hs hp b t hb
  refine ⟨used ++ more, ?_, hq⟩
  rw [hs, hs', List.append_assoc]

theorem takes_peek {b : Blanks} {f : Token → Parser α} (h : Takes (f (s.peek b)) s Q) : Takes (peek b >>= f) s Q := by
  intro a t hm
  rw [bind_ok (peek_run b s)] at hm
  exact h a t hm

theorem takes_peekNext {b : Blanks} {f : Token → Parser α} (h : Takes (f (s.peekNext b)) s Q) :
    Takes (peekNext b >>= f) s Q := by
  intro a t hm
  rw [bind_ok (peekNext_run b s)] at hm
  exact h a t hm

theorem takes_peekNth {n : Nat} {f : Token → Parser α} (h : Takes (f (s.peekNth n)) s Q) :
    Takes (peekNth n >>= f) s Q := by
  intro a t hm
  rw [bind_ok (peekNth_run n s)] at hm
  exact h a t hm

theorem takes_atEnd {f : Bool → Parser α} (h : Takes (f (s.atEnd .kept)) s Q) : Takes (atEnd >>= f) s Q := by
  intro a t hm
  rw [bind_ok (atEnd_run s)] at hm
  exact h a t hm

/-- the next token where whitespace is kept -/
theorem takes_consume {Q : List Token → Token → Prop} (h : Q [s.peek .kept] (s.peek .kept)) :
    Takes (consume .kept) s Q := by
  intro t s' hm
  have hs : s = ⟨t :: s'.rest, s'.finish⟩ := consume_eq_ok.1 hm
  subst hs
  exact ⟨[t], rfl, h⟩

/-- the next token where whitespace is kept, if it is as required -/
theorem takes_expected {e : Expected} {Q : List Token → Token → Prop} (h : ∀ t, e.matches t = true → Q [t] t) :
    Takes (taking (·.consumeExpected .kept e)) s Q := by
  intro t s' hm
  obtain ⟨hs, ht⟩ := consumeExpected_eq_ok.1 (taking_eq_ok.1 hm)
  have hs : s = ⟨t :: s'.rest, s'.finish⟩ := hs
  subst hs
  exact ⟨[t], rfl, h t ht⟩

/-! ## Loops -/

/-- a loop keeps what each round keeps of the tokens used so far -/
theorem takes_iterate {step : σ → Parser (σ ⊕ α)} {a : σ} {I : List Token → σ → Prop} (h : I [] a)
    (hs : ∀ used a t, I used a → Takes (step a) t (fun more => Sum.elim (I (used ++ more)) (Q (used ++ more)))) :
    Takes (iterate a step) s Q := by
  have key : ∀ (n : Nat) (used : List Token) (a : σ) (t : TokenStream), I used a →
      Takes (loop step n a) t (fun more => Q (used ++ more)) := by
    intro n
    induction n with
    | zero => intro used a t _; exact takes_stalled
    | succ n ih =>
      intro used a t ha
      refine takes_bind (hs used a t ha) ?_
      intro more x u _ hx
      cases x with
      | inl b => exact (ih (used ++ more) b u hx).mono fun rest r hr => by rwa [List.append_assoc] at hr
      | inr r => exact takes_pure (by rwa [List.append_nil])
  exact fun r t hm => key (s.remaining + 1) [] a s h r t hm

/-- a parser that refers to itself takes what its unfolding does where it takes that inside -/
theorem takes_recursive {ι : Type} {unfold : (ι → Parser α) → ι → Parser α} {Q : ι → List Token → α → Prop}
    (h : ∀ self : ι → Parser α, (∀ i s, Takes (self i) s (Q i)) → ∀ i s, Takes (unfold self i) s (Q i)) (i : ι)
    (s : TokenStream) : Takes (recursive unfold i) s (Q i) := by
  have key : ∀ n i s, Takes (nested unfold n i) s (Q i) := by
    intro n
    induction n with
    | zero => intro i s; exact takes_stalled
    | succ n ih => exact h (nested unfold n) ih
  exact fun a t hm => key (s.remaining + 1) i s a t hm

end TemplateView.Parser
