/-
What parsers yield. `Yields G Q m` says of a parser that on streams of tokens with the property `G` all its results have
the property `Q`, and that such tokens are left. One rule for each step of a parser follows; what a grammar makes of good
tokens is then shown along its definitions.
-/
import TemplateView.Proofs.Grammar.Takes

namespace TemplateView

/-- all tokens of a stream have a property, and so has the end behind them -/
def TokenStream.All (G : Token → Prop) (s : TokenStream) : Prop :=
  (∀ t ∈ s.rest, G t) ∧ G (.endOfInput s.finish)

namespace TokenStream

variable {G : Token → Prop} {s : TokenStream}

theorem All.advance (h : s.All G) : s.advance.All G := ⟨fun t ht => h.1 t (List.mem_of_mem_drop ht), h.2⟩

theorem All.passBlank (h : s.All G) (b : Blanks) : (s.passBlank b).All G :=
  passBlank_of_advance h h.advance b

theorem All.peekNth (h : s.All G) (n : Nat) : G (s.peekNth n) := by
  unfold TokenStream.peekNth
  rw [List.getD_eq_getElem?_getD]
  cases hn : s.rest[n]? with
  | none => exact h.2
  | some t => exact h.1 t (List.mem_of_getElem? hn)

end TokenStream

namespace Parser

variable {α β σ ι : Type} {G : Token → Prop} {P Q : α → Prop}

/-- on a stream, all results are as described and good tokens are left -/
def YieldsAt (G : Token → Prop) (s : TokenStream) (Q : α → Prop) (m : Parser α) : Prop :=
  ∀ a t, m s = .ok (a, t) → Q a ∧ t.All G

/-- on good tokens, all results are as described and good tokens are left -/
def Yields (G : Token → Prop) (Q : α → Prop) (m : Parser α) : Prop := ∀ s, s.All G → YieldsAt G s Q m

/-! ## Steps -/

theorem Yields.mono {m : Parser α} (h : Yields G P m) (hPQ : ∀ a, P a → Q a) : Yields G Q m :=
  fun s hs a t hm => (h s hs a t hm).imp_left (hPQ a)

theorem yields_pure {a : α} (h : Q a) : Yields G Q (pure a) := by
  intro s hs a t hm
  cases hm
  exact ⟨h, hs⟩

theorem yields_fail (e : ParseError) : Yields G Q (fail e) := by
  intro s hs a t hm
  cases hm

theorem yields_stalled : Yields G Q stalled := by
  intro s hs a t hm
  cases hm

theorem yieldsAt_bind {s : TokenStream} {m : Parser α} {f : α → Parser β} {Q : β → Prop} (hm : YieldsAt G s P m)
    (hf : ∀ a, P a → Yields G Q (f a)) : YieldsAt G s Q (m >>= f) := by
  intro b u h
  obtain ⟨a, t, ha, hb⟩ := bind_ok_iff.1 h
  obtain ⟨hp, ht⟩ := hm a t ha
  exact hf a hp t ht b u hb

theorem yields_bind {m : Parser α} {f : α → Parser β} {Q : β → Prop} (hm : Yields G P m)
    (hf : ∀ a, P a → Yields G Q (f a)) : Yields G Q (m >>= f) :=
  fun s hs => yieldsAt_bind (hm s hs) hf

/-- the last step only changes the form of the result -/
theorem yields_map {m : Parser α} {f : α → β} {Q : β → Prop} (hm : Yields G P m) (hf : ∀ a, P a → Q (f a)) :
    Yields G Q (do return f (← m)) :=
  yields_bind hm fun a ha => yields_pure (hf a ha)

theorem yields_peek (b : Blanks) : Yields G G (peek b) := by
  intro s hs t u hm
  cases hm
  exact ⟨(hs.passBlank b).peekNth 0, hs⟩

theorem yields_peekNext (b : Blanks) : Yields G G (peekNext b) := by
  intro s hs t u hm
  cases hm
  exact ⟨((hs.passBlank b).advance.passBlank b).peekNth 0, hs⟩

theorem yields_peekNth (n : Nat) : Yields G G (peekNth n) := by
  intro s hs t u hm
  cases hm
  exact ⟨hs.peekNth n, hs⟩

theorem yields_atEnd : Yields G (fun _ => True) atEnd := by
  intro s hs a t hm
  cases hm
  exact ⟨trivial, hs⟩

theorem yields_taking {b : Blanks} {call : TokenStream → Except LexError Token × TokenStream} {T : Token → Prop}
    (h : ∀ s t s', call s = (.ok t, s') → s.passBlank b = ⟨t :: s'.rest, s'.finish⟩ ∧ T t) :
    Yields G (fun t => G t ∧ T t) (taking call) := by
  intro s hs t s' hm
  obtain ⟨hp, ht⟩ := h s t s' (taking_eq_ok.1 hm)
  have hall := hs.passBlank b
  rw [hp] at hall
  exact ⟨⟨hall.1 t List.mem_cons_self, ht⟩, fun u hu => hall.1 u (List.mem_cons_of_mem t hu), hall.2⟩

theorem yields_consume (b : Blanks) : Yields G G (consume b) :=
  (yields_taking (T := fun _ => True) fun _ _ _ h => ⟨consume_eq_ok.1 (taking_eq_ok.2 h), trivial⟩).mono fun _ => And.left

/-- the next token, if it is as required -/
theorem yields_expected (b : Blanks) (e : Expected) :
    Yields G (fun t => G t ∧ e.matches t = true) (taking (·.consumeExpected b e)) :=
  yields_taking fun _ _ _ h => consumeExpected_eq_ok.1 h

theorem yields_expect (b : Blanks) (text : String) : Yields G (fun t => G t ∧ t.is text = true) (expect b text) :=
  yields_expected b (.text text)

theorem yields_expectOneOf (b : Blanks) (texts : List String) :
    Yields G (fun t => G t ∧ t.isOneOf texts = true) (expectOneOf b texts) :=
  yields_expected b (.oneOf texts)

theorem yields_expectCategory (b : Blanks) (c : Category) :
    Yields G (fun t => G t ∧ t.category = c) (expectCategory b c) :=
  (yields_expected b (.category c)).mono fun _ h => ⟨h.1, beq_iff_eq.1 h.2⟩

/-- a token that is taken behind a look at it is the one that was seen -/
theorem yieldsAt_peek {s : TokenStream} {b : Blanks} {f : Token → Parser α} (h : YieldsAt G s Q (f (s.peek b))) :
    YieldsAt G s Q (peek b >>= f) := by
  intro a t hm
  rw [bind_ok (peek_run b s)] at hm
  exact h a t hm

theorem yieldsAt_consume {s : TokenStream} (hs : s.All G) {b : Blanks} {f : Token → Parser α}
    (h : Yields G Q (f (s.peek b))) : YieldsAt G s Q (consume b >>= f) := by
  intro a u hm
  obtain ⟨t, s', ht, hf⟩ := bind_ok_iff.1 hm
  have hp := consume_eq_ok.1 ht
  have hseen : s.peek b = t := by rw [TokenStream.peek, hp]; rfl
  rw [hseen] at h
  exact h s' (yields_consume b s hs t s' ht).2 a u hf

/-! ## Loops -/

/-- a loop whose rounds keep an invariant until they have a result -/
theorem yields_iterate {step : σ → Parser (σ ⊕ α)} {I : σ → Prop} {a : σ} (h : I a)
    (hs : ∀ a, I a → Yields G (Sum.elim I Q) (step a)) : Yields G Q (iterate a step) := by
  have key : ∀ (n : Nat) (a : σ), I a → Yields G Q (loop step n a) := by
    intro n
    induction n with
    | zero => exact fun a _ => yields_stalled
    | succ n ih =>
      intro a ha
      refine yields_bind (hs a ha) fun x hx => ?_
      cases x with
      | inl b => exact ih b hx
      | inr r => exact yields_pure hx
  exact fun s => key (s.remaining + 1) a h s

/-- one round of a loop that gathers items: all items so far are of a kind, whether the loop goes on or ends -/
abbrev Gathers (G : Token → Prop) (I : ι → Prop) (m : Parser (List ι ⊕ List ι)) : Prop :=
  Yields G (Sum.elim (fun items => ∀ i ∈ items, I i) fun items => ∀ i ∈ items, I i) m

theorem yields_gather {step : List ι → Parser (List ι ⊕ List ι)} {I : ι → Prop}
    (hs : ∀ items, (∀ i ∈ items, I i) → Gathers G I (step items)) :
    Yields G (fun items => ∀ i ∈ items, I i) (iterate [] step) :=
  yields_iterate (List.forall_mem_nil _) hs

/-- one more item of the kind -/
theorem forall_mem_snoc {I : ι → Prop} {items : List ι} {i : ι} (h : ∀ j ∈ items, I j) (hi : I i) :
    ∀ j ∈ items ++ [i], I j :=
  List.forall_mem_append.2 ⟨h, List.forall_mem_singleton.2 hi⟩

/-- a parser that refers to itself yields what its unfolding does where it yields that inside -/
theorem yields_recursive {unfold : (ι → Parser α) → ι → Parser α} {Q : ι → α → Prop}
    (h : ∀ self : ι → Parser α, (∀ i, Yields G (Q i) (self i)) → ∀ i, Yields G (Q i) (unfold self i)) (i : ι) :
    Yields G (Q i) (recursive unfold i) := by
  have key : ∀ n i, Yields G (Q i) (nested unfold n i) := by
    intro n
    induction n with
    | zero => exact fun i => yields_stalled
    | succ n ih => exact h (nested unfold n) ih
  exact fun s => key (s.remaining + 1) i s

end Parser

end TemplateView
