/-
Expressions in front of closing marks. An expression that is read on its own is read as the same one where a `)`, a `]` or
a `,` stands behind it, whatever follows that (`carries_expression`). `Carries` says of a parser that each of its results
on a stream is its result on a stream that goes on behind the end of the first one in this way (`Closer.Extends`), and
each parser of expressions carries its results over if the parser of inner expressions does.

At the end of the first stream the two differ in what is next. No parser takes a mark there to go on, but a list would
take it for its own end; on the first stream the list fails, as no expression is read where none begins (`Barren`).
-/
import TemplateView.Proofs.Grammar.Ending
import TemplateView.Proofs.Grammar.Unplaced

namespace TemplateView

open TemplateView.Parser

/-! ## Streams that go on behind a closing mark -/

/-- the marks that stand behind expressions in brackets -/
def closers : List String := [")", "]", ","]

/-- a closing mark, and what follows it in a stream -/
structure Closer where
  mark : Token
  more : List Token
  finish : Position
  operator : mark.category = .operator
  closes : mark.text ∈ closers

namespace Closer

variable (C : Closer)

/-- the second stream has the lexemes of the first one and then the mark -/
def Extends (s s' : TokenStream) : Prop :=
  ∃ us, SameTokens s.rest us ∧ s' = ⟨us ++ C.mark :: C.more, C.finish⟩

/-- tokens that are next: the same one, or the end of the first stream and the mark in the second -/
def Meets (t t' : Token) : Prop := t.Same t' ∨ t.isEnd = true ∧ t' = C.mark

variable {C} {s s' : TokenStream}

theorem not_isWhitespace : C.mark.isWhitespace = false := by
  rw [Token.isWhitespace, C.operator]
  rfl

theorem Extends.head (h : C.Extends s s') : C.Meets (s.peekNth 0) (s'.peekNth 0) := by
  obtain ⟨rest, finish⟩ := s
  obtain ⟨us, hs, rfl⟩ := h
  cases hs with
  | nil => exact .inr ⟨rfl, rfl⟩
  | cons ht _ => exact .inl ht

theorem Meets.isWhitespace {t t' : Token} (h : C.Meets t t') : t.isWhitespace = t'.isWhitespace := by
  rcases h with h | ⟨h, rfl⟩
  · exact h.isWhitespace
  · rw [Token.isEnd, beq_iff_eq] at h
    rw [C.not_isWhitespace, Token.isWhitespace, h]
    rfl

/-- the end and the mark are none of other texts -/
theorem Meets.is {t t' : Token} (h : C.Meets t t') {text : String} (ht : text ∉ closers) : t.is text = t'.is text := by
  rcases h with h | ⟨h, rfl⟩
  · exact h.is text
  · have hne : C.mark.text ≠ text := fun he => ht (he ▸ C.closes)
    rw [Token.isEnd, beq_iff_eq] at h
    rw [Token.is, Token.is, h, beq_false_of_ne hne, Bool.and_false]
    rfl

theorem Meets.text_eq {t t' : Token} (h : C.Meets t t') {text : String} (ht : text ∉ closers) (hi : t'.is text = true) :
    t.text = t'.text := by
  rcases h with h | ⟨-, rfl⟩
  · exact h.text
  · have he : C.mark.text = text := beq_iff_eq.1 (Bool.and_eq_true_iff.1 hi).2
    exact absurd (he ▸ C.closes) ht

theorem Meets.isOneOf {t t' : Token} (h : C.Meets t t') {texts : List String} (ht : ∀ text ∈ texts, text ∉ closers) :
    t.isOneOf texts = t'.isOneOf texts := by
  unfold Token.isOneOf
  induction texts with
  | nil => rfl
  | cons text texts ih =>
    rw [List.any_cons, List.any_cons, h.is (ht text List.mem_cons_self),
      ih fun u hu => ht u (List.mem_cons_of_mem text hu)]

theorem Extends.passBlank (h : C.Extends s s') (b : Blanks) : C.Extends (s.passBlank b) (s'.passBlank b) := by
  cases b with
  | kept => exact h
  | skipped =>
    rw [TokenStream.passBlank, TokenStream.passBlank, ← h.head.isWhitespace]
    split
    · next hw =>
      obtain ⟨rest, finish⟩ := s
      obtain ⟨us, hs, rfl⟩ := h
      cases hs with
      | nil => cases hw
      | @cons _ _ _ us _ hs => exact ⟨us, hs, rfl⟩
    · exact h

theorem Extends.peek (h : C.Extends s s') (b : Blanks) : C.Meets (s.peek b) (s'.peek b) := (h.passBlank b).head

theorem Extends.remaining (h : C.Extends s s') : s.remaining ≤ s'.remaining := by
  obtain ⟨us, hs, rfl⟩ := h
  rw [TokenStream.remaining, TokenStream.remaining, List.length_append, hs.length_eq]
  exact Nat.le_add_right _ _

end Closer

/-! ## Parsers that carry their results over -/

/-- what the first parser makes of a stream the second one makes of the stream that goes on behind it -/
def Carries {α β : Type} (C : Closer) (R : α → β → Prop) (m : Parser α) (m' : Parser β) : Prop :=
  ∀ s s', C.Extends s s' → ∀ a t, m s = .ok (a, t) → ∃ a' t', m' s' = .ok (a', t') ∧ C.Extends t t' ∧ R a a'

/-- has no result where such a token is next -/
def Barren {α : Type} (E : Token → Prop) (m : Parser α) : Prop := ∀ s, E (s.peek .skipped) → ∀ r, m s ≠ .ok r

section

variable {α β γ δ σ τ : Type} {C : Closer} {R : α → β → Prop} {Q : γ → δ → Prop} {S : σ → τ → Prop}
variable {m : Parser α} {m' : Parser β}

theorem carries_pure {a : α} {b : β} (h : R a b) : Carries C R (pure a) (pure b) := by
  intro s s' hs a t hm
  cases hm
  exact ⟨b, s', rfl, hs, h⟩

theorem carries_fail {e : ParseError} : Carries C R (fail e) m' := by
  intro s s' _ a t hm
  cases hm

theorem carries_bind {f : α → Parser γ} {f' : β → Parser δ} (hm : Carries C R m m')
    (hf : ∀ a a', R a a' → Carries C Q (f a) (f' a')) : Carries C Q (m >>= f) (m' >>= f') := by
  intro s s' hs c u h
  obtain ⟨a, t, ha, hc⟩ := bind_ok_iff.1 h
  obtain ⟨a', t', ha', ht, hr⟩ := hm s s' hs a t ha
  obtain ⟨c', u', hc', hu, hq⟩ := hf a a' hr t t' ht c u hc
  exact ⟨c', u', bind_ok_iff.2 ⟨a', t', ha', hc'⟩, hu, hq⟩

/-- what is made of results that are related -/
theorem carries_map {f : α → γ} {f' : β → δ} (hm : Carries C R m m') (hf : ∀ a a', R a a' → Q (f a) (f' a')) :
    Carries C Q (m >>= fun a => pure (f a)) (m' >>= fun a => pure (f' a)) :=
  carries_bind hm fun a a' h => carries_pure (hf a a' h)

theorem carries_peek (b : Blanks) : Carries C C.Meets (peek b) (peek b) := by
  intro s s' hs a t hm
  cases hm
  exact ⟨_, s', rfl, hs, hs.peek b⟩

/-- nothing has to be asked at the end of the first stream if there is no result then -/
theorem carries_ahead {f : Token → Parser γ} {f' : Token → Parser δ} (h : ∀ t t', t.Same t' → Carries C Q (f t) (f' t'))
    (hend : ∀ t, t.isEnd = true → Barren (·.isEnd = true) (f t)) :
    Carries C Q (peek .skipped >>= f) (peek .skipped >>= f') := by
  intro s s' hs c u hm
  rw [bind_ok (peek_run _ _)] at hm ⊢
  rcases hs.peek .skipped with ht | ⟨ht, -⟩
  · exact h _ _ ht s s' hs c u hm
  · exact absurd hm (hend _ ht s ht _)

/-- what is next behind the next token does not matter -/
theorem carries_peekNext {b : Blanks} {f : Token → Parser γ} {f' : Token → Parser δ}
    (h : ∀ t t', Carries C Q (f t) (f' t')) : Carries C Q (peekNext b >>= f) (peekNext b >>= f') := by
  intro s s' hs c u hm
  rw [bind_ok (peekNext_run _ _)] at hm ⊢
  exact h _ _ s s' hs c u hm

/-- a stream that has not ended has not ended either where it goes on -/
theorem carries_atEnd {f : Bool → Parser γ} {f' : Bool → Parser δ} (h : Carries C Q (f false) (f' false))
    (hend : ∀ s r, f true s ≠ .ok r) : Carries C Q (atEnd >>= f) (atEnd >>= f') := by
  intro s s' hs c u hm
  rw [bind_ok (atEnd_run _)] at hm ⊢
  cases hs' : s.atEnd .kept with
  | true =>
    rw [hs'] at hm
    exact absurd hm (hend _ _)
  | false =>
    have hmark : s'.atEnd .kept = false := by
      rcases hs.peek .kept with ht | ⟨ht, -⟩
      · exact ht.isEnd.symm.trans hs'
      · exact absurd ht (ne_true_of_eq_false hs')
    rw [hs'] at hm
    rw [hmark]
    exact h s s' hs c u hm

theorem carries_consume (b : Blanks) : Carries C Token.Same (consume b) (consume b) := by
  intro s s' hs t u hm
  obtain ⟨vs, hvs, hs'⟩ := hs.passBlank b
  rw [consume_eq_ok.1 hm] at hvs
  cases hvs with
  | @cons _ t' _ vs ht hvs => exact ⟨t', ⟨vs ++ C.mark :: C.more, C.finish⟩, consume_eq_ok.2 hs', ⟨vs, hvs, rfl⟩, ht⟩

theorem carries_expected (b : Blanks) (e : Expected) :
    Carries C Token.Same (taking (·.consumeExpected b e)) (taking (·.consumeExpected b e)) := by
  intro s s' hs t u hm
  obtain ⟨hp, ht⟩ := consumeExpected_eq_ok.1 (taking_eq_ok.1 hm)
  obtain ⟨t', u', hc, hu, htt⟩ := carries_consume b s s' hs t u (consume_eq_ok.2 hp)
  exact ⟨t', u', taking_eq_ok.2 (consumeExpected_eq_ok.2 ⟨consume_eq_ok.1 hc, htt.matches e ▸ ht⟩), hu, htt⟩

theorem carries_expect (b : Blanks) (text : String) : Carries C Token.Same (expect b text) (expect b text) :=
  carries_expected b (.text text)

/-- the second loop may have more rounds -/
theorem carries_loop {step : σ → Parser (σ ⊕ α)} {step' : τ → Parser (τ ⊕ β)}
    (h : ∀ a a', S a a' → Carries C (Sum.LiftRel S R) (step a) (step' a')) {n n' : Nat} (hn : n ≤ n') {a : σ} {a' : τ}
    (ha : S a a') : Carries C R (loop step n a) (loop step' n' a') := by
  induction n generalizing n' a a' with
  | zero =>
    intro s s' _ r t hm
    cases hm
  | succ n ih =>
    obtain ⟨n', rfl⟩ : ∃ k, n' = k + 1 := ⟨n' - 1, by omega⟩
    refine carries_bind (h a a' ha) fun x x' hx => ?_
    cases hx with
    | inl hb => exact ih (Nat.le_of_succ_le_succ hn) hb
    | inr hr => exact carries_pure hr

theorem carries_iterate {step : σ → Parser (σ ⊕ α)} {step' : τ → Parser (τ ⊕ β)}
    (h : ∀ a a', S a a' → Carries C (Sum.LiftRel S R) (step a) (step' a')) {a : σ} {a' : τ} (ha : S a a') :
    Carries C R (iterate a step) (iterate a' step') :=
  fun s s' hs => carries_loop h (Nat.succ_le_succ hs.remaining) ha s s' hs

theorem Barren.mono {E F : Token → Prop} (h : Barren F m) (hEF : ∀ t, E t → F t) : Barren E m :=
  fun s hs => h s (hEF _ hs)

variable {E : Token → Prop}

theorem barren_bind {f : α → Parser γ} (h : Barren E m) : Barren E (m >>= f) := by
  intro s hs r hm
  obtain ⟨a, t, ha, -⟩ := bind_ok_iff.1 hm
  exact h s hs _ ha

theorem barren_peek {f : Token → Parser γ} (h : ∀ t, E t → Barren E (f t)) : Barren E (peek .skipped >>= f) := by
  intro s hs r hm
  rw [bind_ok (peek_run _ _)] at hm
  exact h _ hs s hs r hm

theorem barren_iterate {step : σ → Parser (σ ⊕ α)} {a : σ} (h : Barren E (step a)) : Barren E (iterate a step) :=
  fun s hs r hm => barren_bind h s hs r hm

theorem barren_expected {e : Expected} (h : ∀ t, E t → e.matches t = false) :
    Barren E (taking (·.consumeExpected .skipped e)) := by
  intro s hs r hm
  obtain ⟨hp, ht⟩ := consumeExpected_eq_ok.1 (taking_eq_ok.1 hm)
  have hpeek : s.peek .skipped = r.1 := by
    rw [TokenStream.peek, hp]
    rfl
  rw [← hpeek, h _ hs] at ht
  cases ht

end

/-! ## Expressions -/

/-- the end, or a closing mark -/
def Token.Ends (t : Token) : Prop := t.isEnd = true ∨ t.category = .operator ∧ t.text ∈ closers

/-- the end is no text -/
theorem Token.is_of_isEnd {t : Token} (h : t.isEnd = true) (text : String) : t.is text = false := by
  rw [Token.isEnd, beq_iff_eq] at h
  rw [Token.is, h]
  rfl

namespace Grammar

open Expression

variable {C : Closer} {e e' : Parser Expression}

/-! ### Where no expression begins -/

theorem frontOperator?_ends {t : Token} (h : t.Ends) : frontOperator? t = none := by
  rcases h with h | ⟨hc, ht⟩
  · rw [Token.isEnd, beq_iff_eq] at h
    rw [frontOperator?, Token.isAlphanumeric, h]
    rfl
  · have hnone : ∀ text ∈ closers, text ∉ "new" :: frontOperators := by decide
    exact Option.eq_none_iff_forall_ne_some.2 fun wrap hwrap => hnone _ ht (frontOperator?_eq_some hwrap).1

theorem binaryOperator?_ends {operators : List String} (ho : operators ∈ binaryLevels) {t : Token} (h : t.Ends) :
    binaryOperator? operators t = none := by
  have hnone : ∀ operators ∈ binaryLevels, ∀ op ∈ operators, op ∉ closers := by decide
  refine Option.eq_none_iff_forall_ne_some.2 fun op hop => ?_
  obtain ⟨hc, hmem, rfl⟩ := binaryOperator?_eq_some.1 hop
  rcases h with h | ⟨-, ht⟩
  · rw [Token.isEnd, beq_iff_eq, hc] at h
    cases h
  · exact hnone operators ho _ hmem ht

theorem frontOperator?_meets {t t' : Token} (h : C.Meets t t') : frontOperator? t = frontOperator? t' := by
  rcases h with h | ⟨h, rfl⟩
  · exact frontOperator?_same h
  · rw [frontOperator?_ends (.inl h), frontOperator?_ends (.inr ⟨C.operator, C.closes⟩)]

theorem binaryOperator?_meets {operators : List String} (ho : operators ∈ binaryLevels) {t t' : Token}
    (h : C.Meets t t') : binaryOperator? operators t = binaryOperator? operators t' := by
  rcases h with h | ⟨h, rfl⟩
  · exact binaryOperator?_same operators h
  · rw [binaryOperator?_ends ho (.inl h), binaryOperator?_ends ho (.inr ⟨C.operator, C.closes⟩)]

theorem barren_expect (text : String) : Barren (·.isEnd = true) (expect .skipped text) :=
  barren_expected fun _ h => Token.is_of_isEnd h text

theorem barren_primary : Barren Token.Ends (primary e) := by
  refine barren_peek fun t ht => ?_
  rcases ht with h | ⟨hc, ht⟩
  · rw [Token.isEnd, beq_iff_eq] at h
    rw [h]
    rintro s - r ⟨⟩
  · have hnone : ∀ text ∈ closers, text ≠ "\"" ∧ text ≠ "'" ∧ text ≠ "(" ∧ text ≠ "[" := by decide
    obtain ⟨hdouble, hsingle, hround, hsquare⟩ := hnone _ ht
    simp only [hc, Token.is, beq_false_of_ne hdouble, beq_false_of_ne hsingle, beq_false_of_ne hround,
      beq_false_of_ne hsquare]
    rintro s - r ⟨⟩

theorem barren_operand : Barren Token.Ends (operand e) := by
  refine barren_iterate (barren_peek fun t ht => ?_)
  rw [frontOperator?_ends ht]
  exact barren_bind (barren_bind barren_primary)

theorem barren_levels (he : Barren Token.Ends e) (levels : List (List String)) :
    Barren Token.Ends (levels.foldr binaryLevel e) := by
  induction levels with
  | nil => exact he
  | cons operators levels ih => exact barren_bind ih

theorem barren_expressionOver : Barren Token.Ends (expressionOver e) := barren_bind (barren_levels barren_operand _)

/-- no expression begins with a closing mark -/
theorem barren_expression : Barren Token.Ends expression := by
  rw [expression_eq]
  exact barren_expressionOver

/-! ### Parsers of expressions -/

theorem carries_listMark (close : String) {items items' : List Expression} (hi : SameAll items items') :
    Carries C (Sum.LiftRel SameAll SameAll) (listMark close items) (listMark close items') := by
  refine carries_ahead (fun t t' ht => ?_) fun t ht => ?_
  · rw [ht.is]
    split
    · exact carries_map (carries_consume _) fun _ _ _ => .inl hi
    · exact carries_map (carries_expect _ _) fun _ _ _ => .inr hi
  · rw [Token.is_of_isEnd ht, if_neg Bool.false_ne_true]
    exact barren_bind (barren_expect _)

theorem carries_listUntil (he : Carries C Expression.Same e e') (hu : Barren Token.Ends e) (close : String) :
    Carries C SameAll (listUntil e close) (listUntil e' close) := by
  refine carries_ahead (fun t t' ht => ?_) fun t ht => ?_
  · rw [ht.is]
    split
    · exact carries_map (carries_consume _) fun _ _ _ => rfl
    · refine carries_iterate (S := SameAll) ?_ rfl
      exact fun items items' hi => carries_bind he fun x x' hx => carries_listMark close (hi.concat hx)
  · rw [Token.is_of_isEnd ht, if_neg Bool.false_ne_true]
    exact barren_iterate (barren_bind (hu.mono fun _ => .inl))

theorem carries_suffixRest (he : Carries C Expression.Same e e') (hu : Barren Token.Ends e) {target target' : Expression}
    (ht : target.Same target') {next next' : Token} (hn : ∀ text ∈ [".", "["], next.is text = next'.is text) :
    Carries C Expression.Same (suffixRest e target next) (suffixRest e' target' next') := by
  unfold suffixRest
  rw [hn "." (by decide), hn "[" (by decide)]
  split
  · refine carries_map (carries_expected _ _) fun name name' hname => ?_
    rw [hname.text]
    exact ht.member _ _ _
  split
  · exact carries_bind he fun x x' hx => carries_map (carries_expect _ _) fun _ _ _ => ht.index hx
  · exact carries_map (carries_listUntil he hu _) fun xs xs' hxs => ht.call hxs

theorem carries_chain (he : Carries C Expression.Same e e') (hu : Barren Token.Ends e) {first first' : Expression}
    (hf : first.Same first') : Carries C Expression.Same (chain e .skipped first) (chain e' .skipped first') := by
  refine carries_iterate (S := Expression.Same) (fun target target' ht => ?_) hf
  refine carries_bind (carries_peek _) fun next next' hn => carries_peekNext fun after after' => ?_
  simp only [hn.isOneOf (by decide : ∀ text ∈ [".", "[", "("], text ∉ closers), reduceCtorEq, decide_false, Bool.and_false,
    Bool.false_and, Bool.false_eq_true, if_false]
  split
  · refine carries_map ?_ fun x x' hx => .inl hx
    refine carries_bind (carries_consume _) fun _ _ _ => carries_suffixRest he hu ht fun text htext => hn.is ?_
    revert text
    decide
  · exact carries_pure (.inr ht)

theorem carries_stringLiteral : Carries C Expression.Same stringLiteral stringLiteral := by
  refine carries_bind (carries_consume _) fun quote quote' hq => ?_
  refine carries_iterate (S := Eq) (fun raw raw' hraw => ?_) hq.text
  subst hraw
  refine carries_atEnd ?_ fun _ _ => nofun
  refine carries_bind (carries_consume _) fun t t' ht => ?_
  rw [ht.text, ht.is, hq.text]
  split
  · exact carries_map (carries_consume _) fun u u' hu => .inl (by rw [hu.text])
  split
  · exact carries_pure (.inr rfl)
  · exact carries_pure (.inl rfl)

theorem carries_primary (he : Carries C Expression.Same e e') (hu : Barren Token.Ends e) :
    Carries C Expression.Same (primary e) (primary e') := by
  refine carries_ahead (fun t t' ht => ?_) fun t ht => ?_
  · simp only [ht.category, ht.is, ht.text]
    split
    · exact carries_map (carries_consume _) fun _ _ _ => rfl
    · exact carries_map (carries_consume _) fun _ _ _ => same_nameOrLiteral ht
    · exact carries_fail
    split
    · exact carries_stringLiteral
    split
    · exact carries_bind (carries_consume _) fun _ _ _ => carries_bind he fun x x' hx =>
        carries_map (carries_expect _ _) fun _ _ _ => hx
    split
    · refine carries_bind (carries_consume _) fun _ _ _ => ?_
      exact carries_map (carries_listUntil he hu _) fun xs xs' hxs => hxs.array
    · exact carries_fail
  · rw [Token.isEnd, beq_iff_eq] at ht
    rw [ht]
    rintro s - r ⟨⟩

theorem carries_suffixed (he : Carries C Expression.Same e e') (hu : Barren Token.Ends e) :
    Carries C Expression.Same (suffixed e) (suffixed e') := by
  refine carries_bind (carries_primary he hu) fun x x' hx => carries_bind (carries_chain he hu hx) fun y y' hy => ?_
  refine carries_bind (carries_peek _) fun next next' hn => ?_
  rw [hn.is (by decide), hn.is (by decide)]
  split
  · next h =>
    have htext : next.text = next'.text :=
      (Bool.or_eq_true_iff.1 h).elim (hn.text_eq (by decide)) (hn.text_eq (by decide))
    rw [htext]
    exact carries_map (carries_consume _) fun _ _ _ => hy.unary _ .after
  · exact carries_pure hy

theorem carries_operand (he : Carries C Expression.Same e e') (hu : Barren Token.Ends e) :
    Carries C Expression.Same (operand e) (operand e') := by
  refine carries_iterate (S := SameWrap) (fun w w' hw => ?_) fun _ _ h => h
  refine carries_bind (carries_peek _) fun t t' ht => ?_
  rw [frontOperator?_meets ht]
  split
  · next operator ho =>
    exact carries_map (carries_consume _) fun _ _ _ => .inl fun x y hxy => hw _ _ (sameWrap_of_frontOperator? ho x y hxy)
  · exact carries_map (carries_suffixed he hu) fun x x' hx => .inr (hw x x' hx)

theorem carries_binaryLevel (he : Carries C Expression.Same e e') {operators : List String}
    (ho : operators ∈ binaryLevels) :
    Carries C Expression.Same (binaryLevel operators e) (binaryLevel operators e') := by
  refine carries_bind he fun x x' hx => carries_iterate (S := Expression.Same) (fun left left' hl => ?_) hx
  refine carries_bind (carries_peek _) fun t t' ht => ?_
  rw [binaryOperator?_meets ho ht]
  split
  · exact carries_bind (carries_consume _) fun _ _ _ => carries_map he fun y y' hy => .inl (hl.binary _ hy)
  · exact carries_pure (.inr hl)

theorem carries_levels (he : Carries C Expression.Same e e') {levels : List (List String)} (hl : levels ⊆ binaryLevels) :
    Carries C Expression.Same (levels.foldr binaryLevel e) (levels.foldr binaryLevel e') := by
  induction levels with
  | nil => exact he
  | cons operators levels ih =>
    obtain ⟨ho, hl⟩ := List.cons_subset.1 hl
    exact carries_binaryLevel (ih hl) ho

theorem carries_expressionOver (he : Carries C Expression.Same e e') (hu : Barren Token.Ends e) :
    Carries C Expression.Same (expressionOver e) (expressionOver e') := by
  refine carries_bind (carries_levels (carries_operand he hu) (List.Subset.refl _)) fun x x' hx => ?_
  refine carries_bind (carries_peek _) fun next next' hn => ?_
  rw [hn.is (by decide)]
  split
  · refine carries_bind (carries_consume _) fun _ _ _ => carries_bind he fun y y' hy => ?_
    exact carries_bind (carries_expect _ _) fun _ _ _ => carries_map he fun z z' hz => hx.conditional hy hz
  · exact carries_pure hx

/-- **An expression of its own is the same expression in front of a closing mark.** -/
theorem carries_expression : Carries C Expression.Same expression expression := by
  -- the second stream is the longer one, so it bounds the depth by more
  have key : ∀ n n', n ≤ n' →
      Carries C Expression.Same (nested (fun self (_ : Unit) => expressionOver (self ())) n ())
        (nested (fun self (_ : Unit) => expressionOver (self ())) n' ()) ∧
      Barren Token.Ends (nested (fun self (_ : Unit) => expressionOver (self ())) n ()) := by
    intro n
    induction n with
    | zero => exact fun _ _ => ⟨fun _ _ _ _ _ => nofun, fun _ _ _ => nofun⟩
    | succ n ih =>
      intro n' hn
      obtain ⟨n', rfl⟩ : ∃ k, n' = k + 1 := ⟨n' - 1, by omega⟩
      obtain ⟨hc, hu⟩ := ih n' (Nat.le_of_succ_le_succ hn)
      exact ⟨carries_expressionOver hc hu, barren_expressionOver⟩
  exact fun s s' hs => (key _ _ (Nat.succ_le_succ hs.remaining)).1 s s' hs

end Grammar

end TemplateView
