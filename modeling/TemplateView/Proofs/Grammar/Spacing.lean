/-
Whitespace means nothing inside expressions. Two streams that have the same lexemes but for whitespace (`Respaced`) are
read alike: `Blind` says of a parser that it ends the same on both, with the same result or with the same error at the
same token, and each parser of expressions is blind if the parser of inner expressions is (`blind_expression`). Strings
are left out: whitespace in quotes is part of the text.

The bounds on rounds and depth count whitespace too, so two runs are only compared until a bound runs out. For an
expression none ever does.
-/
import TemplateView.Proofs.Cursor
import TemplateView.Proofs.Grammar.Ending
import TemplateView.Proofs.Grammar.Unplaced

namespace TemplateView

open TemplateView.Parser

/-- the error without its place -/
def SourceError.unplaced : SourceError → SourceError
  | .lexical e => .lexical { e with position := .start }
  | .grammatical e => .grammatical { e with position := .start }

/-! ## Streams that differ in whitespace -/

/-- one lexeme, which is no quote, at two places that correspond -/
structure Token.Twin (P : Position → Position → Prop) (t t' : Token) : Prop extends t.Same t' where
  place : P t.position t'.position
  unquoted : t.text ≠ "\"" ∧ t.text ≠ "'"

/-- the same lexemes but for whitespace, none of them a quote, at places that correspond -/
structure Respaced (P : Position → Position → Prop) (s s' : TokenStream) : Prop where
  solid : List.Forall₂ (Token.Twin P) s.solid s'.solid
  finish : P s.finish s'.finish
  parted : s.Parted
  parted' : s'.Parted

namespace TokenStream

variable {s : TokenStream}

/-- behind the whitespace that may be next stands the first token that is none, if there is one -/
theorem solid_cases (h : s.Parted) :
    (s.passBlank .skipped).rest = [] ∧ s.solid = [] ∨
      ∃ t rest, (s.passBlank .skipped).rest = t :: rest ∧ s.solid = t :: rest.filter (!·.isWhitespace) := by
  rw [rest_passBlank h, TokenStream.solid]
  generalize s.rest = ts
  induction ts with
  | nil => exact .inl ⟨rfl, rfl⟩
  | cons t ts ih =>
    by_cases ht : t.isWhitespace = true
    · rwa [List.dropWhile_cons_of_pos ht, List.filter_cons_of_neg (by simp [ht])]
    · exact .inr ⟨t, ts, List.dropWhile_cons_of_neg ht, List.filter_cons_of_pos (by simp [ht])⟩

/-- where nothing but whitespace is left, nothing is taken -/
theorem consume_eq_error {b : Blanks} (h : (s.passBlank b).rest = []) :
    Parser.consume b s = .error (.lexical ⟨s.finish, "more input", Category.endOfInput.describe⟩) := by
  rw [Parser.consume, taking, TokenStream.consume, ← s.finish_passBlank b]
  simp only [h]

end TokenStream

namespace Respaced

variable {P : Position → Position → Prop} {s s' : TokenStream}

theorem look (h : Respaced P s s') (n : Nat) :
    (s.solid.getD n (.endOfInput s.finish)).Twin P (s'.solid.getD n (.endOfInput s'.finish)) := by
  have hend : (Token.endOfInput s.finish).Twin P (.endOfInput s'.finish) :=
    ⟨⟨rfl, rfl⟩, h.finish, (by decide : "" ≠ "\"" ∧ "" ≠ "'")⟩
  have hsolid := h.solid
  generalize s.solid = ts, s'.solid = ts' at hsolid
  induction hsolid generalizing n with
  | nil => exact hend
  | cons ht _ ih =>
    cases n with
    | zero => exact ht
    | succ n => exact ih n

theorem peek (h : Respaced P s s') : (s.peek .skipped).Twin P (s'.peek .skipped) := by
  rw [← TokenStream.solid_zero h.parted, ← TokenStream.solid_zero h.parted']
  exact h.look 0

theorem peekNext (h : Respaced P s s') : (s.peekNext .skipped).Twin P (s'.peekNext .skipped) := by
  rw [← TokenStream.solid_one h.parted, ← TokenStream.solid_one h.parted']
  exact h.look 1

end Respaced

/-! ## Parsers that do not see whitespace -/

theorem Token.Same.describe {t t' : Token} (h : t.Same t') : t.describe = t'.describe := by
  rw [Token.describe, Token.describe, h.isEnd, h.text]

/-- the same is required and the same found -/
theorem unplaced_expected {t t' : Token} (h : t.Same t') (p p' : Position) (e : Expected) :
    (SourceError.lexical ⟨p, e.describe, t.describe⟩).unplaced =
      (SourceError.lexical ⟨p', e.describe, t'.describe⟩).unplaced := by
  simp only [SourceError.unplaced, h.describe]

/-- Two runs end alike: with related results before streams that differ in whitespace, or with the same error at places
that correspond. Nothing is said where a bound has run out. -/
inductive EndsAlike {α β : Type} (P : Position → Position → Prop) (R : α → β → Prop) :
    Except SourceError (α × TokenStream) → Except SourceError (β × TokenStream) → Prop
  | done {a b s s'} (h : R a b) (hs : Respaced P s s') : EndsAlike P R (.ok (a, s)) (.ok (b, s'))
  | failed {e e'} (h : e.unplaced = e'.unplaced) (hp : P e.position e'.position) : EndsAlike P R (.error e) (.error e')
  | stalled {e r'} (h : e.Stall) : EndsAlike P R (.error e) r'
  | stalled' {r e'} (h : e'.Stall) : EndsAlike P R r (.error e')

/-- two parsers end alike on streams that differ in whitespace -/
def Blind {α β : Type} (P : Position → Position → Prop) (R : α → β → Prop) (m : Parser α) (m' : Parser β) : Prop :=
  ∀ s s', Respaced P s s' → EndsAlike P R (m s) (m' s')

section

variable {α β γ δ σ τ ι : Type} {P : Position → Position → Prop} {R : α → β → Prop} {Q : γ → δ → Prop} {S : σ → τ → Prop}
variable {m : Parser α} {m' : Parser β}

theorem blind_pure {a : α} {b : β} (h : R a b) : Blind P R (pure a) (pure b) := fun _ _ hs => .done h hs

theorem blind_fail {e e' : ParseError} (h : (SourceError.grammatical e).unplaced = (SourceError.grammatical e').unplaced)
    (hp : P e.position e'.position) : Blind P R (fail e) (fail e') :=
  fun _ _ _ => .failed h hp

theorem blind_bind {f : α → Parser γ} {f' : β → Parser δ} (hm : Blind P R m m')
    (hf : ∀ a a', R a a' → Blind P Q (f a) (f' a')) : Blind P Q (m >>= f) (m' >>= f') := by
  intro s s' hs
  have h := hm s s' hs
  rw [bind_run, bind_run]
  generalize m s = r, m' s' = r' at h
  cases h with
  | done hr ht => exact hf _ _ hr _ _ ht
  | failed he hp => exact .failed he hp
  | stalled he => exact .stalled he
  | stalled' he => exact .stalled' he

/-- what is made of results that are related -/
theorem blind_map {f : α → γ} {f' : β → δ} (hm : Blind P R m m') (hf : ∀ a a', R a a' → Q (f a) (f' a')) :
    Blind P Q (m >>= fun a => pure (f a)) (m' >>= fun a => pure (f' a)) :=
  blind_bind hm fun a a' h => blind_pure (hf a a' h)

theorem blind_peek : Blind P (Token.Twin P) (peek .skipped) (peek .skipped) := fun _ _ hs => .done hs.peek hs

theorem blind_peekNext : Blind P (Token.Twin P) (peekNext .skipped) (peekNext .skipped) :=
  fun _ _ hs => .done hs.peekNext hs

theorem blind_consume : Blind P (Token.Twin P) (consume .skipped) (consume .skipped) := by
  intro s s' hs
  have hsolid := hs.solid
  rcases TokenStream.solid_cases hs.parted with ⟨hr, hn⟩ | ⟨t, rest, hr, hn⟩
  all_goals
    rcases TokenStream.solid_cases hs.parted' with ⟨hr', hn'⟩ | ⟨t', rest', hr', hn'⟩
    all_goals rw [hn, hn'] at hsolid
  · rw [TokenStream.consume_eq_error hr, TokenStream.consume_eq_error hr']
    exact .failed rfl hs.finish
  · cases hsolid
  · cases hsolid
  · cases hsolid with
    | cons ht hrest =>
    have hpass : s.passBlank .skipped = ⟨t :: rest, s.finish⟩ := by rw [← hr, ← s.finish_passBlank .skipped]
    have hpass' : s'.passBlank .skipped = ⟨t' :: rest', s'.finish⟩ := by rw [← hr', ← s'.finish_passBlank .skipped]
    have hparted := (hs.parted.passBlank .skipped).advance
    have hparted' := (hs.parted'.passBlank .skipped).advance
    rw [hpass] at hparted
    rw [hpass'] at hparted'
    have hok : consume .skipped s = .ok (t, ⟨rest, s.finish⟩) := consume_eq_ok.2 hpass
    have hok' : consume .skipped s' = .ok (t', ⟨rest', s'.finish⟩) := consume_eq_ok.2 hpass'
    rw [hok, hok']
    exact .done ht ⟨hrest, hs.finish, hparted, hparted'⟩

theorem blind_expected (e : Expected) :
    Blind P (Token.Twin P) (taking (·.consumeExpected .skipped e)) (taking (·.consumeExpected .skipped e)) := by
  intro s s' hs
  have ht := hs.peek
  rw [taking, taking, TokenStream.consumeExpected, TokenStream.consumeExpected]
  simp only [← ht.matches e]
  by_cases hm : e.matches (s.peek .skipped) = true
  · rw [if_pos hm, if_pos hm]
    exact blind_consume s s' hs
  · rw [if_neg hm, if_neg hm]
    exact .failed (unplaced_expected ht.toSame _ _ e) ht.place

theorem blind_loop {step : σ → Parser (σ ⊕ α)} {step' : τ → Parser (τ ⊕ β)}
    (h : ∀ a a', S a a' → Blind P (Sum.LiftRel S R) (step a) (step' a')) (n n' : Nat) {a : σ} {a' : τ} (ha : S a a') :
    Blind P R (loop step n a) (loop step' n' a') := by
  induction n generalizing n' a a' with
  | zero => exact fun _ _ _ => .stalled ⟨_, rfl⟩
  | succ n ih =>
    cases n' with
    | zero => exact fun _ _ _ => .stalled' ⟨_, rfl⟩
    | succ n' =>
      refine blind_bind (h a a' ha) fun x x' hx => ?_
      cases hx with
      | inl hb => exact ih n' hb
      | inr hr => exact blind_pure hr

theorem blind_iterate {step : σ → Parser (σ ⊕ α)} {step' : τ → Parser (τ ⊕ β)}
    (h : ∀ a a', S a a' → Blind P (Sum.LiftRel S R) (step a) (step' a')) {a : σ} {a' : τ} (ha : S a a') :
    Blind P R (iterate a step) (iterate a' step') :=
  fun s s' hs => blind_loop h _ _ ha s s' hs

theorem blind_recursive {R : α → α → Prop} {unfold : (ι → Parser α) → ι → Parser α}
    (h : ∀ self self', (∀ i, Blind P R (self i) (self' i)) → ∀ i, Blind P R (unfold self i) (unfold self' i)) (i : ι) :
    Blind P R (recursive unfold i) (recursive unfold i) := by
  have key : ∀ n n' i, Blind P R (nested unfold n i) (nested unfold n' i) := by
    -- the bounds are those of two streams: one may run out before the other
    intro n
    induction n with
    | zero => exact fun _ _ _ _ _ => .stalled ⟨_, rfl⟩
    | succ n ih =>
      intro n' i
      cases n' with
      | zero => exact fun _ _ _ => .stalled' ⟨_, rfl⟩
      | succ n' => exact h _ _ (ih n') i
  exact fun s s' hs => key _ _ i s s' hs

end

/-! ## Expressions -/

namespace Grammar

open Expression

variable {P : Position → Position → Prop} {e e' : Parser Expression}

theorem blind_expect (text : String) : Blind P (Token.Twin P) (expect .skipped text) (expect .skipped text) :=
  blind_expected (.text text)

theorem blind_listMark (close : String) {items items' : List Expression} (hi : SameAll items items') :
    Blind P (Sum.LiftRel SameAll SameAll) (listMark close items) (listMark close items') := by
  refine blind_bind blind_peek fun t t' ht => ?_
  rw [ht.is]
  split
  · exact blind_map blind_consume fun _ _ _ => .inl hi
  · exact blind_map (blind_expect _) fun _ _ _ => .inr hi

theorem blind_listUntil (he : Blind P Expression.Same e e') (close : String) :
    Blind P SameAll (listUntil e close) (listUntil e' close) := by
  refine blind_bind blind_peek fun t t' ht => ?_
  rw [ht.is]
  split
  · exact blind_map blind_consume fun _ _ _ => rfl
  · refine blind_iterate (S := SameAll) ?_ rfl
    exact fun items items' hi => blind_bind he fun x x' hx => blind_listMark close (hi.concat hx)

theorem blind_suffixRest (he : Blind P Expression.Same e e') {target target' : Expression} (ht : target.Same target')
    {next next' : Token} (hn : next.Same next') :
    Blind P Expression.Same (suffixRest e target next) (suffixRest e' target' next') := by
  unfold suffixRest
  rw [hn.is, hn.is]
  split
  · refine blind_map (blind_expected _) fun name name' hname => ?_
    rw [hname.text]
    exact ht.member _ _ _
  split
  · exact blind_bind he fun x x' hx => blind_map (blind_expect _) fun _ _ _ => ht.index hx
  · exact blind_map (blind_listUntil he _) fun xs xs' hxs => ht.call hxs

theorem blind_chain (he : Blind P Expression.Same e e') {first first' : Expression} (hf : first.Same first') :
    Blind P Expression.Same (chain e .skipped first) (chain e' .skipped first') := by
  refine blind_iterate (S := Expression.Same) (fun target target' ht => ?_) hf
  refine blind_bind blind_peek fun next next' hn => blind_bind blind_peekNext fun after after' ha => ?_
  rw [hn.is, hn.isOneOf, ha.isAlphanumeric]
  split
  · exact blind_pure (.inr ht)
  split
  · refine blind_map ?_ fun x x' hx => .inl hx
    exact blind_bind blind_consume fun _ _ _ => blind_suffixRest he ht hn.toSame
  · exact blind_pure (.inr ht)

/-- no quote is next, so no string is -/
theorem blind_primary (he : Blind P Expression.Same e e') : Blind P Expression.Same (primary e) (primary e') := by
  refine blind_bind blind_peek fun t t' ht => ?_
  have hquote : (t.is "\"" || t.is "'") = false := by
    rw [Token.is, Token.is, beq_false_of_ne ht.unquoted.1, beq_false_of_ne ht.unquoted.2, Bool.and_false, Bool.or_false]
  rw [← ht.category, ← ht.is, ← ht.is, ← ht.is, ← ht.is, ← ht.text, hquote]
  split
  · exact blind_map blind_consume fun _ _ _ => rfl
  · exact blind_map blind_consume fun _ _ _ => same_nameOrLiteral ht.toSame
  · exact blind_fail rfl ht.place
  split
  · next h => exact absurd (Bool.and_eq_true_iff.1 h).2 Bool.false_ne_true
  split
  · exact blind_bind blind_consume fun _ _ _ => blind_bind he fun x x' hx =>
      blind_map (blind_expect _) fun _ _ _ => hx
  split
  · exact blind_bind blind_consume fun _ _ _ => blind_map (blind_listUntil he _) fun xs xs' hxs => hxs.array
  · refine blind_fail ?_ ht.place
    simp only [SourceError.unplaced, ParseError.notAnExpression, ht.describe]

theorem blind_suffixed (he : Blind P Expression.Same e e') : Blind P Expression.Same (suffixed e) (suffixed e') := by
  refine blind_bind (blind_primary he) fun x x' hx => blind_bind (blind_chain he hx) fun y y' hy => ?_
  refine blind_bind blind_peek fun next next' hn => ?_
  rw [hn.is, hn.is, hn.text]
  split
  · exact blind_map blind_consume fun _ _ _ => hy.unary _ .after
  · exact blind_pure hy

theorem blind_operand (he : Blind P Expression.Same e e') : Blind P Expression.Same (operand e) (operand e') := by
  refine blind_iterate (S := SameWrap) (fun w w' hw => ?_) fun _ _ h => h
  refine blind_bind blind_peek fun t t' ht => ?_
  rw [frontOperator?_same ht.toSame]
  split
  · next operator ho =>
    exact blind_map blind_consume fun _ _ _ => .inl fun x y hxy => hw _ _ (sameWrap_of_frontOperator? ho x y hxy)
  · exact blind_map (blind_suffixed he) fun x x' hx => .inr (hw x x' hx)

theorem blind_binaryLevel (he : Blind P Expression.Same e e') (operators : List String) :
    Blind P Expression.Same (binaryLevel operators e) (binaryLevel operators e') := by
  refine blind_bind he fun x x' hx => blind_iterate (S := Expression.Same) (fun left left' hl => ?_) hx
  refine blind_bind blind_peek fun t t' ht => ?_
  rw [binaryOperator?_same operators ht.toSame]
  split
  · exact blind_bind blind_consume fun _ _ _ => blind_map he fun y y' hy => .inl (hl.binary _ hy)
  · exact blind_pure (.inr hl)

theorem blind_levels (he : Blind P Expression.Same e e') (levels : List (List String)) :
    Blind P Expression.Same (levels.foldr binaryLevel e) (levels.foldr binaryLevel e') := by
  induction levels with
  | nil => exact he
  | cons operators levels ih => exact blind_binaryLevel ih operators

theorem blind_expressionOver (he : Blind P Expression.Same e e') :
    Blind P Expression.Same (expressionOver e) (expressionOver e') := by
  refine blind_bind (blind_levels (blind_operand he) _) fun x x' hx => blind_bind blind_peek fun next next' hn => ?_
  rw [hn.is]
  split
  · refine blind_bind blind_consume fun _ _ _ => blind_bind he fun y y' hy => ?_
    exact blind_bind (blind_expect _) fun _ _ _ => blind_map he fun z z' hz => hx.conditional hy hz
  · exact blind_pure hx

/-- an expression is the same however its lexemes are spaced -/
theorem blind_expression : Blind P Expression.Same expression expression :=
  blind_recursive (fun _ _ h _ => blind_expressionOver (h ())) ()

end Grammar

/-! ## Sources -/

/-- the tokens of a source but for whitespace, the end included -/
def solidTokens (source : String) : List Token := (tokenize source).filter (!·.isWhitespace)

theorem solidTokens_eq (source : String) :
    solidTokens source =
      (TokenStream.ofSource source).solid ++ [.endOfInput (TokenStream.ofSource source).finish] :=
  List.filter_append _ _

/-- the places of two tokens with the same number -/
def AtSameToken (ts ts' : List Token) (p p' : Position) : Prop :=
  ∃ (n : Nat) (t t' : Token), ts[n]? = some t ∧ ts'[n]? = some t' ∧ t.position = p ∧ t'.position = p'

instance (t t' : Token) : Decidable (t.Same t') :=
  decidable_of_iff (t.text = t'.text ∧ t.category = t'.category) ⟨fun h => ⟨h.1, h.2⟩, fun h => ⟨h.text, h.category⟩⟩

theorem respaced_ofSource {a b : String} (hsame : SameTokens (solidTokens a) (solidTokens b))
    (hquote : ∀ t ∈ solidTokens a, t.text ≠ "\"" ∧ t.text ≠ "'") :
    Respaced (AtSameToken (solidTokens a) (solidTokens b)) (.ofSource a) (.ofSource b) := by
  obtain ⟨hlen, hat⟩ := List.forall₂_iff_get.1 hsame
  have htwin : ∀ n (h : n < (solidTokens a).length) (h' : n < (solidTokens b).length),
      (solidTokens a)[n].Twin (AtSameToken (solidTokens a) (solidTokens b)) (solidTokens b)[n] := fun n h h' =>
    ⟨hat n h h', ⟨n, _, _, List.getElem?_eq_getElem h, List.getElem?_eq_getElem h', rfl, rfl⟩,
      hquote _ (List.getElem_mem h)⟩
  have hall : List.Forall₂ (Token.Twin (AtSameToken (solidTokens a) (solidTokens b))) (solidTokens a) (solidTokens b) :=
    List.forall₂_iff_get.2 ⟨hlen, htwin⟩
  -- the last token is the end, and the others are those of the stream
  generalize AtSameToken (solidTokens a) (solidTokens b) = P at hall
  rw [solidTokens_eq, solidTokens_eq] at hall hlen
  rw [List.length_append, List.length_append] at hlen
  have hsolid := List.forall₂_take (TokenStream.ofSource a).solid.length hall
  have hend := List.forall₂_drop (TokenStream.ofSource a).solid.length hall
  rw [List.take_left, Nat.add_right_cancel hlen, List.take_left] at hsolid
  rw [List.drop_left, Nat.add_right_cancel hlen, List.drop_left] at hend
  cases hend with
  | cons hend _ => exact ⟨hsolid, hend.place, parted_tokensFrom _ _, parted_tokensFrom _ _⟩

/-- **Whitespace means nothing inside expressions.** Let two sources have the same tokens but for whitespace, none of them
a quote. Then an expression is read in both of them, the same up to places, and as many tokens that are no whitespace are
used up; or both fail with the same error at the same token. -/
theorem expression_respaced {a b : String} (hsame : SameTokens (solidTokens a) (solidTokens b))
    (hquote : ∀ t ∈ solidTokens a, t.text ≠ "\"" ∧ t.text ≠ "'") :
    (∃ x y s t, Grammar.expression (.ofSource a) = .ok (x, s) ∧ Grammar.expression (.ofSource b) = .ok (y, t) ∧
      x.Same y ∧ ∃ used used', (TokenStream.ofSource a).rest = used ++ s.rest ∧
        (TokenStream.ofSource b).rest = used' ++ t.rest ∧
        used.countP (!·.isWhitespace) = used'.countP (!·.isWhitespace)) ∨
    ∃ e e', Grammar.expression (.ofSource a) = .error e ∧ Grammar.expression (.ofSource b) = .error e' ∧
      e.unplaced = e'.unplaced ∧ AtSameToken (solidTokens a) (solidTokens b) e.position e'.position := by
  have hs := respaced_ofSource hsame hquote
  have hstall : ∀ {s : TokenStream} {e : SourceError}, Grammar.expression s = .error e → ¬ e.Stall :=
    Settled.not_stall fun _ => Grammar.spends_expression
  have h := Grammar.blind_expression _ _ hs
  have htakes := Grammar.shrinks_expression (.ofSource a)
  have htakes' := Grammar.shrinks_expression (.ofSource b)
  generalize hr : Grammar.expression (.ofSource a) = r, hr' : Grammar.expression (.ofSource b) = r' at h
  cases h with
  | failed h hp => exact .inr ⟨_, _, rfl, rfl, h, hp⟩
  | stalled h => exact absurd h (hstall hr)
  | stalled' h => exact absurd h (hstall hr')
  | done h ht =>
    obtain ⟨used, hused, -⟩ := htakes _ _ hr
    obtain ⟨used', hused', -⟩ := htakes' _ _ hr'
    refine .inl ⟨_, _, _, _, rfl, rfl, h, used, used', ?_, ?_, ?_⟩
    · exact congrArg TokenStream.rest hused
    · exact congrArg TokenStream.rest hused'
    have hcount := hs.solid.length_eq
    have hleft := ht.solid.length_eq
    rw [TokenStream.solid, TokenStream.solid, ← List.countP_eq_length_filter, ← List.countP_eq_length_filter]
      at hcount hleft
    rw [hused, hused', List.countP_append, List.countP_append] at hcount
    omega

/-- a call that is read, and one that lacks an argument -/
theorem expression_respaced_call :
    (∃ x y s t, Grammar.expression (.ofSource "f ( a . b,c [ 0 ] ) ++") = .ok (x, s) ∧
      Grammar.expression (.ofSource "f(a.b , c[0])++") = .ok (y, t) ∧ x.Same y) ∧
    ∃ e e', Grammar.expression (.ofSource "f ( a , )") = .error e ∧ Grammar.expression (.ofSource "f(a,)") = .error e' ∧
      e.unplaced = e'.unplaced := by
  have hread := expression_respaced (a := "f ( a . b,c [ 0 ] ) ++") (b := "f(a.b , c[0])++") (by decide +kernel)
    (by decide +kernel)
  have hrefused := expression_respaced (a := "f ( a , )") (b := "f(a,)") (by decide +kernel) (by decide +kernel)
  have hok : (Grammar.expression (.ofSource "f ( a . b,c [ 0 ] ) ++")).isOk = true := by decide +kernel
  have herror : (Grammar.expression (.ofSource "f ( a , )")).isOk = false := by decide +kernel
  constructor
  · rcases hread with ⟨x, y, s, t, hx, hy, hxy, -⟩ | ⟨e, -, he, -⟩
    · exact ⟨x, y, s, t, hx, hy, hxy⟩
    · rw [he] at hok
      cases hok
  · rcases hrefused with ⟨x, -, s, -, hx, -⟩ | ⟨e, e', he, he', hsame, -⟩
    · rw [hx] at herror
      cases herror
    · exact ⟨e, e', he, he', hsame⟩

end TemplateView
