/-
Inline expressions stand alone. The tokens that an inline expression of markup uses up, from its `@` on, make the same
expression when they are all there is: `embedded_alone`. An expression in parentheses ends in one, and the last suffix of
a chain ends in a word or a bracket, so each is read up to and with a mark that is no whitespace; behind it a chain looks
at tokens of its own surroundings, but only to see that no suffix follows.
-/
import TemplateView.Grammar.Segment
import TemplateView.Proofs.Grammar.Unplaced

namespace TemplateView

namespace Parser

variable {α β σ : Type} {p : Token → Prop}

/-! ## Last tokens -/

/-- the last token that a parser uses up is as described -/
def EndsWith (p : Token → Prop) (m : Parser α) : Prop := ∀ s, Takes m s fun used _ => ∃ pre c, used = pre ++ [c] ∧ p c

theorem EndsWith.mono {q : Token → Prop} {m : Parser α} (h : EndsWith p m) (hp : ∀ c, p c → q c) : EndsWith q m := by
  intro s
  refine (h s).mono ?_
  intro _ _ hx
  obtain ⟨pre, c, rfl, hc⟩ := hx
  exact ⟨pre, c, rfl, hp c hc⟩

theorem endsWith_bind {m : Parser α} {f : α → Parser β} (hm : Shrinks m) (hf : ∀ a, EndsWith p (f a)) :
    EndsWith p (m >>= f) := by
  intro s
  refine takes_bind (hm s) ?_
  intro used a t _ _
  refine (hf a t).mono ?_
  intro _ _ h
  obtain ⟨pre, c, rfl, hc⟩ := h
  exact ⟨used ++ pre, c, by simp, hc⟩

/-- what follows the last token only gives a result -/
theorem EndsWith.map {m : Parser α} (h : EndsWith p m) (g : α → β) : EndsWith p (m >>= fun a => pure (g a)) := by
  intro s
  refine takes_bind (h s) ?_
  intro _ a t _ hx
  obtain ⟨pre, c, rfl, hc⟩ := hx
  exact takes_pure ⟨pre, c, by simp, hc⟩

theorem endsWith_expected (b : Blanks) (e : Expected) :
    EndsWith (fun c => e.matches c = true) (taking (·.consumeExpected b e)) := by
  intro s t s' h
  obtain ⟨hp, hm⟩ := consumeExpected_eq_ok.1 (taking_eq_ok.1 h)
  rcases passBlank_eq hp with rfl | ⟨-, w, -, rfl⟩
  · exact ⟨[t], rfl, [], t, rfl, hm⟩
  · exact ⟨[w, t], rfl, [w], t, rfl, hm⟩

/-- a consuming call uses up the token that was looked at -/
theorem takes_consume_last (b : Blanks) (s : TokenStream) :
    Takes (consume b) s fun used _ => ∃ pre, used = pre ++ [s.peek b] := by
  intro t s' h
  have hp := consume_eq_ok.1 h
  have ht : s.peek b = t := by
    rw [TokenStream.peek, hp]
    rfl
  rw [ht]
  rcases passBlank_eq hp with rfl | ⟨-, w, -, rfl⟩
  · exact ⟨[t], rfl, [], rfl⟩
  · exact ⟨[w, t], rfl, [w], rfl⟩

theorem endsWith_iterate {step : σ → Parser (σ ⊕ α)}
    (h : ∀ a s, Takes (step a) s fun used x => x.isRight = true → ∃ pre c, used = pre ++ [c] ∧ p c) (a : σ) :
    EndsWith p (iterate a step) := by
  intro s
  refine takes_iterate (I := fun _ _ => True) trivial ?_
  intro used a t _
  refine (h a t).mono ?_
  intro more x hx
  cases x with
  | inl b => trivial
  | inr r =>
    obtain ⟨pre, c, rfl, hc⟩ := hx rfl
    exact ⟨used ++ pre, c, by simp, hc⟩

end Parser

namespace Grammar

open TemplateView.Parser Expression

variable {e : Parser Expression}

theorem endsWith_listUntil (he : Shrinks e) (close : String) : EndsWith (fun c => c.is close = true) (listUntil e close) := by
  intro s
  refine takes_peek ?_
  split
  · next hc =>
    refine takes_bind (takes_consume_last .skipped s) ?_
    intro _ a t _ h
    obtain ⟨pre, rfl⟩ := h
    exact takes_pure ⟨pre, _, by simp, hc⟩
  · refine endsWith_iterate ?_ _ s
    intro items s
    refine takes_bind (he s) fun used a t _ _ => takes_peek ?_
    split
    · exact takes_bind (advances_consume _ t) fun _ _ _ _ _ => takes_pure (by simp)
    · refine takes_bind (endsWith_expected .skipped (.text close) t) ?_
      intro _ c u _ h
      obtain ⟨pre, c, rfl, hc⟩ := h
      exact takes_pure fun _ => ⟨used ++ pre, c, by simp, hc⟩

/-- a token that may end a suffix -/
def EndsSuffix (c : Token) : Prop := c.isAlphanumeric = true ∨ c.is "]" = true ∨ c.is ")" = true

theorem EndsSuffix.solid {c : Token} (h : EndsSuffix c) (hc : c.Proper) : c.isWhitespace = false := by
  rcases h with h | h | h
  · have hk : c.category = .alphanumeric := by simpa [Token.isAlphanumeric] using h
    rw [Token.isWhitespace, hk]
    rfl
  · exact hc.isWhitespace_of_is h (by decide)
  · exact hc.isWhitespace_of_is h (by decide)

theorem endsWith_suffixRest (he : Shrinks e) (target : Expression) (next : Token) :
    EndsWith EndsSuffix (suffixRest e target next) := by
  unfold suffixRest
  split
  · exact ((endsWith_expected .skipped (.category .alphanumeric)).map _).mono fun c hc => Or.inl hc
  split
  · refine endsWith_bind he fun x => ?_
    exact ((endsWith_expected .skipped (.text "]")).map _).mono fun c hc => Or.inr (Or.inl hc)
  · exact ((endsWith_listUntil he ")").map _).mono fun c hc => Or.inr (Or.inr hc)

/-- a suffix has two tokens at least, and the last is no whitespace -/
theorem takes_suffix (he : Shrinks e) (target : Expression) (next : Token) (s : TokenStream) :
    Takes (suffix e target next) s fun used _ => ∃ pre c, used = pre ++ [c] ∧ pre ≠ [] ∧ EndsSuffix c := by
  refine takes_bind (advances_consume _ s) ?_
  intro used _ t _ hu
  refine (endsWith_suffixRest he target next t).mono ?_
  intro _ _ h
  obtain ⟨pre, c, rfl, hc⟩ := h
  exact ⟨used ++ pre, c, by simp, by simp [hu], hc⟩

/-! ## Chains -/

/-- what a parser makes of some tokens before others, it makes of the same tokens before nothing -/
def StandsAlone (m : Parser Expression) : Prop :=
  ∀ (code code' after : List Token) (f f' : Position) (x : Expression), (∀ c ∈ code, c.Proper) →
    SameTokens code code' → m ⟨code ++ after, f⟩ = .ok (x, ⟨after, f⟩) →
    ∃ y, m ⟨code', f'⟩ = .ok (y, ⟨[], f'⟩) ∧ x.Same y

/-- at the end of a source there is no suffix -/
theorem chainRound_end (e : Parser Expression) (x : Expression) (f : Position) :
    chainRound e .kept x ⟨[], f⟩ = .ok (.inr x, ⟨[], f⟩) := rfl

theorem loop_alone (n n' : Nat) {x x' y : Expression} {us us' after : List Token} {f f' : Position}
    (hx : x.Same x') (hp : ∀ u ∈ us, u.Proper) (hs : SameTokens us us') (hn : us.length < n')
    (h : loop (chainRound expression .kept) n x ⟨us ++ after, f⟩ = .ok (y, ⟨after, f⟩)) :
    ∃ y', loop (chainRound expression .kept) n' x' ⟨us', f'⟩ = .ok (y', ⟨[], f'⟩) ∧ y.Same y' := by
  induction n generalizing n' x x' us us' with
  | zero => cases h
  | succ n ih =>
    obtain ⟨m, rfl⟩ : ∃ m, n' = m + 1 := ⟨n' - 1, by omega⟩
    obtain ⟨z, t, hz, hrest⟩ := bind_ok_iff.1 h
    -- where no suffix follows, all tokens have been used up
    have hend : z = .inr x → t = ⟨us ++ after, f⟩ →
        ∃ y', loop (chainRound expression .kept) (m + 1) x' ⟨us', f'⟩ = .ok (y', ⟨[], f'⟩) ∧ y.Same y' := by
      intro he hq
      subst he
      subst hq
      have hr : (x, (⟨us ++ after, f⟩ : TokenStream)) = (y, ⟨after, f⟩) := Except.ok.inj hrest
      obtain ⟨rfl, ht⟩ := Prod.mk.inj hr
      obtain ⟨hu, -⟩ := TokenStream.mk.inj ht
      obtain rfl : us = [] := by simpa using hu
      cases hs
      exact ⟨x', by rw [loop, bind_ok (chainRound_end expression x' f')]; rfl, hx⟩
    rw [chainRound, bind_ok (peek_run .kept _), bind_ok (peekNext_run .kept _)] at hz
    split at hz
    · obtain ⟨hz, ht⟩ := Prod.mk.inj (Except.ok.inj hz)
      exact hend hz.symm ht.symm
    split at hz
    · next hstop hsuffix =>
      obtain ⟨w, t', hw, hz⟩ := bind_ok_iff.1 hz
      obtain ⟨rfl, rfl⟩ := Prod.mk.inj (Except.ok.inj hz)
      obtain ⟨_, hused, pre, c, rfl, hpre, hc⟩ := takes_suffix shrinks_expression x _ _ w t' hw
      obtain ⟨more, ht, -⟩ := shrinks_loop (shrinks_chainRound shrinks_expression .kept) n w t' y _ hrest
      subst ht
      have hus : us = pre ++ c :: more := by
        have hr : us ++ after = (pre ++ [c]) ++ (more ++ after) := congrArg TokenStream.rest hused
        rw [← List.append_assoc] at hr
        simpa using List.append_cancel_right hr
      subst hus
      obtain ⟨pre', _, rfl, hsp, hsc⟩ := sameTokens_append hs
      cases hsc with
      | @cons _ c' _ more' hcc hsm =>
        let A : Behind := ⟨c, c', more ++ after, more', f, f', hcc, hc.solid (hp c (by simp))⟩
        have hl : (⟨(pre ++ c :: more) ++ after, f⟩ : TokenStream) = A.left pre := by simp [A, Behind.left]
        have hr : (⟨pre' ++ c' :: more', f'⟩ : TokenStream) = A.right pre' := rfl
        rw [hl] at hw hstop hsuffix
        have hnext := Behind.peek_same (A := A) .kept hsp
        obtain ⟨w', hw', hww⟩ := closes_suffix (beside_expression pre.length) hx hnext A pre pre' w (Nat.lt_succ_self _)
          hsp hw
        have hround : chainRound expression .kept x' ⟨pre' ++ c' :: more', f'⟩ = .ok (.inl w', A.past') := by
          rw [hnext.is, (Behind.peekNext_same hsp hpre).isAlphanumeric] at hstop
          rw [hnext.isOneOf] at hsuffix
          rw [chainRound, hr, bind_ok (peek_run .kept _), bind_ok (peekNext_run .kept _)]
          rw [if_neg hstop, if_pos hsuffix, bind_ok hw']
          rfl
        obtain ⟨y', hy', hyy⟩ := ih m hww (fun u hu => hp u (by simp [hu])) hsm (by simp at hn; omega) hrest
        exact ⟨y', by rw [loop, bind_ok hround]; exact hy', hyy⟩
    · obtain ⟨hz, ht⟩ := Prod.mk.inj (Except.ok.inj hz)
      exact hend hz.symm ht.symm

/-- a chain of suffixes stands alone -/
theorem standsAlone_inlineChain : StandsAlone inlineChain := by
  intro code code' after f f' y hp hs h
  obtain ⟨name, t, hname, hchain⟩ := bind_ok_iff.1 h
  obtain ⟨more, ht, -⟩ := shrinks_chain shrinks_expression .kept (nameOrLiteral name) t y _ hchain
  subst ht
  have hr : code ++ after = name :: (more ++ after) := congrArg TokenStream.rest (consume_eq_ok.1 hname)
  obtain rfl : code = name :: more := by
    rw [← List.cons_append] at hr
    exact List.append_cancel_right hr
  cases hs with
  | @cons _ name' _ more' hn hs =>
    have hname' : consume .kept ⟨name' :: more', f'⟩ = .ok (name', ⟨more', f'⟩) := consume_eq_ok.2 rfl
    have hlen : more.length < (⟨more', f'⟩ : TokenStream).remaining + 1 := by
      rw [hs.length_eq]
      simp [TokenStream.remaining]
    obtain ⟨y', hy', hyy⟩ := loop_alone _ _ (same_nameOrLiteral hn) (fun u hu => hp u (by simp [hu])) hs hlen hchain
    refine ⟨y', ?_, hyy⟩
    rw [inlineChain, bind_ok hname']
    exact hy'

/-! ## Expressions in parentheses -/

theorem closes_parenthesized (k : Nat) : Closes k Expression.Same parenthesized parenthesized := by
  refine closes_bind (fun _ => ?_) (beside_consume _) fun _ _ _ => ?_
  · exact advances_bind_right shrinks_expression fun _ => advances_bind (advances_expect _ _) fun _ => shrinks_pure _
  refine closes_bind (fun x => ?_) (beside_expression k) fun x x' hx => ?_
  · exact advances_bind (advances_expect _ _) fun _ => shrinks_pure _
  · exact closes_map _ _ (closes_expect _ _) fun _ _ _ => hx

theorem endsWith_parenthesized : EndsWith (fun c => c.is ")" = true) parenthesized :=
  endsWith_bind (advances_consume _).shrinks fun _ => endsWith_bind shrinks_expression fun _ =>
    (endsWith_expected .skipped (.text ")")).map _

/-- an expression in parentheses stands alone -/
theorem standsAlone_parenthesized : StandsAlone parenthesized := by
  intro code code' after f f' x hp hs h
  obtain ⟨_, hused, pre, c, rfl, hc⟩ := endsWith_parenthesized _ x _ h
  have hr : code ++ after = (pre ++ [c]) ++ after := congrArg TokenStream.rest hused
  obtain rfl := List.append_cancel_right hr
  obtain ⟨pre', _, rfl, hsp, hsc⟩ := sameTokens_append hs
  cases hsc with
  | @cons _ c' _ _ hcc hsm =>
    cases hsm
    have hsolid : c.isWhitespace = false := (hp c (by simp)).isWhitespace_of_is hc (by decide)
    let A : Behind := ⟨c, c', after, [], f, f', hcc, hsolid⟩
    have hl : (⟨(pre ++ [c]) ++ after, f⟩ : TokenStream) = A.left pre := by simp [A, Behind.left]
    rw [hl] at h
    obtain ⟨x', hx', hxx⟩ := closes_parenthesized (pre.length + 1) A pre pre' x (Nat.lt_succ_self _) hsp h
    exact ⟨x', hx', hxx⟩

/-! ## Inline expressions -/

/-- all results of a parser are as described -/
def Gives (P : Segment → Prop) (m : Parser Segment) : Prop := ∀ s r t, m s = .ok (r, t) → P r

theorem gives_bind {P : Segment → Prop} {α : Type} {m : Parser α} {f : α → Parser Segment} (h : ∀ a, Gives P (f a)) :
    Gives P (m >>= f) := by
  intro s r t hm
  obtain ⟨a, s', -, hf⟩ := bind_ok_iff.1 hm
  exact h a s' r t hf

theorem gives_pure {P : Segment → Prop} {r : Segment} (h : P r) : Gives P (pure r) := by
  intro s _ t hm
  cases hm
  exact h

theorem gives_fail {P : Segment → Prop} {e : ParseError} : Gives P (fail e) := by
  intro s r t h
  cases h

/-- a segment that the value of an attribute may hold -/
def mayStandInValue : Segment → Bool
  | .text _ => true
  | .inline _ => true
  | .comment _ => true
  | _ => false

/-- a parser that has no inline expression as its result -/
def GivesCode (m : Parser Segment) : Prop := ∀ s r t, m s = .ok (r, t) → ∀ i, r ≠ .inline i

theorem Gives.code {m : Parser Segment} (h : Gives (mayStandInValue · = false) m) : GivesCode m := by
  rintro s r t hm i rfl
  cases h s _ t hm

variable {inner : Place → Parser Segment}

theorem gives_helper : Gives (mayStandInValue · = false) (helper inner) := by
  unfold helper
  repeat refine gives_bind fun _ => ?_
  exact gives_pure rfl

theorem gives_namedSection : Gives (mayStandInValue · = false) (namedSection inner) := by
  unfold namedSection
  repeat refine gives_bind fun _ => ?_
  exact gives_pure rfl

theorem gives_loopStatement : Gives (mayStandInValue · = false) (loopStatement inner) := by
  refine gives_bind fun _ => gives_bind fun _ => gives_bind fun next => ?_
  split
  all_goals
    repeat refine gives_bind fun _ => ?_
    exact gives_pure rfl

theorem gives_eachStatement : Gives (mayStandInValue · = false) (eachStatement inner) := by
  unfold eachStatement
  refine gives_bind fun _ => gives_bind fun _ => gives_bind fun _ => gives_bind fun _ => ?_
  refine gives_bind fun _ => gives_bind fun _ => gives_bind fun collection => ?_
  split
  all_goals
    repeat refine gives_bind fun _ => ?_
    exact gives_pure rfl

theorem gives_control : Gives (mayStandInValue · = false) (control inner) := by
  refine gives_bind fun next => ?_
  split
  · refine gives_bind fun head => gives_bind fun _ => ?_
    exact gives_pure rfl
  split
  · exact gives_loopStatement
  · exact gives_eachStatement

theorem advances_parenthesized : Advances parenthesized :=
  advances_bind (advances_consume _) fun _ => shrinks_bind shrinks_expression fun _ =>
    shrinks_bind (advances_expect _ _).shrinks fun _ => shrinks_pure _

theorem advances_inlineChain : Advances inlineChain :=
  advances_bind (advances_consume _) fun _ => shrinks_chain shrinks_expression _ _

/-- where an `@` opens an inline expression, one of two parsers reads it, and so it is before every token that is the same -/
theorem construct_inline {leading : String} {mark : Token} {s t : TokenStream} {i : InlineExpression}
    (h : construct inner leading mark s = .ok (.inline i, t)) :
    i.leading = leading ∧ ∃ m, StandsAlone m ∧ Advances m ∧ m s = .ok (i.expression, t) ∧
      ∀ (other : Place → Parser Segment) (leading' : String) (mark' : Token) (s' : TokenStream),
        (s.peek .kept).Same (s'.peek .kept) →
        construct other leading' mark' s' = (do return .inline ⟨← m, leading'⟩ : Parser Segment) s' := by
  have key : ∀ {m : Parser Expression}, (do return .inline ⟨← m, leading⟩ : Parser Segment) s = .ok (.inline i, t) →
      i.leading = leading ∧ m s = .ok (i.expression, t) := by
    intro m h
    obtain ⟨x, t, hx, hr⟩ := bind_ok_iff.1 h
    cases hr
    exact ⟨rfl, hx⟩
  rw [construct, bind_ok (peek_run .kept _)] at h
  split at h
  · exact absurd rfl (gives_bind (P := (· ≠ .inline i)) (fun _ => gives_pure (by simp)) _ _ _ h)
  split at h
  · exact absurd rfl (gives_bind (P := (· ≠ .inline i)) (fun _ => gives_pure (by simp)) _ _ _ h)
  split at h
  · next h₁ h₂ h₃ =>
    obtain ⟨hl, hm⟩ := key h
    refine ⟨hl, parenthesized, standsAlone_parenthesized, advances_parenthesized, hm, fun other leading' mark' s' hn => ?_⟩
    rw [construct, bind_ok (peek_run .kept _), ← hn.isDelimiter, ← hn.is, ← hn.is, if_neg h₁, if_neg h₂, if_pos h₃]
  split at h
  · exact absurd rfl (gives_bind (P := (· ≠ .inline i)) (fun _ => gives_pure (by simp)) _ _ _ h)
  split at h
  · split at h
    · exact absurd rfl (gives_helper.code _ _ _ h i)
    split at h
    · exact absurd rfl (gives_namedSection.code _ _ _ h i)
    split at h
    · exact absurd rfl (gives_control.code _ _ _ h i)
    · next h₁ h₂ h₃ h₄ h₅ h₆ h₇ h₈ =>
      obtain ⟨hl, hm⟩ := key h
      refine ⟨hl, inlineChain, standsAlone_inlineChain, advances_inlineChain, hm, fun other leading' mark' s' hn => ?_⟩
      rw [construct, bind_ok (peek_run .kept _), ← hn.isDelimiter, ← hn.is, ← hn.is, ← hn.is, ← hn.isAlphanumeric,
        ← hn.text, if_neg h₁, if_neg h₂, if_neg h₃, if_neg h₄, if_pos h₅, if_neg h₆, if_neg h₇, if_neg h₈]
  · exact absurd rfl (gives_fail (P := (· ≠ .inline i)) _ _ _ h)

/-- the tokens of an inline expression, from its `@` on, are a document of their own with that expression -/
def Alone (code : List Token) (x : Expression) : Prop :=
  (∃ mark rest, code = mark :: rest ∧ mark.isDelimiter = true) ∧
  ((∀ c ∈ code, c.Proper) → ∀ (code' : List Token) (f : Position), SameTokens code code' →
    ∃ y, x.Same y ∧ document (segment .markup) ⟨code', f⟩ = .ok ([.inline ⟨y, ""⟩], ⟨[], f⟩))

theorem takes_blank (s : TokenStream) : Takes blank s fun used text => textOf used = text := by
  refine takes_peek ?_
  split
  · refine takes_bind (takes_consume (Q := fun used t => used = [t]) rfl) ?_
    intro _ t _ _ he
    subst he
    exact takes_pure (by simp)
  · exact takes_pure rfl

/-- where the next token is no whitespace, no whitespace is taken -/
theorem blank_run {s : TokenStream} (h : (s.peek .kept).isWhitespace = false) : blank s = .ok ("", s) := by
  rw [blank, bind_ok (peek_run .kept s), h]
  rfl

/-- behind its `@` an inline expression is read as a document -/
theorem document_inline {m : Parser Expression} {mark : Token} {code : List Token} {f : Position} {y : Expression}
    (hd : mark.category = .delimiter)
    (hc : ∀ (other : Place → Parser Segment) (leading : String),
      construct other leading mark ⟨code, f⟩ = (do return .inline ⟨← m, leading⟩ : Parser Segment) ⟨code, f⟩)
    (hm : m ⟨code, f⟩ = .ok (y, ⟨[], f⟩)) :
    document (segment .markup) ⟨mark :: code, f⟩ = .ok ([.inline ⟨y, ""⟩], ⟨[], f⟩) := by
  have hw : mark.isWhitespace = false := by
    rw [Token.isWhitespace, hd]
    rfl
  have hend : ¬(⟨mark :: code, f⟩ : TokenStream).atEnd .kept = true := by
    show ¬mark.isEnd = true
    rw [Token.isEnd, hd]
    decide
  have hinline : ∀ other : Place → Parser Segment,
      embedded other ⟨mark :: code, f⟩ = .ok (.inline ⟨y, ""⟩, ⟨[], f⟩) := by
    intro other
    have hmark : expectCategory .kept .delimiter ⟨mark :: code, f⟩ = .ok (mark, ⟨code, f⟩) :=
      taking_eq_ok.2 (consumeExpected_eq_ok.2 ⟨rfl, by simpa [Expected.matches] using hd⟩)
    rw [embedded, bind_ok (blank_run (s := ⟨mark :: code, f⟩) hw), bind_ok hmark, hc other "", bind_ok hm]
    rfl
  have hsegment : segment .markup ⟨mark :: code, f⟩ = .ok (.inline ⟨y, ""⟩, ⟨[], f⟩) := by
    have hkeep : (⟨mark :: code, f⟩ : TokenStream).peek .kept = mark := rfl
    have hskip : (⟨mark :: code, f⟩ : TokenStream).peek .skipped = mark := by
      have hpass : (⟨mark :: code, f⟩ : TokenStream).passBlank .skipped = ⟨mark :: code, f⟩ := by
        rw [TokenStream.passBlank]
        exact if_neg (ne_true_of_eq_false hw)
      rw [TokenStream.peek, hpass]
      rfl
    show markupSegment _ _ _ _ = _
    rw [markupSegment, bind_ok (peek_run .skipped _), hskip, if_pos (by simpa [Token.isDelimiter] using hd),
      bind_ok (peek_run .kept _), hkeep, hw]
    exact hinline _
  have hround : documentRound (segment .markup) [] ⟨mark :: code, f⟩ = .ok (.inl [.inline ⟨y, ""⟩], ⟨[], f⟩) := by
    rw [documentRound, bind_ok (atEnd_run _), if_neg hend, bind_ok hsegment]
    rfl
  show loop (documentRound (segment .markup)) (code.length + 2) [] _ = _
  rw [loop, bind_ok hround]
  rfl

/-- **An inline expression stands alone.** -/
theorem embedded_alone {inner : Place → Parser Segment} {s t : TokenStream} {i : InlineExpression}
    (h : embedded inner s = .ok (.inline i, t)) :
    ∃ lead code, s = ⟨lead ++ code ++ t.rest, t.finish⟩ ∧ textOf lead = i.leading ∧ Alone code i.expression := by
  obtain ⟨leading, s₁, hlead, h⟩ := bind_ok_iff.1 h
  obtain ⟨mark, s₂, hmark, h⟩ := bind_ok_iff.1 h
  obtain ⟨hl, m, hm, am, hx, hc⟩ := construct_inline h
  obtain ⟨lead, rfl, htext⟩ := takes_blank s leading s₁ hlead
  obtain ⟨hs₁, hd⟩ := consumeExpected_eq_ok.1 (taking_eq_ok.1 hmark)
  have hd : mark.category = .delimiter := by simpa [Expected.matches] using hd
  have hs₁ : s₁ = ⟨mark :: s₂.rest, s₂.finish⟩ := hs₁
  obtain ⟨code, hs₂, hn⟩ := am s₂ _ t hx
  subst hs₂ hs₁
  refine ⟨lead, mark :: code, by simp, htext.trans hl.symm, ⟨mark, code, rfl, by simpa [Token.isDelimiter] using hd⟩, ?_⟩
  intro hp code' f hsame
  cases hsame with
  | @cons _ mark' _ code' hmm hs =>
    have hcode : ∀ c ∈ code, c.Proper := fun c hc => hp c (by simp [hc])
    obtain ⟨y, hy, hxy⟩ := hm code code' t.rest t.finish f _ hcode hs hx
    have hnext : ((⟨code ++ t.rest, t.finish⟩ : TokenStream).peek .kept).Same ((⟨code', f⟩ : TokenStream).peek .kept) := by
      cases hs with
      | nil => exact absurd rfl hn
      | cons hcc _ => exact hcc
    have hd' : mark'.category = .delimiter := by
      have h := hmm.isDelimiter
      simp only [Token.isDelimiter, hd] at h
      simpa using h.symm
    exact ⟨y, hxy, document_inline hd' (fun other leading' => hc other leading' mark' _ hnext) hy⟩

end Grammar

end TemplateView
