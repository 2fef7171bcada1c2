/-
Constructs that end with their closing brace. A parser closes if the last token it takes is a brace, and if it takes the
same lexemes on a stream that goes on behind this brace as on one that ends there (`Braced`). Each construct does so
that code may open: its head does not see the end of the stream, as a brace is still to come, and its body is the last
thing it takes. Only an `if` without a last `else` looks behind its brace, for another `else` (`Segment.MayPrecede`).
-/
import TemplateView.Proofs.Grammar.Elsewhere
import TemplateView.Proofs.Grammar.Inline

namespace TemplateView

open TemplateView.Parser

/-- a chain of alternatives that another `else` would continue -/
def Alternative.isOpen : Alternative → Bool
  | .nothing => true
  | .elseBody _ => false
  | .elseBranch _ _ more => more.isOpen
  | .both .. => false

namespace Segment

/-- a block, a statement of control or a declaration, which a directive opens in markup and a brace closes -/
def isConstruct : Segment → Bool
  | .block _ | .branch .. | .loop .. | .each .. | .helper .. | .namedSection .. => true
  | _ => false

/-- an `if` without a last `else` -/
def isOpen : Segment → Bool
  | .branch _ _ more => more.isOpen
  | _ => false

end Segment

/-- the next word is `else`, perhaps behind whitespace -/
def TokenStream.opensElse (s : TokenStream) : Bool := (s.peek .skipped).is "else"

/-- a construct may stand in front of these tokens: none of them continues it -/
def Segment.MayPrecede (r : Segment) (ts : List Token) : Prop :=
  r.isConstruct = true ∧ (r.isOpen = true → ∀ f, TokenStream.opensElse ⟨ts, f⟩ = false)

/-- ends with a closing brace -/
def EndsBrace (used : List Token) : Prop := ∃ pre c, used = pre ++ [c] ∧ c.is "\x7d" = true

theorem EndsBrace.append {used : List Token} (h : EndsBrace used) (more : List Token) : EndsBrace (more ++ used) := by
  obtain ⟨pre, c, rfl, hc⟩ := h
  exact ⟨more ++ pre, c, (List.append_assoc _ _ _).symm, hc⟩

theorem EndsBrace.ne_nil {used : List Token} (h : EndsBrace used) : used ≠ [] := by
  obtain ⟨pre, c, rfl, -⟩ := h
  simp

/-- two streams that are still before the brace, or right behind it -/
def Brace.Reached (b : Brace) (s s' : TokenStream) : Prop :=
  (Sequel.brace b).Aligned s s' ∨ s.rest = [] ∧ s'.rest = b.more

theorem Brace.Reached.remaining {b : Brace} {s s' : TokenStream} (h : b.Reached s s') : s.remaining ≤ s'.remaining := by
  rcases h with h | ⟨h, -⟩
  · exact h.remaining.1
  · rw [TokenStream.remaining, h]
    exact Nat.zero_le _

theorem Brace.Reached.aligned {b : Brace} {s s' : TokenStream} (h : b.Reached s s') (hs : s.rest ≠ []) :
    (Sequel.brace b).Aligned s s' :=
  h.resolve_right fun h => hs h.1

/-- Where a result is as described by `C`, with what may follow it, a parser has taken a brace last; and it makes the same
of two streams up to such a brace, and with it. -/
structure Braced {α β : Type} (C : α → List Token → Prop) (R : α → β → Prop) (m : Parser α) (m' : Parser β) : Prop where
  ends : ∀ s, Takes m s fun used a => (∃ b, R a b) ∧ ((∃ ts, C a ts) → EndsBrace used)
  closes : ∀ (b : Brace) s s', (Sequel.brace b).Aligned s s' → ∀ a t, m s = .ok (a, t) → C a b.more →
    ∃ a' t', m' s' = .ok (a', t') ∧ R a a' ∧ b.Reached t t'

/-! ## Steps -/

section

variable {α β γ δ σ τ : Type} {C : α → List Token → Prop} {D : γ → List Token → Prop}
variable {R : α → β → Prop} {Q : γ → δ → Prop} {S : σ → τ → Prop} {m : Parser α} {m' : Parser β}

/-- before the brace, the second parser does the same -/
theorem Agree.before {b : Brace} (h : Agree (.brace b) R m m') {s s' t : TokenStream} {a : α}
    (hs : (Sequel.brace b).Aligned s s') (hm : m s = .ok (a, t)) (ht : t.rest ≠ []) :
    ∃ a' t', m' s' = .ok (a', t') ∧ R a a' ∧ (Sequel.brace b).Aligned t t' := by
  have ho := h.aligned s s' hs
  rw [hm] at ho
  generalize hr : (m' s').toOption = r at ho
  cases ho with
  | lost _ hl => exact absurd hl.rest ht
  | @both _ a' _ t' hr' ha =>
    cases hm' : m' s' with
    | error e => rw [hm'] at hr; cases hr
    | ok r' =>
      rw [hm'] at hr
      obtain rfl : r' = (a', t') := Option.some.inj hr
      exact ⟨a', t', rfl, hr', ha⟩

/-- what a parser takes that is not described -/
theorem braced_never {A : Sequel} (hm : Agree A R m m') (h : ∀ s a t, m s = .ok (a, t) → ∀ ts, ¬ C a ts) :
    Braced C R m m' where
  ends s a t ha := by
    obtain ⟨used, hu, hr⟩ := hm.takes s a t ha
    exact ⟨used, hu, hr, fun ⟨ts, hc⟩ => absurd hc (h s a t ha ts)⟩
  closes _ _ _ _ a t hm hc := absurd hc (h _ a t hm _)

theorem braced_fail {e : ParseError} : Braced C R (fail e) m' where
  ends _ := takes_fail
  closes _ _ _ _ _ _ hm := by cases hm

theorem braced_fail_bind {e : ParseError} {f : γ → Parser α} : Braced C R (fail e >>= f) m' where
  ends _ _ _ hm := by cases hm
  closes _ _ _ _ _ _ hm := by cases hm

theorem braced_expect {C : Token → List Token → Prop} (b : Blanks) : Braced C Token.Same (expect b "\x7d") (expect b "\x7d") where
  ends s := (endsWith_expected b (.text "\x7d") s).mono fun _ t h => ⟨⟨t, .refl t⟩, fun _ => h⟩
  closes brace s s' hs t u hm _ := by
    obtain ⟨hp, ht⟩ := consumeExpected_eq_ok.1 (taking_eq_ok.1 hm)
    have hpass := hs.passBlank b
    rw [hp] at hpass
    obtain ⟨us, us', hus, h, h'⟩ := hpass
    cases hus with
    | nil =>
      obtain ⟨rfl, hu⟩ := List.cons.inj h
      have hrun : expect b "\x7d" s' = .ok (brace.mark', ⟨brace.more, (s'.passBlank b).finish⟩) := by
        refine taking_eq_ok.2 (consumeExpected_eq_ok.2 ⟨?_, (brace.same.matches _).symm.trans ht⟩)
        exact congrArg (TokenStream.mk · _) h'
      exact ⟨_, _, hrun, brace.same, .inr ⟨hu, rfl⟩⟩
    | @cons v v' us us' hv hus =>
      obtain ⟨rfl, hu⟩ := List.cons.inj h
      have hrun : expect b "\x7d" s' = .ok (v', ⟨us' ++ brace.mark' :: brace.more, (s'.passBlank b).finish⟩) := by
        refine taking_eq_ok.2 (consumeExpected_eq_ok.2 ⟨?_, (hv.matches _).symm.trans ht⟩)
        exact congrArg (TokenStream.mk · _) h'
      exact ⟨_, _, hrun, hv, .inl ⟨us, us', hus, hu, rfl⟩⟩

theorem braced_bind {f : α → Parser γ} {f' : β → Parser δ} (hm : ∀ A, Agree A R m m')
    (hf : ∀ a a', R a a' → Braced D Q (f a) (f' a')) : Braced D Q (m >>= f) (m' >>= f') where
  ends s := takes_bind ((hm .ended).takes s) fun used a t _ ha => by
    obtain ⟨a', hr⟩ := ha
    exact ((hf a a' hr).ends t).mono fun _ _ h => ⟨h.1, fun hd => (h.2 hd).append used⟩
  closes b s s' hs c u hc hd := by
    obtain ⟨a, t, ha, hfa⟩ := bind_ok_iff.1 hc
    obtain ⟨-, -, a₀, hr₀⟩ := (hm .ended).takes s a t ha
    obtain ⟨more, rfl, -, hends⟩ := (hf a a₀ hr₀).ends t c u hfa
    have ht : more ++ u.rest ≠ [] := fun h => (hends ⟨_, hd⟩).ne_nil (List.append_eq_nil_iff.1 h).1
    obtain ⟨a', t', ha', hr, haligned⟩ := (hm (.brace b)).before hs ha ht
    obtain ⟨c', u', hc', hq, hreached⟩ := (hf a a' hr).closes b _ t' haligned c u hfa hd
    exact ⟨c', u', by rw [bind_ok ha', hc'], hq, hreached⟩

theorem braced_bind_eq {m m' : Parser α} {f : α → Parser γ} {f' : α → Parser δ} (hm : ∀ A, Agree A Eq m m')
    (hf : ∀ a, Braced D Q (f a) (f' a)) : Braced D Q (m >>= f) (m' >>= f') :=
  braced_bind hm fun a _ h => h ▸ hf a

/-- what follows the brace only gives a result -/
theorem braced_map {f : α → γ} {f' : β → δ} (hm : Braced (fun a => D (f a)) R m m')
    (hf : ∀ a a', R a a' → Q (f a) (f' a')) :
    Braced D Q (m >>= fun a => pure (f a)) (m' >>= fun a => pure (f' a)) where
  ends s := takes_bind (hm.ends s) fun used a t _ ha => takes_pure <| by
    obtain ⟨⟨a', hr⟩, hends⟩ := ha
    rw [List.append_nil]
    exact ⟨⟨f' a', hf a a' hr⟩, hends⟩
  closes b s s' hs c u hc hd := by
    obtain ⟨a, t, ha, hfa⟩ := bind_ok_iff.1 hc
    obtain ⟨rfl, rfl⟩ := Prod.mk.inj (Except.ok.inj hfa)
    obtain ⟨a', t', ha', hr, hreached⟩ := hm.closes b s s' hs a t ha hd
    exact ⟨f' a', t', by rw [bind_ok ha']; rfl, hf a a' hr, hreached⟩

/-! ### Loops -/

variable {step : σ → Parser (σ ⊕ α)} {step' : τ → Parser (τ ⊕ β)}

/-- Two loops reach the same if their rounds do. Of a round of the first loop it may be used that the rest of the loop
gives the result; the second loop may have more rounds left. -/
theorem loop_reached {b : Brace} {r : α} {u : TokenStream}
    (h : ∀ n c c' x s s' t, S c c' → b.Reached s s' → step c s = .ok (x, t) →
      Sum.elim (loop step n) pure x t = .ok (r, u) →
      ∃ x' t', step' c' s' = .ok (x', t') ∧ Sum.LiftRel S R x x' ∧ b.Reached t t') (n : Nat) :
    ∀ n' c c' s s', n ≤ n' → S c c' → b.Reached s s' → loop step n c s = .ok (r, u) →
      ∃ r' u', loop step' n' c' s' = .ok (r', u') ∧ R r r' ∧ b.Reached u u' := by
  induction n with
  | zero => exact fun _ _ _ _ _ _ _ _ hl => by cases hl
  | succ n ih =>
    intro n' c c' s s' hn hc hs hl
    obtain ⟨n', rfl⟩ : ∃ k, n' = k + 1 := ⟨n' - 1, by omega⟩
    obtain ⟨x, t, hx, hrest⟩ := bind_ok_iff.1 hl
    have hrest : Sum.elim (loop step n) pure x t = .ok (r, u) := by cases x <;> exact hrest
    obtain ⟨x', t', hx', hr, ht⟩ := h n c c' x s s' t hc hs hx hrest
    rw [loop, bind_ok hx']
    cases hr with
    | inl hr => exact ih n' _ _ t t' (Nat.le_of_succ_le_succ hn) hr ht hrest
    | inr hr =>
      cases hrest
      exact ⟨_, t', rfl, hr, ht⟩

/-- a loop whose last round ends with the brace does so -/
theorem loop_ends (hc : ∀ a a', S a a' → Braced (fun x _ => x.isRight = true) (Sum.LiftRel S R) (step a) (step' a'))
    (n : Nat) : ∀ a a', S a a' → ∀ s, Takes (loop step n a) s fun used r => (∃ r', R r r') ∧ EndsBrace used := by
  induction n with
  | zero => exact fun _ _ _ _ => takes_stalled
  | succ n ih =>
    intro a a' ha s
    refine takes_bind ((hc a a' ha).ends s) fun used x t _ hx => ?_
    obtain ⟨⟨x', hx'⟩, hb⟩ := hx
    cases hx' with
    | inl hr => exact (ih _ _ hr t).mono fun _ _ h => ⟨h.1, h.2.append used⟩
    | @inr _ r' hr =>
      refine takes_pure ⟨⟨r', hr⟩, ?_⟩
      rw [List.append_nil]
      exact hb ⟨[], rfl⟩

theorem braced_iterate (h : ∀ A a a', S a a' → Agree A (Sum.LiftRel S R) (step a) (step' a'))
    (hc : ∀ a a', S a a' → Braced (fun x _ => x.isRight = true) (Sum.LiftRel S R) (step a) (step' a')) {a : σ} {a' : τ}
    (ha : S a a') : Braced C R (iterate a step) (iterate a' step') where
  ends s r t hm := by
    obtain ⟨used, hu, hr, hb⟩ := loop_ends hc _ a a' ha s r t hm
    exact ⟨used, hu, hr, fun _ => hb⟩
  closes b s s' hs r t hm _ := by
    refine loop_reached (fun n c c' x s s' u hcc hs hx hrest => ?_) _ _ a a' s s' (Nat.succ_le_succ hs.remaining.1) ha
      (.inl hs) hm
    obtain ⟨used, rfl, ⟨x₀, hx₀⟩, hb⟩ := (hc c c' hcc).ends s x u hx
    cases hx₀ with
    | @inl d d₀ hd =>
      -- a token is still to come, as the rest of the loop ends with a brace
      obtain ⟨more, rfl, -, hmore⟩ := loop_ends hc n d d₀ hd u r t hrest
      have hu : more ++ t.rest ≠ [] := fun h => hmore.ne_nil (List.append_eq_nil_iff.1 h).1
      have hs : (Sequel.brace b).Aligned _ s' := hs.aligned (List.append_ne_nil_of_right_ne_nil _ hu)
      obtain ⟨x', u', hx', hr, ht⟩ := (h (.brace b) c c' hcc).before hs hx hu
      exact ⟨x', u', hx', hr, .inl ht⟩
    | inr _ =>
      have hused := (hb ⟨[], rfl⟩).ne_nil
      exact (hc c c' hcc).closes b _ s' (hs.aligned (List.append_ne_nil_of_left_ne_nil hused _)) _ u hx rfl

end

/-! ## Constructs -/

namespace Grammar

theorem braced_blockRound (start start' : Position) {body body' : List Segment} (hb : Segment.SameAll body body') :
    Braced (fun x _ => x.isRight = true) (Sum.LiftRel Segment.SameAll Segment.SameAll)
      (blockRound segment start body) (blockRound segment start' body') := by
  refine braced_bind (fun _ => agree_peek _) fun next next' hn => ?_
  rw [hn.is, hn.isEnd]
  split
  · exact braced_map (braced_expect _) fun _ _ _ => .inr hb
  split
  · exact braced_fail
  · have hstep : Agree .ended (Sum.LiftRel Segment.SameAll Segment.SameAll)
        (do return .inl (body ++ [← segment .code]) : Parser (List Segment ⊕ List Segment))
        (do return .inl (body' ++ [← segment .code]) : Parser (List Segment ⊕ List Segment)) :=
      agree_map (agree_segment .code) fun r r' hr => .inl (Segment.SameAll.concat hb hr)
    refine braced_never hstep fun s x t hx _ hr => ?_
    obtain ⟨r, u, -, hpure⟩ := bind_ok_iff.1 hx
    cases hpure
    cases hr

theorem braced_block {C : List Segment → List Token → Prop} : Braced C Segment.SameAll (block segment) (block segment) :=
  braced_bind (fun _ => agree_expect _ _) fun _ _ _ =>
    braced_iterate (fun _ _ _ => agree_blockRound (fun p => agree_segment p) _ _) (fun _ _ => braced_blockRound _ _) rfl

theorem braced_branchHead {C : Expression × List Segment → List Token → Prop} :
    Braced C (UpTo (Prod.map Expression.unplaced Segment.unplacedAll)) (branchHead segment) (branchHead segment) := by
  refine braced_bind (fun _ => agree_expect _ _) fun _ _ _ => braced_bind (fun _ => agree_expect _ _) fun _ _ _ => ?_
  refine braced_bind (fun _ => agree_expression) fun test test' ht => braced_bind (fun _ => agree_expect _ _) fun _ _ _ => ?_
  exact braced_map braced_block fun body body' hb => Prod.ext ht hb

variable {C : Segment → List Token → Prop}

theorem braced_loopStatement : Braced C Segment.Same (loopStatement segment) (loopStatement segment) := by
  refine braced_bind (fun _ => agree_expect _ _) fun _ _ _ => braced_bind (fun _ => agree_expect _ _) fun _ _ _ => ?_
  refine braced_bind (fun _ => agree_peek _) fun next next' hn => ?_
  rw [hn.is]
  split
  · exact braced_fail_bind
  refine braced_bind (fun _ => agree_declaration) fun counter counter' hc => ?_
  refine braced_bind (fun _ => agree_expect _ _) fun _ _ _ => ?_
  refine braced_bind (fun _ => agree_expression) fun condition condition' ht => ?_
  refine braced_bind (fun _ => agree_expect _ _) fun _ _ _ => braced_bind (fun _ => agree_action) fun action action' ha => ?_
  refine braced_bind (fun _ => agree_expect _ _) fun _ _ _ => braced_map braced_block fun body body' hb => ?_
  rw [Segment.Same, UpTo, Segment.unplaced, Segment.unplaced, hc, ht, ha, hb]

theorem braced_eachStatement : Braced C Segment.Same (eachStatement segment) (eachStatement segment) := by
  refine braced_bind (fun _ => agree_expect _ _) fun _ _ _ => braced_bind (fun _ => agree_expect _ _) fun _ _ _ => ?_
  refine braced_bind (fun _ => agree_expect _ _) fun _ _ _ => braced_bind_eq (fun _ => agree_word _) fun item => ?_
  refine braced_bind (fun _ => agree_expect _ _) fun _ _ _ => braced_bind (fun _ => agree_peek _) fun first first' _ => ?_
  refine braced_bind (fun _ => agree_expression) fun collection collection' hc => ?_
  rw [hc.isAccess]
  split
  · exact braced_fail_bind
  refine braced_bind (fun _ => agree_expect _ _) fun _ _ _ => braced_map braced_block fun body body' hb => ?_
  rw [Segment.Same, UpTo, Segment.unplaced, Segment.unplaced, hc, hb]

theorem braced_helper : Braced C Segment.Same (helper segment) (helper segment) := by
  refine braced_bind (fun _ => agree_expect _ _) fun _ _ _ => braced_bind_eq (fun _ => agree_word _) fun name => ?_
  refine braced_bind (fun _ => agree_expect _ _) fun _ _ _ => braced_bind_eq (fun _ => agree_parameters) fun names => ?_
  refine braced_bind (fun _ => agree_expect _ _) fun _ _ _ => braced_map braced_block fun body body' hb => ?_
  rw [Segment.Same, UpTo, Segment.unplaced, Segment.unplaced, hb]

theorem braced_namedSection : Braced C Segment.Same (namedSection segment) (namedSection segment) := by
  refine braced_bind (fun _ => agree_expect _ _) fun _ _ _ => braced_bind_eq (fun _ => agree_word _) fun name => ?_
  refine braced_map braced_block fun body body' hb => ?_
  rw [Segment.Same, UpTo, Segment.unplaced, Segment.unplaced, hb]

/-! ### Chains of alternatives -/

/-- branches in front of what ends a chain of them, which is open just if that is -/
structure Chains (wrap wrap' : Alternative → Alternative) : Prop where
  same : SameBranches wrap wrap'
  isOpen : ∀ a, (wrap a).isOpen = a.isOpen

/-- what stands behind `if` and `else` is another `if`, or the last body -/
def elseRound (wrap : Alternative → Alternative) : Parser ((Alternative → Alternative) ⊕ Alternative) := do
  let _ ← consume .skipped
  if (← peek .skipped).is "if" then
    let (test, body) ← branchHead segment
    return .inl (wrap ∘ .elseBranch test body)
  else
    return .inr (wrap (.elseBody (← block segment)))

theorem alternativeRound_eq (wrap : Alternative → Alternative) : alternativeRound segment wrap = peek .skipped >>= fun t =>
    if t.is "else" then elseRound wrap else pure (.inr (wrap .nothing)) := rfl

theorem braced_elseRound {wrap wrap' : Alternative → Alternative} (hw : Chains wrap wrap') :
    Braced (fun _ _ => True) (Sum.LiftRel Chains (UpTo Alternative.unplaced)) (elseRound wrap) (elseRound wrap') := by
  refine braced_bind (fun _ => agree_consume _) fun _ _ _ => braced_bind (fun _ => agree_peek _) fun next next' hn => ?_
  rw [hn.is]
  split
  · refine braced_map braced_branchHead fun h h' hh => .inl ⟨fun a a' ha => hw.same _ _ ?_, fun a => ?_⟩
    · obtain ⟨ht, hb⟩ := Prod.mk.inj hh
      rw [UpTo, Alternative.unplaced, Alternative.unplaced, ht, hb, ha]
    · exact (hw.isOpen _).trans (Alternative.isOpen.eq_def _)
  · refine braced_map braced_block fun body body' hb => .inr (hw.same _ _ ?_)
    rw [UpTo, Alternative.unplaced, Alternative.unplaced, hb]

/-- a chain of alternatives takes nothing, or a brace last -/
theorem takes_alternative (s : TokenStream) :
    Takes (alternative segment) s fun used _ => used = [] ∨ EndsBrace used := by
  refine takes_iterate (I := fun used wrap => (used = [] ∨ EndsBrace used) ∧ ∃ wrap', Chains wrap wrap')
    ⟨.inl rfl, id, fun _ _ h => h, fun _ => rfl⟩ fun used wrap t hu => ?_
  obtain ⟨hused, wrap', hw⟩ := hu
  rw [alternativeRound_eq]
  refine takes_peek ?_
  split
  · refine ((braced_elseRound hw).ends t).mono fun more x hx => ?_
    obtain ⟨⟨x', hr⟩, hb⟩ := hx
    have hb := (hb ⟨[], trivial⟩).append used
    cases hr with
    | inl hr => exact ⟨.inr hb, _, hr⟩
    | inr => exact .inr hb
  · refine takes_pure ?_
    rw [List.append_nil]
    exact hused

/-- One round, before the brace or right behind it, where no `else` may follow if the chain is done and open. -/
theorem alternativeRound_reached {b : Brace} {wrap wrap' : Alternative → Alternative} (hw : Chains wrap wrap')
    {s s' t : TokenStream} (hs : b.Reached s s') {x : (Alternative → Alternative) ⊕ Alternative}
    (hx : alternativeRound segment wrap s = .ok (x, t))
    (he : ∀ a, x = .inr a → a.isOpen = true → ∀ f, TokenStream.opensElse ⟨b.more, f⟩ = false) :
    ∃ x' t', alternativeRound segment wrap' s' = .ok (x', t') ∧ Sum.LiftRel Chains (UpTo Alternative.unplaced) x x' ∧
      b.Reached t t' := by
  rw [alternativeRound_eq, bind_ok (peek_run _ _)] at hx ⊢
  split at hx
  · next helse =>
    have hne : s.rest ≠ [] := by
      obtain ⟨rest, f⟩ := s
      rintro rfl
      cases helse
    have haligned := hs.aligned hne
    rw [← (haligned.peek .skipped).is, if_pos helse]
    exact (braced_elseRound hw).closes b s s' haligned x t hx trivial
  · next helse =>
    obtain ⟨rfl, rfl⟩ := Prod.mk.inj (Except.ok.inj hx)
    have hnone : (s'.peek .skipped).is "else" = false := by
      rcases hs with hs | ⟨-, hs⟩
      · rw [← (hs.peek .skipped).is]
        exact Bool.not_eq_true _ ▸ helse
      · obtain ⟨rest, f⟩ := s'
        obtain rfl : rest = b.more := hs
        exact he _ rfl (hw.isOpen _) f
    rw [hnone]
    exact ⟨_, s', rfl, .inr (hw.same _ _ rfl), hs⟩

theorem alternative_reached {b : Brace} {s s' t : TokenStream} {a : Alternative} (hs : b.Reached s s')
    (ha : alternative segment s = .ok (a, t))
    (he : a.isOpen = true → ∀ f, TokenStream.opensElse ⟨b.more, f⟩ = false) :
    ∃ a' t', alternative segment s' = .ok (a', t') ∧ UpTo Alternative.unplaced a a' ∧ b.Reached t t' := by
  refine loop_reached (S := Chains) (fun n c c' x s s' u hc hs hx hrest => ?_) _ _ id id s s'
    (Nat.succ_le_succ hs.remaining) ⟨fun _ _ h => h, fun _ => rfl⟩ hs ha
  refine alternativeRound_reached hc hs hx fun d hd => ?_
  -- the last round gives the chain itself
  subst hd
  obtain ⟨rfl, -⟩ := Prod.mk.inj (Except.ok.inj hrest)
  exact he

/-! ### What code an `@` may open -/

theorem braced_control : Braced Segment.MayPrecede Segment.Same (control segment) (control segment) := by
  refine braced_bind (fun _ => agree_peek _) fun next next' hn => ?_
  rw [hn.text]
  split
  · refine ⟨fun s => ?_, fun b s s' hs r t hr hc => ?_⟩
    · refine takes_bind (braced_branchHead (C := fun _ _ => True) |>.ends s) fun used h u _ hh => ?_
      refine takes_bind (takes_alternative u) fun more a v _ ha => takes_pure ⟨⟨_, rfl⟩, fun _ => ?_⟩
      have hb := hh.2 ⟨[], trivial⟩
      rw [List.append_nil]
      rcases ha with rfl | ha
      · rwa [List.append_nil]
      · exact ha.append used
    · obtain ⟨h, u, hh, hr⟩ := bind_ok_iff.1 hr
      obtain ⟨a, v, ha, hr⟩ := bind_ok_iff.1 hr
      obtain ⟨rfl, rfl⟩ := Prod.mk.inj (Except.ok.inj hr)
      obtain ⟨h', u', hh', hsame, hu⟩ := (braced_branchHead (C := fun _ _ => True)).closes b s s' hs h u hh trivial
      obtain ⟨a', v', ha', hsame', hv⟩ := alternative_reached hu ha hc.2
      refine ⟨.branch h'.1 h'.2 a', v', by rw [bind_ok hh']; exact bind_ok ha', ?_, hv⟩
      obtain ⟨ht, hb⟩ := Prod.mk.inj hsame
      rw [Segment.Same, UpTo, Segment.unplaced, Segment.unplaced, ht, hb, hsame']
  split
  · exact braced_loopStatement
  · exact braced_eachStatement

/-- a parser that gives no construct -/
theorem ne_of_gives {m : Parser Segment} (hg : Gives (·.isConstruct = false) m) {r : Segment} (hr : r.isConstruct = true)
    {s t : TokenStream} : m s ≠ .ok (r, t) :=
  fun hs => Bool.false_ne_true ((hg s r t hs).symm.trans hr)

/-- what is no construct need not end with a brace -/
theorem braced_other {m m' : Parser Segment} (hm : Agree .ended Segment.Same m m')
    (hg : Gives (·.isConstruct = false) m) : Braced Segment.MayPrecede Segment.Same m m' :=
  braced_never hm fun _ _ _ hr _ hc => ne_of_gives hg hc.1 hr

theorem braced_construct (leading : String) (mark mark' : Token) :
    Braced Segment.MayPrecede Segment.Same (construct segment leading mark) (construct segment leading mark') := by
  refine braced_bind (fun _ => agree_peek _) fun next next' hn => ?_
  simp only [hn.isDelimiter, hn.is, hn.isAlphanumeric, hn.text]
  split
  · exact braced_other (agree_map (agree_consume _) fun _ _ _ => rfl) (gives_bind fun _ => gives_pure rfl)
  split
  · refine braced_other (agree_map (agree_templateComment _ _) fun text text' ht => ?_) (gives_bind fun _ => gives_pure rfl)
    rw [ht]
    rfl
  split
  · refine braced_other (agree_map ?_ fun x x' hx => same_inline hx leading) (gives_bind fun _ => gives_pure rfl)
    exact agree_parenthesized
  split
  · refine braced_map braced_block fun body body' hb => ?_
    rw [Segment.Same, UpTo, Segment.unplaced, Segment.unplaced, hb]
  split
  · split
    · exact braced_helper
    split
    · exact braced_namedSection
    split
    · exact braced_control
    · exact braced_other (agree_map agree_inlineChain fun x x' hx => same_inline hx leading)
        (gives_bind fun _ => gives_pure rfl)
  · exact braced_fail

theorem braced_embedded : Braced Segment.MayPrecede Segment.Same (embedded segment) (embedded segment) := by
  refine braced_bind_eq (fun _ => agree_blank) fun leading => ?_
  exact braced_bind (fun _ => agree_expectCategory _ _) fun mark mark' _ => braced_construct leading mark mark'

end Grammar

end TemplateView
