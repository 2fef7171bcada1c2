/-
Parsers on two streams. The streams start with the same lexemes, perhaps at other positions, and behind these stands the
same mark in both; what follows the mark may differ. `Beside` says that a parser which stops before the mark on the first
stream does the same on the second, and `Closes` that a parser which stops right behind the mark does so.

So what a parser makes of some tokens does not depend on where they stand, nor on what follows them. The bound `k` on the
number of tokens before the mark is what the induction over nested expressions runs on.
-/
import TemplateView.Proofs.Grammar.Lexemes
import TemplateView.Proofs.Grammar.Progress

namespace TemplateView

open TemplateView.Parser

/-! ## Two streams -/

/-- what stands behind the tokens in question in two streams: the same mark, which is no whitespace, and more -/
structure Behind where
  mark : Token
  mark' : Token
  rest : List Token
  rest' : List Token
  finish : Position
  finish' : Position
  same : mark.Same mark'
  solid : mark.isWhitespace = false

namespace Behind

variable (A : Behind)

/-- the first stream, with some tokens before the mark -/
def left (us : List Token) : TokenStream := ⟨us ++ A.mark :: A.rest, A.finish⟩

/-- the second stream -/
def right (us : List Token) : TokenStream := ⟨us ++ A.mark' :: A.rest', A.finish'⟩

/-- the first stream behind the mark -/
def past : TokenStream := ⟨A.rest, A.finish⟩

/-- the second stream behind the mark -/
def past' : TokenStream := ⟨A.rest', A.finish'⟩

theorem solid' : A.mark'.isWhitespace = false := by rw [← A.same.isWhitespace, A.solid]

variable {A} {us us' vs used : List Token} {t : TokenStream}

/-- what is left before the mark is an end of what was there -/
theorem left_eq (h : A.left us = ⟨used ++ t.rest, t.finish⟩) (ht : ∃ more, t = ⟨more ++ (A.left vs).rest, (A.left vs).finish⟩) :
    ∃ ws, t = A.left ws ∧ us = used ++ ws := by
  obtain ⟨more, rfl⟩ := ht
  refine ⟨more ++ vs, by simp [left], ?_⟩
  have hr : us ++ A.mark :: A.rest = used ++ (more ++ (vs ++ A.mark :: A.rest)) := congrArg TokenStream.rest h
  rw [← List.append_assoc more, ← List.append_assoc used] at hr
  exact List.append_cancel_right hr

/-- if a stream is to be left behind the mark by a parser that uses up a token, the mark is still to come -/
theorem left_past (h : A.left us = ⟨used ++ t.rest, t.finish⟩)
    (ht : ∃ more, more ≠ [] ∧ t = ⟨more ++ A.past.rest, A.past.finish⟩) : ∃ ws, t = A.left ws ∧ us = used ++ ws := by
  obtain ⟨more, hn, rfl⟩ := ht
  have hr : us ++ A.mark :: A.rest = used ++ (more ++ A.rest) := congrArg TokenStream.rest h
  obtain ⟨ws, last, rfl⟩ := List.eq_nil_or_concat more |>.resolve_left hn
  have hl : (us ++ [A.mark]) ++ A.rest = ((used ++ ws) ++ [last]) ++ A.rest := by simpa using hr
  obtain ⟨rfl, hm⟩ := List.append_inj' (List.append_cancel_right hl) rfl
  cases hm
  exact ⟨ws, by simp [left, past], rfl⟩

/-- both streams pass over whitespace alike -/
theorem passBlank_same (b : Blanks) (h : SameTokens us us') :
    ∃ ws ws', (A.left us).passBlank b = A.left ws ∧ (A.right us').passBlank b = A.right ws' ∧ SameTokens ws ws' ∧
      ws.length ≤ us.length := by
  cases b with
  | kept => exact ⟨us, us', rfl, rfl, h, Nat.le_refl _⟩
  | skipped =>
    cases h with
    | nil =>
      refine ⟨[], [], ?_, ?_, .nil, Nat.le_refl _⟩
      · show (if A.mark.isWhitespace then _ else _) = _
        rw [A.solid, if_neg Bool.false_ne_true]
      · show (if A.mark'.isWhitespace then _ else _) = _
        rw [A.solid', if_neg Bool.false_ne_true]
    | @cons u u' us us' hu hus =>
      by_cases hw : u.isWhitespace
      · refine ⟨us, us', ?_, ?_, hus, by simp⟩
        · show (if u.isWhitespace then _ else _) = _
          rw [if_pos hw]
          rfl
        · show (if u'.isWhitespace then _ else _) = _
          rw [← hu.isWhitespace, if_pos hw]
          rfl
      · refine ⟨u :: us, u' :: us', ?_, ?_, .cons hu hus, Nat.le_refl _⟩
        · show (if u.isWhitespace then _ else _) = _
          rw [if_neg hw]
        · show (if u'.isWhitespace then _ else _) = _
          rw [← hu.isWhitespace, if_neg hw]

/-- before a token that is the same, so is the next one but one -/
theorem peekNext_same (h : SameTokens us us') (hn : us ≠ []) :
    ((A.left us).peekNext .kept).Same ((A.right us').peekNext .kept) := by
  cases h with
  | nil => exact absurd rfl hn
  | cons _ hus =>
    cases hus with
    | nil => exact A.same
    | cons hu _ => exact hu

theorem peek_same (b : Blanks) (h : SameTokens us us') : ((A.left us).peek b).Same ((A.right us').peek b) := by
  obtain ⟨ws, ws', hl, hr, hs, -⟩ := passBlank_same (A := A) b h
  rw [TokenStream.peek, TokenStream.peek, hl, hr]
  cases hs with
  | nil => exact A.same
  | cons hu _ => exact hu

end Behind

/-! ## Parsers on two streams -/

variable {α β γ δ σ τ : Type}

/-- what a parser does before the mark of one stream, another does before the mark of the other -/
structure Beside (k : Nat) (rel : α → β → Prop) (m : Parser α) (m' : Parser β) : Prop where
  shrinks : Shrinks m
  before : ∀ (A : Behind) (us us' vs : List Token) (a : α), us.length < k → SameTokens us us' →
    m (A.left us) = .ok (a, A.left vs) →
    ∃ a' vs', m' (A.right us') = .ok (a', A.right vs') ∧ SameTokens vs vs' ∧ rel a a'

/-- what a parser does up to and with the mark of one stream, another does on the other -/
def Closes (k : Nat) (rel : α → β → Prop) (m : Parser α) (m' : Parser β) : Prop :=
  ∀ (A : Behind) (us us' : List Token) (a : α), us.length < k → SameTokens us us' → m (A.left us) = .ok (a, A.past) →
    ∃ a', m' (A.right us') = .ok (a', A.past') ∧ rel a a'

section

variable {k : Nat} {P : α → β → Prop} {rel : γ → δ → Prop} {m : Parser α} {m' : Parser β} {f : α → Parser γ}
  {f' : β → Parser δ}

theorem beside_pure {a : α} {a' : β} (h : P a a') : Beside k P (pure a) (pure a') := by
  refine ⟨shrinks_pure a, ?_⟩
  intro A us us' vs x _ hs hm
  obtain ⟨rfl, hl⟩ := Prod.mk.inj (Except.ok.inj hm)
  have hu : us = vs := List.append_cancel_right (congrArg TokenStream.rest hl)
  subst hu
  exact ⟨a', us', rfl, hs, h⟩

theorem beside_fail {e : ParseError} : Beside k P (fail e) m' := by
  refine ⟨shrinks_fail e, ?_⟩
  intro A us us' vs a _ _ h
  cases h

/-- behind the tokens that the first step uses up, fewer are before the mark -/
theorem beside_bind_spending {n : Nat} (sm : ∀ s, Takes m s fun used _ => n ≤ used.length) (hP : ∀ a, ∃ a', P a a')
    (hm : Beside (k + n) P m m') (hf : ∀ a a', P a a' → Beside k rel (f a) (f' a')) :
    Beside (k + n) rel (m >>= f) (m' >>= f') := by
  have sf : ∀ a, Shrinks (f a) := by
    intro a
    obtain ⟨a', hp⟩ := hP a
    exact (hf a a' hp).shrinks
  refine ⟨shrinks_bind hm.shrinks sf, ?_⟩
  intro A us us' vs c hk hs h
  obtain ⟨a, t, ha, hc⟩ := bind_ok_iff.1 h
  obtain ⟨used, hl, hu⟩ := sm _ a t ha
  obtain ⟨more, ht, -⟩ := sf a t c _ hc
  obtain ⟨ws, rfl, rfl⟩ := Behind.left_eq hl ⟨more, ht⟩
  obtain ⟨a', ws', ha', hws, hp⟩ := hm.before A _ us' ws a hk hs ha
  have hlen : ws.length < k := by
    rw [List.length_append] at hk
    omega
  obtain ⟨c', vs', hc', hvs, hr⟩ := (hf a a' hp).before A ws ws' vs c hlen hws hc
  exact ⟨c', vs', by rw [bind_ok ha', hc'], hvs, hr⟩

theorem beside_bind (hP : ∀ a, ∃ a', P a a') (hm : Beside k P m m')
    (hf : ∀ a a', P a a' → Beside k rel (f a) (f' a')) : Beside k rel (m >>= f) (m' >>= f') :=
  beside_bind_spending (fun s => (hm.shrinks s).mono fun _ _ _ => Nat.zero_le _) hP hm hf

theorem beside_bind_lt (am : Advances m) (hP : ∀ a, ∃ a', P a a') (hm : Beside (k + 1) P m m')
    (hf : ∀ a a', P a a' → Beside k rel (f a) (f' a')) : Beside (k + 1) rel (m >>= f) (m' >>= f') :=
  beside_bind_spending (fun s => (am s).mono fun _ _ hu => List.length_pos_iff.2 hu) hP hm hf

theorem closes_bind_spending {n : Nat} (sm : ∀ s, Takes m s fun used _ => n ≤ used.length) (af : ∀ a, Advances (f a))
    (hm : Beside (k + n) P m m') (hf : ∀ a a', P a a' → Closes k rel (f a) (f' a')) :
    Closes (k + n) rel (m >>= f) (m' >>= f') := by
  intro A us us' c hk hs h
  obtain ⟨a, t, ha, hc⟩ := bind_ok_iff.1 h
  obtain ⟨used, hl, hu⟩ := sm _ a t ha
  obtain ⟨more, ht, hn⟩ := af a t c _ hc
  obtain ⟨ws, rfl, rfl⟩ := Behind.left_past hl ⟨more, hn, ht⟩
  obtain ⟨a', ws', ha', hws, hp⟩ := hm.before A _ us' ws a hk hs ha
  have hlen : ws.length < k := by
    rw [List.length_append] at hk
    omega
  obtain ⟨c', hc', hr⟩ := hf a a' hp A ws ws' c hlen hws hc
  exact ⟨c', by rw [bind_ok ha', hc'], hr⟩

theorem closes_bind (af : ∀ a, Advances (f a)) (hm : Beside k P m m')
    (hf : ∀ a a', P a a' → Closes k rel (f a) (f' a')) : Closes k rel (m >>= f) (m' >>= f') :=
  closes_bind_spending (fun s => (hm.shrinks s).mono fun _ _ _ => Nat.zero_le _) af hm hf

theorem closes_bind_lt (am : Advances m) (af : ∀ a, Advances (f a)) (hm : Beside (k + 1) P m m')
    (hf : ∀ a a', P a a' → Closes k rel (f a) (f' a')) : Closes (k + 1) rel (m >>= f) (m' >>= f') :=
  closes_bind_spending (fun s => (am s).mono fun _ _ hu => List.length_pos_iff.2 hu) af hm hf

/-- what follows a closing step only gives a result -/
theorem closes_map (g : α → γ) (g' : β → δ) (hm : Closes k P m m') (hg : ∀ a a', P a a' → rel (g a) (g' a')) :
    Closes k rel (m >>= fun a => pure (g a)) (m' >>= fun a => pure (g' a)) := by
  intro A us us' c hk hs h
  obtain ⟨a, t, ha, hc⟩ := bind_ok_iff.1 h
  cases hc
  obtain ⟨a', ha', hp⟩ := hm A us us' a hk hs ha
  exact ⟨g' a', by rw [bind_ok ha']; rfl, hg a a' hp⟩

variable {g : Token → Parser γ} {g' : Token → Parser δ}

theorem beside_peek {b : Blanks} (h : ∀ t t', t.Same t' → Beside k rel (g t) (g' t')) :
    Beside k rel (peek b >>= g) (peek b >>= g') :=
  ⟨shrinks_bind (shrinks_peek b) fun t => (h t t (.refl t)).shrinks,
    fun A us us' vs c hk hs hm => (h _ _ (Behind.peek_same b hs)).before A us us' vs c hk hs hm⟩

theorem closes_peek {b : Blanks} (h : ∀ t t', t.Same t' → Closes k rel (g t) (g' t')) :
    Closes k rel (peek b >>= g) (peek b >>= g') :=
  fun A us us' c hk hs hm => h _ _ (Behind.peek_same b hs) A us us' c hk hs hm

/-- the token behind the next one may be another in the second stream -/
theorem beside_peekNext {b : Blanks} (h : ∀ t t', Beside k rel (g t) (g' t')) :
    Beside k rel (peekNext b >>= g) (peekNext b >>= g') :=
  ⟨shrinks_bind (shrinks_peekNext b) fun t => (h t t).shrinks,
    fun A us us' vs c hk hs hm => (h _ _).before A us us' vs c hk hs hm⟩

theorem beside_atEnd {g : Bool → Parser γ} {g' : Bool → Parser δ} (h : ∀ b, Beside k rel (g b) (g' b)) :
    Beside k rel (atEnd >>= g) (atEnd >>= g') := by
  refine ⟨shrinks_bind shrinks_atEnd fun b => (h b).shrinks, ?_⟩
  intro A us us' vs c hk hs hm
  have he : (A.left us).atEnd .kept = (A.right us').atEnd .kept := (Behind.peek_same .kept hs).isEnd
  have h₁ : g ((A.left us).atEnd .kept) (A.left us) = .ok (c, A.left vs) := hm
  rw [he] at h₁
  exact (h _).before A us us' vs c hk hs h₁

end

/-! ## Tokens -/

theorem Token.Same.matches {t t' : Token} (h : t.Same t') (e : Expected) : e.matches t = e.matches t' := by
  cases e with
  | text s => exact h.is s
  | oneOf texts => exact h.isOneOf texts
  | category c => rw [Expected.matches, Expected.matches, h.category]

namespace Behind

variable {A : Behind} {us us' vs : List Token} {b : Blanks} {t : Token}

theorem taken_same (hs : SameTokens us us')
    (h : (A.left us).passBlank b = ⟨t :: (A.left vs).rest, (A.left vs).finish⟩) :
    ∃ t' vs', (A.right us').passBlank b = ⟨t' :: (A.right vs').rest, (A.right vs').finish⟩ ∧ SameTokens vs vs' ∧
      t.Same t' := by
  obtain ⟨ws, ws', hl, hr, hws, -⟩ := passBlank_same (A := A) b hs
  rw [hl] at h
  have h := congrArg TokenStream.rest h
  cases hws with
  | nil =>
    have hlen := congrArg List.length h
    simp [left] at hlen
    omega
  | @cons u u' ws ws' hu hws =>
    obtain ⟨rfl, hv⟩ := List.cons.inj h
    have hv : ws = vs := List.append_cancel_right hv
    subst hv
    exact ⟨u', ws', hr, hws, hu⟩

theorem taken_past (hs : SameTokens us us') (h : (A.left us).passBlank b = ⟨t :: A.past.rest, A.past.finish⟩) :
    ∃ t', (A.right us').passBlank b = ⟨t' :: A.past'.rest, A.past'.finish⟩ ∧ t.Same t' := by
  obtain ⟨ws, ws', hl, hr, hws, -⟩ := passBlank_same (A := A) b hs
  rw [hl] at h
  have h := congrArg TokenStream.rest h
  cases hws with
  | nil =>
    obtain ⟨rfl, -⟩ := List.cons.inj h
    exact ⟨A.mark', hr, A.same⟩
  | cons hu hws =>
    have hlen := congrArg List.length h
    simp [left, past] at hlen
    omega

end Behind

section

variable {k : Nat} (b : Blanks)

theorem beside_consume : Beside k Token.Same (consume b) (consume b) := by
  refine ⟨(advances_consume b).shrinks, ?_⟩
  intro A us us' vs t _ hs h
  obtain ⟨t', vs', hr, hvs, ht⟩ := Behind.taken_same hs (consume_eq_ok.1 h)
  exact ⟨t', vs', consume_eq_ok.2 hr, hvs, ht⟩

theorem closes_consume : Closes k Token.Same (consume b) (consume b) := by
  intro A us us' t _ hs h
  obtain ⟨t', hr, ht⟩ := Behind.taken_past hs (consume_eq_ok.1 h)
  exact ⟨t', consume_eq_ok.2 hr, ht⟩

theorem beside_expected (e : Expected) :
    Beside k Token.Same (taking (·.consumeExpected b e)) (taking (·.consumeExpected b e)) := by
  refine ⟨(advances_expected b e).shrinks, ?_⟩
  intro A us us' vs t _ hs h
  obtain ⟨hp, hm⟩ := consumeExpected_eq_ok.1 (taking_eq_ok.1 h)
  obtain ⟨t', vs', hr, hvs, ht⟩ := Behind.taken_same hs hp
  exact ⟨t', vs', taking_eq_ok.2 (consumeExpected_eq_ok.2 ⟨hr, by rw [← ht.matches, hm]⟩), hvs, ht⟩

theorem closes_expected (e : Expected) :
    Closes k Token.Same (taking (·.consumeExpected b e)) (taking (·.consumeExpected b e)) := by
  intro A us us' t _ hs h
  obtain ⟨hp, hm⟩ := consumeExpected_eq_ok.1 (taking_eq_ok.1 h)
  obtain ⟨t', hr, ht⟩ := Behind.taken_past hs hp
  exact ⟨t', taking_eq_ok.2 (consumeExpected_eq_ok.2 ⟨hr, by rw [← ht.matches, hm]⟩), ht⟩

theorem beside_expect (text : String) : Beside k Token.Same (expect b text) (expect b text) :=
  beside_expected b (.text text)

theorem closes_expect (text : String) : Closes k Token.Same (expect b text) (expect b text) :=
  closes_expected b (.text text)

theorem closes_expectCategory (c : Category) : Closes k Token.Same (expectCategory b c) (expectCategory b c) :=
  closes_expected b (.category c)

theorem beside_expectCategory (c : Category) : Beside k Token.Same (expectCategory b c) (expectCategory b c) :=
  beside_expected b (.category c)

end

/-! ## Loops -/

section

variable {k : Nat} {S : σ → τ → Prop} {P : α → β → Prop} {step : σ → Parser (σ ⊕ α)} {step' : τ → Parser (τ ⊕ β)}

/-- the rounds of the second loop are bounded by the tokens before its mark, of which each round uses up one at least -/
theorem beside_iterate (ss : ∀ a, Shrinks (step a)) (ps : ∀ a, Productive (step a))
    (h : ∀ a a', S a a' → Beside k (Sum.LiftRel S P) (step a) (step' a')) {a : σ} {a' : τ} (ha : S a a') :
    Beside k P (iterate a step) (iterate a' step') := by
  refine ⟨shrinks_iterate ss a, ?_⟩
  have key : ∀ (n n' : Nat) (a : σ) (a' : τ) (A : Behind) (us us' vs : List Token) (r : α), us.length < n' →
      us.length < k → S a a' → SameTokens us us' → loop step n a (A.left us) = .ok (r, A.left vs) →
      ∃ r' vs', loop step' n' a' (A.right us') = .ok (r', A.right vs') ∧ SameTokens vs vs' ∧ P r r' := by
    intro n
    induction n with
    | zero => intro _ _ _ _ _ _ _ _ _ _ _ _ hl; cases hl
    | succ n ih =>
      intro n' a a' A us us' vs r hn hk ha hs hl
      obtain ⟨n', rfl⟩ : ∃ m, n' = m + 1 := ⟨n' - 1, by omega⟩
      obtain ⟨x, t, hx, hrest⟩ := bind_ok_iff.1 hl
      obtain ⟨used, hu, hp⟩ := ps a _ x t hx
      cases x with
      | inl b =>
        obtain ⟨more, ht, -⟩ := shrinks_loop ss n b t r _ hrest
        obtain ⟨ws, rfl, rfl⟩ := Behind.left_eq hu ⟨more, ht⟩
        obtain ⟨x', ws', hx', hws, hb⟩ := (h a a' ha).before A _ us' ws _ hk hs hx
        cases hb with
        | @inl _ b' hb =>
          have hpos := List.length_pos_iff.2 (hp rfl)
          have hlen : (used ++ ws).length = used.length + ws.length := by simp
          obtain ⟨r', vs', hl', hvs, hr⟩ := ih n' b b' A ws ws' vs r (by omega) (by omega) hb hws hrest
          exact ⟨r', vs', by rw [loop, bind_ok hx']; exact hl', hvs, hr⟩
      | inr c =>
        cases hrest
        obtain ⟨x', vs', hx', hvs, hb⟩ := (h a a' ha).before A us us' vs _ hk hs hx
        cases hb with
        | @inr _ c' hc => exact ⟨c', vs', by rw [loop, bind_ok hx']; rfl, hvs, hc⟩
  intro A us us' vs r hk hs hm
  refine key _ _ a a' A us us' vs r ?_ hk ha hs hm
  rw [hs.length_eq]
  simp only [Behind.right, TokenStream.remaining, List.length_append, List.length_cons]
  omega

theorem closes_iterate (as : ∀ a, Advances (step a)) (h : ∀ a a', S a a' → Beside k (Sum.LiftRel S P) (step a) (step' a'))
    (hc : ∀ a a', S a a' → Closes k (Sum.LiftRel S P) (step a) (step' a')) {a : σ} {a' : τ} (ha : S a a') :
    Closes k P (iterate a step) (iterate a' step') := by
  have key : ∀ (n n' : Nat) (a : σ) (a' : τ) (A : Behind) (us us' : List Token) (r : α), us.length < n' →
      us.length < k → S a a' → SameTokens us us' → loop step n a (A.left us) = .ok (r, A.past) →
      ∃ r', loop step' n' a' (A.right us') = .ok (r', A.past') ∧ P r r' := by
    intro n
    induction n with
    | zero => intro _ _ _ _ _ _ _ _ _ _ _ hl; cases hl
    | succ n ih =>
      intro n' a a' A us us' r hn hk ha hs hl
      obtain ⟨n', rfl⟩ : ∃ m, n' = m + 1 := ⟨n' - 1, by omega⟩
      obtain ⟨x, t, hx, hrest⟩ := bind_ok_iff.1 hl
      obtain ⟨used, hu, hp⟩ := as a _ x t hx
      cases x with
      | inl b =>
        obtain ⟨more, ht, hn⟩ := advances_loop as n b t r _ hrest
        obtain ⟨ws, rfl, rfl⟩ := Behind.left_past hu ⟨more, hn, ht⟩
        obtain ⟨x', ws', hx', hws, hb⟩ := (h a a' ha).before A _ us' ws _ hk hs hx
        cases hb with
        | @inl _ b' hb =>
          have hpos := List.length_pos_iff.2 hp
          have hlen : (used ++ ws).length = used.length + ws.length := by simp
          obtain ⟨r', hl', hr⟩ := ih n' b b' A ws ws' r (by omega) (by omega) hb hws hrest
          exact ⟨r', by rw [loop, bind_ok hx']; exact hl', hr⟩
      | inr c =>
        cases hrest
        obtain ⟨x', hx', hb⟩ := hc a a' ha A us us' _ hk hs hx
        cases hb with
        | @inr _ c' hc => exact ⟨c', by rw [loop, bind_ok hx']; rfl, hc⟩
  intro A us us' r hk hs hm
  refine key _ _ a a' A us us' r ?_ hk ha hs hm
  rw [hs.length_eq]
  simp only [Behind.right, TokenStream.remaining, List.length_append, List.length_cons]
  omega

end

end TemplateView
