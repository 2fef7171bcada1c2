/-
Parsers that do not look at positions, nor behind a closing brace. Two streams start with the same lexemes, wherever
these stand; behind these, both end, or both go on with a closing brace, which is the last token of the first stream,
while anything may follow in the second one (`Sequel`). Two parsers agree if they make the same of two such streams, up
to where the first one takes the brace (`Agree`). There is one rule for each step of a parser, and each parser of
expressions agrees with itself if the parser of inner expressions does (`agree_expression`).

Positions go into diagnostics and into the names of an expression, so results are related that are the same without
them.
-/
import TemplateView.Proofs.Grammar.Unplaced

namespace TemplateView

open TemplateView.Parser

/-- the second result is as the first one is to be, and the same lexemes are left -/
def Leaves {α β : Type} (R : α → β → Prop) (r : α × TokenStream) (r' : β × TokenStream) : Prop :=
  R r.1 r'.1 ∧ SameTokens r.2.rest r'.2.rest

/-- the same up to what a function drops -/
def UpTo {α β : Type} (f : α → β) (x y : α) : Prop := f x = f y

/-! ## Two streams -/

/-- a closing brace -/
structure Token.IsBrace (t : Token) : Prop where
  text : t.text = "\x7d"
  solid : t.isWhitespace = false
  unmarked : t.isDelimiter = false

namespace Token

variable {t : Token}

theorem Proper.isBrace (h : t.Proper) (ht : t.is "\x7d" = true) : t.IsBrace := by
  have htext : t.text = "\x7d" := by
    rw [Token.is, Bool.and_eq_true, beq_iff_eq] at ht
    exact ht.2
  refine ⟨htext, h.isWhitespace_of_is ht (by decide), ?_⟩
  by_contra hd
  exact absurd ((h.mark (by simpa using hd)).symm.trans htext) (by decide)

theorem not_isBrace_of_is {s : String} (h : t.is s = true) (hs : s ≠ "\x7d") : ¬ t.IsBrace := by
  rw [Token.is, Bool.and_eq_true, beq_iff_eq] at h
  exact fun hb => hs (h.2.symm.trans hb.text)

theorem not_isBrace_of_isWhitespace (h : t.isWhitespace = true) : ¬ t.IsBrace :=
  fun hb => Bool.false_ne_true (hb.solid.symm.trans h)

theorem not_isBrace_of_isDelimiter (h : t.isDelimiter = true) : ¬ t.IsBrace :=
  fun hb => Bool.false_ne_true (hb.unmarked.symm.trans h)

end Token

/-- a closing brace at the end of a first stream, and the same one in a second stream, in front of more -/
structure Brace where
  mark : Token
  mark' : Token
  more : List Token
  same : mark.Same mark'
  isBrace : mark.IsBrace

/-- what stands behind the lexemes that two streams share: their end, or a brace in both -/
inductive Sequel where
  | ended
  | brace (b : Brace)

namespace Sequel

/-- the tokens behind the shared ones in the first stream -/
def first : Sequel → List Token
  | ended => []
  | brace b => [b.mark]

/-- the tokens behind the shared ones in the second stream -/
def second : Sequel → List Token
  | ended => []
  | brace b => b.mark' :: b.more

/-- two streams that start with the same lexemes and go on as described -/
def Aligned (A : Sequel) (s s' : TokenStream) : Prop :=
  ∃ us us', SameTokens us us' ∧ s.rest = us ++ A.first ∧ s'.rest = us' ++ A.second

/-- the first stream is past the brace -/
def Lost (A : Sequel) (s : TokenStream) : Prop := s.remaining < A.first.length

theorem aligned_ended {s s' : TokenStream} : ended.Aligned s s' ↔ SameTokens s.rest s'.rest := by
  constructor
  · rintro ⟨us, us', hs, h, h'⟩
    rw [h, h', first, second, List.append_nil, List.append_nil]
    exact hs
  · exact fun h => ⟨s.rest, s'.rest, h, (List.append_nil _).symm, (List.append_nil _).symm⟩

theorem not_lost_ended (s : TokenStream) : ¬ ended.Lost s := Nat.not_lt_zero _

variable {A : Sequel} {s s' t : TokenStream}

/-- so is every rest of a stream that is -/
theorem Lost.of_append {used : List Token} (h : A.Lost ⟨used ++ t.rest, t.finish⟩) : A.Lost t := by
  rw [Lost, TokenStream.remaining, List.length_append] at h
  exact Nat.lt_of_le_of_lt (Nat.le_add_left _ _) h

/-- a stream past the brace is empty -/
theorem Lost.rest (h : A.Lost s) : s.rest = [] := by
  cases A with
  | ended => exact absurd h (not_lost_ended s)
  | brace b => exact List.length_eq_zero_iff.1 (Nat.lt_one_iff.1 h)

theorem Aligned.remaining (h : A.Aligned s s') : s.remaining ≤ s'.remaining ∧ (A = ended → s.remaining = s'.remaining) := by
  obtain ⟨us, us', hs, h, h'⟩ := h
  rw [TokenStream.remaining, TokenStream.remaining, h, h', List.length_append, List.length_append, hs.length_eq]
  cases A with
  | ended => exact ⟨Nat.le_refl _, fun _ => rfl⟩
  | brace b => exact ⟨by simp [first, second], fun h => by cases h⟩

/-- a token is the same in both streams if no brace stands before it -/
theorem Aligned.peekNth (h : A.Aligned s s') (n : Nat) (hn : ∀ i < n, ¬ (s.peekNth i).IsBrace) :
    (s.peekNth n).Same (s'.peekNth n) := by
  obtain ⟨ts, f⟩ := s
  obtain ⟨ts', f'⟩ := s'
  obtain ⟨us, us', hs, rfl, rfl⟩ := h
  induction hs generalizing n with
  | nil =>
    cases A with
    | ended => exact ⟨rfl, rfl⟩
    | brace b =>
      cases n with
      | zero => exact b.same
      | succ n => exact absurd b.isBrace (hn 0 n.succ_pos)
  | cons hu _ ih =>
    cases n with
    | zero => exact hu
    | succ n => exact ih n fun i hi => hn (i + 1) (Nat.succ_lt_succ hi)

theorem Aligned.head (h : A.Aligned s s') : (s.peekNth 0).Same (s'.peekNth 0) :=
  h.peekNth 0 fun _ hi => absurd hi (Nat.not_lt_zero _)

theorem Aligned.advance (h : A.Aligned s s') (hn : ¬ (s.peekNth 0).IsBrace) : A.Aligned s.advance s'.advance := by
  obtain ⟨ts, f⟩ := s
  obtain ⟨ts', f'⟩ := s'
  obtain ⟨us, us', hs, rfl, rfl⟩ := h
  cases hs with
  | nil =>
    cases A with
    | ended => exact aligned_ended.2 .nil
    | brace b => exact absurd b.isBrace hn
  | @cons _ _ us us' _ hs => exact ⟨us, us', hs, rfl, rfl⟩

theorem Aligned.passBlank (h : A.Aligned s s') (b : Blanks) : A.Aligned (s.passBlank b) (s'.passBlank b) := by
  cases b with
  | kept => exact h
  | skipped =>
    rw [TokenStream.passBlank, TokenStream.passBlank, ← h.head.isWhitespace]
    split
    · next hw => exact h.advance (Token.not_isBrace_of_isWhitespace hw)
    · exact h

theorem Aligned.peek (h : A.Aligned s s') (b : Blanks) : (s.peek b).Same (s'.peek b) :=
  (h.passBlank b).head

theorem Aligned.peekNext (h : A.Aligned s s') (b : Blanks) (hn : ¬ (s.peek b).IsBrace) :
    (s.peekNext b).Same (s'.peekNext b) :=
  (((h.passBlank b).advance hn).passBlank b).head

/-- What two parsers make of such streams: both fail, or the first one fails before the brace, of which the second one
need not know; or the first one takes the brace, and perhaps not the second one; or both have results that are related. -/
inductive Outcome {α β : Type} (A : Sequel) (R : α → β → Prop) :
    Option (α × TokenStream) → Option (β × TokenStream) → Prop
  | neither : Outcome A R none none
  | failed {r} (h : A ≠ ended) : Outcome A R none r
  | lost {a b t r} (h : R a b) (ht : A.Lost t) : Outcome A R (some (a, t)) r
  | both {a b t t'} (h : R a b) (ht : A.Aligned t t') : Outcome A R (some (a, t)) (some (b, t'))

end Sequel

/-- On such streams both parsers make the same, up to the brace. Whatever the first one makes of any stream, it leaves a
rest of this, and a result that the second one might have too. -/
structure Agree {α β : Type} (A : Sequel) (R : α → β → Prop) (m : Parser α) (m' : Parser β) : Prop where
  aligned : ∀ s s', A.Aligned s s' → A.Outcome R (m s).toOption (m' s').toOption
  takes : ∀ s, Takes m s fun _ a => ∃ b, R a b

/-- where no brace follows, both parsers fail, or both succeed with related results -/
theorem Agree.rel {α β : Type} {R : α → β → Prop} {m : Parser α} {m' : Parser β} (h : Agree .ended R m m')
    {s s' : TokenStream} (hs : SameTokens s.rest s'.rest) :
    Option.Rel (Leaves R) (m s).toOption (m' s').toOption := by
  have ho := h.aligned s s' (Sequel.aligned_ended.2 hs)
  generalize (m s).toOption = r, (m' s').toOption = r' at ho
  cases ho with
  | neither => exact .none
  | failed h => exact absurd rfl h
  | lost _ ht => exact absurd ht (Sequel.not_lost_ended _)
  | both h ht => exact .some ⟨h, Sequel.aligned_ended.1 ht⟩

/-! ## Steps -/

section

variable {α β γ δ σ τ ι : Type} {A : Sequel} {R : α → β → Prop} {Q : γ → δ → Prop} {S : σ → τ → Prop}
variable {m : Parser α} {m' : Parser β}

theorem bind_toOption (m : Parser α) (f : α → Parser γ) (s : TokenStream) :
    ((m >>= f) s).toOption = (m s).toOption.bind fun r => (f r.1 r.2).toOption := by
  rw [bind_run]
  cases m s <;> rfl

theorem agree_pure {a : α} {b : β} (h : R a b) : Agree A R (pure a) (pure b) where
  aligned _ _ hs := .both h hs
  takes _ := takes_pure ⟨b, h⟩

theorem agree_fail {e e' : ParseError} : Agree A R (fail e) (fail e') where
  aligned _ _ _ := .neither
  takes _ := takes_fail

/-- nothing follows a failure -/
theorem agree_fail_bind {e e' : ParseError} {f : γ → Parser α} {f' : δ → Parser β} :
    Agree A R (fail e >>= f) (fail e' >>= f') where
  aligned _ _ _ := .neither
  takes _ _ _ hm := by cases hm

/-- past the brace, nothing is said of the second stream -/
theorem Agree.outcome_lost (h : Agree A R m m') {s : TokenStream} (hs : A.Lost s) (r : Option (β × TokenStream)) :
    A.Outcome R (m s).toOption r := by
  cases hm : m s with
  | error e =>
    refine .failed ?_
    rintro rfl
    exact Sequel.not_lost_ended s hs
  | ok r =>
    obtain ⟨used, rfl, b, hr⟩ := h.takes s r.1 r.2 hm
    exact .lost hr hs.of_append

theorem agree_bind {f : α → Parser γ} {f' : β → Parser δ} (hm : Agree A R m m')
    (hf : ∀ a a', R a a' → Agree A Q (f a) (f' a')) : Agree A Q (m >>= f) (m' >>= f') where
  aligned s s' hs := by
    have h := hm.aligned s s' hs
    rw [bind_toOption, bind_toOption]
    generalize (m s).toOption = r, (m' s').toOption = r' at h
    cases h with
    | neither => exact .neither
    | failed h => exact .failed h
    | lost hr ht => exact (hf _ _ hr).outcome_lost ht _
    | both hr ht => exact (hf _ _ hr).aligned _ _ ht
  takes s := takes_bind (hm.takes s) fun _ a t _ ha => by
    obtain ⟨b, hr⟩ := ha
    exact (hf a b hr).takes t

/-- the first results are equal -/
theorem agree_bind_eq {m m' : Parser α} {f : α → Parser γ} {f' : α → Parser δ} (hm : Agree A Eq m m')
    (hf : ∀ a, Agree A Q (f a) (f' a)) : Agree A Q (m >>= f) (m' >>= f') :=
  agree_bind hm fun a _ h => h ▸ hf a

/-- what is made of results that are related -/
theorem agree_map {f : α → γ} {f' : β → δ} (hm : Agree A R m m') (hf : ∀ a a', R a a' → Q (f a) (f' a')) :
    Agree A Q (m >>= fun a => pure (f a)) (m' >>= fun a => pure (f' a)) :=
  agree_bind hm fun a a' h => agree_pure (hf a a' h)

/-- a parser that only looks at what is next -/
theorem agree_look {F : TokenStream → α} {F' : TokenStream → β} (h : ∀ s s', A.Aligned s s' → R (F s) (F' s'))
    (hl : ∀ a, ∃ b, R a b) : Agree A R (fun s => .ok (F s, s)) (fun s => .ok (F' s, s)) where
  aligned s s' hs := .both (h s s' hs) hs
  takes s _ _ hm := by
    obtain ⟨rfl, rfl⟩ := Prod.mk.inj (Except.ok.inj hm)
    exact ⟨[], rfl, hl _⟩

theorem agree_peek (b : Blanks) : Agree A Token.Same (peek b) (peek b) :=
  agree_look (fun _ _ hs => hs.peek b) fun t => ⟨t, .refl t⟩

theorem agree_atEnd : Agree A Eq atEnd atEnd :=
  agree_look (fun _ _ hs => (hs.peek .kept).isEnd) fun b => ⟨b, rfl⟩

/-- what is asked of a second token matters only if the first one is as it is to be -/
theorem and_congr_of {g x y : Bool} (h : g = true → x = y) : (g && x) = (g && y) := by
  cases g with
  | false => rfl
  | true => exact h rfl

/-- the next token and the one behind it -/
def lookAhead (b : Blanks) : Parser (Token × Token) :=
  fun s => .ok ((s.peek b, s.peekNext b), s)

/-- a brace may be the last token of the first stream, so a token that is looked at behind it may be another one -/
theorem agree_lookAhead (b : Blanks) : Agree A
    (fun p p' => p.1.Same p'.1 ∧ (¬ p.1.IsBrace → p.2.Same p'.2)) (lookAhead b) (lookAhead b) :=
  agree_look (fun _ _ hs => ⟨hs.peek b, hs.peekNext b⟩) fun p => ⟨p, .refl _, fun _ => .refl _⟩

theorem agree_ahead {b : Blanks} {f : Token → Token → Parser γ} {f' : Token → Token → Parser δ}
    (h : ∀ t t' after after', t.Same t' → (¬ t.IsBrace → after.Same after') → Agree A Q (f t after) (f' t' after')) :
    Agree A Q (peek b >>= fun t => peekNext b >>= f t) (peek b >>= fun t => peekNext b >>= f' t) := by
  have hbind : Agree A Q (lookAhead b >>= fun p => f p.1 p.2) (lookAhead b >>= fun p => f' p.1 p.2) :=
    agree_bind (agree_lookAhead b) fun p p' hp => h p.1 p'.1 p.2 p'.2 hp.1 hp.2
  exact hbind

theorem agree_consume (b : Blanks) : Agree A Token.Same (consume b) (consume b) where
  aligned s s' hs := by
    have hpass := hs.passBlank b
    have hkept : ∀ s, consume b s = consume .kept (s.passBlank b) := fun _ => rfl
    rw [hkept, hkept]
    generalize s.passBlank b = u, s'.passBlank b = u' at hpass
    obtain ⟨ts, f⟩ := u
    obtain ⟨ts', f'⟩ := u'
    obtain ⟨us, us', hs, rfl, rfl⟩ := hpass
    cases hs with
    | @cons _ _ us us' ht hs => exact .both ht ⟨us, us', hs, rfl, rfl⟩
    | nil =>
      cases A with
      | ended => exact .neither
      | brace b => exact .lost (.refl _) Nat.one_pos
  takes s := (advances_consume b s).mono fun _ t _ => ⟨t, .refl t⟩

theorem agree_expected (b : Blanks) (e : Expected) :
    Agree A Token.Same (taking (·.consumeExpected b e)) (taking (·.consumeExpected b e)) where
  aligned s s' hs := by
    rw [taking, taking, TokenStream.consumeExpected, TokenStream.consumeExpected]
    simp only [← (hs.peek b).matches e]
    by_cases hm : e.matches (s.peek b) = true
    · rw [if_pos hm, if_pos hm]
      exact (agree_consume b).aligned s s' hs
    · rw [if_neg hm, if_neg hm]
      exact .neither
  takes s := (advances_expected b e s).mono fun _ t _ => ⟨t, .refl t⟩

theorem agree_expect (b : Blanks) (text : String) : Agree A Token.Same (expect b text) (expect b text) :=
  agree_expected b (.text text)

theorem agree_expectOneOf (b : Blanks) (texts : List String) :
    Agree A Token.Same (expectOneOf b texts) (expectOneOf b texts) :=
  agree_expected b (.oneOf texts)

theorem agree_expectCategory (b : Blanks) (c : Category) :
    Agree A Token.Same (expectCategory b c) (expectCategory b c) :=
  agree_expected b (.category c)

theorem agree_word (b : Blanks) : Agree A Eq (word b) (word b) :=
  agree_map (agree_expectCategory b _) fun _ _ ht => ht.text

/-- a loop goes on with the text of a token behind what it has gathered -/
theorem agree_gather (text : String) :
    Agree A (Sum.LiftRel Eq R) (do return .inl (text ++ (← consume .kept).text))
      (do return .inl (text ++ (← consume .kept).text)) :=
  agree_map (agree_consume _) fun t t' ht => .inl (by rw [ht.text])

theorem agree_blank : Agree A Eq blank blank := by
  refine agree_bind (agree_peek _) fun t t' ht => ?_
  rw [ht.isWhitespace]
  split
  · exact agree_map (agree_consume _) fun _ _ ht => ht.text
  · exact agree_pure rfl

/-! ## Loops, and parsers that refer to themselves -/

theorem agree_stalled {m' : Parser β} (h : A ≠ .ended) : Agree A R stalled m' where
  aligned _ _ _ := .failed h
  takes _ := takes_stalled

/-- the second loop has more rounds, if more follows the brace, and else as many -/
theorem agree_loop {step : σ → Parser (σ ⊕ α)} {step' : τ → Parser (τ ⊕ β)}
    (h : ∀ a a', S a a' → Agree A (Sum.LiftRel S R) (step a) (step' a')) {n n' : Nat} (hn : n ≤ n')
    (he : A = .ended → n = n') {a : σ} {a' : τ} (ha : S a a') : Agree A R (loop step n a) (loop step' n' a') := by
  induction n generalizing n' a a' with
  | zero =>
    by_cases hA : A = .ended
    · obtain rfl := he hA
      exact ⟨fun _ _ _ => .neither, fun _ => takes_stalled⟩
    · exact agree_stalled hA
  | succ n ih =>
    obtain ⟨n', rfl⟩ : ∃ k, n' = k + 1 := ⟨n' - 1, by omega⟩
    refine agree_bind (h a a' ha) fun x x' hx => ?_
    cases hx with
    | inl hb => exact ih (Nat.le_of_succ_le_succ hn) (fun hA => Nat.succ.inj (he hA)) hb
    | inr hr => exact agree_pure hr

/-- at least as many tokens are left in the second stream, so its loop has the rounds it needs -/
theorem agree_iterate {step : σ → Parser (σ ⊕ α)} {step' : τ → Parser (τ ⊕ β)}
    (h : ∀ a a', S a a' → Agree A (Sum.LiftRel S R) (step a) (step' a')) {a : σ} {a' : τ} (ha : S a a') :
    Agree A R (iterate a step) (iterate a' step') where
  aligned s s' hs := by
    obtain ⟨hle, heq⟩ := hs.remaining
    exact (agree_loop h (Nat.succ_le_succ hle) (fun hA => congrArg Nat.succ (heq hA)) ha).aligned s s' hs
  takes s r t hm := (agree_loop h (Nat.le_refl _) (fun _ => rfl) ha).takes s r t hm

/-- a loop whose states are equal -/
theorem agree_iterate_eq {step : σ → Parser (σ ⊕ α)} {step' : σ → Parser (σ ⊕ β)}
    (h : ∀ a, Agree A (Sum.LiftRel Eq R) (step a) (step' a)) {a a' : σ} (ha : a = a') :
    Agree A R (iterate a step) (iterate a' step') :=
  agree_iterate (fun a _ h' => h' ▸ h a) ha

theorem agree_nested {R : α → α → Prop} {unfold : (ι → Parser α) → ι → Parser α}
    (h : ∀ self self', (∀ i, Agree A R (self i) (self' i)) → ∀ i, Agree A R (unfold self i) (unfold self' i))
    {n n' : Nat} (hn : n ≤ n') (he : A = .ended → n = n') (i : ι) :
    Agree A R (nested unfold n i) (nested unfold n' i) := by
  induction n generalizing n' i with
  | zero =>
    by_cases hA : A = .ended
    · obtain rfl := he hA
      exact ⟨fun _ _ _ => .neither, fun _ => takes_stalled⟩
    · exact agree_stalled hA
  | succ n ih =>
    obtain ⟨n', rfl⟩ : ∃ k, n' = k + 1 := ⟨n' - 1, by omega⟩
    exact h _ _ (ih (Nat.le_of_succ_le_succ hn) fun hA => Nat.succ.inj (he hA)) i

theorem agree_recursive {R : α → α → Prop} {unfold : (ι → Parser α) → ι → Parser α}
    (h : ∀ self self', (∀ i, Agree A R (self i) (self' i)) → ∀ i, Agree A R (unfold self i) (unfold self' i)) (i : ι) :
    Agree A R (recursive unfold i) (recursive unfold i) where
  aligned s s' hs := by
    obtain ⟨hle, heq⟩ := hs.remaining
    exact (agree_nested h (Nat.succ_le_succ hle) (fun hA => congrArg Nat.succ (heq hA)) i).aligned s s' hs
  takes s r t hm := (agree_nested h (Nat.le_refl _) (fun _ => rfl) i).takes s r t hm

end

/-! ## Expressions -/

namespace Grammar

open Expression

variable {A : Sequel} {e e' : Parser Expression}

theorem agree_listMark (close : String) {items items' : List Expression} (hi : SameAll items items') :
    Agree A (Sum.LiftRel SameAll SameAll) (listMark close items) (listMark close items') := by
  refine agree_bind (agree_peek _) fun t t' ht => ?_
  rw [ht.is]
  split
  · exact agree_map (agree_consume _) fun _ _ _ => .inl hi
  · exact agree_map (agree_expect _ _) fun _ _ _ => .inr hi

theorem agree_listUntil (he : Agree A Expression.Same e e') (close : String) :
    Agree A SameAll (listUntil e close) (listUntil e' close) := by
  refine agree_bind (agree_peek _) fun t t' ht => ?_
  rw [ht.is]
  split
  · exact agree_map (agree_consume _) fun _ _ _ => rfl
  · refine agree_iterate (S := SameAll) ?_ rfl
    exact fun items items' hi => agree_bind he fun x x' hx => agree_listMark close (hi.concat hx)

theorem agree_suffixRest (he : Agree A Expression.Same e e') {target target' : Expression} (ht : target.Same target')
    {next next' : Token} (hn : next.Same next') :
    Agree A Expression.Same (suffixRest e target next) (suffixRest e' target' next') := by
  unfold suffixRest
  rw [hn.is, hn.is]
  split
  · refine agree_map (agree_expectCategory _ _) fun name name' hname => ?_
    rw [hname.text]
    exact ht.member _ _ _
  split
  · exact agree_bind he fun x x' hx => agree_map (agree_expect _ _) fun _ _ _ => ht.index hx
  · exact agree_map (agree_listUntil he _) fun xs xs' hxs => ht.call hxs

theorem agree_chain (he : Agree A Expression.Same e e') (b : Blanks) {first first' : Expression}
    (hf : first.Same first') : Agree A Expression.Same (chain e b first) (chain e' b first') := by
  refine agree_iterate (S := Expression.Same) ?_ hf
  intro target target' ht
  refine agree_ahead fun next next' after after' hn ha => ?_
  have hafter : (next.is "." && decide (b = .kept) && !after.isAlphanumeric) =
      (next'.is "." && decide (b = .kept) && !after'.isAlphanumeric) := by
    rw [← hn.is, Bool.and_assoc, Bool.and_assoc]
    exact and_congr_of fun hd => by rw [(ha (Token.not_isBrace_of_is hd (by decide))).isAlphanumeric]
  rw [hafter, hn.isOneOf]
  split
  · exact agree_pure (.inr ht)
  split
  · refine agree_map ?_ fun x x' hx => .inl hx
    exact agree_bind (agree_consume _) fun _ _ _ => agree_suffixRest he ht hn
  · exact agree_pure (.inr ht)

theorem agree_stringLiteral : Agree A Expression.Same stringLiteral stringLiteral := by
  refine agree_bind (agree_consume _) fun quote quote' hq => agree_iterate_eq (fun raw => ?_) hq.text
  refine agree_bind_eq agree_atEnd fun ended => ?_
  split
  · exact agree_fail
  refine agree_bind (agree_consume _) fun t t' ht => ?_
  rw [ht.text, ht.is, hq.text]
  split
  · exact agree_gather _
  split
  · exact agree_pure (.inr rfl)
  · exact agree_pure (.inl rfl)

theorem agree_primary (he : Agree A Expression.Same e e') : Agree A Expression.Same (primary e) (primary e') := by
  refine agree_bind (agree_peek _) fun t t' ht => ?_
  simp only [ht.category, ht.is, ht.text]
  split
  · exact agree_map (agree_consume _) fun _ _ _ => rfl
  · exact agree_map (agree_consume _) fun _ _ _ => same_nameOrLiteral ht
  · exact agree_fail
  split
  · exact agree_stringLiteral
  split
  · exact agree_bind (agree_consume _) fun _ _ _ => agree_bind he fun x x' hx =>
      agree_map (agree_expect _ _) fun _ _ _ => hx
  split
  · exact agree_bind (agree_consume _) fun _ _ _ => agree_map (agree_listUntil he _) fun xs xs' hxs => hxs.array
  · exact agree_fail

theorem agree_suffixed (he : Agree A Expression.Same e e') : Agree A Expression.Same (suffixed e) (suffixed e') := by
  refine agree_bind (agree_primary he) fun x x' hx => agree_bind (agree_chain he _ hx) fun y y' hy => ?_
  refine agree_bind (agree_peek _) fun next next' hn => ?_
  rw [hn.is, hn.is, hn.text]
  split
  · exact agree_map (agree_consume _) fun _ _ _ => hy.unary _ .after
  · exact agree_pure hy

theorem agree_operand (he : Agree A Expression.Same e e') : Agree A Expression.Same (operand e) (operand e') := by
  refine agree_iterate (S := SameWrap) ?_ fun _ _ h => h
  intro w w' hw
  refine agree_bind (agree_peek _) fun t t' ht => ?_
  rw [frontOperator?_same ht]
  split
  · next operator ho =>
    exact agree_map (agree_consume _) fun _ _ _ => .inl fun x y hxy => hw _ _ (sameWrap_of_frontOperator? ho x y hxy)
  · exact agree_map (agree_suffixed he) fun x x' hx => .inr (hw x x' hx)

theorem agree_binaryLevel (he : Agree A Expression.Same e e') (operators : List String) :
    Agree A Expression.Same (binaryLevel operators e) (binaryLevel operators e') := by
  refine agree_bind he fun x x' hx => agree_iterate (S := Expression.Same) ?_ hx
  intro left left' hl
  refine agree_bind (agree_peek _) fun t t' ht => ?_
  rw [binaryOperator?_same operators ht]
  split
  · exact agree_bind (agree_consume _) fun _ _ _ => agree_map he fun y y' hy => .inl (hl.binary _ hy)
  · exact agree_pure (.inr hl)

theorem agree_levels (he : Agree A Expression.Same e e') (levels : List (List String)) :
    Agree A Expression.Same (levels.foldr binaryLevel e) (levels.foldr binaryLevel e') := by
  induction levels with
  | nil => exact he
  | cons operators levels ih => exact agree_binaryLevel ih operators

theorem agree_expressionOver (he : Agree A Expression.Same e e') :
    Agree A Expression.Same (expressionOver e) (expressionOver e') := by
  refine agree_bind (agree_levels (agree_operand he) _) fun x x' hx => agree_bind (agree_peek _) fun next next' hn => ?_
  rw [hn.is]
  split
  · refine agree_bind (agree_consume _) fun _ _ _ => agree_bind he fun y y' hy => ?_
    exact agree_bind (agree_expect _ _) fun _ _ _ => agree_map he fun z z' hz => hx.conditional hy hz
  · exact agree_pure hx

/-- **The same lexemes are the same expression**, and leave the same lexemes. -/
theorem agree_expression : Agree A Expression.Same expression expression :=
  agree_recursive (fun _ _ h _ => agree_expressionOver (h ())) ()

end Grammar

end TemplateView
