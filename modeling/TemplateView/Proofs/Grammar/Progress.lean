/-
Parsers move on. A parser `Shrinks` if it leaves a rest of its stream, it `Advances` if it uses up a token at least, and a
round of a loop is `Productive` if it uses up a token unless it ends the loop. Every parser of expressions shrinks, and
all their loops are productive.
-/
import TemplateView.Grammar.Expression
import TemplateView.Proofs.Grammar.Takes

namespace TemplateView

namespace Parser

variable {α β σ : Type}

/-- leaves no more than it finds -/
def Shrinks (m : Parser α) : Prop := ∀ s, Takes m s fun _ _ => True

/-- uses up a token -/
def Advances (m : Parser α) : Prop := ∀ s, Takes m s fun used _ => used ≠ []

/-- a round of a loop, which uses up a token unless it is the last -/
def Productive (m : Parser (σ ⊕ α)) : Prop := ∀ s, Takes m s fun used x => x.isLeft = true → used ≠ []

/-! ## Steps -/

theorem Advances.shrinks {m : Parser α} (h : Advances m) : Shrinks m :=
  fun s => (h s).mono fun _ _ _ => trivial

theorem Advances.productive {m : Parser (σ ⊕ α)} (h : Advances m) : Productive m :=
  fun s => (h s).mono fun _ _ hu _ => hu

theorem shrinks_pure (a : α) : Shrinks (pure a) := fun _ => takes_pure trivial

theorem shrinks_fail (e : ParseError) : Shrinks (fail e : Parser α) := fun _ => takes_fail

theorem shrinks_peek (b : Blanks) : Shrinks (peek b) := fun s => by
  intro _ _ h
  cases h
  exact ⟨[], rfl, trivial⟩

theorem shrinks_peekNext (b : Blanks) : Shrinks (peekNext b) := fun s => by
  intro _ _ h
  cases h
  exact ⟨[], rfl, trivial⟩

theorem shrinks_peekNth (n : Nat) : Shrinks (peekNth n) := fun s => by
  intro _ _ h
  cases h
  exact ⟨[], rfl, trivial⟩

theorem shrinks_atEnd : Shrinks atEnd := fun s => by
  intro _ _ h
  cases h
  exact ⟨[], rfl, trivial⟩

theorem advances_taking {b : Blanks} {call : TokenStream → Except LexError Token × TokenStream}
    (h : ∀ s t s', call s = (.ok t, s') → s.passBlank b = ⟨t :: s'.rest, s'.finish⟩) : Advances (taking call) := by
  intro s t s' hm
  have hp := h s t s' (taking_eq_ok.1 hm)
  rcases passBlank_eq hp with rfl | ⟨-, w, -, rfl⟩
  · exact ⟨[t], rfl, by simp⟩
  · exact ⟨[w, t], rfl, by simp⟩

theorem advances_consume (b : Blanks) : Advances (consume b) :=
  advances_taking fun _ _ _ h => consume_eq_ok.1 (taking_eq_ok.2 h)

theorem advances_expected (b : Blanks) (e : Expected) : Advances (taking (·.consumeExpected b e)) :=
  advances_taking fun _ _ _ h => (consumeExpected_eq_ok.1 h).1

theorem advances_expect (b : Blanks) (text : String) : Advances (expect b text) := advances_expected b (.text text)

theorem advances_expectCategory (b : Blanks) (c : Category) : Advances (expectCategory b c) :=
  advances_expected b (.category c)

theorem shrinks_bind {m : Parser α} {f : α → Parser β} (hm : Shrinks m) (hf : ∀ a, Shrinks (f a)) :
    Shrinks (m >>= f) :=
  fun s => takes_bind (hm s) fun _ a t _ _ => (hf a t).mono fun _ _ _ => trivial

/-- the first step uses up a token -/
theorem advances_bind {m : Parser α} {f : α → Parser β} (hm : Advances m) (hf : ∀ a, Shrinks (f a)) :
    Advances (m >>= f) :=
  fun s => takes_bind (hm s) fun _ a t _ hu => (hf a t).mono fun _ _ _ => by simp [hu]

/-- a later step uses up a token -/
theorem advances_bind_right {m : Parser α} {f : α → Parser β} (hm : Shrinks m) (hf : ∀ a, Advances (f a)) :
    Advances (m >>= f) :=
  fun s => takes_bind (hm s) fun _ a t _ _ => (hf a t).mono fun _ _ hu => by simp [hu]

theorem productive_done (r : α) : Productive (pure (.inr r) : Parser (σ ⊕ α)) :=
  fun _ => takes_pure (by simp)

theorem productive_bind {m : Parser β} {f : β → Parser (σ ⊕ α)} (hm : Shrinks m) (hf : ∀ b, Productive (f b)) :
    Productive (m >>= f) :=
  fun s => takes_bind (hm s) fun _ b t _ _ => (hf b t).mono fun _ _ hu hx => by simp [hu hx]

theorem shrinks_loop {step : σ → Parser (σ ⊕ α)} (h : ∀ a, Shrinks (step a)) (n : Nat) (a : σ) :
    Shrinks (loop step n a) := by
  induction n generalizing a with
  | zero => exact fun _ => takes_stalled
  | succ n ih =>
    refine shrinks_bind (h a) fun x => ?_
    cases x with
    | inl b => exact ih b
    | inr r => exact shrinks_pure r

theorem shrinks_iterate {step : σ → Parser (σ ⊕ α)} (h : ∀ a, Shrinks (step a)) (a : σ) : Shrinks (iterate a step) :=
  fun s _ t hm => shrinks_loop h (s.remaining + 1) a s _ t hm

theorem advances_loop {step : σ → Parser (σ ⊕ α)} (h : ∀ a, Advances (step a)) (n : Nat) (a : σ) :
    Advances (loop step n a) := by
  cases n with
  | zero => exact fun _ => takes_stalled
  | succ n =>
    refine advances_bind (h a) fun x => ?_
    cases x with
    | inl b => exact shrinks_loop (fun a => (h a).shrinks) n b
    | inr r => exact shrinks_pure r

theorem advances_iterate {step : σ → Parser (σ ⊕ α)} (h : ∀ a, Advances (step a)) (a : σ) : Advances (iterate a step) :=
  fun s _ t hm => advances_loop h (s.remaining + 1) a s _ t hm

end Parser

namespace Grammar

open TemplateView.Parser

/-! ## Expressions -/

variable {e : Parser Expression}

theorem advances_listMark (close : String) (items : List Expression) : Advances (listMark close items) := by
  refine advances_bind_right (shrinks_peek _) fun t => ?_
  split
  · exact advances_bind (advances_consume _) fun _ => shrinks_pure _
  · exact advances_bind (advances_expect _ _) fun _ => shrinks_pure _

theorem advances_listRound (he : Shrinks e) (close : String) (items : List Expression) :
    Advances (listRound e close items) :=
  advances_bind_right he fun _ => advances_listMark close _

theorem advances_listUntil (he : Shrinks e) (close : String) : Advances (listUntil e close) := by
  refine advances_bind_right (shrinks_peek _) fun t => ?_
  split
  · exact advances_bind (advances_consume _) fun _ => shrinks_pure _
  · exact advances_iterate (advances_listRound he close) _

theorem advances_suffixRest (he : Shrinks e) (target : Expression) (next : Token) :
    Advances (suffixRest e target next) := by
  unfold suffixRest
  split
  · exact advances_bind (advances_expectCategory _ _) fun _ => shrinks_pure _
  split
  · exact advances_bind_right he fun _ => advances_bind (advances_expect _ _) fun _ => shrinks_pure _
  · exact advances_bind (advances_listUntil he _) fun _ => shrinks_pure _

theorem advances_suffix (he : Shrinks e) (target : Expression) (next : Token) : Advances (suffix e target next) :=
  advances_bind (advances_consume _) fun _ => (advances_suffixRest he target next).shrinks

theorem shrinks_chainRound (he : Shrinks e) (b : Blanks) (target : Expression) : Shrinks (chainRound e b target) := by
  refine shrinks_bind (shrinks_peek _) fun next => shrinks_bind (shrinks_peekNext _) fun after => ?_
  split
  · exact shrinks_pure _
  split
  · exact shrinks_bind (advances_suffix he target next).shrinks fun _ => shrinks_pure _
  · exact shrinks_pure _

theorem productive_chainRound (he : Shrinks e) (b : Blanks) (target : Expression) :
    Productive (chainRound e b target) := by
  refine productive_bind (shrinks_peek _) fun next => productive_bind (shrinks_peekNext _) fun after => ?_
  split
  · exact productive_done _
  split
  · exact (advances_bind (advances_suffix he target next) fun _ => shrinks_pure _).productive
  · exact productive_done _

theorem shrinks_chain (he : Shrinks e) (b : Blanks) (first : Expression) : Shrinks (chain e b first) :=
  shrinks_iterate (shrinks_chainRound he b) first

theorem advances_stringRound (quote : Token) (raw : String) : Advances (stringRound quote raw) := by
  refine advances_bind_right shrinks_atEnd fun ended => ?_
  split
  · exact fun _ => takes_fail
  refine advances_bind (advances_consume _) fun t => ?_
  split
  · exact shrinks_bind (advances_consume _).shrinks fun _ => shrinks_pure _
  split
  · exact shrinks_pure _
  · exact shrinks_pure _

theorem shrinks_stringLiteral : Shrinks stringLiteral :=
  shrinks_bind (advances_consume _).shrinks fun quote =>
    shrinks_iterate (fun raw => (advances_stringRound quote raw).shrinks) quote.text

theorem shrinks_primary (he : Shrinks e) : Shrinks (primary e) := by
  refine shrinks_bind (shrinks_peek _) fun t => ?_
  split
  · exact shrinks_bind (advances_consume _).shrinks fun _ => shrinks_pure _
  · exact shrinks_bind (advances_consume _).shrinks fun _ => shrinks_pure _
  · exact shrinks_fail _
  split
  · exact shrinks_stringLiteral
  split
  · exact shrinks_bind (advances_consume _).shrinks fun _ => shrinks_bind he fun _ =>
      shrinks_bind (advances_expect _ _).shrinks fun _ => shrinks_pure _
  split
  · exact shrinks_bind (advances_consume _).shrinks fun _ => shrinks_bind (advances_listUntil he _).shrinks fun _ =>
      shrinks_pure _
  · exact shrinks_fail _

theorem shrinks_suffixed (he : Shrinks e) : Shrinks (suffixed e) := by
  refine shrinks_bind (shrinks_primary he) fun first => shrinks_bind (shrinks_chain he _ first) fun operand => ?_
  refine shrinks_bind (shrinks_peek _) fun next => ?_
  split
  · exact shrinks_bind (advances_consume _).shrinks fun _ => shrinks_pure _
  · exact shrinks_pure _

theorem shrinks_operandRound (he : Shrinks e) (wrap : Expression → Expression) : Shrinks (operandRound e wrap) := by
  refine shrinks_bind (shrinks_peek _) fun t => ?_
  split
  · exact shrinks_bind (advances_consume _).shrinks fun _ => shrinks_pure _
  · exact shrinks_bind (shrinks_suffixed he) fun _ => shrinks_pure _

/-- the last step of a round only gives a result -/
theorem productive_last {α β σ : Type} {m : Parser β} (hm : Shrinks m) (f : β → α) :
    Productive (do return .inr (f (← m)) : Parser (σ ⊕ α)) :=
  productive_bind hm fun _ => productive_done _

theorem productive_operandRound (he : Shrinks e) (wrap : Expression → Expression) : Productive (operandRound e wrap) := by
  refine productive_bind (shrinks_peek _) fun t => ?_
  split
  · exact (advances_bind (advances_consume _) fun _ => shrinks_pure _).productive
  · exact productive_last (shrinks_suffixed he) _

theorem shrinks_operand (he : Shrinks e) : Shrinks (operand e) := shrinks_iterate (shrinks_operandRound he) id

theorem shrinks_binaryRound (he : Shrinks e) (operators : List String) (left : Expression) :
    Shrinks (binaryRound operators e left) := by
  refine shrinks_bind (shrinks_peek _) fun t => ?_
  split
  · exact shrinks_bind (advances_consume _).shrinks fun _ => shrinks_bind he fun _ => shrinks_pure _
  · exact shrinks_pure _

theorem productive_binaryRound (he : Shrinks e) (operators : List String) (left : Expression) :
    Productive (binaryRound operators e left) := by
  refine productive_bind (shrinks_peek _) fun t => ?_
  split
  · exact (advances_bind (advances_consume _) fun _ => shrinks_bind he fun _ => shrinks_pure _).productive
  · exact productive_done _

theorem shrinks_binaryLevel (he : Shrinks e) (operators : List String) : Shrinks (binaryLevel operators e) :=
  shrinks_bind he fun left => shrinks_iterate (shrinks_binaryRound he operators) left

theorem shrinks_levels (he : Shrinks e) (levels : List (List String)) :
    Shrinks (levels.foldr binaryLevel e) := by
  induction levels with
  | nil => exact he
  | cons operators levels ih => exact shrinks_binaryLevel ih operators

theorem shrinks_binary (he : Shrinks e) : Shrinks (binary e) := shrinks_levels (shrinks_operand he) _

theorem shrinks_expressionOver (he : Shrinks e) : Shrinks (expressionOver e) := by
  refine shrinks_bind (shrinks_binary he) fun test => shrinks_bind (shrinks_peek _) fun next => ?_
  split
  · exact shrinks_bind (advances_consume _).shrinks fun _ => shrinks_bind he fun _ =>
      shrinks_bind (advances_expect _ _).shrinks fun _ => shrinks_bind he fun _ => shrinks_pure _
  · exact shrinks_pure _

/-- an expression at some depth -/
theorem shrinks_nested (n : Nat) : Shrinks (nested (fun self (_ : Unit) => expressionOver (self ())) n ()) := by
  induction n with
  | zero => exact fun _ => takes_stalled
  | succ n ih => exact shrinks_expressionOver ih

theorem shrinks_expression : Shrinks expression := fun s _ t h => shrinks_nested (s.remaining + 1) s _ t h

end Grammar

end TemplateView
