/-
Expressions up to positions. An expression is read alike from the same lexemes, wherever they stand and whatever follows
the mark behind them: `beside_expression` goes through the grammar of expressions with one lemma for each parser, each
with the parser of inner expressions as a parameter. What an expression is lowered to depends on no position.
-/
import TemplateView.Generation.Expression
import TemplateView.Proofs.Grammar.Beside

namespace TemplateView

mutual

/-- the expression without the positions of its names -/
def Expression.unplaced : Expression → Expression
  | .name x _ => .name x .start
  | .member object x _ => .member object.unplaced x .start
  | .literal raw => .literal raw
  | .call callee arguments => .call callee.unplaced (Expression.unplacedAll arguments)
  | .index target key => .index target.unplaced key.unplaced
  | .array items => .array (Expression.unplacedAll items)
  | .unary operator fixity operand => .unary operator fixity operand.unplaced
  | .binary left operator right => .binary left.unplaced operator right.unplaced
  | .conditional test whenTrue whenFalse => .conditional test.unplaced whenTrue.unplaced whenFalse.unplaced

def Expression.unplacedAll : List Expression → List Expression
  | [] => []
  | e :: es => e.unplaced :: Expression.unplacedAll es

end

/-- the same expression, perhaps at two places -/
def Expression.Same (x y : Expression) : Prop := x.unplaced = y.unplaced

/-- the same expressions, perhaps at two places -/
def Expression.SameAll (xs ys : List Expression) : Prop := Expression.unplacedAll xs = Expression.unplacedAll ys

/-- the same operators in front of an operand -/
def Expression.SameWrap (w w' : Expression → Expression) : Prop := ∀ x y, x.Same y → (w x).Same (w' y)

theorem Expression.unplacedAll_append (xs ys : List Expression) :
    Expression.unplacedAll (xs ++ ys) = Expression.unplacedAll xs ++ Expression.unplacedAll ys := by
  induction xs with
  | nil => rfl
  | cons x xs ih => rw [List.cons_append, Expression.unplacedAll, ih]; rfl

namespace Expression

theorem same_refl (x : Expression) : ∃ y, x.Same y := ⟨x, rfl⟩

theorem sameAll_refl (xs : List Expression) : ∃ ys, SameAll xs ys := ⟨xs, rfl⟩

theorem SameAll.concat {xs ys : List Expression} {x y : Expression} (h : SameAll xs ys) (hx : x.Same y) :
    SameAll (xs ++ [x]) (ys ++ [y]) := by
  unfold SameAll at *
  rw [unplacedAll_append, unplacedAll_append, h, unplacedAll, unplacedAll, unplacedAll, unplacedAll, hx]

/-! ### Nodes with the same parts -/

section

variable {x x' y y' z z' : Expression} {xs xs' : List Expression}

theorem Same.member (h : x.Same x') (name : String) (p p' : Position) :
    (Expression.member x name p).Same (.member x' name p') :=
  congrArg (Expression.member · name .start) h

theorem Same.index (h : x.Same x') (hy : y.Same y') : (Expression.index x y).Same (.index x' y') :=
  congrArg₂ Expression.index h hy

theorem Same.call (h : x.Same x') (hs : SameAll xs xs') : (Expression.call x xs).Same (.call x' xs') :=
  congrArg₂ Expression.call h hs

theorem SameAll.array (hs : SameAll xs xs') : (Expression.array xs).Same (.array xs') :=
  congrArg Expression.array hs

theorem Same.unary (h : x.Same x') (operator : String) (fixity : Fixity) :
    (Expression.unary operator fixity x).Same (.unary operator fixity x') :=
  congrArg (Expression.unary operator fixity) h

theorem Same.binary (h : x.Same x') (operator : String) (hy : y.Same y') :
    (Expression.binary x operator y).Same (.binary x' operator y') :=
  congrArg₂ (Expression.binary · operator ·) h hy

theorem Same.conditional (h : x.Same x') (hy : y.Same y') (hz : z.Same z') :
    (Expression.conditional x y z).Same (.conditional x' y' z') := by
  rw [Same, unplaced, unplaced, h, hy, hz]

end

end Expression

/-! ## Lowering -/

namespace Generation.Naming

/-- whether an expression is a declared local depends on no position -/
theorem target?_unplaced (n : Naming) (e : Expression) : n.target? e.unplaced = n.target? e := by
  cases e <;> rfl

theorem update_unplaced (n : Naming) (step : Step) (fixity : Fixity) (operand : Expression) :
    n.update step fixity operand.unplaced = n.update step fixity operand := by
  rw [update, update, target?_unplaced]

theorem assignment_unplaced (n : Naming) (target : Expression) (operator : String) (value : Expr) :
    n.assignment target.unplaced operator value = n.assignment target operator value := by
  rw [assignment, assignment, target?_unplaced]

mutual

/-- what an expression is lowered to depends on no position -/
theorem expression_unplaced (n : Naming) : ∀ e : Expression, n.expression e.unplaced = n.expression e
  | .name x _ => by rw [Expression.unplaced, expression, expression]
  | .member object x _ => by
    rw [Expression.unplaced, expression, expression, expression_unplaced n object]
  | .literal raw => by rw [Expression.unplaced]
  | .call callee arguments => by
    rw [Expression.unplaced, expression, expression, expressions_unplaced n arguments]
    cases callee with
    | member object x _ => simp only [Expression.unplaced, expression_unplaced n object]
    | _ => rfl
  | .index target key => by
    rw [Expression.unplaced, expression, expression, expression_unplaced n target, expression_unplaced n key]
  | .array items => by rw [Expression.unplaced, expression, expression, expressions_unplaced n items]
  | .unary operator fixity operand => by
    simp only [Expression.unplaced, expression, expression_unplaced n operand, update_unplaced]
  | .binary left operator right => by
    simp only [Expression.unplaced, expression, expression_unplaced n left, expression_unplaced n right, assignment_unplaced]
  | .conditional test whenTrue whenFalse => by
    rw [Expression.unplaced, expression, expression, expression_unplaced n test, expression_unplaced n whenTrue,
      expression_unplaced n whenFalse]

theorem expressions_unplaced (n : Naming) : ∀ es : List Expression,
    n.expressions (Expression.unplacedAll es) = n.expressions es
  | [] => by rw [Expression.unplacedAll]
  | e :: es => by
    rw [Expression.unplacedAll, expressions, expressions, expression_unplaced n e, expressions_unplaced n es]

end

theorem expression_same (n : Naming) {x y : Expression} (h : x.Same y) : n.expression x = n.expression y := by
  rw [← expression_unplaced n x, h, expression_unplaced n y]

end Generation.Naming

/-! ## Grammar -/

namespace Grammar

open TemplateView.Parser Expression

variable {k : Nat} {e e' : Parser Expression} {b : Blanks}

theorem token_refl (t : Token) : ∃ t', t.Same t' := ⟨t, .refl t⟩

theorem same_nameOrLiteral {t t' : Token} (h : t.Same t') : (nameOrLiteral t).Same (nameOrLiteral t') := by
  unfold nameOrLiteral
  rw [h.text]
  split <;> rfl

theorem beside_listMark (close : String) {items items' : List Expression} (hi : SameAll items items') :
    Beside k (Sum.LiftRel SameAll SameAll) (listMark close items) (listMark close items') := by
  refine beside_peek fun t t' ht => ?_
  rw [ht.is]
  split
  · exact beside_bind token_refl (beside_consume _) fun _ _ _ => beside_pure (.inl hi)
  · exact beside_bind token_refl (beside_expect _ _) fun _ _ _ => beside_pure (.inr hi)

theorem closes_listMark (close : String) {items items' : List Expression} (hi : SameAll items items') :
    Closes k (Sum.LiftRel SameAll SameAll) (listMark close items) (listMark close items') := by
  refine closes_peek fun t t' ht => ?_
  rw [ht.is]
  split
  · exact closes_map _ _ (closes_consume _) fun _ _ _ => .inl hi
  · exact closes_map _ _ (closes_expect _ _) fun _ _ _ => .inr hi

theorem beside_listUntil (he : Beside k Expression.Same e e') (close : String) :
    Beside k SameAll (listUntil e close) (listUntil e' close) := by
  refine beside_peek fun t t' ht => ?_
  rw [ht.is]
  split
  · exact beside_bind token_refl (beside_consume _) fun _ _ _ => beside_pure rfl
  · have ha := advances_listRound he.shrinks close
    refine beside_iterate (S := SameAll) (fun items => (ha items).shrinks) (fun items => (ha items).productive) ?_ rfl
    intro items items' hi
    exact beside_bind same_refl he fun x x' hx => beside_listMark close (hi.concat hx)

theorem closes_listUntil (he : Beside k Expression.Same e e') (close : String) :
    Closes k SameAll (listUntil e close) (listUntil e' close) := by
  refine closes_peek fun t t' ht => ?_
  rw [ht.is]
  split
  · exact closes_map _ _ (closes_consume _) fun _ _ _ => rfl
  · refine closes_iterate (S := SameAll) (advances_listRound he.shrinks close) ?_ ?_ rfl
    · intro items items' hi
      exact beside_bind same_refl he fun x x' hx => beside_listMark close (hi.concat hx)
    · intro items items' hi
      exact closes_bind (fun x => advances_listMark close _) he fun x x' hx => closes_listMark close (hi.concat hx)

/-! ### Suffixes -/

theorem beside_suffixRest (he : Beside k Expression.Same e e') {target target' : Expression} (ht : target.Same target')
    {next next' : Token} (hn : next.Same next') :
    Beside k Expression.Same (suffixRest e target next) (suffixRest e' target' next') := by
  unfold suffixRest
  rw [hn.is, hn.is]
  split
  · refine beside_bind token_refl (beside_expectCategory _ _) fun name name' hname => beside_pure ?_
    rw [hname.text]
    exact ht.member _ _ _
  split
  · exact beside_bind same_refl he fun x x' hx => beside_bind token_refl (beside_expect _ _) fun _ _ _ =>
      beside_pure (ht.index hx)
  · exact beside_bind sameAll_refl (beside_listUntil he _) fun xs xs' hxs => beside_pure (ht.call hxs)

theorem closes_suffixRest (he : Beside k Expression.Same e e') {target target' : Expression} (ht : target.Same target')
    {next next' : Token} (hn : next.Same next') :
    Closes k Expression.Same (suffixRest e target next) (suffixRest e' target' next') := by
  unfold suffixRest
  rw [hn.is, hn.is]
  split
  · refine closes_map _ _ (closes_expectCategory _ _) fun name name' hname => ?_
    rw [hname.text]
    exact ht.member _ _ _
  split
  · refine closes_bind (fun x => advances_bind (advances_expect _ _) fun _ => shrinks_pure _) he fun x x' hx => ?_
    exact closes_map _ _ (closes_expect _ _) fun _ _ _ => ht.index hx
  · exact closes_map _ _ (closes_listUntil he _) fun xs xs' hxs => ht.call hxs

theorem beside_suffix (he : Beside k Expression.Same e e') {target target' : Expression} (ht : target.Same target')
    {next next' : Token} (hn : next.Same next') :
    Beside (k + 1) Expression.Same (suffix e target next) (suffix e' target' next') :=
  beside_bind_lt (advances_consume _) token_refl (beside_consume _) fun _ _ _ => beside_suffixRest he ht hn

theorem closes_suffix (he : Beside k Expression.Same e e') {target target' : Expression} (ht : target.Same target')
    {next next' : Token} (hn : next.Same next') :
    Closes (k + 1) Expression.Same (suffix e target next) (suffix e' target' next') :=
  closes_bind_lt (advances_consume _) (fun _ => advances_suffixRest he.shrinks target next) (beside_consume _)
    fun _ _ _ => closes_suffixRest he ht hn

/-- where whitespace is skipped, a chain looks at one token only before each suffix -/
theorem beside_chain (he : Beside k Expression.Same e e') {first first' : Expression} (hf : first.Same first') :
    Beside (k + 1) Expression.Same (chain e .skipped first) (chain e' .skipped first') := by
  refine beside_iterate (shrinks_chainRound he.shrinks _) (productive_chainRound he.shrinks _) ?_ hf
  intro target target' ht
  refine beside_peek fun next next' hn => beside_peekNext fun after after' => ?_
  have hk : ∀ x : Bool, (next.is "." && decide (Blanks.skipped = .kept) && x) = false := by simp
  have hk' : ∀ x : Bool, (next'.is "." && decide (Blanks.skipped = .kept) && x) = false := by simp
  rw [hk, hk', if_neg Bool.false_ne_true, if_neg Bool.false_ne_true, hn.isOneOf]
  split
  · exact beside_bind same_refl (beside_suffix he ht hn) fun x x' hx => beside_pure (.inl hx)
  · exact beside_pure (.inr ht)

/-! ### Operands and operators -/

theorem beside_stringRound {quote quote' : Token} (hq : quote.Same quote') (raw : String) :
    Beside k (Sum.LiftRel Eq Expression.Same) (stringRound quote raw) (stringRound quote' raw) := by
  refine beside_atEnd fun ended => ?_
  split
  · exact beside_fail
  refine beside_bind token_refl (beside_consume _) fun t t' ht => ?_
  rw [ht.text, ht.is, hq.text]
  split
  · exact beside_bind token_refl (beside_consume _) fun u u' hu => beside_pure (.inl (by rw [hu.text]))
  split
  · exact beside_pure (.inr rfl)
  · exact beside_pure (.inl rfl)

theorem beside_stringLiteral : Beside k Expression.Same stringLiteral stringLiteral := by
  refine beside_bind token_refl (beside_consume _) fun quote quote' hq => ?_
  have ha := advances_stringRound quote
  refine beside_iterate (fun raw => (ha raw).shrinks) (fun raw => (ha raw).productive) ?_ hq.text
  intro raw _ he
  subst he
  exact beside_stringRound hq raw

theorem beside_primary (he : Beside k Expression.Same e e') :
    Beside (k + 1) Expression.Same (primary e) (primary e') := by
  refine beside_peek fun t t' ht => ?_
  simp only [ht.category, ht.is, ht.text]
  split
  · exact beside_bind token_refl (beside_consume _) fun _ _ _ => beside_pure rfl
  · exact beside_bind token_refl (beside_consume _) fun _ _ _ => beside_pure (same_nameOrLiteral ht)
  · exact beside_fail
  split
  · exact beside_stringLiteral
  split
  · exact beside_bind_lt (advances_consume _) token_refl (beside_consume _) fun _ _ _ =>
      beside_bind same_refl he fun x x' hx => beside_bind token_refl (beside_expect _ _) fun _ _ _ => beside_pure hx
  split
  · refine beside_bind_lt (advances_consume _) token_refl (beside_consume _) fun _ _ _ => ?_
    exact beside_bind sameAll_refl (beside_listUntil he _) fun xs xs' hxs => beside_pure hxs.array
  · exact beside_fail

theorem beside_suffixed (he : Beside k Expression.Same e e') :
    Beside (k + 1) Expression.Same (suffixed e) (suffixed e') := by
  refine beside_bind same_refl (beside_primary he) fun x x' hx => ?_
  refine beside_bind same_refl (beside_chain he hx) fun y y' hy => beside_peek fun next next' hn => ?_
  rw [hn.is, hn.is, hn.text]
  split
  · exact beside_bind token_refl (beside_consume _) fun _ _ _ => beside_pure (hy.unary _ _)
  · exact beside_pure hy

theorem frontOperator?_same {t t' : Token} (h : t.Same t') : frontOperator? t = frontOperator? t' := by
  rw [frontOperator?, frontOperator?, h.category, h.text, h.isAlphanumeric]

theorem sameWrap_of_frontOperator? {t : Token} {w : Expression → Expression} (h : frontOperator? t = some w) :
    SameWrap w w := by
  intro x y hxy
  obtain ⟨-, rfl⟩ := frontOperator?_eq_some h
  exact hxy.unary _ _

theorem beside_operand (he : Beside k Expression.Same e e') :
    Beside (k + 1) Expression.Same (operand e) (operand e') := by
  have hid : SameWrap id id := fun _ _ h => h
  refine beside_iterate (shrinks_operandRound he.shrinks) (productive_operandRound he.shrinks) ?_ hid
  intro w w' hw
  refine beside_peek fun t t' ht => ?_
  rw [frontOperator?_same ht]
  split
  · next operator ho =>
    refine beside_bind token_refl (beside_consume _) fun _ _ _ => beside_pure (.inl ?_)
    exact fun x y hxy => hw _ _ (sameWrap_of_frontOperator? ho x y hxy)
  · exact beside_bind same_refl (beside_suffixed he) fun x x' hx => beside_pure (.inr (hw x x' hx))

theorem binaryOperator?_same (operators : List String) {t t' : Token} (h : t.Same t') :
    binaryOperator? operators t = binaryOperator? operators t' := by
  rw [binaryOperator?, binaryOperator?, h.category, h.text]

theorem beside_binaryLevel (he : Beside k Expression.Same e e') (operators : List String) :
    Beside k Expression.Same (binaryLevel operators e) (binaryLevel operators e') := by
  refine beside_bind same_refl he fun x x' hx => ?_
  refine beside_iterate (shrinks_binaryRound he.shrinks operators) (productive_binaryRound he.shrinks operators) ?_ hx
  intro left left' hl
  refine beside_peek fun t t' ht => ?_
  rw [binaryOperator?_same operators ht]
  split
  · refine beside_bind token_refl (beside_consume _) fun _ _ _ => beside_bind same_refl he fun y y' hy => ?_
    exact beside_pure (.inl (hl.binary _ hy))
  · exact beside_pure (.inr hl)

theorem beside_levels (he : Beside k Expression.Same e e') (levels : List (List String)) :
    Beside k Expression.Same (levels.foldr binaryLevel e) (levels.foldr binaryLevel e') := by
  induction levels with
  | nil => exact he
  | cons operators levels ih => exact beside_binaryLevel ih operators

theorem beside_expressionOver (he : Beside k Expression.Same e e') :
    Beside (k + 1) Expression.Same (expressionOver e) (expressionOver e') := by
  refine beside_bind same_refl (beside_levels (beside_operand he) _) fun x x' hx => beside_peek fun next next' hn => ?_
  rw [hn.is]
  split
  · refine beside_bind_lt (advances_consume _) token_refl (beside_consume _) fun _ _ _ => ?_
    refine beside_bind same_refl he fun y y' hy => beside_bind token_refl (beside_expect _ _) fun _ _ _ => ?_
    exact beside_bind same_refl he fun z z' hz => beside_pure (hx.conditional hy hz)
  · exact beside_pure hx

/-- the depth of the second parser bounds the tokens before the mark, as each inner expression stands behind one of them -/
theorem beside_nested (depth n : Nat) : Beside depth Expression.Same
    (nested (fun self (_ : Unit) => expressionOver (self ())) n ())
    (nested (fun self (_ : Unit) => expressionOver (self ())) depth ()) := by
  induction depth generalizing n with
  | zero => exact ⟨shrinks_nested n, fun _ _ _ _ _ hk => by cases hk⟩
  | succ depth ih =>
    cases n with
    | zero =>
      refine ⟨shrinks_nested 0, ?_⟩
      intro _ _ _ _ _ _ _ h
      cases h
    | succ n => exact beside_expressionOver (ih n)

/-- **An expression is read alike wherever its lexemes stand, and whatever follows the mark behind them.** -/
theorem beside_expression (k : Nat) : Beside k Expression.Same expression expression := by
  refine ⟨shrinks_expression, ?_⟩
  intro A us us' vs x _ hs h
  refine (beside_nested ((A.right us').remaining + 1) ((A.left us).remaining + 1)).before A us us' vs x ?_ hs h
  rw [hs.length_eq]
  simp only [Behind.right, TokenStream.remaining, List.length_append, List.length_cons]
  omega

end Grammar

end TemplateView
