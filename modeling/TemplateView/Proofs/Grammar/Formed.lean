/-
What the grammar guarantees of the nodes it makes. `Event.Formed` says it of one node: a literal stands for a value, a name
is a word, which no literal is where the name stands alone, an operator is one of the language, and generation passes over
no part of a segment. A template is a tree of nodes, and `formed_parse` says that all nodes of a parsed template are formed;
it is shown along the definitions of the grammar, first for expressions, then for segments. The operators between two
operands are a parameter of what is shown for expressions: an expression has those of the levels, and only a statement may
have one that assigns.
-/
import TemplateView.Grammar.Segment
import TemplateView.Proofs.Grammar.Literals
import TemplateView.Proofs.Grammar.Plain
import TemplateView.Proofs.Grammar.Yields
import TemplateView.Proofs.Visit

namespace TemplateView

open TemplateView.Generation TemplateView.Parser

/-! ## Nodes -/

/-- a node as the grammar makes it, if there are these operators between two operands -/
def Event.FormedOver (operators : List String) : Event → Prop
  | .expression (.literal raw) => IsLiteral raw
  | .expression (.name name _) => IsWord name ∧ name ∉ ["true", "false", "null"]
  | .expression (.member _ name _) => IsWord name
  | .expression (.unary operator _ _) => operator ∈ "new" :: Grammar.frontOperators
  | .expression (.binary _ operator _) => operator ∈ operators
  | ev => ev.Whole

/-- a node as the grammar makes it -/
def Event.Formed (ev : Event) : Prop := ev.FormedOver (Grammar.binaryLevels.flatten ++ Grammar.assignmentOperators)

theorem Event.Formed.whole {ev : Event} (h : ev.Formed) : ev.Whole := by
  cases ev with
  | enter s => exact h
  | exit s => trivial
  | expression e => trivial

/-- all nodes of an expression are formed, if there are these operators -/
def Expression.FormedOver (operators : List String) (e : Expression) : Prop :=
  ∀ ev ∈ Event.ofExpression e, ev.FormedOver operators

/-- all nodes of an expression are formed -/
abbrev Expression.Formed (e : Expression) : Prop :=
  e.FormedOver (Grammar.binaryLevels.flatten ++ Grammar.assignmentOperators)

/-- all nodes of a segment are formed -/
def Segment.Formed (s : Segment) : Prop := ∀ ev ∈ Event.ofSegment (fun _ => true) s, ev.Formed

def Alternative.Formed (a : Alternative) : Prop := ∀ ev ∈ Event.ofAlternative (fun _ => true) a, ev.Formed

def ValuePart.Formed : ValuePart → Prop
  | .text _ => True
  | .inline i => i.expression.Formed

def Attribute.Formed (a : Attribute) : Prop := a.Whole ∧ ∀ p ∈ a.values, p.Formed

namespace Expression

variable {operators : List String}

/-- besides its own node, the nodes of an expression are those inside it -/
theorem formed_of_eq (e : Expression) {events : List Event} (h : Event.ofExpression e = .expression e :: events)
    (he : (Event.expression e).FormedOver operators) :
    e.FormedOver operators ↔ ∀ ev ∈ events, ev.FormedOver operators := by
  rw [FormedOver, h, List.forall_mem_cons, and_iff_right he]

theorem formed_ofExpressions {es : List Expression} :
    (∀ ev ∈ Event.ofExpressions es, ev.FormedOver operators) ↔ ∀ e ∈ es, e.FormedOver operators := by
  induction es with
  | nil => exact ⟨fun _ => List.forall_mem_nil _, fun _ => List.forall_mem_nil _⟩
  | cons e es ih =>
    rw [List.forall_mem_cons, ← ih]
    exact List.forall_mem_append

@[simp] theorem formed_name {name : String} {p : Position} :
    (Expression.name name p).FormedOver operators ↔ IsWord name ∧ name ∉ ["true", "false", "null"] :=
  List.forall_mem_singleton

@[simp] theorem formed_literal {raw : String} : (literal raw).FormedOver operators ↔ IsLiteral raw :=
  List.forall_mem_singleton

@[simp] theorem formed_member {object : Expression} {name : String} {p : Position} :
    (member object name p).FormedOver operators ↔ IsWord name ∧ object.FormedOver operators :=
  List.forall_mem_cons

@[simp] theorem formed_call {callee : Expression} {arguments : List Expression} :
    (call callee arguments).FormedOver operators ↔
      callee.FormedOver operators ∧ ∀ a ∈ arguments, a.FormedOver operators :=
  (formed_of_eq (.call callee arguments) rfl trivial).trans
    (List.forall_mem_append.trans (and_congr Iff.rfl formed_ofExpressions))

@[simp] theorem formed_index {target key : Expression} :
    (index target key).FormedOver operators ↔ target.FormedOver operators ∧ key.FormedOver operators :=
  (formed_of_eq (.index target key) rfl trivial).trans List.forall_mem_append

@[simp] theorem formed_array {items : List Expression} :
    (array items).FormedOver operators ↔ ∀ e ∈ items, e.FormedOver operators :=
  (formed_of_eq (.array items) rfl trivial).trans formed_ofExpressions

@[simp] theorem formed_unary {op : String} {fixity : Fixity} {operand : Expression} :
    (unary op fixity operand).FormedOver operators ↔ op ∈ "new" :: Grammar.frontOperators ∧ operand.FormedOver operators :=
  List.forall_mem_cons

@[simp] theorem formed_binary {left right : Expression} {op : String} :
    (binary left op right).FormedOver operators ↔
      op ∈ operators ∧ left.FormedOver operators ∧ right.FormedOver operators :=
  List.forall_mem_cons.trans (and_congr Iff.rfl List.forall_mem_append)

@[simp] theorem formed_conditional {test whenTrue whenFalse : Expression} :
    (conditional test whenTrue whenFalse).FormedOver operators ↔
      test.FormedOver operators ∧ whenTrue.FormedOver operators ∧ whenFalse.FormedOver operators :=
  (formed_of_eq (.conditional test whenTrue whenFalse) rfl trivial).trans
    (List.forall_mem_append.trans ((and_congr List.forall_mem_append Iff.rfl).trans and_assoc))

end Expression

theorem Event.formed_ofOption {e : Option Expression} :
    (∀ ev ∈ Event.ofOption e, ev.Formed) ↔ ∀ x, e = some x → x.Formed := by
  cases e with
  | none => exact ⟨nofun, fun _ => List.forall_mem_nil _⟩
  | some e => exact ⟨fun h x hx => by cases hx; exact h, fun h => h e rfl⟩

theorem Event.formed_ofTag {tag : Tag} :
    (∀ a ∈ tag.attributes, a.Whole) ∧ (∀ ev ∈ Event.ofTag tag, ev.Formed) ↔ ∀ a ∈ tag.attributes, a.Formed := by
  rw [Event.ofTag_eq, List.forall_mem_flatMap, ← forall₂_and]
  refine forall₂_congr fun a _ => and_congr Iff.rfl ?_
  unfold Event.ofAttribute
  rw [List.forall_mem_flatMap]
  refine forall₂_congr fun p _ => ?_
  cases p with
  | text s => exact ⟨fun _ => trivial, fun _ => List.forall_mem_nil _⟩
  | inline i => exact Iff.rfl

theorem Event.formed_ofSegments {ss : List Segment} :
    (∀ ev ∈ Event.ofSegments (fun _ => true) ss, ev.Formed) ↔ ∀ s ∈ ss, s.Formed := by
  induction ss with
  | nil => exact ⟨fun _ => List.forall_mem_nil _, fun _ => List.forall_mem_nil _⟩
  | cons s ss ih =>
    rw [List.forall_mem_cons, ← ih]
    exact List.forall_mem_append

namespace Segment

/-- besides its own node, the nodes of a segment are those inside it -/
theorem formed_iff {s : Segment} : s.Formed ↔ (Event.enter s).Whole ∧ ∀ ev ∈ inside s, ev.Formed :=
  forall_ofSegment.trans (and_congr Iff.rfl (and_iff_left trivial))

/-- a segment of which no part can be passed over -/
theorem formed_of_whole (s : Segment) (h : (Event.enter s).Whole) : s.Formed ↔ ∀ ev ∈ inside s, ev.Formed := by
  rw [formed_iff, and_iff_right h]

@[simp] theorem formed_text (s : String) : (text s).Formed := (formed_of_whole (.text s) trivial).2 (List.forall_mem_nil _)

@[simp] theorem formed_htmlComment (leading s : String) : (htmlComment leading s).Formed :=
  (formed_of_whole (.htmlComment leading s) trivial).2 (List.forall_mem_nil _)

@[simp] theorem formed_docType (leading s : String) : (docType leading s).Formed :=
  (formed_of_whole (.docType leading s) trivial).2 (List.forall_mem_nil _)

@[simp] theorem formed_comment (s : String) : (comment s).Formed :=
  (formed_of_whole (.comment s) trivial).2 (List.forall_mem_nil _)

@[simp] theorem formed_element {tag : Tag} {children : List Segment} {close : EndTag} :
    (element tag children close).Formed ↔ (∀ a ∈ tag.attributes, a.Formed) ∧ ∀ s ∈ children, s.Formed := by
  refine formed_iff.trans ((and_congr Iff.rfl List.forall_mem_append).trans ?_)
  rw [← and_assoc]
  exact and_congr Event.formed_ofTag Event.formed_ofSegments

@[simp] theorem formed_emptyElement {tag : Tag} {closing : Closing} :
    (emptyElement tag closing).Formed ↔ ∀ a ∈ tag.attributes, a.Formed :=
  formed_iff.trans Event.formed_ofTag

@[simp] theorem formed_inline {i : InlineExpression} : (Segment.inline i).Formed ↔ i.expression.Formed :=
  formed_of_whole (.inline i) trivial

@[simp] theorem formed_block {body : List Segment} : (block body).Formed ↔ ∀ s ∈ body, s.Formed :=
  (formed_of_whole (.block body) trivial).trans Event.formed_ofSegments

@[simp] theorem formed_declaration {d : Declaration} :
    (declaration d).Formed ↔ ∀ x, d.init = some x → x.Formed :=
  (formed_of_whole (.declaration d) trivial).trans Event.formed_ofOption

@[simp] theorem formed_branch {test : Expression} {body : List Segment} {otherwise : Alternative} :
    (branch test body otherwise).Formed ↔
      otherwise.Exclusive ∧ test.Formed ∧ (∀ s ∈ body, s.Formed) ∧ otherwise.Formed := by
  refine formed_iff.trans (and_congr Iff.rfl (List.forall_mem_append.trans ?_))
  rw [List.forall_mem_append, Event.formed_ofSegments, and_assoc]
  rfl

@[simp] theorem formed_loop {counter : Declaration} {condition iteration : Expression} {body : List Segment} :
    (loop counter condition iteration body).Formed ↔ (∀ x, counter.init = some x → x.Formed) ∧ condition.Formed ∧
      iteration.Formed ∧ ∀ s ∈ body, s.Formed := by
  refine (formed_of_whole (.loop counter condition iteration body) trivial).trans (List.forall_mem_append.trans ?_)
  rw [List.forall_mem_append, List.forall_mem_append, Event.formed_ofSegments, Event.formed_ofOption, and_assoc, and_assoc]
  rfl

@[simp] theorem formed_each {item : String} {collection : Expression} {body : List Segment} :
    (each item collection body).Formed ↔ collection.Formed ∧ ∀ s ∈ body, s.Formed :=
  (formed_of_whole (.each item collection body) trivial).trans
    (List.forall_mem_append.trans (and_congr Iff.rfl Event.formed_ofSegments))

@[simp] theorem formed_action {e : Expression} : (action e).Formed ↔ e.Formed := formed_of_whole (.action e) trivial

@[simp] theorem formed_helper {name : String} {parameters : List String} {body : List Segment} :
    (helper name parameters body).Formed ↔ ∀ s ∈ body, s.Formed :=
  (formed_of_whole (.helper name parameters body) trivial).trans Event.formed_ofSegments

@[simp] theorem formed_namedSection {name : String} {body : List Segment} :
    (namedSection name body).Formed ↔ ∀ s ∈ body, s.Formed :=
  (formed_of_whole (.namedSection name body) trivial).trans Event.formed_ofSegments

end Segment

namespace Alternative

@[simp] theorem formed_nothing : nothing.Formed := List.forall_mem_nil _

@[simp] theorem formed_elseBranch {test : Expression} {body : List Segment} {otherwise : Alternative} :
    (elseBranch test body otherwise).Formed ↔ test.Formed ∧ (∀ s ∈ body, s.Formed) ∧ otherwise.Formed := by
  refine List.forall_mem_append.trans ?_
  rw [List.forall_mem_append, Event.formed_ofSegments, and_assoc]
  rfl

@[simp] theorem formed_elseBody {body : List Segment} : (elseBody body).Formed ↔ ∀ s ∈ body, s.Formed :=
  Event.formed_ofSegments

end Alternative

namespace Grammar

/-! ## Expressions -/

/-- yields formed expressions from readable tokens -/
abbrev YieldsFormed (operators : List String) (m : Parser Expression) : Prop :=
  Yields Token.Readable (Expression.FormedOver operators) m

theorem formed_nameOrLiteral {operators : List String} {t : Token} (h : IsWord t.text) :
    (nameOrLiteral t).FormedOver operators := by
  unfold nameOrLiteral
  split
  · next hl => exact Expression.formed_literal.2 (isLiteral_word (by simpa [or_assoc] using hl))
  · next hl => exact Expression.formed_name.2 ⟨h, by simpa [or_assoc] using hl⟩

section

variable {operators : List String} {expression : Parser Expression}

theorem formed_listMark (close : String) {items : List Expression} (h : ∀ e ∈ items, e.FormedOver operators) :
    Gathers Token.Readable (Expression.FormedOver operators) (listMark close items) := by
  refine yields_bind (yields_peek _) fun t _ => ?_
  split
  · exact yields_bind (yields_consume _) fun _ _ => yields_pure h
  · exact yields_bind (yields_expect _ _) fun _ _ => yields_pure h

theorem formed_listRound (he : YieldsFormed operators expression) (close : String) {items : List Expression}
    (h : ∀ e ∈ items, e.FormedOver operators) :
    Gathers Token.Readable (Expression.FormedOver operators) (listRound expression close items) :=
  yields_bind he fun _ he => formed_listMark close (forall_mem_snoc h he)

theorem formed_listUntil (he : YieldsFormed operators expression) (close : String) :
    Yields Token.Readable (fun items => ∀ e ∈ items, Expression.FormedOver operators e) (listUntil expression close) := by
  refine yields_bind (yields_peek _) fun t _ => ?_
  split
  · exact yields_bind (yields_consume _) fun _ _ => yields_pure (List.forall_mem_nil _)
  · exact yields_gather fun items h => formed_listRound he close h

theorem formed_suffixRest (he : YieldsFormed operators expression) {target : Expression}
    (h : target.FormedOver operators) (next : Token) : YieldsFormed operators (suffixRest expression target next) := by
  unfold suffixRest
  split
  · refine yields_bind (yields_expectCategory _ _) fun name hn => ?_
    exact yields_pure (Expression.formed_member.2 ⟨hn.1.word hn.2, h⟩)
  split
  · refine yields_bind he fun index hi => ?_
    exact yields_bind (yields_expect _ _) fun _ _ => yields_pure (Expression.formed_index.2 ⟨h, hi⟩)
  · exact yields_map (formed_listUntil he ")") fun arguments ha => Expression.formed_call.2 ⟨h, ha⟩

theorem formed_suffix (he : YieldsFormed operators expression) {target : Expression} (h : target.FormedOver operators)
    (next : Token) : YieldsFormed operators (suffix expression target next) :=
  yields_bind (yields_consume _) fun _ _ => formed_suffixRest he h next

theorem formed_chain (he : YieldsFormed operators expression) (b : Blanks) {first : Expression}
    (h : first.FormedOver operators) : YieldsFormed operators (chain expression b first) := by
  refine yields_iterate (I := Expression.FormedOver operators) h fun target ht => ?_
  refine yields_bind (yields_peek b) fun next _ => yields_bind (yields_peekNext b) fun after _ => ?_
  split
  · exact yields_pure ht
  split
  · exact yields_map (formed_suffix he ht next) fun _ h => h
  · exact yields_pure ht

/-- a string begins with its quote as long as it is open, and then ends with it -/
theorem formed_stringRound {quote : Token} (hq : quote.text = "\"" ∨ quote.text = "'") {raw : String}
    (h : ∃ cs, raw.toList = quote.text.toList ++ cs) :
    Yields Token.Readable
      (Sum.elim (fun raw => ∃ cs, String.toList raw = quote.text.toList ++ cs) (Expression.FormedOver operators))
      (stringRound quote raw) := by
  obtain ⟨cs, hcs⟩ := h
  refine yields_bind yields_atEnd fun ended _ => ?_
  split
  · exact yields_fail _
  refine yields_bind (yields_consume _) fun t _ => ?_
  split
  · exact yields_bind (yields_consume _) fun e _ => yields_pure ⟨cs ++ t.text.toList ++ e.text.toList, by simp [hcs]⟩
  split
  · next hclose =>
    have ht : t.text = quote.text := by
      rw [Token.is, Bool.and_eq_true, beq_iff_eq] at hclose
      exact hclose.2
    have hraw : (raw ++ t.text).toList = quote.text.toList ++ cs ++ quote.text.toList := by
      rw [String.toList_append, hcs, ht]
    refine yields_pure (Expression.formed_literal.2 ?_)
    rcases hq with hq | hq
    · exact Enclosed.isLiteral (Or.inl rfl) ⟨cs, by rw [hraw, hq]; rfl⟩
    · exact Enclosed.isLiteral (Or.inr rfl) ⟨cs, by rw [hraw, hq]; rfl⟩
  · exact yields_pure ⟨cs ++ t.text.toList, by simp [hcs]⟩

theorem formed_stringLiteral {s : TokenStream} (hs : s.All Token.Readable)
    (hq : (s.peek .skipped).is "\"" = true ∨ (s.peek .skipped).is "'" = true) :
    YieldsAt Token.Readable s (Expression.FormedOver operators) stringLiteral := by
  have htext : (s.peek .skipped).text = "\"" ∨ (s.peek .skipped).text = "'" := by
    simp only [Token.is, Bool.and_eq_true, beq_iff_eq] at hq
    exact hq.imp And.right And.right
  exact yieldsAt_consume hs (yields_iterate ⟨[], by simp⟩ fun raw h => formed_stringRound htext h)

theorem formed_primary (he : YieldsFormed operators expression) : YieldsFormed operators (primary expression) := by
  intro s hs
  have hreadable : (s.peek .skipped).Readable := (hs.passBlank .skipped).peekNth 0
  refine yieldsAt_peek ?_
  split
  · next hc =>
    refine yields_bind (yields_consume _) (fun _ _ => yields_pure ?_) s hs
    exact Expression.formed_literal.2 (hreadable.numeric hc)
  · next hc =>
    exact yields_bind (yields_consume _) (fun _ _ => yields_pure (formed_nameOrLiteral (hreadable.word hc))) s hs
  · exact yields_fail _ s hs
  split
  · next hq =>
    simp only [Bool.and_eq_true, Bool.or_eq_true] at hq
    exact formed_stringLiteral hs hq.2
  split
  · refine yields_bind (yields_consume _) (fun _ _ => yields_bind he fun inner hi => ?_) s hs
    exact yields_bind (yields_expect _ _) fun _ _ => yields_pure hi
  split
  · refine yields_bind (yields_consume _) (fun _ _ => ?_) s hs
    exact yields_map (formed_listUntil he "]") fun items hi => Expression.formed_array.2 hi
  · exact yields_fail _ s hs

theorem formed_suffixed (he : YieldsFormed operators expression) : YieldsFormed operators (suffixed expression) := by
  refine yields_bind (formed_primary he) fun first hf => yields_bind (formed_chain he _ hf) fun operand ho => ?_
  refine yields_bind (yields_peek _) fun next _ => ?_
  split
  · next h =>
    -- what stands behind an operand may stand in front of one too
    have hmem : next.text ∈ "new" :: frontOperators := by
      simp only [Token.is, Bool.or_eq_true, Bool.and_eq_true, beq_iff_eq] at h
      rcases h with ⟨-, h⟩ | ⟨-, h⟩ <;> rw [h] <;> decide
    exact yields_bind (yields_consume _) fun _ _ => yields_pure (Expression.formed_unary.2 ⟨hmem, ho⟩)
  · exact yields_pure ho

/-- an operator in front makes a formed expression of a formed one -/
theorem formed_frontOperator? {t : Token} {wrap : Expression → Expression} (h : frontOperator? t = some wrap)
    {e : Expression} (he : e.FormedOver operators) : (wrap e).FormedOver operators := by
  obtain ⟨hm, rfl⟩ := frontOperator?_eq_some h
  exact Expression.formed_unary.2 ⟨hm, he⟩

theorem formed_operand (he : YieldsFormed operators expression) : YieldsFormed operators (operand expression) := by
  refine yields_iterate (I := fun wrap => ∀ e : Expression, e.FormedOver operators → (wrap e).FormedOver operators)
    (fun _ h => h) fun wrap hw => ?_
  refine yields_bind (yields_peek _) fun t _ => ?_
  split
  · next operator ho =>
    exact yields_bind (yields_consume _) fun _ _ => yields_pure fun e h => hw _ (formed_frontOperator? ho h)
  · exact yields_map (formed_suffixed he) fun e h => hw e h

theorem formed_binaryLevel {level : List String} (hl : level ⊆ operators) {tighter : Parser Expression}
    (ht : YieldsFormed operators tighter) : YieldsFormed operators (binaryLevel level tighter) := by
  refine yields_bind ht fun first hf => yields_iterate (I := Expression.FormedOver operators) hf fun left hleft => ?_
  refine yields_bind (yields_peek _) fun t _ => ?_
  split
  · next operator hop =>
    have hmem := hl (binaryOperator?_eq_some.1 hop).2.1
    refine yields_bind (yields_consume _) fun _ _ => ?_
    exact yields_map ht fun right hr => Expression.formed_binary.2 ⟨hmem, hleft, hr⟩
  · exact yields_pure hleft

theorem formed_levels {tightest : Parser Expression} (ht : YieldsFormed operators tightest) {levels : List (List String)}
    (hl : levels.flatten ⊆ operators) : YieldsFormed operators (levels.foldr binaryLevel tightest) := by
  induction levels with
  | nil => exact ht
  | cons level levels ih =>
    rw [List.flatten_cons, List.append_subset] at hl
    exact formed_binaryLevel hl.1 (ih hl.2)

theorem formed_expressionOver (hl : binaryLevels.flatten ⊆ operators) (he : YieldsFormed operators expression) :
    YieldsFormed operators (expressionOver expression) := by
  refine yields_bind (formed_levels (formed_operand he) hl) fun test ht => ?_
  refine yields_bind (yields_peek _) fun next _ => ?_
  split
  · refine yields_bind (yields_consume _) fun _ _ => yields_bind he fun whenTrue hw => ?_
    refine yields_bind (yields_expect _ _) fun _ _ => ?_
    exact yields_map he fun whenFalse hf => Expression.formed_conditional.2 ⟨ht, hw, hf⟩
  · exact yields_pure ht

end

/-- **Expressions are formed**, over all operators among which are those of the levels. -/
theorem formed_expression {operators : List String} (hl : binaryLevels.flatten ⊆ operators) :
    YieldsFormed operators expression :=
  yields_recursive (Q := fun _ => Expression.FormedOver operators) (fun _ h _ => formed_expressionOver hl (h ())) ()

theorem formed_parenthesized {operators : List String} (hl : binaryLevels.flatten ⊆ operators) :
    YieldsFormed operators parenthesized := by
  refine yields_bind (yields_consume _) fun _ _ => yields_bind (formed_expression hl) fun e he => ?_
  exact yields_bind (yields_expect _ _) fun _ _ => yields_pure he

theorem formed_inlineChain {operators : List String} (hl : binaryLevels.flatten ⊆ operators) {s : TokenStream}
    (hs : s.All Token.Readable) (hw : (s.peek .kept).isAlphanumeric = true) :
    YieldsAt Token.Readable s (Expression.FormedOver operators) inlineChain := by
  have hword : IsWord (s.peek .kept).text := (hs.peekNth 0).word (beq_iff_eq.1 hw)
  exact yieldsAt_consume hs (formed_chain (formed_expression hl) _ (formed_nameOrLiteral hword))

/-! ## Text, names and comments -/

/-- leaves readable tokens of readable ones; nothing is said of the result -/
abbrev Passes {α : Type} (m : Parser α) : Prop := Yields Token.Readable (fun _ => True) m

theorem passes_word (b : Blanks) : Passes (word b) := yields_map (yields_expectCategory _ _) fun _ _ => trivial

theorem passes_blank : Passes blank := by
  refine yields_bind (yields_peek _) fun t _ => ?_
  split
  · exact yields_map (yields_consume _) fun _ _ => trivial
  · exact yields_pure trivial

theorem passes_iterate {σ α : Type} {step : σ → Parser (σ ⊕ α)} (h : ∀ a, Passes (step a)) (a : σ) :
    Passes (iterate a step) :=
  yields_iterate (I := fun _ => True) trivial fun a _ => (h a).mono fun x _ => by cases x <;> trivial

theorem passes_startsMarkup : Passes startsMarkup :=
  yields_bind (yields_peek _) fun _ _ => yields_bind (yields_peekNth _) fun _ _ =>
    yields_bind (yields_peekNth _) fun _ _ => yields_pure trivial

theorem passes_isAddressAt (text : String) : Passes (isAddressAt text) :=
  yields_bind (yields_peekNext _) fun _ _ => yields_pure trivial

theorem passes_textRun : Passes textRun := by
  refine yields_bind (yields_consume _) fun t _ => passes_iterate (fun text => ?_) t.text
  refine yields_bind (yields_peek _) fun t _ => yields_bind (passes_isAddressAt text) fun address _ => ?_
  split
  · exact yields_pure trivial
  split
  · exact yields_map (yields_consume _) fun _ _ => trivial
  split
  · exact yields_pure trivial
  · exact yields_map (yields_consume _) fun _ _ => trivial

theorem passes_htmlComment (start : Position) : Passes (htmlComment start) := by
  refine yields_bind (yields_expect _ _) fun _ _ => passes_iterate (fun reversed => ?_) []
  refine yields_bind yields_atEnd fun ended _ => ?_
  split
  · exact yields_fail _
  · refine yields_bind (yields_consume _) fun t _ => ?_
    split <;> exact yields_pure trivial

theorem passes_docType (start : Position) : Passes (docType start) := by
  refine passes_iterate (fun text => ?_) ""
  refine yields_bind yields_atEnd fun ended _ => yields_bind (yields_peek _) fun t _ => ?_
  split
  · exact yields_bind (yields_expect _ _) fun _ _ => yields_pure trivial
  split
  · exact yields_fail _
  · exact yields_map (yields_consume _) fun _ _ => trivial

theorem passes_templateComment (start : Position) : Passes (templateComment start) := by
  refine yields_bind (yields_expect _ _) fun _ _ => passes_iterate (fun text => ?_) ""
  refine yields_bind (yields_peek _) fun t _ => yields_bind (yields_peekNext _) fun after _ => ?_
  split
  · exact yields_fail _
  split
  · exact yields_bind (yields_consume _) fun _ _ => yields_bind (yields_consume _) fun _ _ => yields_pure trivial
  · exact yields_map (yields_consume _) fun _ _ => trivial

theorem passes_tagName : Passes tagName := by
  refine yields_bind (passes_word _) fun name _ => passes_iterate (fun name => ?_) name
  refine yields_bind (yields_peek _) fun joiner _ => yields_bind (yields_peekNext _) fun next _ => ?_
  split
  · exact yields_bind (yields_consume _) fun _ _ => yields_bind (yields_consume _) fun _ _ => yields_pure trivial
  · exact yields_pure trivial

theorem passes_parameters : Passes parameters := by
  refine yields_bind (yields_peek _) fun t _ => ?_
  split
  · exact yields_pure trivial
  refine passes_iterate (fun names => yields_bind (passes_word _) fun name _ => ?_) []
  refine yields_bind (yields_peek _) fun t _ => ?_
  split
  · exact yields_bind (yields_consume _) fun _ _ => yields_pure trivial
  · exact yields_pure trivial

theorem passes_endTag (tag : String) (start : Position) : Passes (endTag tag start) := by
  refine yields_bind passes_blank fun leading _ => yields_bind (yields_expect _ _) fun close _ => ?_
  refine yields_bind (yields_expect _ _) fun _ _ => yields_bind passes_tagName fun name _ => ?_
  split
  · exact yields_fail _
  · refine yields_bind passes_blank fun inside _ => ?_
    exact yields_bind (yields_expect _ _) fun _ _ => yields_pure trivial

/-! ## Statements -/

/-- the operators of the levels are among those that a statement may have -/
theorem levels_subset : binaryLevels.flatten ⊆ binaryLevels.flatten ++ assignmentOperators :=
  List.subset_append_left _ _

theorem formed_action : Yields Token.Readable Expression.Formed action := by
  refine yields_bind (formed_expression levels_subset) fun target ht => yields_bind (yields_peek _) fun next _ => ?_
  split
  · next operator ho =>
    have hmem := List.mem_append_right binaryLevels.flatten (binaryOperator?_eq_some.1 ho).2.1
    refine yields_bind (yields_consume _) fun _ _ => ?_
    exact yields_map (formed_expression levels_subset) fun value hv => Expression.formed_binary.2 ⟨hmem, ht, hv⟩
  · exact yields_pure ht

/-- the initializer of a declaration is formed -/
theorem formed_declaration :
    Yields Token.Readable (fun d => ∀ x, Declaration.init d = some x → x.Formed) declaration := by
  refine yields_bind (yields_expect _ _) fun _ _ => yields_bind (passes_word _) fun name _ => ?_
  refine yields_bind (yields_peek _) fun t _ => ?_
  split
  · refine yields_bind (yields_consume _) fun _ _ => yields_map (formed_expression levels_subset) fun e he x hx => ?_
    cases hx
    exact he
  · exact yields_pure nofun

section

variable {segment : Place → Parser Segment}

/-- yields formed segments from readable tokens -/
abbrev YieldsSegment (m : Parser Segment) : Prop := Yields Token.Readable Segment.Formed m

/-- yields lists of formed segments -/
abbrev YieldsSegments (m : Parser (List Segment)) : Prop := Yields Token.Readable (fun ss => ∀ s ∈ ss, Segment.Formed s) m

theorem formed_block (hs : ∀ p, YieldsSegment (segment p)) : YieldsSegments (block segment) := by
  refine yields_bind (yields_expect _ _) fun brace _ => ?_
  refine yields_gather fun body h => ?_
  refine yields_bind (yields_peek _) fun next _ => ?_
  split
  · exact yields_bind (yields_expect _ _) fun _ _ => yields_pure h
  split
  · exact yields_fail _
  · exact yields_map (hs .code) fun s h₁ => forall_mem_snoc h h₁

theorem formed_branchHead (hs : ∀ p, YieldsSegment (segment p)) :
    Yields Token.Readable (fun r => Expression.Formed r.1 ∧ ∀ s ∈ r.2, Segment.Formed s) (branchHead segment) := by
  refine yields_bind (yields_expect _ _) fun _ _ => yields_bind (yields_expect _ _) fun _ _ => ?_
  refine yields_bind (formed_expression levels_subset) fun test ht => yields_bind (yields_expect _ _) fun _ _ => ?_
  exact yields_map (formed_block hs) fun body hb => ⟨ht, hb⟩

theorem formed_alternative (hs : ∀ p, YieldsSegment (segment p)) :
    Yields Token.Readable (fun a : Alternative => a.Exclusive ∧ a.Formed) (alternative segment) := by
  refine yields_iterate (I := fun wrap => ∀ a : Alternative, a.Exclusive ∧ a.Formed → (wrap a).Exclusive ∧ (wrap a).Formed)
    (fun _ h => h) fun wrap hw => ?_
  refine yields_bind (yields_peek _) fun t _ => ?_
  split
  · refine yields_bind (yields_consume _) fun _ _ => yields_bind (yields_peek _) fun next _ => ?_
    split
    · refine yields_bind (formed_branchHead hs) fun r hr => yields_pure fun a ha => hw _ ?_
      exact ⟨ha.1, Alternative.formed_elseBranch.2 ⟨hr.1, hr.2, ha.2⟩⟩
    · exact yields_map (formed_block hs) fun body hb => hw _ ⟨trivial, Alternative.formed_elseBody.2 hb⟩
  · exact yields_pure (hw _ ⟨trivial, Alternative.formed_nothing⟩)

theorem formed_loopStatement (hs : ∀ p, YieldsSegment (segment p)) : YieldsSegment (loopStatement segment) := by
  refine yields_bind (yields_expect _ _) fun _ _ => yields_bind (yields_expect _ _) fun _ _ => ?_
  refine yields_bind (yields_peek _) fun next _ => ?_
  split
  · exact yields_fail _
  refine yields_bind formed_declaration fun counter hc => yields_bind (yields_expect _ _) fun _ _ => ?_
  refine yields_bind (formed_expression levels_subset) fun condition ht => yields_bind (yields_expect _ _) fun _ _ => ?_
  refine yields_bind formed_action fun iteration ha => yields_bind (yields_expect _ _) fun _ _ => ?_
  exact yields_map (formed_block hs) fun body hb => Segment.formed_loop.2 ⟨hc, ht, ha, hb⟩

theorem formed_eachStatement (hs : ∀ p, YieldsSegment (segment p)) : YieldsSegment (eachStatement segment) := by
  refine yields_bind (yields_expect _ _) fun _ _ => yields_bind (yields_expect _ _) fun _ _ => ?_
  refine yields_bind (yields_expect _ _) fun _ _ => yields_bind (passes_word _) fun item _ => ?_
  refine yields_bind (yields_expect _ _) fun _ _ => yields_bind (yields_peek _) fun next _ => ?_
  refine yields_bind (formed_expression levels_subset) fun collection hc => ?_
  split
  · exact yields_fail _
  refine yields_bind (yields_expect _ _) fun _ _ => ?_
  exact yields_map (formed_block hs) fun body hb => Segment.formed_each.2 ⟨hc, hb⟩

theorem formed_control (hs : ∀ p, YieldsSegment (segment p)) : YieldsSegment (control segment) := by
  refine yields_bind (yields_peek _) fun next _ => ?_
  split
  · refine yields_bind (formed_branchHead hs) fun r hr => ?_
    exact yields_map (formed_alternative hs) fun otherwise ho => Segment.formed_branch.2 ⟨ho.1, hr.1, hr.2, ho.2⟩
  split
  · exact formed_loopStatement hs
  · exact formed_eachStatement hs

theorem formed_helper (hs : ∀ p, YieldsSegment (segment p)) : YieldsSegment (helper segment) := by
  refine yields_bind (yields_expect _ _) fun _ _ => yields_bind (passes_word _) fun name _ => ?_
  refine yields_bind (yields_expect _ _) fun _ _ => yields_bind passes_parameters fun names _ => ?_
  refine yields_bind (yields_expect _ _) fun _ _ => ?_
  exact yields_map (formed_block hs) fun body hb => Segment.formed_helper.2 hb

theorem formed_namedSection (hs : ∀ p, YieldsSegment (segment p)) : YieldsSegment (namedSection segment) := by
  refine yields_bind (yields_expect _ _) fun _ _ => yields_bind (passes_word _) fun name _ => ?_
  exact yields_map (formed_block hs) fun body hb => Segment.formed_namedSection.2 hb

/-! ## What an `@` opens -/

theorem formed_construct (hs : ∀ p, YieldsSegment (segment p)) (leading : String) (mark : Token) :
    YieldsSegment (construct segment leading mark) := by
  intro s hr
  refine yieldsAt_peek ?_
  split
  · exact yields_bind (yields_consume _) (fun _ _ => yields_pure (Segment.formed_text _)) s hr
  split
  · exact yields_map (passes_templateComment _) (fun s _ => Segment.formed_comment s) s hr
  split
  · exact yields_map (formed_parenthesized levels_subset) (fun e he => Segment.formed_inline.2 he) s hr
  split
  · exact yields_map (formed_block hs) (fun body hb => Segment.formed_block.2 hb) s hr
  split
  · next hw =>
    split
    · exact formed_helper hs s hr
    split
    · exact formed_namedSection hs s hr
    split
    · exact formed_control hs s hr
    · exact yieldsAt_bind (formed_inlineChain levels_subset hr hw) fun e he => yields_pure (Segment.formed_inline.2 he)
  · exact yields_fail _ s hr

theorem formed_embedded (hs : ∀ p, YieldsSegment (segment p)) : YieldsSegment (embedded segment) :=
  yields_bind passes_blank fun leading _ => yields_bind (yields_expectCategory _ _) fun mark _ =>
    formed_construct hs leading mark

end

/-! ## Tags -/

section

variable {inValue here inner : Parser Segment}

theorem passes_startsInline (t : Token) (text : String) : Passes (startsInline t text) := by
  unfold startsInline
  split
  · exact yields_map (passes_isAddressAt text) fun _ _ => trivial
  · exact yields_map (yields_peekNext _) fun _ _ => trivial

theorem formed_withText {parts : List ValuePart} (h : ∀ p ∈ parts, p.Formed) (text : String) :
    ∀ p ∈ withText parts text, p.Formed := by
  unfold withText
  split
  · exact h
  · exact forall_mem_snoc h trivial

theorem formed_valueRound (hv : YieldsSegment inValue) (quote : Token) {parts : List ValuePart}
    (h : ∀ p ∈ parts, p.Formed) (text : String) :
    Yields Token.Readable
      (Sum.elim (fun r : List ValuePart × String => ∀ p ∈ r.1, p.Formed) fun parts => ∀ p ∈ parts, ValuePart.Formed p)
      (valueRound inValue quote parts text) := by
  refine yields_bind (yields_peek _) fun t _ => yields_bind (passes_startsInline t text) fun inline _ => ?_
  split
  · exact yields_pure (formed_withText h text)
  split
  · exact yields_fail _
  split
  · refine yields_bind hv fun s hs => ?_
    split
    · exact yields_pure (forall_mem_snoc (formed_withText h text) (Segment.formed_inline.1 hs))
    · exact yields_pure (formed_withText h text)
    · exact yields_pure (formed_withText h text)
    · exact yields_fail _
  · exact yields_map (yields_consume _) fun _ _ => h

theorem formed_valueParts (hv : YieldsSegment inValue) (quote : Token) :
    Yields Token.Readable (fun parts => ∀ p ∈ parts, ValuePart.Formed p) (valueParts inValue quote) :=
  yields_iterate (I := fun r : List ValuePart × String => ∀ p ∈ r.1, p.Formed) (List.forall_mem_nil _)
    fun r h => formed_valueRound hv quote h r.2

theorem formed_oneAttribute (hv : YieldsSegment inValue) :
    Yields Token.Readable Attribute.Formed (oneAttribute inValue) := by
  refine yields_bind (yields_expectCategory _ _) fun leading _ => yields_bind passes_tagName fun name _ => ?_
  refine yields_bind (yields_peek _) fun next _ => ?_
  split
  · exact yields_pure ⟨fun _ => rfl, List.forall_mem_nil _⟩
  refine yields_bind passes_blank fun before _ => yields_bind (yields_expect _ _) fun sign _ => ?_
  refine yields_bind passes_blank fun behind _ => yields_bind (yields_expectOneOf _ _) fun quote hq => ?_
  refine yields_bind (formed_valueParts hv quote) fun values hp => ?_
  refine yields_bind (yields_expect _ _) fun _ _ => yields_pure ⟨fun h => ?_, hp⟩
  have hq : quote.text = "\"" ∨ quote.text = "'" := by
    have := hq.2
    simp only [Token.isOneOf, Token.is, List.any_cons, List.any_nil, Bool.or_false, Bool.or_eq_true, Bool.and_eq_true,
      beq_iff_eq] at this
    exact this.imp And.right And.right
  have h : quote.text.toList.head? = none := h
  rcases hq with hq | hq <;> rw [hq] at h <;> cases h

theorem formed_attributes (hv : YieldsSegment inValue) (tag : String) (start : Position) :
    Yields Token.Readable (fun as => ∀ a ∈ as, Attribute.Formed a) (attributes inValue tag start) := by
  refine yields_gather fun as h => ?_
  refine yields_bind (yields_peek _) fun next _ => ?_
  split
  · exact yields_pure h
  split
  · exact yields_fail _
  · exact yields_map (formed_oneAttribute hv) fun a ha => forall_mem_snoc h ha

theorem formed_children (hi : YieldsSegment inner) (tag : String) (start : Position) :
    YieldsSegments (children inner tag start) := by
  refine yields_gather fun children h => ?_
  refine yields_bind (yields_peek _) fun mark _ => yields_bind (yields_peekNext _) fun after _ => ?_
  refine yields_bind yields_atEnd fun ended _ => ?_
  split
  · exact yields_fail _
  split
  · exact yields_pure h
  · exact yields_map hi fun s hs => forall_mem_snoc h hs

theorem formed_markup (hv : YieldsSegment inValue) (hi : YieldsSegment inner) : YieldsSegment (markup inValue inner) := by
  refine yields_bind passes_blank fun leading _ => yields_bind (yields_expect _ _) fun mark _ => ?_
  refine yields_bind (yields_peek _) fun next _ => ?_
  split
  · refine yields_bind (yields_consume _) fun _ _ => yields_bind (yields_peek _) fun next _ => ?_
    split
    · exact yields_map (passes_htmlComment _) fun s _ => Segment.formed_htmlComment leading s
    · exact yields_map (passes_docType _) fun s _ => Segment.formed_docType leading s
  refine yields_bind passes_tagName fun name _ => yields_bind (formed_attributes hv name _) fun as ha => ?_
  refine yields_bind passes_blank fun beforeEnd _ => yields_bind (yields_peek _) fun next _ => ?_
  split
  · refine yields_bind (yields_expect _ _) fun _ _ => yields_bind (yields_expect _ _) fun _ _ => ?_
    exact yields_pure (Segment.formed_emptyElement.2 ha)
  refine yields_bind (yields_expect _ _) fun _ _ => ?_
  split
  · exact yields_pure (Segment.formed_emptyElement.2 ha)
  · refine yields_bind (formed_children hi name _) fun children hc => ?_
    exact yields_map (passes_endTag name _) fun close _ => Segment.formed_element.2 ⟨ha, hc⟩

/-! ## Segments -/

theorem formed_markupSegment (hh : YieldsSegment here) (hv : YieldsSegment inValue) (hi : YieldsSegment inner) :
    YieldsSegment (markupSegment here inValue inner) := by
  refine yields_bind (yields_peek _) fun next _ => ?_
  split
  · refine yields_bind (yields_peek _) fun t _ => yields_bind (yields_peekNth _) fun after _ => ?_
    split
    · exact yields_map passes_blank fun s _ => Segment.formed_text s
    · exact hh
  refine yields_bind passes_startsMarkup fun opens _ => ?_
  split
  · exact formed_markup hv hi
  · exact yields_map passes_textRun fun s _ => Segment.formed_text s

end

section

variable {segment : Place → Parser Segment}

theorem formed_codeSegment (hs : ∀ p, YieldsSegment (segment p)) : YieldsSegment (codeSegment segment) := by
  refine yields_bind passes_startsMarkup fun opens _ => ?_
  split
  · exact formed_markup (formed_embedded hs) (hs .markup)
  refine yields_bind (yields_peek _) fun next _ => ?_
  split
  · exact formed_embedded hs
  split
  · exact formed_control hs
  split
  · refine yields_bind formed_declaration fun d hd => ?_
    exact yields_bind (yields_expect _ _) fun _ _ => yields_pure (Segment.formed_declaration.2 hd)
  · refine yields_bind formed_action fun e he => ?_
    exact yields_bind (yields_expect _ _) fun _ _ => yields_pure (Segment.formed_action.2 he)

theorem formed_segmentOver (hs : ∀ p, YieldsSegment (segment p)) (p : Place) : YieldsSegment (segmentOver segment p) := by
  cases p with
  | markup => exact formed_markupSegment (formed_embedded hs) (formed_embedded hs) (hs .markup)
  | code => exact formed_codeSegment hs

end

theorem formed_segment (p : Place) : YieldsSegment (segment p) :=
  yields_recursive (Q := fun _ => Segment.Formed) (fun _ h i => formed_segmentOver h i) p

theorem formed_document : YieldsSegments (document (segment .markup)) := by
  refine yields_gather fun ss h => ?_
  refine yields_bind yields_atEnd fun ended _ => ?_
  split
  · exact yields_pure h
  · exact yields_map (formed_segment .markup) fun s hs => forall_mem_snoc h hs

/-- **Parsed templates are formed.** -/
theorem formed_parse {source : String} {t : Template} (h : Template.parse source = .ok t) : ∀ s ∈ t.segments, s.Formed := by
  obtain ⟨u, hu⟩ := parseAs_eq_ok.1 h
  exact (formed_document _ ⟨readable_tokensFrom .start source.toList, readable_endOfInput _⟩ _ _ hu).1

/-- a source writes no values without a quote, and no body beside a further `if` -/
theorem whole_parse {source : String} {t : Template} (h : Template.parse source = .ok t) : t.Whole := fun ev hev =>
  (Event.formed_ofSegments.2 (formed_parse h) ev hev).whole

end Grammar

end TemplateView
