/-
Parsed templates are well formed (`wellFormed_parse`). A text is never empty, whitespace fields hold whitespace alone, an
element without content has the name of one, an end tag has the name of its element, an attribute without a quote has
neither a separator nor values, the texts in quotes do not hold the quote, no body stands beside a further `if`, and an
assignment is the root of a statement. All this holds at every depth.

It comes from the tokens: what a parser makes of lexical tokens is shown along its definition, with the parsers of the
segments inside as a parameter. Of the operators it comes from the levels that the parser of expressions goes through.
-/
import TemplateView.Proofs.Generation.Compilation
import TemplateView.Proofs.Grammar.Elsewhere
import TemplateView.Proofs.Grammar.Formed
import TemplateView.Proofs.Grammar.Plain
import TemplateView.Proofs.Grammar.Spelled
import TemplateView.Proofs.Grammar.Strings
import TemplateView.Proofs.Grammar.Yields
import Mathlib.Data.Bool.AllAny

namespace TemplateView

/-! ## Well-formed templates -/

/-- one `=`, with whitespace around it perhaps -/
def IsSeparator (s : String) : Prop := ∃ before behind, s = before ++ "=" ++ behind ∧ IsBlank before ∧ IsBlank behind

/-- the operator of a node -/
def Expression.operator? : Expression → Option String
  | .unary operator _ _ => some operator
  | .binary _ operator _ => some operator
  | _ => none

/-- no node of the expression, however deep, has an assignment operator -/
def Expression.AssignsNothing (e : Expression) : Prop :=
  ∀ x, .expression x ∈ Event.ofExpression e → ∀ operator, x.operator? = some operator →
    operator ∉ Grammar.assignmentOperators

/-- the expression may be an assignment, but holds none -/
def Expression.AssignsAtRoot : Expression → Prop
  | .binary left _ right => left.AssignsNothing ∧ right.AssignsNothing
  | e => e.AssignsNothing

def Declaration.WellFormed (d : Declaration) : Prop := ∀ e, d.init = some e → e.AssignsNothing

def InlineExpression.WellFormed (i : InlineExpression) : Prop := IsBlank i.leading ∧ i.expression.AssignsNothing

/-- a text in quotes is not empty and does not hold the quote -/
def ValuePart.WellFormed (quote : Char) : ValuePart → Prop
  | .text s => s ≠ "" ∧ quote ∉ s.toList
  | .inline i => i.WellFormed

/-- without a quote there are neither a separator nor values -/
structure Attribute.WellFormed (a : Attribute) : Prop where
  leading : a.leading ≠ "" ∧ IsBlank a.leading
  bare : a.quote = none → a.separator = "" ∧ a.values = []
  quoted : ∀ quote, a.quote = some quote → IsSeparator a.separator ∧ ∀ p ∈ a.values, p.WellFormed quote

structure Tag.WellFormed (tag : Tag) : Prop where
  leading : IsBlank tag.leading
  attributes : ∀ a ∈ tag.attributes, a.WellFormed
  beforeEnd : IsBlank tag.beforeEnd

/-- the end tag has the name of the element, up to the case of ASCII letters -/
structure EndTag.WellFormed (name : String) (close : EndTag) : Prop where
  leading : IsBlank close.leading
  name : Text.equalIgnoringCase close.name name = true
  inside : IsBlank close.inside

mutual

/-- the segment is well formed, and so is all that is inside it -/
def Segment.WellFormed : Segment → Prop
  | .text s => s ≠ ""
  | .element tag children close =>
    tag.WellFormed ∧ isVoidElement tag.name = false ∧ close.WellFormed tag.name ∧ Segment.AllWellFormed children
  | .emptyElement tag closing => tag.WellFormed ∧ (closing = .void → isVoidElement tag.name = true)
  | .htmlComment leading _ => IsBlank leading
  | .docType leading _ => IsBlank leading
  | .inline i => i.WellFormed
  | .block body => Segment.AllWellFormed body
  | .declaration d => d.WellFormed
  | .branch test body otherwise => test.AssignsNothing ∧ Segment.AllWellFormed body ∧ otherwise.WellFormed
  | .loop counter condition iteration body =>
    counter.WellFormed ∧ condition.AssignsNothing ∧ iteration.AssignsAtRoot ∧ Segment.AllWellFormed body
  | .each _ collection body => collection.isAccess = true ∧ collection.AssignsNothing ∧ Segment.AllWellFormed body
  | .action e => e.AssignsAtRoot
  | .helper _ _ body => Segment.AllWellFormed body
  | .namedSection _ body => Segment.AllWellFormed body
  | .comment _ => True

def Segment.AllWellFormed : List Segment → Prop
  | [] => True
  | s :: ss => s.WellFormed ∧ Segment.AllWellFormed ss

def Alternative.WellFormed : Alternative → Prop
  | .nothing => True
  | .elseBranch test body otherwise => test.AssignsNothing ∧ Segment.AllWellFormed body ∧ otherwise.WellFormed
  | .elseBody body => Segment.AllWellFormed body
  | .both .. => False

end

def Template.WellFormed (t : Template) : Prop := Segment.AllWellFormed t.segments

theorem Segment.allWellFormed_iff {ss : List Segment} : AllWellFormed ss ↔ ∀ s ∈ ss, s.WellFormed := by
  induction ss with
  | nil => exact ⟨fun _ => List.forall_mem_nil _, fun _ => trivial⟩
  | cons s ss ih => rw [AllWellFormed, List.forall_mem_cons, ih]

/-! ## Operators -/

theorem Expression.AssignsNothing.atRoot {e : Expression} (h : e.AssignsNothing) : e.AssignsAtRoot := by
  cases e with
  | binary left operator right =>
    exact ⟨fun x hx => h x (List.mem_cons_of_mem _ (List.mem_append_left _ hx)),
      fun x hx => h x (List.mem_cons_of_mem _ (List.mem_append_right _ hx))⟩
  | _ => exact h

/-- what is formed over the operators of the levels has no others -/
theorem Expression.FormedOver.assignsNothing {e : Expression} (h : e.FormedOver Grammar.binaryLevels.flatten) :
    e.AssignsNothing := by
  have hfront : ∀ operator ∈ "new" :: Grammar.frontOperators, operator ∉ Grammar.assignmentOperators := by decide
  have hlevels : ∀ operator ∈ Grammar.binaryLevels.flatten, operator ∉ Grammar.assignmentOperators := by decide
  intro x hx operator hop
  have hformed := h _ hx
  cases x with
  | unary _ _ _ => cases hop; exact hfront _ hformed
  | binary _ _ _ => cases hop; exact hlevels _ hformed
  | _ => cases hop

/-! ## Lexical tokens -/

/-- a lexeme: it is not empty, whitespace is blank, a quote is a lexeme of its own, and a number has a value -/
structure Token.Lexical (t : Token) : Prop where
  ne_empty : t.text ≠ ""
  blank : t.isWhitespace = true → IsBlank t.text
  quote : ∀ q : Char, q = '"' ∨ q = '\'' → t.text ≠ String.singleton q → q ∉ t.text.toList
  readable : t.Readable

theorem lexical_firstLexeme (p : Position) (c : Char) (cs : List Char) :
    Token.Lexical ⟨p, String.ofList (firstLexeme c cs).2.1, (firstLexeme c cs).1⟩ := by
  refine ⟨?_, fun hw d hd => ?_, fun q hmark hq => ?_, ?_⟩
  · rw [Ne, String.ofList_eq_empty_iff]
    exact firstLexeme_ne_nil c cs
  · have hall := (firstLexeme_category c cs).1 (beq_iff_eq.1 hw)
    rw [String.toList_ofList] at hd
    exact List.all_eq_true.1 hall d hd
  · obtain ⟨x, hx, -, hplain⟩ := Grammar.firstLexeme_plain c cs
    rw [String.toList_ofList, hx, List.mem_cons, not_or]
    refine ⟨?_, fun hin => hplain q hin (by rcases hmark with rfl | rfl <;> decide)⟩
    -- a lexeme that starts with the quote is the quote
    rintro rfl
    rw [Grammar.firstLexeme_quote hmark] at hq
    exact hq rfl
  · exact ⟨fun hk => (decimal_firstLexeme hk).isLiteral, isWord_firstLexeme⟩

theorem lexical_tokensFrom (p : Position) (cs : List Char) : ∀ t ∈ tokensFrom p cs, t.Lexical := by
  fun_induction tokensFrom p cs with
  | case1 p => exact List.forall_mem_nil _
  | case2 p c cs lexeme ih => exact List.forall_mem_cons.2 ⟨lexical_firstLexeme p c cs, ih⟩

/-- all tokens that are left are lexical -/
def TokenStream.Lexical (s : TokenStream) : Prop := ∀ t ∈ s.rest, t.Lexical

/-- a token that is there -/
theorem TokenStream.Lexical.peek {s : TokenStream} (h : s.Lexical) (hend : (s.peek .kept).isEnd = false) :
    (s.peek .kept).Lexical := by
  obtain ⟨rest, finish⟩ := s
  cases rest with
  | nil => cases hend
  | cons t rest => exact h t List.mem_cons_self

theorem TokenStream.Lexical.readable {s : TokenStream} (h : s.Lexical) : s.All Token.Readable :=
  ⟨fun t ht => (h t ht).readable, readable_endOfInput _⟩

/-! ## What parsers make of lexical tokens -/

theorem Agree.shrinks {A : Sequel} {α β : Type} {R : α → β → Prop} {m : Parser α} {m' : Parser β} (h : Agree A R m m') :
    Parser.Shrinks m :=
  fun s => (h.takes s).mono fun _ _ _ => trivial

namespace Parser

variable {α β σ ι : Type} {P Q : α → Prop} {s : TokenStream}

/-- from lexical tokens, all results are as described -/
def Makes (Q : α → Prop) (m : Parser α) : Prop := ∀ s : TokenStream, s.Lexical → Takes m s fun _ a => Q a

theorem makes_pure {a : α} (h : Q a) : Makes Q (pure a) := fun _ _ => takes_pure h

theorem makes_fail {e : ParseError} : Makes Q (fail e) := fun _ _ => takes_fail

/-- nothing is asked of the result -/
theorem Shrinks.makes {m : Parser α} (h : Shrinks m) : Makes (fun _ => True) m := fun s _ => h s

/-- what a parser yields of readable tokens -/
theorem Shrinks.takes_yields {m : Parser α} (h : Shrinks m) (hy : YieldsAt Token.Readable s P m) :
    Takes m s fun _ a => P a := by
  intro a t hm
  obtain ⟨used, he, -⟩ := h s a t hm
  exact ⟨used, he, (hy a t hm).1⟩

theorem Shrinks.makes_yields {m : Parser α} (h : Shrinks m) (hy : Yields Token.Readable P m) : Makes P m :=
  fun s hs => h.takes_yields (hy s hs.readable)

/-- a step on a stream, and what follows on any stream -/
theorem takes_makes (hs : s.Lexical) {m : Parser α} {f : α → Parser β} {Q : β → Prop} (hm : Takes m s fun _ => P)
    (hf : ∀ a, P a → Makes Q (f a)) : Takes (m >>= f) s fun _ b => Q b :=
  takes_bind hm fun used a t ht ha => hf a ha t fun c hc => hs c (by rw [ht]; exact List.mem_append_right used hc)

theorem makes_bind {m : Parser α} {f : α → Parser β} {Q : β → Prop} (hm : Makes P m) (hf : ∀ a, P a → Makes Q (f a)) :
    Makes Q (m >>= f) :=
  fun s hs => takes_makes hs (hm s hs) hf

/-- the result of the first step does not matter -/
theorem makes_after {m : Parser α} {f : α → Parser β} {Q : β → Prop} (hm : Shrinks m) (hf : ∀ a, Makes Q (f a)) :
    Makes Q (m >>= f) :=
  makes_bind hm.makes fun a _ => hf a

theorem makes_map {m : Parser α} {f : α → β} {Q : β → Prop} (hm : Makes P m) (hf : ∀ a, P a → Q (f a)) :
    Makes Q (m >>= fun a => pure (f a)) :=
  makes_bind hm fun a ha => makes_pure (hf a ha)

theorem makes_consume : Makes Token.Lexical (consume .kept) := by
  intro s hs t s' hm
  have hp : s = ⟨t :: s'.rest, s'.finish⟩ := consume_eq_ok.1 hm
  exact ⟨[t], hp, hs t (by rw [hp]; exact List.mem_cons_self)⟩

theorem makes_expected (e : Expected) :
    Makes (fun t => t.Lexical ∧ e.matches t = true) (taking (·.consumeExpected .kept e)) := by
  intro s hs t s' hm
  obtain ⟨hp, ht⟩ := consumeExpected_eq_ok.1 (taking_eq_ok.1 hm)
  have hp : s = ⟨t :: s'.rest, s'.finish⟩ := hp
  exact ⟨[t], hp, hs t (by rw [hp]; exact List.mem_cons_self), ht⟩

/-- whitespace that is next -/
theorem takes_space (hs : s.Lexical) (hw : (s.peek .kept).isWhitespace = true) :
    Takes blank s fun _ text => text ≠ "" ∧ IsBlank text := by
  have hend : (s.peek .kept).isEnd = false := by
    rw [Token.isWhitespace, beq_iff_eq] at hw
    rw [Token.isEnd, hw]
    rfl
  have ht := hs.peek hend
  refine takes_peek ?_
  rw [if_pos hw]
  exact takes_makes hs (takes_consume (Q := fun _ t => t.text ≠ "" ∧ IsBlank t.text) ⟨ht.ne_empty, ht.blank hw⟩)
    fun t h => makes_pure h

theorem makes_blank : Makes IsBlank blank := by
  intro s hs
  by_cases hw : (s.peek .kept).isWhitespace = true
  · exact (takes_space hs hw).mono fun _ _ h => h.2
  · refine takes_peek ?_
    rw [if_neg hw]
    exact takes_pure isBlank_empty

theorem makes_iterate {step : σ → Parser (σ ⊕ α)} {I : σ → Prop} {a : σ} (h : I a)
    (hs : ∀ a, I a → Makes (Sum.elim I Q) (step a)) : Makes Q (iterate a step) := by
  have key : ∀ (n : Nat) (a : σ), I a → Makes Q (loop step n a) := by
    intro n
    induction n with
    | zero => exact fun a _ s _ => takes_stalled
    | succ n ih =>
      intro a ha
      refine makes_bind (hs a ha) fun x hx => ?_
      cases x with
      | inl b => exact ih b hx
      | inr r => exact makes_pure hx
  exact fun s => key (s.remaining + 1) a h s

/-- a loop that gathers items of a kind -/
theorem makes_gather {step : List ι → Parser (List ι ⊕ List ι)} {I : ι → Prop}
    (hs : ∀ items, (∀ i ∈ items, I i) →
      Makes (Sum.elim (fun items => ∀ i ∈ items, I i) fun items => ∀ i ∈ items, I i) (step items)) :
    Makes (fun items => ∀ i ∈ items, I i) (iterate [] step) :=
  makes_iterate (List.forall_mem_nil _) hs

theorem makes_recursive {unfold : (ι → Parser α) → ι → Parser α} {Q : ι → α → Prop}
    (h : ∀ self : ι → Parser α, (∀ i, Makes (Q i) (self i)) → ∀ i, Makes (Q i) (unfold self i)) (i : ι) :
    Makes (Q i) (recursive unfold i) := by
  have key : ∀ n i, Makes (Q i) (nested unfold n i) := by
    intro n
    induction n with
    | zero => exact fun i s _ => takes_stalled
    | succ n ih => exact h (nested unfold n) ih
  exact fun s => key (s.remaining + 1) i s

end Parser

namespace Grammar

open TemplateView.Parser

/-! ## Text -/

theorem append_ne_empty {s : String} (h : s ≠ "") (t : String) : s ++ t ≠ "" := by
  rw [Ne, String.append_eq_empty_iff]
  exact fun he => h he.1

theorem makes_textRun : Makes (· ≠ "") textRun := by
  refine makes_bind makes_consume fun first hf => makes_iterate (I := (· ≠ "")) hf.ne_empty fun text h => ?_
  refine makes_after (shrinks_peek _) fun t => makes_after (shrinks_of (takes_isAddressAt text)) fun address => ?_
  split
  · exact makes_pure h
  split
  · exact makes_map makes_consume fun u _ => append_ne_empty h u.text
  split
  · exact makes_pure h
  · exact makes_map makes_consume fun u _ => append_ne_empty h u.text

/-- whitespace and a sign that is no quote hold no quote -/
theorem notMem_of_blank {leading : String} (h : IsBlank leading) {q : Char} (hq : q = '"' ∨ q = '\'') :
    q ∉ (leading ++ "@").toList := by
  have hmark : isSpace q = false ∧ q ≠ '@' := by rcases hq with rfl | rfl <;> decide
  rw [String.toList_append, List.mem_append, not_or]
  exact ⟨fun hin => absurd (hmark.1.symm.trans (h q hin)) (by decide), fun hin => hmark.2 (List.mem_singleton.1 hin)⟩

/-! ## Statements -/

section

variable {segment : Place → Parser Segment}

/-- makes well-formed segments -/
abbrev MakesSegment (m : Parser Segment) : Prop := Makes Segment.WellFormed m

theorem makes_expression : Makes Expression.AssignsNothing expression :=
  shrinks_expression.makes_yields ((formed_expression (List.Subset.refl _)).mono fun _ h => h.assignsNothing)

theorem makes_action : Makes Expression.AssignsAtRoot action := by
  refine makes_bind makes_expression fun target ht => makes_after (shrinks_peek _) fun next => ?_
  split
  · exact makes_after (advances_consume _).shrinks fun _ => makes_map makes_expression fun value hv => ⟨ht, hv⟩
  · exact makes_pure ht.atRoot

theorem shrinks_expect (b : Blanks) (text : String) : Shrinks (expect b text) := (advances_expect b text).shrinks

theorem shrinks_word (b : Blanks) : Shrinks (word b) := (agree_word (A := .ended) b).shrinks

theorem makes_declaration : Makes Declaration.WellFormed declaration := by
  refine makes_after (shrinks_expect _ _) fun _ => makes_after (shrinks_word _) fun name => ?_
  refine makes_after (shrinks_peek _) fun next => ?_
  split
  · refine makes_after (advances_consume _).shrinks fun _ => makes_map makes_expression fun init hi e he => ?_
    cases he
    exact hi
  · exact makes_pure nofun

theorem makes_block (hs : ∀ p, MakesSegment (segment p)) : Makes Segment.AllWellFormed (block segment) := by
  refine makes_after (shrinks_expect _ _) fun brace => ?_
  have hbody : Makes (fun body => ∀ s ∈ body, Segment.WellFormed s) (iterate [] (blockRound segment brace.position)) := by
    refine makes_gather fun body h => ?_
    refine makes_after (shrinks_peek _) fun next => ?_
    split
    · exact makes_after (shrinks_expect _ _) fun _ => makes_pure h
    split
    · exact makes_fail
    · exact makes_map (hs .code) fun s hw => forall_mem_snoc h hw
  exact fun s hl => (hbody s hl).mono fun _ _ h => Segment.allWellFormed_iff.2 h

theorem makes_branchHead (hs : ∀ p, MakesSegment (segment p)) :
    Makes (fun r => r.1.AssignsNothing ∧ Segment.AllWellFormed r.2) (branchHead segment) := by
  refine makes_after (shrinks_expect _ _) fun _ => makes_after (shrinks_expect _ _) fun _ => ?_
  refine makes_bind makes_expression fun test ht => makes_after (shrinks_expect _ _) fun _ => ?_
  exact makes_map (makes_block hs) fun body hb => ⟨ht, hb⟩

theorem makes_alternative (hs : ∀ p, MakesSegment (segment p)) : Makes Alternative.WellFormed (alternative segment) := by
  -- what is kept of the branches so far: they are well formed with any well-formed alternative behind them
  refine makes_iterate (I := fun wrap => ∀ a : Alternative, a.WellFormed → (wrap a).WellFormed) (fun _ h => h) ?_
  refine fun wrap hw => makes_after (shrinks_peek _) fun t => ?_
  split
  · refine makes_after (advances_consume _).shrinks fun _ => makes_after (shrinks_peek _) fun next => ?_
    split
    · refine makes_bind (makes_branchHead hs) fun r hr => makes_pure fun a ha => hw _ ?_
      exact ⟨hr.1, hr.2, ha⟩
    · exact makes_map (makes_block hs) fun body hb => hw _ hb
  · exact makes_pure (hw _ trivial)

theorem makes_loopStatement (hs : ∀ p, MakesSegment (segment p)) : MakesSegment (loopStatement segment) := by
  refine makes_after (shrinks_expect _ _) fun _ => makes_after (shrinks_expect _ _) fun _ => ?_
  refine makes_after (shrinks_peek _) fun next => ?_
  split
  · exact fun s _ => takes_fail
  refine makes_bind makes_declaration fun counter hc => makes_after (shrinks_expect _ _) fun _ => ?_
  refine makes_bind makes_expression fun condition ht => makes_after (shrinks_expect _ _) fun _ => ?_
  refine makes_bind makes_action fun iteration hi => makes_after (shrinks_expect _ _) fun _ => ?_
  exact makes_map (makes_block hs) fun body hb => ⟨hc, ht, hi, hb⟩

theorem makes_eachStatement (hs : ∀ p, MakesSegment (segment p)) : MakesSegment (eachStatement segment) := by
  refine makes_after (shrinks_expect _ _) fun _ => makes_after (shrinks_expect _ _) fun _ => ?_
  refine makes_after (shrinks_expect _ _) fun _ => makes_after (shrinks_word _) fun item => ?_
  refine makes_after (shrinks_expect _ _) fun _ => makes_after (shrinks_peek _) fun first => ?_
  refine makes_bind makes_expression fun collection hc => ?_
  split
  · exact fun s _ => takes_fail
  next haccess =>
  refine makes_after (shrinks_expect _ _) fun _ => makes_map (makes_block hs) fun body hb => ?_
  exact ⟨by simpa using haccess, hc, hb⟩

theorem makes_control (hs : ∀ p, MakesSegment (segment p)) : MakesSegment (control segment) := by
  refine makes_after (shrinks_peek _) fun next => ?_
  split
  · refine makes_bind (makes_branchHead hs) fun r hr => ?_
    exact makes_map (makes_alternative hs) fun otherwise ho => ⟨hr.1, hr.2, ho⟩
  split
  · exact makes_loopStatement hs
  · exact makes_eachStatement hs

theorem makes_helper (hs : ∀ p, MakesSegment (segment p)) : MakesSegment (helper segment) := by
  refine makes_after (shrinks_expect _ _) fun _ => makes_after (shrinks_word _) fun name => ?_
  refine makes_after (shrinks_expect _ _) fun _ => makes_after (agree_parameters (A := .ended)).shrinks fun names => ?_
  refine makes_after (shrinks_expect _ _) fun _ => ?_
  exact makes_map (makes_block hs) fun body hb => hb

theorem makes_namedSection (hs : ∀ p, MakesSegment (segment p)) : MakesSegment (namedSection segment) := by
  refine makes_after (shrinks_expect _ _) fun _ => makes_after (shrinks_word _) fun name => ?_
  exact makes_map (makes_block hs) fun body hb => hb

/-! ## What an `@` opens -/

/-- a well-formed segment; if it is a text, there is no quote in it -/
def Quotable (r : Segment) : Prop := r.WellFormed ∧ ∀ s, r = .text s → ∀ q, q = '"' ∨ q = '\'' → q ∉ s.toList

/-- a construct that no value holds is no text -/
theorem makes_quotable {m : Parser Segment} (hm : MakesSegment m) (hn : Gives (mayStandInValue · = false) m) :
    Makes Quotable m := by
  intro s hs r t h
  obtain ⟨used, he, hr⟩ := hm s hs r t h
  refine ⟨used, he, hr, ?_⟩
  rintro text rfl
  cases hn s _ t h

theorem quotable_inline {e : Expression} {leading : String} (hl : IsBlank leading) (he : e.AssignsNothing) :
    Quotable (.inline ⟨e, leading⟩) :=
  ⟨⟨hl, he⟩, nofun⟩

theorem makes_construct (hs : ∀ p, MakesSegment (segment p)) {leading : String} (hl : IsBlank leading) (mark : Token) :
    Makes Quotable (construct segment leading mark) := by
  intro s hlexical
  refine takes_peek ?_
  split
  · refine makes_after (advances_consume _).shrinks (fun _ => makes_pure ⟨?_, ?_⟩) s hlexical
    · exact fun he => absurd (String.append_eq_empty_iff.1 he).2 (by decide)
    · rintro text ⟨⟩ q hq
      exact notMem_of_blank hl hq
  split
  · have hcomment := (agree_templateComment (A := .ended) mark.position mark.position).shrinks
    exact makes_after hcomment (fun _ => makes_pure ⟨trivial, nofun⟩) s hlexical
  split
  · have hy := (formed_parenthesized (List.Subset.refl _)).mono fun _ h => h.assignsNothing
    exact makes_map (advances_parenthesized.shrinks.makes_yields hy) (fun e he => quotable_inline hl he) s hlexical
  split
  · exact makes_map (makes_block hs) (fun body hb => ⟨hb, nofun⟩) s hlexical
  split
  · next hword =>
    split
    · exact makes_quotable (makes_helper hs) gives_helper s hlexical
    split
    · exact makes_quotable (makes_namedSection hs) gives_namedSection s hlexical
    split
    · exact makes_quotable (makes_control hs) gives_control s hlexical
    · have hy := formed_inlineChain (List.Subset.refl _) hlexical.readable hword
      refine takes_makes hlexical (advances_inlineChain.shrinks.takes_yields hy) fun e he => ?_
      exact makes_pure (quotable_inline hl he.assignsNothing)
  · exact takes_fail

theorem makes_embedded (hs : ∀ p, MakesSegment (segment p)) : Makes Quotable (embedded segment) :=
  makes_bind makes_blank fun _ hl => makes_after (advances_expectCategory _ _).shrinks fun mark => makes_construct hs hl mark

end

/-! ## Tags -/

section

variable {inValue here inner : Parser Segment}

/-- what a value may hold so far: the parts, and the text behind them -/
def ValueSoFar (quote : Char) (r : List ValuePart × String) : Prop :=
  (∀ p ∈ r.1, p.WellFormed quote) ∧ quote ∉ r.2.toList

theorem ValueSoFar.withText {quote : Char} {parts : List ValuePart} {text : String} (h : ValueSoFar quote (parts, text)) :
    ∀ p ∈ withText parts text, p.WellFormed quote := by
  unfold Grammar.withText
  split
  · exact h.1
  · next hn => exact forall_mem_snoc h.1 ⟨by simpa [String.isEmpty_iff] using hn, h.2⟩

theorem makes_valueRound (hv : Makes Quotable inValue) {quote : Char} (hmark : quote = '"' ∨ quote = '\'') {mark : Token}
    (hq : mark.text = String.singleton quote) {parts : List ValuePart} {text : String}
    (h : ValueSoFar quote (parts, text)) :
    Makes (Sum.elim (ValueSoFar quote) fun parts => ∀ p ∈ parts, p.WellFormed quote)
      (valueRound inValue mark parts text) := by
  intro s hs
  refine takes_peek (takes_bind (takes_startsInline _ text) ?_)
  rintro _ inline u hu rfl
  obtain rfl : s = u := hu
  split
  · exact takes_pure h.withText
  next hclose =>
  split
  · exact takes_fail
  next hend =>
  split
  · refine takes_makes hs (hv s hs) fun r hr => ?_
    split
    · exact makes_pure ⟨forall_mem_snoc h.withText hr.1, List.not_mem_nil⟩
    · exact makes_pure ⟨h.withText, hr.2 _ rfl quote hmark⟩
    · exact makes_pure ⟨h.withText, List.not_mem_nil⟩
    · exact makes_fail
  · have hend : (s.peek .kept).isEnd = false := eq_false_of_ne_true hend
    have hne : (s.peek .kept).text ≠ String.singleton quote := by
      intro he
      refine hclose ?_
      rw [Token.is, hq, he, beq_self_eq_true, Bool.and_true]
      exact congrArg Bool.not hend
    refine takes_makes hs (takes_consume (Q := fun _ t => quote ∉ t.text.toList) ?_) fun t ht => ?_
    · -- the token is not the quote, so the quote is not in it
      exact (hs.peek hend).quote quote hmark hne
    · refine makes_pure ⟨h.1, ?_⟩
      rw [String.toList_append, List.mem_append, not_or]
      exact ⟨h.2, ht⟩

theorem makes_valueParts (hv : Makes Quotable inValue) {quote : Char} (hmark : quote = '"' ∨ quote = '\'') {mark : Token}
    (hq : mark.text = String.singleton quote) :
    Makes (fun parts => ∀ p ∈ parts, p.WellFormed quote) (valueParts inValue mark) :=
  makes_iterate (I := ValueSoFar quote) ⟨List.forall_mem_nil _, List.not_mem_nil⟩
    fun ⟨_, _⟩ h => makes_valueRound hv hmark hq h

theorem makes_oneAttribute (hv : Makes Quotable inValue) : Makes Attribute.WellFormed (oneAttribute inValue) := by
  refine makes_bind (makes_expected _) fun leading hl => makes_after (shrinks_of takes_tagName) fun name => ?_
  have hleading : leading.text ≠ "" ∧ IsBlank leading.text := ⟨hl.1.ne_empty, hl.1.blank hl.2⟩
  refine makes_after (shrinks_peek _) fun next => ?_
  split
  · exact makes_pure ⟨hleading, fun _ => ⟨rfl, rfl⟩, nofun⟩
  refine makes_bind makes_blank fun before hb => makes_bind (makes_expected _) fun sign hsign => ?_
  refine makes_bind makes_blank fun behind hb' => makes_bind (makes_expected _) fun mark hmark => ?_
  obtain ⟨quote, hhead, hq, hquote⟩ := quote_text hmark.2
  refine makes_bind (makes_valueParts hv hquote hq) fun values hvalues => ?_
  refine makes_after (shrinks_expect _ _) fun _ => makes_pure ⟨hleading, fun h => ?_, fun q h => ?_⟩
  · cases hhead.symm.trans h
  · cases hhead.symm.trans h
    exact ⟨⟨before, behind, by rw [text_of_is hsign.2], hb, hb'⟩, hvalues⟩

theorem makes_attributes (hv : Makes Quotable inValue) (tag : String) (start : Position) :
    Makes (fun as => ∀ a ∈ as, Attribute.WellFormed a) (attributes inValue tag start) := by
  refine makes_gather fun as h => makes_after (shrinks_peek _) fun next => ?_
  split
  · exact makes_pure h
  split
  · exact makes_fail
  · exact makes_map (makes_oneAttribute hv) fun a ha => forall_mem_snoc h ha

theorem makes_children (hi : MakesSegment inner) (tag : String) (start : Position) :
    Makes Segment.AllWellFormed (children inner tag start) := by
  have hchildren : Makes (fun children => ∀ s ∈ children, Segment.WellFormed s) (children inner tag start) := by
    refine makes_gather fun children h => ?_
    refine makes_after (shrinks_peek _) fun mark => makes_after (shrinks_peekNext _) fun after => ?_
    refine makes_after shrinks_atEnd fun ended => ?_
    split
    · exact makes_fail
    split
    · exact makes_pure h
    · exact makes_map hi fun s hs => forall_mem_snoc h hs
  exact fun s hl => (hchildren s hl).mono fun _ _ h => Segment.allWellFormed_iff.2 h

theorem makes_endTag (tag : String) (start : Position) : Makes (EndTag.WellFormed tag) (endTag tag start) := by
  refine makes_bind makes_blank fun leading hl => makes_after (shrinks_expect _ _) fun close => ?_
  refine makes_after (shrinks_expect _ _) fun _ => makes_after (shrinks_of takes_tagName) fun name => ?_
  split
  · exact fun s _ => takes_fail
  next hname =>
  refine makes_bind makes_blank fun inside hi => makes_after (shrinks_expect _ _) fun _ => makes_pure ?_
  exact ⟨hl, by simpa using hname, hi⟩

theorem makes_markup (hv : Makes Quotable inValue) (hi : MakesSegment inner) : MakesSegment (markup inValue inner) := by
  refine makes_bind makes_blank fun leading hl => makes_after (shrinks_expect _ _) fun mark => ?_
  refine makes_after (shrinks_peek _) fun next => ?_
  split
  · refine makes_after (advances_consume _).shrinks fun _ => makes_after (shrinks_peek _) fun next => ?_
    split
    · exact makes_after (shrinks_of (takes_htmlComment _)) fun s => makes_pure hl
    · exact makes_after (shrinks_of (takes_docType _)) fun s => makes_pure hl
  refine makes_after (shrinks_of takes_tagName) fun name => makes_bind (makes_attributes hv name _) fun as ha => ?_
  refine makes_bind makes_blank fun beforeEnd hb => makes_after (shrinks_peek _) fun next => ?_
  have htag : Tag.WellFormed ⟨leading, name, as, beforeEnd⟩ := ⟨hl, ha, hb⟩
  split
  · refine makes_after (shrinks_expect _ _) fun _ => makes_after (shrinks_expect _ _) fun _ => ?_
    exact makes_pure ⟨htag, nofun⟩
  refine makes_after (shrinks_expect _ _) fun _ => ?_
  split
  · next hvoid => exact makes_pure ⟨htag, fun _ => hvoid⟩
  · next hvoid =>
    refine makes_bind (makes_children hi name _) fun children hc => makes_map (makes_endTag name _) fun close he => ?_
    exact ⟨htag, eq_false_of_ne_true hvoid, he, hc⟩

/-! ## Segments -/

theorem makes_markupSegment (hh : MakesSegment here) (hv : Makes Quotable inValue) (hi : MakesSegment inner) :
    MakesSegment (markupSegment here inValue inner) := by
  intro s hs
  refine takes_peek ?_
  split
  · refine takes_peek (takes_peekNth ?_)
    split
    · next hcode =>
      have hw := (Bool.and_eq_true_iff.1 hcode).1
      refine takes_makes hs ((takes_space hs hw).mono fun _ _ h => h.1) fun text h => makes_pure h
    · exact hh s hs
  · refine makes_after (shrinks_of takes_startsMarkup) (fun opens => ?_) s hs
    split
    · exact makes_markup hv hi
    · exact makes_map makes_textRun fun text h => h

end

section

variable {segment : Place → Parser Segment}

theorem makes_codeSegment (hs : ∀ p, MakesSegment (segment p)) : MakesSegment (codeSegment segment) := by
  have hembedded : MakesSegment (embedded segment) := fun s hl => (makes_embedded hs s hl).mono fun _ _ h => h.1
  refine makes_after (shrinks_of takes_startsMarkup) fun opens => ?_
  split
  · exact makes_markup (makes_embedded hs) (hs .markup)
  refine makes_after (shrinks_peek _) fun next => ?_
  split
  · exact hembedded
  split
  · exact makes_control hs
  split
  · refine makes_bind makes_declaration fun d hd => ?_
    exact makes_after (shrinks_expect _ _) fun _ => makes_pure hd
  · refine makes_bind makes_action fun e he => ?_
    exact makes_after (shrinks_expect _ _) fun _ => makes_pure he

theorem makes_segmentOver (hs : ∀ p, MakesSegment (segment p)) (p : Place) : MakesSegment (segmentOver segment p) := by
  have hembedded : MakesSegment (embedded segment) := fun s hl => (makes_embedded hs s hl).mono fun _ _ h => h.1
  cases p with
  | markup => exact makes_markupSegment hembedded (makes_embedded hs) (hs .markup)
  | code => exact makes_codeSegment hs

end

theorem makes_segment (p : Place) : MakesSegment (segment p) :=
  makes_recursive (Q := fun _ => Segment.WellFormed) (fun _ h i => makes_segmentOver h i) p

theorem makes_document : Makes (fun ss => ∀ s ∈ ss, Segment.WellFormed s) (document (segment .markup)) := by
  refine makes_gather fun ss h => makes_after shrinks_atEnd fun ended => ?_
  split
  · exact makes_pure h
  · exact makes_map (makes_segment .markup) fun s hs => forall_mem_snoc h hs

/-- **Parsed templates are well formed**, at every depth. -/
theorem wellFormed_parse {source : String} {t : Template} (h : Template.parse source = .ok t) : t.WellFormed := by
  obtain ⟨u, hu⟩ := parseAs_eq_ok.1 h
  obtain ⟨-, -, hs⟩ := makes_document (.ofSource source) (lexical_tokensFrom .start source.toList) _ _ hu
  exact Segment.allWellFormed_iff.2 hs

/-- two attributes, one with a quote in quotes of the other kind and one without a value, and a loop with an assignment -/
def menu : String :=
  "<ul title = '@@ \"@(x == 1)\"' hidden>@for (var i = 0; i < n; i += 1) \x7b <li>@i<br ></LI > \x7d</ul\n>"

/-- the attributes of an element with content -/
def attributesOf : Segment → List Attribute
  | .element tag _ _ => tag.attributes
  | _ => []

theorem wellFormed_parse_menu : ∃ t, Template.parse menu = .ok t ∧ t.WellFormed ∧ t.segments.length = 1 ∧
    (t.segments.flatMap attributesOf).map (fun a => (a.separator, a.quote, a.values.length)) =
      [(" = ", some '\'', 3), ("", none, 0)] := by
  obtain ⟨t, ht, hshape⟩ := Generation.exists_ok (x := Template.parse menu) (p := fun t => t.segments.length == 1 &&
    (t.segments.flatMap attributesOf).map (fun a => (a.separator, a.quote, a.values.length)) ==
      [(" = ", some '\'', 3), ("", none, 0)]) (by decide +kernel)
  obtain ⟨hlength, hattributes⟩ := Bool.and_eq_true_iff.1 hshape
  exact ⟨t, ht, wellFormed_parse ht, eq_of_beq hlength, eq_of_beq hattributes⟩

end Grammar

end TemplateView
