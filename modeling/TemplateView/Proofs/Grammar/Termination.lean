/-
Parsing ends. Every parser of the grammar leaves no more tokens than it finds, those of segments, attributes, blocks and
expressions leave fewer, and each round of a loop uses up a token, or ends the loop, or fails; so no recursion and no
loop ever meets the bound it runs under (`parsing_ends`).
-/
import TemplateView.Proofs.Grammar.Ending

namespace TemplateView.Grammar

open TemplateView.Parser

/-- the parsers that open something, and take a token for it -/
inductive Opening : ∀ {α : Type}, Parser α → Prop
  | segment (p : Place) : Opening (segment p)
  | oneAttribute : Opening (oneAttribute (embedded segment))
  | embedded : Opening (embedded segment)
  | block : Opening (block segment)
  | expression : Opening expression
  | operand : Opening (operand expression)
  | primary : Opening (primary expression)

/-- all parsers of the grammar -/
inductive Reading : ∀ {α : Type}, Parser α → Prop
  | opening {α : Type} {m : Parser α} (h : Opening m) : Reading m
  | document : Reading (document (segment .markup))
  | blank : Reading blank
  | word (b : Blanks) : Reading (word b)
  | startsMarkup : Reading startsMarkup
  | isAddressAt (text : String) : Reading (isAddressAt text)
  | startsInline (t : Token) (text : String) : Reading (startsInline t text)
  | text : Reading textRun
  | markup : Reading (markup (embedded segment) (segment .markup))
  | children (tag : String) (start : Position) : Reading (children (segment .markup) tag start)
  | endTag (tag : String) (start : Position) : Reading (endTag tag start)
  | tagName : Reading tagName
  | attributes (tag : String) (start : Position) : Reading (attributes (embedded segment) tag start)
  | valueParts (quote : Token) : Reading (valueParts (embedded segment) quote)
  | htmlComment (start : Position) : Reading (htmlComment start)
  | docType (start : Position) : Reading (docType start)
  | templateComment (start : Position) : Reading (templateComment start)
  | construct (leading : String) (mark : Token) : Reading (construct segment leading mark)
  | parenthesized : Reading parenthesized
  | inlineChain : Reading inlineChain
  | action : Reading action
  | declaration : Reading declaration
  | control : Reading (control segment)
  | branchHead : Reading (branchHead segment)
  | alternative : Reading (alternative segment)
  | loopStatement : Reading (loopStatement segment)
  | eachStatement : Reading (eachStatement segment)
  | helper : Reading (helper segment)
  | parameters : Reading parameters
  | namedSection : Reading (namedSection segment)
  | binary (levels : List (List String)) : Reading (levels.foldr binaryLevel (operand expression))
  | suffixed : Reading (suffixed expression)
  | chain (b : Blanks) (first : Expression) : Reading (chain expression b first)
  | suffix (target : Expression) (next : Token) : Reading (suffix expression target next)
  | list (close : String) : Reading (listUntil expression close)
  | string : Reading stringLiteral

/-- the rounds of all loops of the grammar -/
inductive Round : ∀ {σ α : Type}, (σ → Parser (σ ⊕ α)) → Prop
  | document : Round (documentRound (segment .markup))
  | text : Round textRound
  | child (tag : String) (start : Position) : Round (childRound (segment .markup) tag start)
  | attributes (tag : String) (start : Position) : Round (attributeRound (embedded segment) tag start)
  | value (quote : Token) : Round fun p : List ValuePart × String => valueRound (embedded segment) quote p.1 p.2
  | htmlComment (start : Position) : Round (htmlCommentRound start)
  | docType (start : Position) : Round (docTypeRound start)
  | templateComment (start : Position) : Round (templateCommentRound start)
  | block (start : Position) : Round (blockRound segment start)
  | alternative : Round (alternativeRound segment)
  | parameter : Round parameterRound
  | name : Round nameRound
  | chain (b : Blanks) : Round (chainRound expression b)
  | list (close : String) : Round (listRound expression close)
  | string (quote : Token) : Round (stringRound quote)
  | operand : Round (operandRound expression)
  | binary (operators : List String) (levels : List (List String)) :
      Round (binaryRound operators (levels.foldr binaryLevel (operand expression)))

theorem Opening.spends {α : Type} {m : Parser α} (h : Opening m) (k : Nat) : Spends (fun _ => True) k m m := by
  cases h with
  | segment p => exact spends_segment p
  | oneAttribute => exact spends_oneAttribute spends_embeddedSegment
  | embedded => exact spends_embeddedSegment
  | block => exact (spends_block spends_segment).below
  | expression => exact spends_expression
  | operand => exact (spends_operand spends_expression).below
  | primary => exact (spends_primary spends_expression).below

theorem Reading.settles {α : Type} {m : Parser α} (h : Reading m) (k : Nat) : Settles (fun _ => True) k m m := by
  cases h with
  | opening h => exact (h.spends k).settles
  | document => exact settles_document
  | blank => exact settles_blank
  | word b => exact (spends_word b).settles
  | startsMarkup => exact settles_startsMarkup
  | isAddressAt text => exact settles_isAddressAt text
  | startsInline t text => exact settles_startsInline t text
  | text => exact spends_textRun.settles
  | markup => exact (spends_markup spends_embeddedSegment (spends_segment .markup)).below.settles
  | children tag start => exact settles_children (spends_segment .markup) tag trivial
  | endTag tag start => exact (spends_endTag tag start).settles
  | tagName => exact spends_tagName.settles
  | attributes tag start => exact settles_attributes spends_embeddedSegment tag trivial
  | valueParts quote => exact settles_valueParts spends_embeddedSegment trivial
  | htmlComment start => exact (spends_htmlComment trivial).settles
  | docType start => exact (spends_docType trivial).settles
  | templateComment start => exact (spends_templateComment trivial).settles
  | construct leading mark => exact (spends_construct spends_segment leading trivial).below.settles
  | parenthesized => exact spends_parenthesized.settles
  | inlineChain => exact spends_inlineChain.below.settles
  | action => exact spends_action.settles
  | declaration => exact spends_declaration.settles
  | control => exact (spends_control spends_segment).below.settles
  | branchHead => exact (spends_branchHead spends_segment).below.settles
  | alternative => exact (settles_alternative spends_segment).below
  | loopStatement => exact (spends_loopStatement spends_segment).below.settles
  | eachStatement => exact (spends_eachStatement spends_segment).below.settles
  | helper => exact (spends_helper spends_segment).below.settles
  | parameters => exact settles_parameters
  | namedSection => exact (spends_namedSection spends_segment).below.settles
  | binary levels => exact (spends_levels (spends_operand spends_expression) levels).below.settles
  | suffixed => exact (spends_suffixed spends_expression).below.settles
  | chain b first => exact (settles_chain spends_expression b first).below
  | suffix target next => exact (spends_suffix spends_expression target next).below.settles
  | list close => exact (spends_listUntil spends_expression close).settles
  | string => exact spends_stringLiteral.settles

theorem Round.settled {σ α : Type} {step : σ → Parser (σ ⊕ α)} (h : Round step) (k : Nat) (a : σ) :
    SettledRound (fun _ => True) k (step a) (step a) := by
  cases h with
  | document => exact settled_documentRound a
  | text => exact settled_textRound a
  | child tag start => exact settled_childRound (spends_segment .markup) tag trivial a
  | attributes tag start => exact settled_attributeRound spends_embeddedSegment tag trivial a
  | value quote => exact settled_valueRound spends_embeddedSegment trivial a.1 a.2
  | htmlComment start => exact (spends_htmlCommentRound trivial a).spends
  | docType start => exact (spends_docTypeRound trivial a).spends
  | templateComment start => exact (spends_templateCommentRound trivial a).spends
  | block start => exact (spends_blockRound spends_segment trivial a).spends
  | alternative => exact (settled_alternativeRound spends_segment a).below
  | parameter => exact (spends_parameterRound a).spends
  | name => exact settled_nameRound a
  | chain b => exact (settled_chainRound spends_expression b a).below
  | list close => exact (spends_listRound spends_expression close a).spends
  | string quote => exact (spends_stringRound trivial a).spends
  | operand => exact (spends_operandRound spends_expression a).below.spends
  | binary operators levels =>
    exact (settled_binaryRound (spends_levels (spends_operand spends_expression) levels) operators a).below

/-- **Parsing ends, and every step of it makes progress.** No parser leaves more tokens than it finds, and those that
open something leave fewer. Each round of a loop uses up a token, or ends the loop, or fails. None of them fails because
nothing was consumed, so the bounds of loops and recursions do not show: a loop is its round and then the loop again, and
an expression or a segment is what it is over all expressions or segments. Every source has a template or an error. -/
theorem parsing_ends :
    (∀ {α : Type} {m : Parser α}, Reading m → ∀ s,
      (∀ a t, m s = .ok (a, t) → t.remaining ≤ s.remaining) ∧ ∀ e, m s = .error e → ¬ e.Stall) ∧
    (∀ {α : Type} {m : Parser α}, Opening m → ∀ s a t, m s = .ok (a, t) → t.remaining < s.remaining) ∧
    (∀ {σ α : Type} {step : σ → Parser (σ ⊕ α)}, Round step →
      (∀ a s b t, step a s = .ok (.inl b, t) → t.remaining < s.remaining) ∧
      (∀ a s e, step a s = .error e → ¬ e.Stall) ∧
      ∀ a, iterate a step = step a >>= Sum.elim (iterate · step) pure) ∧
    (expression = expressionOver expression ∧ ∀ p, segment p = segmentOver segment p) ∧
    ∀ source, (∃ t, Template.parse source = .ok t) ∨ ∃ e, Template.parse source = .error e ∧ ¬ e.Stall := by
  refine ⟨?_, ?_, ?_, ⟨expression_eq, segment_eq⟩, ?_⟩
  · exact fun h s => ⟨fun a t ht => (Settled.remaining h.settles ht).1, fun e => Settled.not_stall h.settles⟩
  · exact fun h s a t ht => (Settled.remaining h.spends ht).2 trivial
  · refine fun h => ⟨fun a s b t ht => ?_, fun a s e => Settled.not_stall fun k => h.settled k a, iterate_eq h.settled⟩
    exact (Settled.remaining (fun k => h.settled k a) ht).2 rfl
  · intro source
    unfold Template.parse Template.parseAs
    cases h : document (segment .markup) (.ofSource source) with
    | ok r => exact .inl ⟨_, rfl⟩
    | error e => exact .inr ⟨e, rfl, Settled.not_stall (fun _ => settles_document) h⟩

/-- an expression that is read, and a source that is cut off in a tag inside a block inside an element -/
theorem parsing_ends_cut_off :
    (∃ e t, expression (.ofSource "a.b[0] + c") = .ok (e, t) ∧ t.remaining < (TokenStream.ofSource "a.b[0] + c").remaining) ∧
    ∃ e, Template.parse "<p>@if (x) \x7b <b" = .error e ∧ ¬ e.Stall := by
  have hread : (expression (.ofSource "a.b[0] + c")).isOk = true := by decide +kernel
  have hcut : (Template.parse "<p>@if (x) \x7b <b").isOk = false := by decide +kernel
  constructor
  · cases h : expression (.ofSource "a.b[0] + c") with
    | error e =>
      rw [h] at hread
      cases hread
    | ok r => exact ⟨r.1, r.2, rfl, parsing_ends.2.1 .expression _ _ _ h⟩
  · refine (parsing_ends.2.2.2.2 "<p>@if (x) \x7b <b").resolve_left ?_
    rintro ⟨t, h⟩
    rw [h] at hcut
    cases hcut

end TemplateView.Grammar
