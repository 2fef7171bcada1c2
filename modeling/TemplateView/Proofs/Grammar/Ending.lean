/-
Every parser of the grammar settles, in the order of its definition: first the parsers of expressions over those of the
inner expressions, then the parsers of segments over those of the inner segments. Both recursions reach their depth only
behind tokens that are used up (`spends_expression`, `spends_segment`), so `expression_eq` and `segment_eq` say what the
parsers are without any depth.
-/
import TemplateView.Grammar.Segment
import TemplateView.Proofs.Grammar.Settled

namespace TemplateView.Grammar

open TemplateView.Parser

variable {P : Position → Prop} {k : Nat}

/-! ## Expressions -/

section

variable {e e' : Parser Expression}

theorem spends_listMark (close : String) (items : List Expression) :
    Spends P k (listMark close items) (listMark close items) := by
  refine settled_peek fun t _ => ?_
  split
  · exact settled_drawn (draws_consume _) _
  · exact settled_drawn (draws_expect _ _) _

theorem spends_listRound (he : Spends P k e e') (close : String) (items : List Expression) :
    Spends P k (listRound e close items) (listRound e' close items) :=
  settled_bind he fun _ => spends_listMark close _

theorem spends_listUntil (he : Spends P k e e') (close : String) :
    Spends P k (listUntil e close) (listUntil e' close) := by
  refine settled_peek fun t _ => ?_
  split
  · exact settled_drawn (draws_consume _) _
  · exact spends_iterate (spends_listRound he close) []

theorem spends_suffixRest (he : Spends P k e e') (target : Expression) (next : Token) :
    Spends P k (suffixRest e target next) (suffixRest e' target next) := by
  unfold suffixRest
  split
  · exact settled_drawn (draws_expectCategory _ _) _
  split
  · exact settled_spend_keep he fun index => settled_drawn (draws_expect _ _) _
  · exact settled_spend_keep (spends_listUntil he ")") fun _ => settles_pure _

theorem spends_suffix (he : Spends P k e e') (target : Expression) (next : Token) :
    Spends P (k + 1) (suffix e target next) (suffix e' target next) :=
  settled_draw (draws_consume _) fun _ _ => (spends_suffixRest he target next).settles

theorem settled_chainRound (he : Spends P k e e') (b : Blanks) (target : Expression) :
    SettledRound P (k + 1) (chainRound e b target) (chainRound e' b target) := by
  refine settled_peek fun next _ => settled_look (looks_peekNext b) fun after _ => ?_
  split
  · exact settled_done _
  split
  · exact settled_spend_keep (spends_suffix he target next) fun _ => settles_pure _
  · exact settled_done _

theorem settles_chain (he : Spends P k e e') (b : Blanks) (first : Expression) :
    Settles P (k + 1) (chain e b first) (chain e' b first) :=
  settles_iterate (settled_chainRound he b) first

theorem spends_stringRound {quote : Token} (hq : P quote.position) (raw : String) :
    Spends P k (stringRound quote raw) (stringRound quote raw) := by
  refine settled_bind settles_atEnd fun ended => ?_
  split
  · exact settled_fail hq nofun
  refine settled_draw_keep (draws_consume _) fun t _ => ?_
  split
  · exact settled_drawn (draws_consume _) _
  split <;> exact settles_pure _

theorem spends_stringLiteral : Spends P k stringLiteral stringLiteral :=
  settled_draw_keep (draws_consume _) fun quote hq =>
    (spends_iterate (fun raw => spends_stringRound hq raw) quote.text).settles

theorem spends_primary (he : Spends P k e e') : Spends P (k + 1) (primary e) (primary e') := by
  refine settled_peek fun t ht => ?_
  split
  · exact settled_drawn (draws_consume _) _
  · exact settled_drawn (draws_consume _) _
  · exact settled_fail ht nofun
  split
  · exact spends_stringLiteral
  split
  · exact settled_draw (draws_consume _) fun _ _ => settled_spend_keep he fun _ =>
      settled_drawn (draws_expect _ _) _
  split
  · exact settled_draw (draws_consume _) fun _ _ => settled_bind (spends_listUntil he "]") fun _ => settles_pure _
  · exact settled_fail ht nofun

theorem spends_suffixed (he : Spends P k e e') : Spends P (k + 1) (suffixed e) (suffixed e') := by
  refine settled_spend_keep (spends_primary he) fun first => settled_bind (settles_chain he _ first) fun operand => ?_
  refine settled_peek fun next _ => ?_
  split
  · exact settled_drawn (draws_consume _) _
  · exact settles_pure _

theorem spends_operandRound (he : Spends P k e e') (wrap : Expression → Expression) :
    Spends P (k + 1) (operandRound e wrap) (operandRound e' wrap) := by
  refine settled_peek fun t _ => ?_
  split
  · exact settled_drawn (draws_consume _) _
  · exact settled_spend_keep (spends_suffixed he) fun _ => settles_pure _

theorem spends_operand (he : Spends P k e e') : Spends P (k + 1) (operand e) (operand e') :=
  spends_iterate (spends_operandRound he) id

theorem settled_binaryRound (he : Spends P k e e') (operators : List String) (left : Expression) :
    SettledRound P k (binaryRound operators e left) (binaryRound operators e' left) := by
  refine settled_peek fun t _ => ?_
  split
  · exact settled_draw_keep (draws_consume _) fun _ _ => settled_bind he fun _ => settles_pure _
  · exact settled_done _

theorem spends_binaryLevel (operators : List String) (he : Spends P k e e') :
    Spends P k (binaryLevel operators e) (binaryLevel operators e') :=
  settled_spend_keep he fun left => settles_iterate (settled_binaryRound he operators) left

theorem spends_levels (he : Spends P k e e') (levels : List (List String)) :
    Spends P k (levels.foldr binaryLevel e) (levels.foldr binaryLevel e') := by
  induction levels with
  | nil => exact he
  | cons operators levels ih => exact spends_binaryLevel operators ih

theorem spends_expressionOver (he : Spends P k e e') : Spends P (k + 1) (expressionOver e) (expressionOver e') := by
  refine settled_spend (spends_levels (spends_operand he) binaryLevels) fun test => settled_peek fun next _ => ?_
  split
  · exact settled_draw_keep (draws_consume _) fun _ _ => settled_bind he fun whenTrue =>
      settled_draw_keep (draws_expect _ _) fun _ _ => settled_bind he fun whenFalse => settles_pure _
  · exact settles_pure _

end

/-- expressions at any depths that allow for the tokens left -/
theorem spends_nestedExpression (n n' : Nat) (hn : k ≤ n) (hn' : k ≤ n') :
    Spends P k (nested (fun self (_ : Unit) => expressionOver (self ())) n ())
      (nested (fun self (_ : Unit) => expressionOver (self ())) n' ()) :=
  settled_nested (fun _ _ _ h _ => spends_expressionOver (h ())) n n' hn hn' ()

theorem spends_expression : Spends P k expression expression :=
  fun s hs _ => spends_nestedExpression _ _ (Nat.le_refl _) (Nat.le_refl _) s hs (Nat.lt_succ_self _)

/-- **An expression is one over expressions.** The depth of the recursion does not show. -/
theorem expression_eq : expression = expressionOver expression := by
  funext s
  have h : Spends (fun _ => True) s.remaining expression
      (nested (fun self (_ : Unit) => expressionOver (self ())) s.remaining ()) := fun t ht hlt =>
    spends_nestedExpression (t.remaining + 1) s.remaining (Nat.le_refl _) hlt t ht (Nat.lt_succ_self _)
  exact (spends_expressionOver h s (placed_all s) (Nat.lt_succ_self _)).1

/-! ## Text and comments -/

theorem settles_startsMarkup : Settles P k startsMarkup startsMarkup :=
  settled_peek fun _ _ => settled_look (looks_peekNth _) fun _ _ => settled_look (looks_peekNth _) fun _ _ =>
    settles_pure _

theorem settles_isAddressAt (text : String) : Settles P k (isAddressAt text) (isAddressAt text) :=
  settled_look (looks_peekNext _) fun _ _ => settles_pure _

theorem settled_textRound (text : String) : SettledRound P k (textRound text) (textRound text) := by
  refine settled_peek fun t _ => settled_bind (settles_isAddressAt text) fun address => ?_
  split
  · exact settled_done _
  split
  · exact settled_drawn (draws_consume _) _
  split
  · exact settled_done _
  · exact settled_drawn (draws_consume _) _

theorem spends_textRun : Spends P k textRun textRun :=
  settled_draw_keep (draws_consume _) fun t _ => settles_iterate settled_textRound t.text

theorem spends_htmlCommentRound {start : Position} (hp : P start) (reversed : List Char) :
    Spends P k (htmlCommentRound start reversed) (htmlCommentRound start reversed) := by
  refine settled_bind settles_atEnd fun ended => ?_
  split
  · exact settled_fail hp nofun
  refine settled_draw_keep (draws_consume _) fun t _ => ?_
  split <;> exact settles_pure _

theorem spends_htmlComment {start : Position} (hp : P start) : Spends P k (htmlComment start) (htmlComment start) :=
  settled_draw_keep (draws_expect _ _) fun _ _ => (spends_iterate (spends_htmlCommentRound hp) []).settles

theorem spends_docTypeRound {start : Position} (hp : P start) (text : String) :
    Spends P k (docTypeRound start text) (docTypeRound start text) := by
  refine settled_bind settles_atEnd fun ended => settled_peek fun t _ => ?_
  split
  · exact settled_drawn (draws_expect _ _) _
  split
  · exact settled_fail hp nofun
  · exact settled_drawn (draws_consume _) _

theorem spends_docType {start : Position} (hp : P start) : Spends P k (docType start) (docType start) :=
  spends_iterate (spends_docTypeRound hp) ""

theorem spends_templateCommentRound {start : Position} (hp : P start) (text : String) :
    Spends P k (templateCommentRound start text) (templateCommentRound start text) := by
  refine settled_peek fun t _ => settled_look (looks_peekNext _) fun after _ => ?_
  split
  · exact settled_fail hp nofun
  split
  · exact settled_draw_keep (draws_consume _) fun _ _ => settled_drawn (draws_consume _) _
  · exact settled_drawn (draws_consume _) _

theorem spends_templateComment {start : Position} (hp : P start) :
    Spends P k (templateComment start) (templateComment start) :=
  settled_draw_keep (draws_expect _ _) fun _ _ => (spends_iterate (spends_templateCommentRound hp) "").settles

/-! ## Statements -/

section

variable {segment segment' : Place → Parser Segment}

theorem spends_action : Spends P k action action := by
  refine settled_spend_keep spends_expression fun target => settled_peek fun next _ => ?_
  split
  · exact settled_draw_keep (draws_consume _) fun _ _ => settled_bind spends_expression fun _ => settles_pure _
  · exact settles_pure _

theorem spends_declaration : Spends P k declaration declaration := by
  refine settled_draw_keep (draws_expect _ _) fun _ _ => settled_bind (spends_word _) fun name => ?_
  refine settled_peek fun t _ => ?_
  split
  · exact settled_draw_keep (draws_consume _) fun _ _ => settled_bind spends_expression fun _ => settles_pure _
  · exact settles_pure _

theorem spends_blockRound (hi : ∀ p, Spends P k (segment p) (segment' p)) {start : Position} (hp : P start)
    (body : List Segment) : Spends P k (blockRound segment start body) (blockRound segment' start body) := by
  refine settled_peek fun next _ => ?_
  split
  · exact settled_drawn (draws_expect _ _) _
  split
  · exact settled_fail hp nofun
  · exact settled_spend_keep (hi .code) fun _ => settles_pure _

theorem spends_block (hi : ∀ p, Spends P k (segment p) (segment' p)) :
    Spends P (k + 1) (block segment) (block segment') :=
  settled_draw (draws_expect _ _) fun _ hb => (spends_iterate (spends_blockRound hi hb) []).settles

theorem spends_branchHead (hi : ∀ p, Spends P k (segment p) (segment' p)) :
    Spends P (k + 1) (branchHead segment) (branchHead segment') :=
  settled_draw_keep (draws_expect _ _) fun _ _ => settled_draw_keep (draws_expect _ _) fun _ _ =>
    settled_bind spends_expression fun _ => settled_draw_keep (draws_expect _ _) fun _ _ =>
      settled_bind (spends_block hi) fun _ => settles_pure _

theorem settled_alternativeRound (hi : ∀ p, Spends P k (segment p) (segment' p)) (wrap : Alternative → Alternative) :
    SettledRound P (k + 1) (alternativeRound segment wrap) (alternativeRound segment' wrap) := by
  refine settled_peek fun t _ => ?_
  split
  · refine settled_draw_keep (draws_consume _) fun _ _ => settled_peek fun next _ => ?_
    split
    · exact settled_bind (spends_branchHead hi) fun _ => settles_pure _
    · exact settled_bind (spends_block hi) fun _ => settles_pure _
  · exact settled_done _

theorem settles_alternative (hi : ∀ p, Spends P k (segment p) (segment' p)) :
    Settles P (k + 1) (alternative segment) (alternative segment') :=
  settles_iterate (settled_alternativeRound hi) id

theorem spends_loopStatement (hi : ∀ p, Spends P k (segment p) (segment' p)) :
    Spends P (k + 1) (loopStatement segment) (loopStatement segment') := by
  refine settled_draw_keep (draws_expect _ _) fun _ _ => settled_draw_keep (draws_expect _ _) fun _ _ => ?_
  refine settled_peek fun next hn => ?_
  split
  · exact settled_fail_bind hn nofun
  refine settled_bind spends_declaration fun counter => settled_draw_keep (draws_expect _ _) fun _ _ => ?_
  refine settled_bind spends_expression fun condition => settled_draw_keep (draws_expect _ _) fun _ _ => ?_
  refine settled_bind spends_action fun iteration => settled_draw_keep (draws_expect _ _) fun _ _ => ?_
  exact settled_bind (spends_block hi) fun _ => settles_pure _

theorem spends_eachStatement (hi : ∀ p, Spends P k (segment p) (segment' p)) :
    Spends P (k + 1) (eachStatement segment) (eachStatement segment') := by
  refine settled_draw_keep (draws_expect _ _) fun _ _ => settled_draw_keep (draws_expect _ _) fun _ _ => ?_
  refine settled_draw_keep (draws_expect _ _) fun _ _ => settled_bind (spends_word _) fun item => ?_
  refine settled_draw_keep (draws_expect _ _) fun _ _ => settled_peek fun first hf => ?_
  refine settled_bind spends_expression fun collection => ?_
  split
  · exact settled_fail_bind hf nofun
  · exact settled_draw_keep (draws_expect _ _) fun _ _ => settled_bind (spends_block hi) fun _ => settles_pure _

theorem spends_control (hi : ∀ p, Spends P k (segment p) (segment' p)) :
    Spends P (k + 1) (control segment) (control segment') := by
  refine settled_peek fun next _ => ?_
  split
  · exact settled_spend_keep (spends_branchHead hi) fun _ => settled_bind (settles_alternative hi) fun _ =>
      settles_pure _
  split
  · exact spends_loopStatement hi
  · exact spends_eachStatement hi

theorem spends_parameterRound (names : List String) : Spends P k (parameterRound names) (parameterRound names) := by
  refine settled_spend_keep (spends_word _) fun name => settled_peek fun t _ => ?_
  split
  · exact settled_drawn (draws_consume _) _
  · exact settles_pure _

theorem settles_parameters : Settles P k parameters parameters := by
  refine settled_peek fun t _ => ?_
  split
  · exact settles_pure _
  · exact (spends_iterate spends_parameterRound []).settles

theorem spends_helper (hi : ∀ p, Spends P k (segment p) (segment' p)) :
    Spends P (k + 1) (helper segment) (helper segment') := by
  refine settled_draw_keep (draws_expect _ _) fun _ _ => settled_bind (spends_word _) fun name => ?_
  refine settled_draw_keep (draws_expect _ _) fun _ _ => settled_bind settles_parameters fun names => ?_
  exact settled_draw_keep (draws_expect _ _) fun _ _ => settled_bind (spends_block hi) fun _ => settles_pure _

theorem spends_namedSection (hi : ∀ p, Spends P k (segment p) (segment' p)) :
    Spends P (k + 1) (namedSection segment) (namedSection segment') :=
  settled_draw_keep (draws_expect _ _) fun _ _ => settled_bind (spends_word _) fun _ =>
    settled_bind (spends_block hi) fun _ => settles_pure _

/-! ## What an `@` opens -/

theorem spends_parenthesized : Spends P k parenthesized parenthesized :=
  settled_draw_keep (draws_consume _) fun _ _ => settled_bind spends_expression fun _ =>
    settled_drawn (draws_expect _ _) _

theorem spends_inlineChain : Spends P (k + 1) inlineChain inlineChain :=
  settled_draw_keep (draws_consume _) fun name _ => settles_chain spends_expression .kept (nameOrLiteral name)

theorem spends_construct (hi : ∀ p, Spends P k (segment p) (segment' p)) (leading : String) {mark : Token}
    (hm : P mark.position) : Spends P (k + 1) (construct segment leading mark) (construct segment' leading mark) := by
  refine settled_peek fun next hn => ?_
  split
  · exact settled_drawn (draws_consume _) _
  split
  · exact settled_spend_keep (spends_templateComment hm) fun _ => settles_pure _
  split
  · exact settled_spend_keep spends_parenthesized fun _ => settles_pure _
  split
  · exact settled_spend_keep (spends_block hi) fun _ => settles_pure _
  split
  · split
    · exact spends_helper hi
    split
    · exact spends_namedSection hi
    split
    · exact spends_control hi
    · exact settled_spend_keep spends_inlineChain fun _ => settles_pure _
  · exact settled_fail hn nofun

theorem spends_embedded (hi : ∀ p, Spends P k (segment p) (segment' p)) :
    Spends P (k + 1) (embedded segment) (embedded segment') :=
  settled_bind settles_blank fun leading => settled_draw_keep (draws_expectCategory _ _) fun _ hm =>
    (spends_construct hi leading hm).settles

end

/-! ## Tags -/

section

variable {inValue inValue' here here' inner inner' : Parser Segment}

theorem settled_nameRound (name : String) : SettledRound P k (nameRound name) (nameRound name) := by
  refine settled_peek fun joiner _ => settled_look (looks_peekNext _) fun next _ => ?_
  split
  · exact settled_draw_keep (draws_consume _) fun _ _ => settled_drawn (draws_consume _) _
  · exact settled_done _

theorem spends_tagName : Spends P k tagName tagName :=
  settled_spend_keep (spends_word _) fun name => settles_iterate settled_nameRound name

theorem settles_startsInline (t : Token) (text : String) : Settles P k (startsInline t text) (startsInline t text) := by
  unfold startsInline
  split
  · exact settled_bind (settles_isAddressAt text) fun _ => settles_pure _
  · exact settled_look (looks_peekNext _) fun _ _ => settles_pure _

theorem settled_valueRound (hv : Spends P k inValue inValue') {quote : Token} (hq : P quote.position)
    (parts : List ValuePart) (text : String) :
    SettledRound P k (valueRound inValue quote parts text) (valueRound inValue' quote parts text) := by
  refine settled_peek fun t ht => settled_bind (settles_startsInline t text) fun inline => ?_
  split
  · exact settled_done _
  split
  · exact settled_fail hq nofun
  split
  · refine settled_spend_keep hv fun r => ?_
    cases r
    all_goals first | exact settles_pure _ | exact settled_fail ht nofun
  · exact settled_drawn (draws_consume _) _

theorem settles_valueParts (hv : Spends P k inValue inValue') {quote : Token} (hq : P quote.position) :
    Settles P k (valueParts inValue quote) (valueParts inValue' quote) := by
  unfold valueParts
  refine settles_iterate ?_ _
  intro p
  exact settled_valueRound hv hq p.1 p.2

theorem spends_oneAttribute (hv : Spends P k inValue inValue') :
    Spends P k (oneAttribute inValue) (oneAttribute inValue') := by
  refine settled_draw_keep (draws_expectCategory _ _) fun leading _ => settled_bind spends_tagName fun name => ?_
  refine settled_peek fun next _ => ?_
  split
  · exact settles_pure _
  refine settled_bind settles_blank fun before => settled_draw_keep (draws_expect _ _) fun sign _ => ?_
  refine settled_bind settles_blank fun behind => settled_draw_keep (draws_expectOneOf _ _) fun quote hq => ?_
  exact settled_bind (settles_valueParts hv hq) fun parts => settled_drawn (draws_expect _ _) _

theorem settled_attributeRound (hv : Spends P k inValue inValue') (tag : String) {start : Position} (hp : P start)
    (attributes : List Attribute) :
    SettledRound P k (attributeRound inValue tag start attributes) (attributeRound inValue' tag start attributes) := by
  refine settled_peek fun next _ => ?_
  split
  · exact settled_done _
  split
  · exact settled_fail hp nofun
  · exact settled_spend_keep (spends_oneAttribute hv) fun _ => settles_pure _

theorem settles_attributes (hv : Spends P k inValue inValue') (tag : String) {start : Position} (hp : P start) :
    Settles P k (attributes inValue tag start) (attributes inValue' tag start) :=
  settles_iterate (settled_attributeRound hv tag hp) []

theorem settled_childRound (hi : Spends P k inner inner') (tag : String) {start : Position} (hp : P start)
    (children : List Segment) :
    SettledRound P k (childRound inner tag start children) (childRound inner' tag start children) := by
  refine settled_peek fun mark _ => settled_look (looks_peekNext _) fun after _ => settled_bind settles_atEnd fun ended => ?_
  split
  · exact settled_fail hp nofun
  split
  · exact settled_done _
  · exact settled_spend_keep hi fun _ => settles_pure _

theorem settles_children (hi : Spends P k inner inner') (tag : String) {start : Position} (hp : P start) :
    Settles P k (children inner tag start) (children inner' tag start) :=
  settles_iterate (settled_childRound hi tag hp) []

theorem spends_endTag (tag : String) (start : Position) : Spends P k (endTag tag start) (endTag tag start) := by
  refine settled_bind settles_blank fun leading => settled_draw_keep (draws_expect _ _) fun close hc => ?_
  refine settled_draw_keep (draws_expect _ _) fun _ _ => settled_bind spends_tagName fun name => ?_
  split
  · exact settled_fail_bind hc nofun
  · exact settled_bind settles_blank fun inside => settled_drawn (draws_expect _ _) _

theorem spends_markup (hv : Spends P k inValue inValue') (hi : Spends P k inner inner') :
    Spends P (k + 1) (markup inValue inner) (markup inValue' inner') := by
  refine settled_bind settles_blank fun leading => settled_draw (draws_expect _ _) fun mark hm => ?_
  refine settled_peek fun next _ => ?_
  split
  · refine settled_draw_keep (draws_consume _) fun _ _ => settled_peek fun next _ => ?_
    split
    · exact settled_bind (spends_htmlComment hm) fun _ => settles_pure _
    · exact settled_bind (spends_docType hm) fun _ => settles_pure _
  refine settled_bind spends_tagName fun name => settled_bind (settles_attributes hv name hm) fun as => ?_
  refine settled_bind settles_blank fun beforeEnd => settled_peek fun next _ => ?_
  split
  · exact settled_draw_keep (draws_expect _ _) fun _ _ => settled_drawn (draws_expect _ _) _
  refine settled_draw_keep (draws_expect _ _) fun _ _ => ?_
  split
  · exact settles_pure _
  · exact settled_bind (settles_children hi name hm) fun _ => settled_bind (spends_endTag name mark.position) fun _ =>
      settles_pure _

/-! ## Segments -/

theorem spends_markupSegment (hh : Spends P (k + 1) here here') (hv : Spends P k inValue inValue')
    (hi : Spends P k inner inner') :
    Spends P (k + 1) (markupSegment here inValue inner) (markupSegment here' inValue' inner') := by
  refine settled_peek fun next _ => ?_
  split
  · intro s hs hlen
    rw [bind_ok (peek_run .kept s), bind_ok (peek_run .kept s), bind_ok (peekNth_run 2 s), bind_ok (peekNth_run 2 s)]
    by_cases h : ((s.peek .kept).isWhitespace && opensCode (s.peekNth 2)) = true
    · -- only because whitespace is next does taking it use up a token
      rw [if_pos h, if_pos h, blank_bind_run (Bool.and_eq_true_iff.1 h).1]
      exact settled_drawn (draws_consume _) _ s hs hlen
    · rw [if_neg h, if_neg h]
      exact hh s hs hlen
  refine settled_bind settles_startsMarkup fun opens => ?_
  split
  · exact spends_markup hv hi
  · exact settled_spend_keep spends_textRun fun _ => settles_pure _

end

section

variable {segment segment' : Place → Parser Segment}

theorem spends_codeSegment (hi : ∀ p, Spends P k (segment p) (segment' p)) :
    Spends P (k + 1) (codeSegment segment) (codeSegment segment') := by
  refine settled_bind settles_startsMarkup fun opens => ?_
  split
  · exact spends_markup (spends_embedded hi).below (hi .markup)
  refine settled_peek fun next _ => ?_
  split
  · exact spends_embedded hi
  split
  · exact spends_control hi
  split
  · exact settled_spend_keep spends_declaration fun _ => settled_drawn (draws_expect _ _) _
  · exact settled_spend_keep spends_action fun _ => settled_drawn (draws_expect _ _) _

theorem spends_segmentOver (hi : ∀ p, Spends P k (segment p) (segment' p)) (p : Place) :
    Spends P (k + 1) (segmentOver segment p) (segmentOver segment' p) := by
  cases p with
  | markup => exact spends_markupSegment (spends_embedded hi) (spends_embedded hi).below (hi .markup)
  | code => exact spends_codeSegment hi

end

/-- segments at any depths that allow for the tokens left -/
theorem spends_nestedSegment (n n' : Nat) (hn : k ≤ n) (hn' : k ≤ n') (p : Place) :
    Spends P k (nested segmentOver n p) (nested segmentOver n' p) :=
  settled_nested (fun _ _ _ => spends_segmentOver) n n' hn hn' p

theorem spends_segment (p : Place) : Spends P k (segment p) (segment p) :=
  fun s hs _ => spends_nestedSegment _ _ (Nat.le_refl _) (Nat.le_refl _) p s hs (Nat.lt_succ_self _)

/-- what an `@` opens -/
theorem spends_embeddedSegment : Spends P k (embedded segment) (embedded segment) :=
  (spends_embedded spends_segment).below

/-- **A segment is one over segments.** The depth of the recursion does not show. -/
theorem segment_eq (p : Place) : segment p = segmentOver segment p := by
  funext s
  have h : ∀ p, Spends (fun _ => True) s.remaining (segment p) (nested segmentOver s.remaining p) := fun p t ht hlt =>
    spends_nestedSegment (t.remaining + 1) s.remaining (Nat.le_refl _) hlt p t ht (Nat.lt_succ_self _)
  exact (spends_segmentOver h p s (placed_all s) (Nat.lt_succ_self _)).1

theorem settled_documentRound (segments : List Segment) :
    SettledRound P k (documentRound (segment .markup) segments) (documentRound (segment .markup) segments) := by
  refine settled_bind settles_atEnd fun ended => ?_
  split
  · exact settled_done _
  · exact settled_spend_keep (spends_segment .markup) fun _ => settles_pure _

theorem settles_document : Settles P k (document (segment .markup)) (document (segment .markup)) :=
  settles_iterate settled_documentRound []

end TemplateView.Grammar
