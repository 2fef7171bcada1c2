/-
Templates read elsewhere. Every parser of segments agrees with itself on the same lexemes at other places, and up to a
closing brace whatever follows this, in the order of its definition, with the parser of inner segments as a parameter
(`agree_segment`). So what a document is does not depend on what stands in front of it: `agree_documentBehind` reads the
same lexemes with some segments read before.
-/
import TemplateView.Grammar.Segment
import TemplateView.Proofs.Generation.Unplaced
import TemplateView.Proofs.Grammar.Agree

namespace TemplateView

/-- the same segment, perhaps at two places -/
abbrev Segment.Same : Segment → Segment → Prop := UpTo Segment.unplaced

/-- the same segments, perhaps at two places -/
abbrev Segment.SameAll : List Segment → List Segment → Prop := UpTo Segment.unplacedAll

theorem Segment.SameAll.concat {xs ys : List Segment} {x y : Segment} (h : SameAll xs ys) (hx : x.Same y) :
    SameAll (xs ++ [x]) (ys ++ [y]) := by
  unfold SameAll UpTo at *
  rw [unplacedAll_append, unplacedAll_append, h, unplacedAll, unplacedAll, hx]
  rfl

theorem Expression.Same.isAccess {x y : Expression} (h : x.Same y) : x.isAccess = y.isAccess := by
  have hunplaced : ∀ e : Expression, e.unplaced.isAccess = e.isAccess := by intro e; cases e <;> rfl
  rw [← hunplaced x, h, hunplaced y]

namespace Grammar

open TemplateView.Parser

variable {A : Sequel}

/-! ## Text and comments -/

/-- markup opens `n` tokens past the next one -/
def opensMarkupAt (s : TokenStream) (n : Nat) : Bool :=
  (s.peekNth n).is "<" && ((s.peekNth (n + 1)).isAlphanumeric || (s.peekNth (n + 1)).is "!")

theorem opensMarkupAt_aligned {s s' : TokenStream} (h : A.Aligned s s') (n : Nat)
    (hn : ∀ i < n, ¬ (s.peekNth i).IsBrace) : opensMarkupAt s n = opensMarkupAt s' n := by
  rw [opensMarkupAt, opensMarkupAt, ← (h.peekNth n hn).is]
  refine and_congr_of fun hmark => ?_
  have hnext := h.peekNth (n + 1) fun i hi => by
    obtain hi | rfl := Nat.lt_succ_iff_lt_or_eq.1 hi
    · exact hn i hi
    · exact Token.not_isBrace_of_is hmark (by decide)
  rw [hnext.isAlphanumeric, hnext.is]

theorem agree_startsMarkup : Agree A Eq startsMarkup startsMarkup := by
  refine agree_look (F := fun s => opensMarkupAt s (if (s.peek .kept).isWhitespace then 1 else 0)) ?_ fun b => ⟨b, rfl⟩
  intro s s' hs
  rw [← (hs.peek .kept).isWhitespace]
  split
  · next hw =>
    refine opensMarkupAt_aligned hs 1 fun i hi => ?_
    obtain rfl := Nat.lt_one_iff.1 hi
    exact Token.not_isBrace_of_isWhitespace hw
  · exact opensMarkupAt_aligned hs 0 nofun

theorem agree_textRun : Agree A Eq textRun textRun := by
  refine agree_bind (agree_consume _) fun first first' hf => agree_iterate_eq (fun text => ?_) hf.text
  simp only [textRound, isAddressAt, bind_assoc, pure_bind]
  generalize (text.toList.getLast?.map Text.isAlphanumeric).getD false = ends
  refine agree_ahead fun t t' after after' ht ha => ?_
  have haddress : (t.isDelimiter && (ends && after.isAlphanumeric)) =
      (t'.isDelimiter && (ends && after'.isAlphanumeric)) := by
    rw [← ht.isDelimiter]
    exact and_congr_of fun hd => by rw [(ha (Token.not_isBrace_of_isDelimiter hd)).isAlphanumeric]
  rw [ht.isEnd, haddress, ht.isOneOf]
  split
  · exact agree_pure (.inr rfl)
  split
  · exact agree_gather text
  split
  · exact agree_pure (.inr rfl)
  · exact agree_gather text

theorem agree_htmlComment (start start' : Position) : Agree A Eq (htmlComment start) (htmlComment start') := by
  refine agree_bind (agree_expect _ _) fun _ _ _ => agree_iterate_eq (fun reversed => ?_) rfl
  refine agree_bind_eq agree_atEnd fun ended => ?_
  split
  · exact agree_fail
  refine agree_bind (agree_consume _) fun t t' ht => ?_
  rw [ht.text]
  split
  · exact agree_pure (.inr rfl)
  · exact agree_pure (.inl rfl)

theorem agree_docType (start start' : Position) : Agree A Eq (docType start) (docType start') := by
  refine agree_iterate_eq (fun text => ?_) rfl
  refine agree_bind_eq agree_atEnd fun ended => agree_bind (agree_peek _) fun t t' ht => ?_
  rw [ht.is]
  split
  · exact agree_map (agree_expect _ _) fun _ _ _ => .inr rfl
  split
  · exact agree_fail
  · exact agree_gather text

theorem agree_templateComment (start start' : Position) :
    Agree A Eq (templateComment start) (templateComment start') := by
  refine agree_bind (agree_expect _ _) fun _ _ _ => agree_iterate_eq (fun text => ?_) rfl
  refine agree_ahead fun t t' after after' ht ha => ?_
  have hends : (t.is "*" && after.isDelimiter) = (t'.is "*" && after'.isDelimiter) := by
    rw [← ht.is]
    exact and_congr_of fun hs => by rw [(ha (Token.not_isBrace_of_is hs (by decide))).isDelimiter]
  rw [ht.isEnd, hends]
  split
  · exact agree_fail
  split
  · exact agree_bind (agree_consume _) fun _ _ _ => agree_map (agree_consume _) fun _ _ _ => .inr rfl
  · exact agree_gather text

/-! ## Statements -/

section

variable {segment segment' : Place → Parser Segment}

theorem agree_action : Agree A Expression.Same action action := by
  refine agree_bind agree_expression fun x x' hx => agree_bind (agree_peek _) fun next next' hn => ?_
  rw [binaryOperator?_same assignmentOperators hn]
  split
  · exact agree_bind (agree_consume _) fun _ _ _ => agree_map agree_expression fun y y' hy => hx.binary _ hy
  · exact agree_pure hx

theorem agree_declaration : Agree A (UpTo Declaration.unplaced) declaration declaration := by
  refine agree_bind (agree_expect _ _) fun _ _ _ => agree_bind_eq (agree_word _) fun name => ?_
  refine agree_bind (agree_peek _) fun t t' ht => ?_
  rw [ht.is]
  split
  · refine agree_bind (agree_consume _) fun _ _ _ => agree_map agree_expression fun x x' hx => ?_
    rw [UpTo, Declaration.unplaced, Declaration.unplaced, Option.map_some, Option.map_some, hx]
  · exact agree_pure rfl

theorem agree_blockRound (hi : ∀ p, Agree A Segment.Same (segment p) (segment' p)) (start start' : Position)
    {body body' : List Segment} (hb : Segment.SameAll body body') : Agree A (Sum.LiftRel Segment.SameAll Segment.SameAll)
      (blockRound segment start body) (blockRound segment' start' body') := by
  refine agree_bind (agree_peek _) fun next next' hn => ?_
  rw [hn.is, hn.isEnd]
  split
  · exact agree_map (agree_expect _ _) fun _ _ _ => .inr hb
  split
  · exact agree_fail
  · exact agree_map (hi .code) fun r r' hr => .inl (Segment.SameAll.concat hb hr)

theorem agree_block (hi : ∀ p, Agree A Segment.Same (segment p) (segment' p)) :
    Agree A Segment.SameAll (block segment) (block segment') :=
  agree_bind (agree_expect _ _) fun _ _ _ => agree_iterate (fun _ _ => agree_blockRound hi _ _) rfl

theorem agree_branchHead (hi : ∀ p, Agree A Segment.Same (segment p) (segment' p)) :
    Agree A (UpTo (Prod.map Expression.unplaced Segment.unplacedAll)) (branchHead segment) (branchHead segment') := by
  refine agree_bind (agree_expect _ _) fun _ _ _ => agree_bind (agree_expect _ _) fun _ _ _ => ?_
  refine agree_bind agree_expression fun test test' ht => agree_bind (agree_expect _ _) fun _ _ _ => ?_
  exact agree_map (agree_block hi) fun body body' hb => Prod.ext ht hb

/-- the same branches in front of what ends a chain of them -/
def SameBranches (w w' : Alternative → Alternative) : Prop :=
  ∀ a a', UpTo Alternative.unplaced a a' → UpTo Alternative.unplaced (w a) (w' a')

theorem agree_alternative (hi : ∀ p, Agree A Segment.Same (segment p) (segment' p)) :
    Agree A (UpTo Alternative.unplaced) (alternative segment) (alternative segment') := by
  refine agree_iterate (S := SameBranches) ?_ fun _ _ h => h
  intro wrap wrap' hw
  refine agree_bind (agree_peek _) fun t t' ht => ?_
  rw [ht.is]
  split
  · refine agree_bind (agree_consume _) fun _ _ _ => agree_bind (agree_peek _) fun next next' hn => ?_
    rw [hn.is]
    split
    · refine agree_map (agree_branchHead hi) fun h h' hh => .inl fun a a' ha => hw _ _ ?_
      obtain ⟨ht, hb⟩ := Prod.mk.inj hh
      rw [UpTo, Alternative.unplaced, Alternative.unplaced, ht, hb, ha]
    · refine agree_map (agree_block hi) fun body body' hb => .inr (hw _ _ ?_)
      rw [UpTo, Alternative.unplaced, Alternative.unplaced, hb]
  · exact agree_pure (.inr (hw _ _ rfl))

theorem agree_loopStatement (hi : ∀ p, Agree A Segment.Same (segment p) (segment' p)) :
    Agree A Segment.Same (loopStatement segment) (loopStatement segment') := by
  refine agree_bind (agree_expect _ _) fun _ _ _ => agree_bind (agree_expect _ _) fun _ _ _ => ?_
  refine agree_bind (agree_peek _) fun next next' hn => ?_
  rw [hn.is]
  split
  · exact agree_fail_bind
  refine agree_bind agree_declaration fun counter counter' hc => agree_bind (agree_expect _ _) fun _ _ _ => ?_
  refine agree_bind agree_expression fun condition condition' ht => agree_bind (agree_expect _ _) fun _ _ _ => ?_
  refine agree_bind agree_action fun iteration iteration' ha => agree_bind (agree_expect _ _) fun _ _ _ => ?_
  refine agree_map (agree_block hi) fun body body' hb => ?_
  rw [Segment.Same, UpTo, Segment.unplaced, Segment.unplaced, hc, ht, ha, hb]

theorem agree_eachStatement (hi : ∀ p, Agree A Segment.Same (segment p) (segment' p)) :
    Agree A Segment.Same (eachStatement segment) (eachStatement segment') := by
  refine agree_bind (agree_expect _ _) fun _ _ _ => agree_bind (agree_expect _ _) fun _ _ _ => ?_
  refine agree_bind (agree_expect _ _) fun _ _ _ => agree_bind_eq (agree_word _) fun item => ?_
  refine agree_bind (agree_expect _ _) fun _ _ _ => agree_bind (agree_peek _) fun first first' _ => ?_
  refine agree_bind agree_expression fun collection collection' hc => ?_
  rw [hc.isAccess]
  split
  · exact agree_fail_bind
  · refine agree_bind (agree_expect _ _) fun _ _ _ => agree_map (agree_block hi) fun body body' hb => ?_
    rw [Segment.Same, UpTo, Segment.unplaced, Segment.unplaced, hc, hb]

theorem agree_control (hi : ∀ p, Agree A Segment.Same (segment p) (segment' p)) :
    Agree A Segment.Same (control segment) (control segment') := by
  refine agree_bind (agree_peek _) fun next next' hn => ?_
  rw [hn.text]
  split
  · refine agree_bind (agree_branchHead hi) fun h h' hh => agree_map (agree_alternative hi) fun a a' ha => ?_
    obtain ⟨ht, hb⟩ := Prod.mk.inj hh
    rw [Segment.Same, UpTo, Segment.unplaced, Segment.unplaced, ht, hb, ha]
  split
  · exact agree_loopStatement hi
  · exact agree_eachStatement hi

theorem agree_parameters : Agree A Eq parameters parameters := by
  refine agree_bind (agree_peek _) fun t t' ht => ?_
  rw [ht.is]
  split
  · exact agree_pure rfl
  refine agree_iterate_eq (fun names => ?_) rfl
  refine agree_bind_eq (agree_word _) fun name => ?_
  refine agree_bind (agree_peek _) fun t t' ht => ?_
  rw [ht.is]
  split
  · exact agree_map (agree_consume _) fun _ _ _ => .inl rfl
  · exact agree_pure (.inr rfl)

theorem agree_helper (hi : ∀ p, Agree A Segment.Same (segment p) (segment' p)) :
    Agree A Segment.Same (helper segment) (helper segment') := by
  refine agree_bind (agree_expect _ _) fun _ _ _ => agree_bind_eq (agree_word _) fun name => ?_
  refine agree_bind (agree_expect _ _) fun _ _ _ => agree_bind_eq agree_parameters fun names => ?_
  refine agree_bind (agree_expect _ _) fun _ _ _ => agree_map (agree_block hi) fun body body' hb => ?_
  rw [Segment.Same, UpTo, Segment.unplaced, Segment.unplaced, hb]

theorem agree_namedSection (hi : ∀ p, Agree A Segment.Same (segment p) (segment' p)) :
    Agree A Segment.Same (namedSection segment) (namedSection segment') := by
  refine agree_bind (agree_expect _ _) fun _ _ _ => agree_bind_eq (agree_word _) fun name => ?_
  refine agree_map (agree_block hi) fun body body' hb => ?_
  rw [Segment.Same, UpTo, Segment.unplaced, Segment.unplaced, hb]

/-! ## What an `@` opens -/

/-- an inline expression that is the same -/
theorem same_inline {x x' : Expression} (h : x.Same x') (leading : String) :
    Segment.Same (.inline ⟨x, leading⟩) (.inline ⟨x', leading⟩) := by
  rw [Segment.Same, UpTo, Segment.unplaced, Segment.unplaced, InlineExpression.unplaced, InlineExpression.unplaced, h]

theorem agree_parenthesized : Agree A Expression.Same parenthesized parenthesized :=
  agree_bind (agree_consume _) fun _ _ _ => agree_bind agree_expression fun _ _ hx =>
    agree_map (agree_expect _ _) fun _ _ _ => hx

theorem agree_inlineChain : Agree A Expression.Same inlineChain inlineChain :=
  agree_bind (agree_consume _) fun _ _ hname => agree_chain agree_expression .kept (same_nameOrLiteral hname)

theorem agree_construct (hi : ∀ p, Agree A Segment.Same (segment p) (segment' p)) (leading : String)
    (mark mark' : Token) : Agree A Segment.Same (construct segment leading mark) (construct segment' leading mark') := by
  refine agree_bind (agree_peek _) fun next next' hn => ?_
  simp only [hn.isDelimiter, hn.is, hn.isAlphanumeric, hn.text]
  split
  · exact agree_map (agree_consume _) fun _ _ _ => rfl
  split
  · exact agree_map (agree_templateComment _ _) fun text text' ht => by
      rw [ht]
      rfl
  split
  · exact agree_map agree_parenthesized fun x x' hx => same_inline hx leading
  split
  · refine agree_map (agree_block hi) fun body body' hb => ?_
    rw [Segment.Same, UpTo, Segment.unplaced, Segment.unplaced, hb]
  split
  · split
    · exact agree_helper hi
    split
    · exact agree_namedSection hi
    split
    · exact agree_control hi
    · exact agree_map agree_inlineChain fun x x' hx => same_inline hx leading
  · exact agree_fail

theorem agree_embedded (hi : ∀ p, Agree A Segment.Same (segment p) (segment' p)) :
    Agree A Segment.Same (embedded segment) (embedded segment') := by
  refine agree_bind_eq agree_blank fun leading => ?_
  exact agree_bind (agree_expectCategory _ _) fun mark mark' _ => agree_construct hi leading mark mark'

end

/-! ## Tags -/

section

variable {inValue inValue' here here' inner inner' : Parser Segment}

theorem agree_tagName : Agree A Eq tagName tagName := by
  refine agree_bind_eq (agree_word _) fun first => ?_
  refine agree_iterate_eq (fun name => ?_) rfl
  refine agree_ahead fun joiner joiner' next next' hj hn => ?_
  have hgoes : ((joiner.is "-" || joiner.is ":") && (next.isAlphanumeric || next.category == .numeric)) =
      ((joiner'.is "-" || joiner'.is ":") && (next'.isAlphanumeric || next'.category == .numeric)) := by
    rw [← hj.is, ← hj.is]
    refine and_congr_of fun hjoins => ?_
    have hnext := hn fun hb => by simp [Token.is, hb.text] at hjoins
    rw [hnext.isAlphanumeric, hnext.category]
  rw [hgoes]
  split
  · refine agree_bind (agree_consume _) fun t t' ht => agree_map (agree_consume _) fun u u' hu => .inl ?_
    rw [ht.text, hu.text]
  · exact agree_pure (.inr rfl)

/-- an inline expression is next, as the next token and the one behind it show -/
def startsHere (text : String) (t after : Token) : Bool :=
  (t.isDelimiter && !((text.toList.getLast?.map Text.isAlphanumeric).getD false && after.isAlphanumeric)) ||
    (!t.isDelimiter && t.isWhitespace && after.isDelimiter)

theorem startsInline_eq (t : Token) (text : String) :
    startsInline t text = peekNext .kept >>= fun after => pure (startsHere text t after) := by
  unfold startsInline isAddressAt startsHere
  cases t.isDelimiter <;> simp

theorem startsHere_same (text : String) {t t' after after' : Token} (ht : t.Same t')
    (ha : ¬ t.IsBrace → after.Same after') : startsHere text t after = startsHere text t' after' := by
  rw [startsHere, startsHere, ← ht.isDelimiter, ← ht.isWhitespace]
  congr 1
  · exact and_congr_of fun hd => by rw [(ha (Token.not_isBrace_of_isDelimiter hd)).isAlphanumeric]
  · refine and_congr_of fun hw => ?_
    rw [Bool.and_eq_true] at hw
    rw [(ha (Token.not_isBrace_of_isWhitespace hw.2)).isDelimiter]

/-- parts of an attribute value that are the same, and the text behind them -/
def SameParts (p p' : List ValuePart × String) : Prop := UpTo (List.map ValuePart.unplaced) p.1 p'.1 ∧ p.2 = p'.2

theorem same_withText {parts parts' : List ValuePart} (hp : UpTo (List.map ValuePart.unplaced) parts parts')
    (text : String) : UpTo (List.map ValuePart.unplaced) (withText parts text) (withText parts' text) := by
  unfold UpTo withText at *
  split
  · exact hp
  · rw [List.map_append, List.map_append, hp]

theorem agree_valueParts (hv : Agree A Segment.Same inValue inValue') {quote quote' : Token} (hq : quote.Same quote') :
    Agree A (UpTo (List.map ValuePart.unplaced)) (valueParts inValue quote) (valueParts inValue' quote') := by
  refine agree_iterate (S := SameParts) ?_ ⟨rfl, rfl⟩
  rintro ⟨parts, text⟩ ⟨parts', _⟩ ⟨hp, rfl⟩
  simp only [valueRound, startsInline_eq, bind_assoc, pure_bind]
  refine agree_ahead fun t t' after after' ht ha => ?_
  have hinline := startsHere_same text ht ha
  rw [ht.is, ht.isEnd, hq.text, hinline]
  have hflushed := same_withText hp text
  split
  · exact agree_pure (.inr hflushed)
  split
  · exact agree_fail
  split
  · refine agree_bind hv fun r r' hr => ?_
    cases r <;> cases r' <;> try first | exact agree_fail | (cases hr; done)
    case text.text =>
      obtain rfl := Segment.text.inj hr
      exact agree_pure (.inl ⟨hflushed, rfl⟩)
    case inline.inline i i' =>
      have hinline : i.unplaced = i'.unplaced := Segment.inline.inj hr
      refine agree_pure (.inl ⟨?_, rfl⟩)
      rw [UpTo, List.map_append, List.map_append, hflushed, List.map_singleton, List.map_singleton, ValuePart.unplaced,
        ValuePart.unplaced, hinline]
    case comment.comment => exact agree_pure (.inl ⟨hflushed, rfl⟩)
  · exact agree_map (agree_consume _) fun u u' hu => .inl ⟨hp, by rw [hu.text]⟩

theorem agree_oneAttribute (hv : Agree A Segment.Same inValue inValue') :
    Agree A (UpTo Attribute.unplaced) (oneAttribute inValue) (oneAttribute inValue') := by
  refine agree_bind (agree_expectCategory _ _) fun leading leading' hl => agree_bind_eq agree_tagName fun name => ?_
  refine agree_bind (agree_peek _) fun next next' hn => ?_
  rw [hn.is, hl.text]
  split
  · exact agree_pure rfl
  refine agree_bind_eq agree_blank fun before => ?_
  refine agree_bind (agree_expect _ _) fun sign sign' hs => agree_bind_eq agree_blank fun behind => ?_
  refine agree_bind (agree_expectOneOf _ _) fun quote quote' hq => ?_
  refine agree_bind (agree_valueParts hv hq) fun parts parts' hp => ?_
  rw [hs.text, hq.text]
  exact agree_map (agree_expect _ _) fun _ _ _ => congrArg (Attribute.mk leading'.text name _ _) hp

theorem agree_attributes (hv : Agree A Segment.Same inValue inValue') (tag : String) (start start' : Position) :
    Agree A (UpTo (List.map Attribute.unplaced)) (attributes inValue tag start) (attributes inValue' tag start') := by
  refine agree_iterate (S := UpTo (List.map Attribute.unplaced)) ?_ rfl
  intro as as' has
  refine agree_bind (agree_peek _) fun next next' hn => ?_
  rw [hn.is, hn.is, hn.isEnd]
  split
  · exact agree_pure (.inr has)
  split
  · exact agree_fail
  · refine agree_map (agree_oneAttribute hv) fun a a' ha => .inl ?_
    rw [UpTo, List.map_append, List.map_append, has, List.map_singleton, List.map_singleton, ha]

theorem agree_children (hi : Agree A Segment.Same inner inner') (tag : String) (start start' : Position) :
    Agree A Segment.SameAll (children inner tag start) (children inner' tag start') := by
  refine agree_iterate (S := Segment.SameAll) ?_ rfl
  intro rs rs' hrs
  refine agree_ahead fun mark mark' after after' hm ha => agree_bind_eq agree_atEnd fun ended => ?_
  have hends : (mark.is "<" && after.is "/") = (mark'.is "<" && after'.is "/") := by
    rw [← hm.is]
    exact and_congr_of fun hs => by rw [(ha (Token.not_isBrace_of_is hs (by decide))).is]
  rw [hends]
  split
  · exact agree_fail
  split
  · exact agree_pure (.inr hrs)
  · exact agree_map hi fun r r' hr => .inl (Segment.SameAll.concat hrs hr)

theorem agree_endTag (tag : String) (start start' : Position) : Agree A Eq (endTag tag start) (endTag tag start') := by
  refine agree_bind_eq agree_blank fun leading => ?_
  refine agree_bind (agree_expect _ _) fun close close' _ => agree_bind (agree_expect _ _) fun _ _ _ => ?_
  refine agree_bind_eq agree_tagName fun name => ?_
  split
  · exact agree_fail_bind
  refine agree_bind_eq agree_blank fun inside => ?_
  exact agree_map (agree_expect _ _) fun _ _ _ => rfl

theorem agree_markup (hv : Agree A Segment.Same inValue inValue') (hi : Agree A Segment.Same inner inner') :
    Agree A Segment.Same (markup inValue inner) (markup inValue' inner') := by
  refine agree_bind_eq agree_blank fun leading => ?_
  refine agree_bind (agree_expect _ _) fun mark mark' _ => agree_bind (agree_peek _) fun next next' hn => ?_
  rw [hn.is]
  split
  · refine agree_bind (agree_consume _) fun _ _ _ => agree_bind (agree_peek _) fun next next' hn => ?_
    rw [hn.is]
    split
    · exact agree_map (agree_htmlComment _ _) fun text text' ht => by rw [ht]; rfl
    · exact agree_map (agree_docType _ _) fun text text' ht => by rw [ht]; rfl
  refine agree_bind_eq agree_tagName fun name => ?_
  refine agree_bind (agree_attributes hv name _ _) fun as as' has => agree_bind_eq agree_blank fun beforeEnd => ?_
  have htag : (Tag.mk leading name as beforeEnd).unplaced = (Tag.mk leading name as' beforeEnd).unplaced := by
    rw [Tag.unplaced, Tag.unplaced, has]
  have hempty : ∀ closing, Segment.Same (.emptyElement ⟨leading, name, as, beforeEnd⟩ closing)
      (.emptyElement ⟨leading, name, as', beforeEnd⟩ closing) := fun closing => by
    rw [Segment.Same, UpTo, Segment.unplaced, Segment.unplaced, htag]
  refine agree_bind (agree_peek _) fun next next' hn => ?_
  rw [hn.is]
  split
  · exact agree_bind (agree_expect _ _) fun _ _ _ => agree_map (agree_expect _ _) fun _ _ _ => hempty .slash
  refine agree_bind (agree_expect _ _) fun _ _ _ => ?_
  split
  · exact agree_pure (hempty .void)
  · refine agree_bind (agree_children hi name _ _) fun rs rs' hrs => agree_map (agree_endTag name _ _) fun e e' he => ?_
    rw [Segment.Same, UpTo, Segment.unplaced, Segment.unplaced, htag, hrs, he]

/-! ## Segments -/

/-- an `@` is next, perhaps behind whitespace; and it stands behind whitespace and opens code -/
def marks : Parser (Bool × Bool) :=
  fun s => .ok (((s.peek .skipped).isDelimiter,
    (s.peek .skipped).isDelimiter && ((s.peek .kept).isWhitespace && opensCode (s.peekNth 2))), s)

theorem markupSegment_eq (here inValue inner : Parser Segment) : markupSegment here inValue inner =
    marks >>= fun p => if p.1 then if p.2 then do return .text (← blank) else here
      else do if ← startsMarkup then markup inValue inner else return .text (← textRun) := by
  funext s
  rw [markupSegment, bind_ok (peek_run _ _), bind_run marks, marks]
  cases (s.peek .skipped).isDelimiter <;> rfl

theorem agree_marks : Agree A Eq marks marks := by
  refine agree_look (fun s s' hs => ?_) fun p => ⟨p, rfl⟩
  rw [(hs.peek .skipped).isDelimiter, ← (hs.peek .kept).isWhitespace]
  refine congrArg _ (and_congr_of fun hd => and_congr_of fun hw => ?_)
  have hblank : ¬ (s.peekNth 0).IsBrace := Token.not_isBrace_of_isWhitespace hw
  have hskipped : s.peek .skipped = s.peekNth 1 := by
    have hpass : s.passBlank .skipped = s.advance := if_pos hw
    rw [TokenStream.peek, hpass, TokenStream.advance, TokenStream.peekNth, TokenStream.peekNth, List.getD_eq_getElem?_getD,
      List.getD_eq_getElem?_getD, List.getElem?_drop]
  have hmark : ¬ (s.peekNth 1).IsBrace := by
    rw [← hskipped]
    exact Token.not_isBrace_of_isDelimiter ((hs.peek .skipped).isDelimiter.trans hd)
  have hword : (s.peekNth 2).Same (s'.peekNth 2) := hs.peekNth 2 fun i hi => by
    obtain rfl | rfl : i = 0 ∨ i = 1 := by omega
    · exact hblank
    · exact hmark
  rw [opensCode, opensCode, hword.is, hword.is, hword.isAlphanumeric, hword.text]

theorem agree_markupSegment (hh : Agree A Segment.Same here here') (hv : Agree A Segment.Same inValue inValue')
    (hi : Agree A Segment.Same inner inner') :
    Agree A Segment.Same (markupSegment here inValue inner) (markupSegment here' inValue' inner') := by
  rw [markupSegment_eq, markupSegment_eq]
  refine agree_bind_eq agree_marks fun p => ?_
  split
  · split
    · exact agree_map agree_blank fun text text' ht => by rw [ht]; rfl
    · exact hh
  refine agree_bind_eq agree_startsMarkup fun opens => ?_
  split
  · exact agree_markup hv hi
  · exact agree_map agree_textRun fun text text' ht => by rw [ht]; rfl

end

section

variable {segment segment' : Place → Parser Segment}

theorem agree_codeSegment (hi : ∀ p, Agree A Segment.Same (segment p) (segment' p)) :
    Agree A Segment.Same (codeSegment segment) (codeSegment segment') := by
  refine agree_bind_eq agree_startsMarkup fun opens => ?_
  split
  · exact agree_markup (agree_embedded hi) (hi .markup)
  refine agree_bind (agree_peek _) fun next next' hn => ?_
  rw [hn.isDelimiter, hn.isAlphanumeric, hn.text]
  split
  · exact agree_embedded hi
  split
  · exact agree_control hi
  split
  · refine agree_bind agree_declaration fun d d' hd => agree_map (agree_expect _ _) fun _ _ _ => ?_
    rw [Segment.Same, UpTo, Segment.unplaced, Segment.unplaced, hd]
  · refine agree_bind agree_action fun a a' ha => agree_map (agree_expect _ _) fun _ _ _ => ?_
    rw [Segment.Same, UpTo, Segment.unplaced, Segment.unplaced, ha]

theorem agree_segmentOver (hi : ∀ p, Agree A Segment.Same (segment p) (segment' p)) (p : Place) :
    Agree A Segment.Same (segmentOver segment p) (segmentOver segment' p) := by
  cases p with
  | markup => exact agree_markupSegment (agree_embedded hi) (agree_embedded hi) (hi .markup)
  | code => exact agree_codeSegment hi

end

/-- **The same lexemes are the same segment**, whatever follows a closing brace behind them, and leave the same lexemes. -/
theorem agree_segment (p : Place) : Agree A Segment.Same (segment p) (segment p) :=
  agree_recursive (fun _ _ => agree_segmentOver) p

/-- a document is the same behind other segments, which it keeps -/
theorem agree_documentBehind (before : List Segment) : Agree .ended
    (fun rs rs' => Segment.SameAll rs (before ++ rs')) (iterate before (documentRound (segment .markup)))
      (document (segment .markup)) := by
  refine agree_iterate (S := fun rs rs' => Segment.SameAll rs (before ++ rs')) ?_ (by rw [List.append_nil]; rfl)
  intro rs rs' hrs
  refine agree_bind_eq agree_atEnd fun ended => ?_
  split
  · exact agree_pure (.inr hrs)
  · refine agree_map (agree_segment .markup) fun r r' hr => .inl ?_
    rw [← List.append_assoc]
    exact Segment.SameAll.concat hrs hr

/-- segments that are read in front of a text, and then what the text is alone -/
theorem parse_behind {source rest : String} {before : List Segment} {p f : Position}
    (h : document (segment .markup) (.ofSource source) =
      iterate before (documentRound (segment .markup)) ⟨tokensFrom p rest.toList, f⟩) :
    Option.Rel (fun t t' : Template => Segment.SameAll t.segments (before ++ t'.segments))
      (Template.parse source).toOption (Template.parse rest).toOption := by
  have hsame : SameTokens (tokensFrom p rest.toList) (TokenStream.ofSource rest).rest := sameTokens_tokensFrom _ _ _
  have hbehind := (agree_documentBehind before).rel (s := ⟨tokensFrom p rest.toList, f⟩) hsame
  rw [← h] at hbehind
  unfold Template.parse Template.parseAs
  cases hm : document (segment .markup) (.ofSource source) <;>
    cases hm' : document (segment .markup) (.ofSource rest) <;> rw [hm, hm'] at hbehind
  case error.error => exact .none
  case error.ok => cases hbehind
  case ok.error => cases hbehind
  case ok.ok => exact .some (Option.rel_some_some.1 hbehind).1

end Grammar

end TemplateView
