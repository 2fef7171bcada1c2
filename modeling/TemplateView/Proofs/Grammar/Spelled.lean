/-
Markup keeps its text. `Segment.strands?` takes a plain segment apart into strands: the texts that make it up, as the tree
holds them, and its inline expressions. The tokens that a parser of plain markup uses up are those strands in order, none
lost and none twice: `takes_markup` for tags, comments and declarations, `takes_markupSegment` for any segment.
-/
import TemplateView.Proofs.Grammar.Inline

namespace TemplateView

/-! ## Strands -/

/-- a part of plain markup that is one text or one expression -/
inductive Strand where
  | text (text : String)
  /-- an inline expression, from its `@` on -/
  | code (expression : Expression)

/-- the texts between expressions: one before the first, and one behind each -/
def Strand.texts : List Strand → List String
  | [] => [""]
  | .text s :: ps => (Strand.texts ps).modifyHead (s ++ ·)
  | .code _ :: ps => "" :: Strand.texts ps

def Strand.codes : List Strand → List Expression
  | [] => []
  | .text _ :: ps => Strand.codes ps
  | .code x :: ps => x :: Strand.codes ps

theorem Strand.codes_append (ps qs : List Strand) : Strand.codes (ps ++ qs) = Strand.codes ps ++ Strand.codes qs := by
  induction ps with
  | nil => rfl
  | cons p ps ih =>
    cases p with
    | text s => exact ih
    | code x => exact congrArg (x :: ·) ih

/-- the text of a piece of an attribute value as it stands -/
def ValuePart.standing : ValuePart → String
  | .text s => s
  | .inline _ => ""

/-- the text of an attribute, if it has no expression in its value -/
def Attribute.text? (a : Attribute) : Option String :=
  match a.quote with
  | none => some (a.leading ++ a.name)
  | some quote =>
    if a.values.any ValuePart.isInline then none
    else
      some (a.leading ++ a.name ++ a.separator ++ String.singleton quote ++ String.join (a.values.map ValuePart.standing) ++
        String.singleton quote)

/-- the strands of a start tag up to its end, if it has plain attributes only -/
def Tag.strands? (t : Tag) : Option (List Strand) := do
  let attributes ← t.attributes.mapM Attribute.text?
  return [.text (t.leading ++ "<" ++ t.name)] ++ attributes.map Strand.text ++ [.text t.beforeEnd]

mutual

/-- the strands of a segment, if it is plain: markup without expressions in attributes, and inline expressions -/
def Segment.strands? : Segment → Option (List Strand)
  | .text s => some [.text s]
  | .element tag children close => do
    let head ← tag.strands?
    let content ← Segment.strandsAll? children
    return head ++ [.text ">"] ++ content ++ [.text (close.leading ++ "</" ++ close.name ++ close.inside ++ ">")]
  | .emptyElement tag .slash => do
    let head ← tag.strands?
    return head ++ [.text "/>"]
  | .emptyElement tag .void => do
    let head ← tag.strands?
    return head ++ [.text ">"]
  | .htmlComment leading s => some [.text (leading ++ "<!--" ++ s ++ "-->")]
  | .docType leading s => some [.text (leading ++ "<!" ++ s ++ ">")]
  | .inline i => some [.text i.leading, .code i.expression]
  | _ => none

def Segment.strandsAll? : List Segment → Option (List Strand)
  | [] => some []
  | s :: ss => do
    let strands ← s.strands?
    return strands ++ (← Segment.strandsAll? ss)

end

theorem Segment.strandsAll?_append {ss : List Segment} {s : Segment} {ps qs : List Strand}
    (hs : Segment.strandsAll? ss = some ps) (hq : s.strands? = some qs) :
    Segment.strandsAll? (ss ++ [s]) = some (ps ++ qs) := by
  induction ss generalizing ps with
  | nil =>
    cases hs
    simp [Segment.strandsAll?, hq]
  | cons r ss ih =>
    simp only [Segment.strandsAll?, Option.bind_eq_bind, Option.bind_eq_some_iff, Option.pure_def, Option.some.injEq] at hs
    obtain ⟨rs, hr, ps, hps, rfl⟩ := hs
    simp [Segment.strandsAll?, hr, ih hps]

/-- the tokens are the strands, in order -/
inductive Spells : List Token → List Strand → Prop
  | nil : Spells [] []
  | text {used rest : List Token} {text : String} {ps : List Strand} (h : textOf used = text) (hr : Spells rest ps) :
    Spells (used ++ rest) (.text text :: ps)
  | code {code rest : List Token} {x : Expression} {ps : List Strand} (h : Grammar.Alone code x) (hr : Spells rest ps) :
    Spells (code ++ rest) (.code x :: ps)

theorem Spells.append {us vs : List Token} {ps qs : List Strand} (hu : Spells us ps) (hv : Spells vs qs) :
    Spells (us ++ vs) (ps ++ qs) := by
  induction hu with
  | nil => exact hv
  | text h _ ih =>
    rw [List.append_assoc]
    exact .text h ih
  | code h _ ih =>
    rw [List.append_assoc]
    exact .code h ih

/-- tokens as one text -/
theorem spells_text {used : List Token} {text : String} (h : textOf used = text) : Spells used [.text text] := by
  simpa using Spells.text h .nil

namespace Grammar

open TemplateView.Parser

variable {s : TokenStream}

/-! ## Names and texts -/

theorem text_of_is {t : Token} {text : String} (h : t.is text = true) : t.text = text := by
  simp only [Token.is, Bool.and_eq_true, beq_iff_eq] at h
  exact h.2

/-- an expected token is the text of itself -/
theorem takes_expectedText (e : Expected) :
    Takes (taking (·.consumeExpected .kept e)) s fun used t => textOf used = t.text ∧ e.matches t = true :=
  takes_expected fun t ht => ⟨by simp, ht⟩

theorem takes_expect (text : String) : Takes (expect .kept text) s fun used _ => textOf used = text :=
  (takes_expectedText (.text text)).mono fun _ _ h => h.1.trans (text_of_is h.2)

theorem takes_word : Takes (word .kept) s fun used name => textOf used = name := by
  refine takes_bind (takes_expected (Q := fun used t => used = [t]) fun t _ => rfl) ?_
  intro _ t _ _ he
  subst he
  exact takes_pure (by simp)

theorem takes_consumeText : Takes (consume .kept) s fun used t => textOf used = t.text :=
  takes_consume (by simp)

/-- a round that takes one more token as text -/
theorem takes_gathered (text close : String) :
    Takes (do return .inl (text ++ (← consume .kept).text) : Parser (String ⊕ String)) s fun more =>
      Sum.elim (text ++ textOf more = ·) (text ++ textOf more = · ++ close) := by
  refine takes_bind takes_consumeText ?_
  intro used t _ _ ht
  exact takes_pure (by simp [ht])

/-- a loop that gathers text up to a mark gathers the text of its tokens -/
theorem takes_gather {step : String → Parser (String ⊕ String)} (close : String)
    (h : ∀ text t, Takes (step text) t fun more =>
      Sum.elim (text ++ textOf more = ·) (text ++ textOf more = · ++ close)) (text : String) :
    Takes (iterate text step) s fun used r => text ++ textOf used = r ++ close := by
  refine takes_iterate (I := fun used r => text ++ textOf used = r) (by simp) ?_
  intro used r t hr
  refine (h r t).mono ?_
  intro more x hx
  cases x with
  | inl r' => simpa [← hr, String.append_assoc] using hx
  | inr r' => simpa [← hr, String.append_assoc] using hx

/-- a tag or attribute name is the text of its tokens -/
theorem takes_tagName : Takes tagName s fun used name => textOf used = name := by
  refine takes_bind takes_word ?_
  intro used name t _ hn
  refine (takes_gather "" ?_ name).mono ?_
  · intro text t
    refine takes_peek (takes_peekNext ?_)
    split
    · refine takes_bind takes_consumeText fun first joiner t _ hj => ?_
      refine takes_bind takes_consumeText fun second next t _ hx => ?_
      exact takes_pure (by simp [hj, hx, String.append_assoc])
    · exact takes_pure (by simp)
  · intro more r hr
    simpa [hn] using hr

theorem takes_isAddressAt (text : String) : Takes (isAddressAt text) s fun used _ => used = [] :=
  takes_peekNext (takes_pure rfl)

/-- a run of text is the text of its tokens -/
theorem takes_textRun : Takes textRun s fun used text => textOf used = text := by
  refine takes_bind takes_consumeText ?_
  intro used first t _ hf
  refine (takes_gather "" ?_ first.text).mono ?_
  · intro text t
    refine takes_peek (takes_bind (takes_isAddressAt text) ?_)
    intro _ address t _ he
    subst he
    split
    · exact takes_pure (by simp)
    split
    · exact takes_gathered text ""
    split
    · exact takes_pure (by simp)
    · exact takes_gathered text ""
  · intro more r hr
    simpa [hf] using hr

/-- a declaration is the text of its tokens, up to its `>` -/
theorem takes_docType (start : Position) : Takes (docType start) s fun used text => textOf used = text ++ ">" := by
  refine (takes_gather ">" ?_ "").mono ?_
  · intro text t
    refine takes_atEnd (takes_peek ?_)
    split
    · refine takes_bind (takes_expect ">") fun used _ _ _ hu => ?_
      exact takes_pure (by simp [hu])
    split
    · exact takes_fail
    · exact takes_gathered text ">"
  · intro used text hr
    simpa using hr

/-- an HTML comment is the text of its tokens, with the dashes and the mark around it -/
theorem takes_htmlComment (start : Position) :
    Takes (htmlComment start) s fun used text => textOf used = "--" ++ text ++ "-->" := by
  refine takes_bind (takes_expect "--") ?_
  intro used _ t _ hu
  refine takes_iterate (I := fun more reversed => textOf more = String.ofList reversed.reverse) rfl ?_
  intro more reversed t hm
  refine takes_atEnd ?_
  split
  · exact takes_fail
  refine takes_bind takes_consumeText ?_
  intro rest next t _ hx
  have hall : textOf (more ++ rest) = String.ofList (next.text.toList.reverse ++ reversed).reverse := by
    simp [hm, hx]
  generalize next.text.toList.reverse ++ reversed = all at hall
  split
  · next body =>
    refine takes_pure ?_
    have hmark : String.ofList ('>' :: '-' :: '-' :: body).reverse = String.ofList body.reverse ++ "-->" := by
      simp [String.ofList_append]
    simp only [Sum.elim_inr, List.append_nil, textOf_append, hu] at hall ⊢
    rw [hall, hmark, String.append_assoc]
  · refine takes_pure ?_
    simpa using hall

/-! ## Tags -/

/-- a text behind plain parts of a value leaves them plain -/
theorem plain_withText {parts : List ValuePart} (h : parts.any ValuePart.isInline = false) (text : String) :
    (withText parts text).any ValuePart.isInline = false ∧
      String.join ((withText parts text).map ValuePart.standing) =
        String.join (parts.map ValuePart.standing) ++ text := by
  unfold withText
  split
  · next he => exact ⟨h, by simp [String.isEmpty_iff.1 he]⟩
  · exact ⟨by simp [h, ValuePart.isInline], by simp [String.join_append, ValuePart.standing]⟩

theorem takes_startsInline (t : Token) (text : String) : Takes (startsInline t text) s fun used _ => used = [] := by
  unfold startsInline
  split
  · refine takes_bind (takes_isAddressAt text) ?_
    intro _ _ _ _ he
    subst he
    exact takes_pure rfl
  · exact takes_peekNext (takes_pure rfl)

/-- a value without expressions is the text of its tokens -/
theorem takes_valueParts (quote : Token) :
    Takes (valueParts stalled quote) s fun used parts => parts.any ValuePart.isInline = false ∧
      textOf used = String.join (parts.map ValuePart.standing) := by
  refine takes_iterate (I := fun used p => p.1.any ValuePart.isInline = false ∧
    textOf used = String.join (p.1.map ValuePart.standing) ++ p.2) ⟨rfl, rfl⟩ ?_
  intro used r t hq
  obtain ⟨parts, text⟩ := r
  obtain ⟨hp, ht⟩ := hq
  refine takes_peek (takes_bind (takes_startsInline _ text) ?_)
  intro _ inline t _ he
  subst he
  split
  · obtain ⟨hw, hj⟩ := plain_withText hp text
    exact takes_pure ⟨hw, by simpa [hj] using ht⟩
  split
  · exact takes_fail
  split
  · exact takes_bind takes_stalled (P := fun _ _ => False) fun _ _ _ _ h => h.elim
  · refine takes_bind takes_consumeText ?_
    intro more next t _ hx
    exact takes_pure ⟨hp, by simp [ht, hx, String.append_assoc]⟩

/-- the quote that opens a value is one character -/
theorem quote_text {quote : Token} (h : (Expected.oneOf ["\"", "'"]).matches quote = true) :
    ∃ q, quote.text.toList.head? = some q ∧ quote.text = String.singleton q ∧ (q = '"' ∨ q = '\'') := by
  simp only [Expected.matches, Token.isOneOf, List.any_cons, List.any_nil, Bool.or_false, Bool.or_eq_true] at h
  rcases h with h | h
  · exact ⟨'"', by rw [text_of_is h]; rfl, text_of_is h, .inl rfl⟩
  · exact ⟨'\'', by rw [text_of_is h]; rfl, text_of_is h, .inr rfl⟩

/-- an attribute without expressions is the text of its tokens -/
theorem takes_oneAttribute : Takes (oneAttribute stalled) s fun used a => a.text? = some (textOf used) := by
  refine takes_bind (takes_expectedText _) ?_
  intro u₁ leading t₁ _ h₁
  refine takes_bind takes_tagName ?_
  intro u₂ name t₂ _ h₂
  refine takes_peek ?_
  split
  · exact takes_pure (by simp [Attribute.text?, h₁, h₂])
  refine takes_bind (takes_blank _) ?_
  intro u₃ before t₃ _ h₃
  refine takes_bind (takes_expectedText _) ?_
  intro u₄ sign t₄ _ h₄
  refine takes_bind (takes_blank _) ?_
  intro u₅ behind t₅ _ h₅
  refine takes_bind (takes_expectedText _) ?_
  intro u₆ quote t₆ _ h₆
  refine takes_bind (takes_valueParts quote) ?_
  intro u₇ parts t₇ _ h₇
  refine takes_bind (takes_expect quote.text) ?_
  intro u₈ _ t₈ _ h₈
  refine takes_pure ?_
  obtain ⟨q, hhead, hq, -⟩ := quote_text h₆.2
  simp only [Attribute.text?, hhead, h₇.1, Bool.false_eq_true, if_false, ← hq,
    textOf_append, textOf_nil, h₁.1, h₂, h₃, h₄.1, h₅, h₆.1, h₇.2, h₈, String.append_empty, String.append_assoc]

/-- the attributes of a tag without expressions are the texts of their tokens -/
theorem takes_attributes (tag : String) (start : Position) :
    Takes (attributes stalled tag start) s fun used as =>
      ∃ texts, as.mapM Attribute.text? = some texts ∧ Spells used (texts.map .text) := by
  refine takes_iterate (I := fun used as => ∃ texts, as.mapM Attribute.text? = some texts ∧ Spells used (texts.map .text))
    ⟨[], rfl, .nil⟩ ?_
  intro used as t hx
  obtain ⟨texts, has, hs⟩ := hx
  refine takes_peek ?_
  split
  · exact takes_pure ⟨texts, has, by simpa using hs⟩
  split
  · exact takes_fail
  refine takes_bind takes_oneAttribute ?_
  intro more a t _ ha
  refine takes_pure ⟨texts ++ [textOf more], by simp [List.mapM_append, has, ha], ?_⟩
  have hmore : Spells more [.text (textOf more)] := spells_text rfl
  have h := hs.append hmore
  simpa using h

/-- an end tag is the text of its tokens -/
theorem takes_endTag (tag : String) (start : Position) :
    Takes (endTag tag start) s fun used e => textOf used = e.leading ++ "</" ++ e.name ++ e.inside ++ ">" := by
  refine takes_bind (takes_blank _) ?_
  intro u₁ leading t₁ _ h₁
  refine takes_bind (takes_expect "<") ?_
  intro u₂ close t₂ _ h₂
  refine takes_bind (takes_expect "/") ?_
  intro u₃ _ t₃ _ h₃
  refine takes_bind takes_tagName ?_
  intro u₄ name t₄ _ h₄
  split
  · exact takes_bind takes_fail (P := fun _ _ => False) fun _ _ _ _ h => h.elim
  refine takes_bind (takes_blank _) ?_
  intro u₅ inside t₅ _ h₅
  refine takes_bind (takes_expect ">") ?_
  intro u₆ _ t₆ _ h₆
  refine takes_pure ?_
  simp only [textOf_append, textOf_nil, String.append_empty, h₁, h₂, h₃, h₄, h₅, h₆,
    String.append_assoc]
  rw [show "</" = "<" ++ "/" from rfl, String.append_assoc]

/-! ## Segments -/

/-- the tokens of a plain segment are its strands -/
def Written (used : List Token) (r : Segment) : Prop := ∃ ps, r.strands? = some ps ∧ Spells used ps

/-- the tokens of plain segments are their strands -/
def WrittenAll (used : List Token) (rs : List Segment) : Prop := ∃ ps, Segment.strandsAll? rs = some ps ∧ Spells used ps

theorem WrittenAll.append {used more : List Token} {rs : List Segment} {r : Segment} (h : WrittenAll used rs)
    (hr : Written more r) : WrittenAll (used ++ more) (rs ++ [r]) := by
  obtain ⟨ps, hp, hs⟩ := h
  obtain ⟨qs, hq, ht⟩ := hr
  exact ⟨ps ++ qs, Segment.strandsAll?_append hp hq, hs.append ht⟩

variable {inner : Parser Segment}

/-- the content of an element is its strands -/
theorem takes_children (hi : ∀ s, Takes inner s Written) (tag : String) (start : Position) :
    Takes (children inner tag start) s WrittenAll := by
  refine takes_iterate (I := WrittenAll) ⟨[], rfl, .nil⟩ ?_
  intro used rs t hrs
  refine takes_peek (takes_peekNext (takes_atEnd ?_))
  split
  · exact takes_fail
  split
  · exact takes_pure (by simpa using hrs)
  refine takes_bind (hi t) ?_
  intro more r t _ hr
  exact takes_pure (by simpa using hrs.append hr)

/-- a start tag up to its end is its strands -/
theorem tag_written {tag : Tag} {before within after : List Token} {texts : List String}
    (hb : textOf before = tag.leading ++ "<" ++ tag.name) (ht : tag.attributes.mapM Attribute.text? = some texts)
    (hw : Spells within (texts.map .text)) (ha : textOf after = tag.beforeEnd) :
    ∃ ps, tag.strands? = some ps ∧ Spells (before ++ within ++ after) ps := by
  have hp : tag.strands? =
      some ([.text (tag.leading ++ "<" ++ tag.name)] ++ texts.map Strand.text ++ [.text tag.beforeEnd]) := by
    rw [Tag.strands?, ht]
    rfl
  exact ⟨_, hp, ((spells_text hb).append hw).append (spells_text ha)⟩

/-- a tag with its content, a comment or a declaration is its strands -/
theorem takes_markup (hi : ∀ s, Takes inner s Written) : Takes (markup stalled inner) s Written := by
  refine takes_bind (takes_blank _) ?_
  intro u₁ leading t₁ _ h₁
  refine takes_bind (takes_expect "<") ?_
  intro u₂ mark t₂ _ h₂
  refine takes_peek ?_
  split
  · next hmark =>
    refine takes_bind (takes_consume (Q := fun used _ => textOf used = "!") (by simp [text_of_is hmark])) ?_
    intro u₃ _ t₃ _ h₃
    refine takes_peek ?_
    split
    · refine takes_bind (takes_htmlComment _) ?_
      intro u₄ text t₄ _ h₄
      refine takes_pure ⟨_, rfl, spells_text ?_⟩
      simp only [textOf_append, textOf_nil, String.append_empty, h₁, h₂, h₃, h₄, String.append_assoc]
      rw [show "<!--" = "<" ++ ("!" ++ "--") from rfl, String.append_assoc, String.append_assoc]
    · refine takes_bind (takes_docType _) ?_
      intro u₄ text t₄ _ h₄
      refine takes_pure ⟨_, rfl, spells_text ?_⟩
      simp only [textOf_append, textOf_nil, String.append_empty, h₁, h₂, h₃, h₄, String.append_assoc]
      rw [show "<!" = "<" ++ "!" from rfl, String.append_assoc]
  refine takes_bind takes_tagName ?_
  intro u₃ name t₃ _ h₃
  refine takes_bind (takes_attributes _ _) ?_
  intro u₄ as t₄ _ h
  obtain ⟨texts, hm, h₄⟩ := h
  refine takes_bind (takes_blank _) ?_
  intro u₅ beforeEnd t₅ _ h₅
  -- the tag up to its end, whichever end it has
  let tag : Tag := ⟨leading, name, as, beforeEnd⟩
  have hb : textOf (u₁ ++ u₂ ++ u₃) = tag.leading ++ "<" ++ tag.name := by
    simp [tag, h₁, h₂, h₃, String.append_assoc]
  obtain ⟨head, hp, hs⟩ := tag_written hb hm h₄ h₅
  refine takes_peek ?_
  split
  · refine takes_bind (takes_expect "/") ?_
    intro u₆ _ t₆ _ h₆
    refine takes_bind (takes_expect ">") ?_
    intro u₇ _ t₇ _ h₇
    have hclose : textOf (u₆ ++ u₇) = "/>" := by
      rw [textOf_append, h₆, h₇]
      rfl
    refine takes_pure ⟨_, by simp only [Segment.strands?, tag, hp]; rfl, ?_⟩
    simpa using hs.append (spells_text hclose)
  refine takes_bind (takes_expect ">") ?_
  intro u₆ _ t₆ _ h₆
  split
  · refine takes_pure ⟨_, by simp only [Segment.strands?, tag, hp]; rfl, ?_⟩
    simpa using hs.append (spells_text h₆)
  refine takes_bind (takes_children hi _ _) ?_
  intro u₇ rs t₇ _ h
  obtain ⟨content, hc, h₇⟩ := h
  refine takes_bind (takes_endTag _ _) ?_
  intro u₈ close t₈ _ h₈
  refine takes_pure ⟨_, by simp only [Segment.strands?, tag, hp, hc]; rfl, ?_⟩
  simpa using ((hs.append (spells_text h₆)).append h₇).append (spells_text h₈)

theorem takes_startsMarkup : Takes startsMarkup s fun used _ => used = [] :=
  takes_peek (takes_peekNth (takes_peekNth (takes_pure rfl)))

/-- a segment is its strands, if what stands behind an `@` is and the segments inside are -/
theorem takes_markupSegment {here : Parser Segment} (hh : ∀ s, Takes here s Written) (hi : ∀ s, Takes inner s Written) :
    Takes (markupSegment here stalled inner) s Written := by
  refine takes_peek ?_
  split
  · refine takes_peek (takes_peekNth ?_)
    split
    · refine takes_bind (takes_blank _) ?_
      intro used text t _ h
      exact takes_pure ⟨_, rfl, by simpa using spells_text h⟩
    · exact hh s
  refine takes_bind takes_startsMarkup ?_
  intro _ opens t _ he
  subst he
  split
  · exact takes_markup hi
  refine takes_bind takes_textRun ?_
  intro used text u _ h
  exact takes_pure ⟨_, rfl, by simpa using spells_text h⟩

end Grammar

end TemplateView
