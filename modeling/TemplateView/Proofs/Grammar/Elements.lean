/-
Elements with a text. An element whose content opens nothing is read as it stands (`parse_element`), unless the content
begins with `>` or `=`: then the `>` of its start tag is part of a longer operator, and where the tag should end an
attribute is expected (`parse_element_glued`).
-/
import TemplateView.Proofs.Grammar.Bare
import TemplateView.Proofs.Grammar.Literals
import TemplateView.Proofs.Grammar.Plain

namespace TemplateView

/-- the source of an element with this name and this text in it -/
def elementText (name text : String) : String :=
  "<" ++ name ++ ">" ++ text ++ "</" ++ name ++ ">"

/-! ## Tokens -/

theorem isWord_of_isToken {name : String} (h : isToken .alphanumeric name = true) : IsWord name := by
  obtain ⟨-, c, cs, htext, hlex⟩ := tokensFrom_of_isToken h .start
  have hword := isWord_firstLexeme (congrArg Prod.fst hlex)
  rw [hlex, ← htext, String.ofList_toList] at hword
  exact hword

/-- what is no part of words is in none -/
theorem IsWord.not_mem {name : String} (h : IsWord name) {m : Char} (hs : isWordStart m = false)
    (hp : isWordPart m = false) : m ∉ name.toList := by
  obtain ⟨c, cs, htext, hc, hcs⟩ := h
  rw [htext, List.mem_cons, not_or]
  constructor
  · rintro rfl
    rw [hs] at hc
    cases hc
  · intro hm
    have hpart := List.all_eq_true.1 hcs m hm
    rw [hp] at hpart
    cases hpart

namespace Grammar

open TemplateView.Parser

variable {name text : String}

/-- a name between a mark and a `>` -/
theorem tokens_name (hn : isToken .alphanumeric name = true) {c : Char} (hc : startsOperator c = true) (ds : List Char)
    (p : Position) : tokensFrom p (c :: (name.toList ++ '>' :: ds)) =
      ⟨p, String.ofList [c], .operator⟩ :: ⟨p.after [c], name, .alphanumeric⟩ ::
        tokensFrom ((p.after [c]).after name.toList) ('>' :: ds) := by
  have hword := isWord_of_isToken hn
  have hlast : name.toList.getLast? ≠ some '>' := fun hl =>
    hword.not_mem (by decide +kernel) (by decide +kernel) (List.mem_of_getLast? hl)
  obtain ⟨d, cs, hname, hd, -⟩ := hword
  have hmark : firstLexeme c (name.toList ++ '>' :: ds) = (.operator, [c], name.toList ++ '>' :: ds) := by
    rw [hname]
    exact firstLexeme_before_word hc hd _
  rw [tokensFrom_cons p c, hmark]
  simp only
  rw [tokensFrom_angle (by decide) hlast, (tokensFrom_of_isToken hn _).1, List.singleton_append]

theorem toList_elementText : (elementText name text).toList =
    '<' :: (name.toList ++ '>' :: (text.toList ++ '<' :: '/' :: (name.toList ++ ['>']))) := by
  simp [elementText]

/-- the tokens of an element: those of its tags, and between them those of its text -/
theorem tokens_element (hn : isToken .alphanumeric name = true) (ht : '<' ∉ text.toList) (hg : ¬ BeginsGlued text.toList) :
    ∃ p q r p' q' r' s', tokensFrom .start (elementText name text).toList =
      ⟨.start, "<", .operator⟩ :: ⟨p, name, .alphanumeric⟩ :: ⟨q, ">", .operator⟩ ::
        (tokensFrom r text.toList ++ closing p' q' [⟨r', name, .alphanumeric⟩, ⟨s', ">", .operator⟩]) := by
  have hlast : text.toList.getLast? ≠ some '<' := fun hlast => ht (List.mem_of_getLast? hlast)
  have hclose : ¬ BeginsGlued (text.toList ++ '<' :: '/' :: (name.toList ++ ['>'])) := by
    cases h : text.toList with
    | nil => simp [BeginsGlued]
    | cons d ds => simpa [BeginsGlued, h] using hg
  have hopen : ∀ cs, firstLexeme '<' ('/' :: cs) = (.operator, ['<'], '/' :: cs) := fun _ => rfl
  have hend : ∀ p, tokensFrom p ['>'] = [⟨p, ">", .operator⟩] := fun p => by
    rw [tokensFrom_close (by simp [BeginsGlued]), tokensFrom]
  rw [toList_elementText, tokens_name hn (by decide +kernel), tokensFrom_close hclose, tokensFrom_angle (by decide) hlast]
  simp only [tokensFrom_cons _ '<', hopen]
  rw [tokens_name hn (by decide +kernel), hend]
  exact ⟨_, _, _, _, _, _, _, rfl⟩

/-- where the text lengthens the `>`, the start tag ends in a longer operator -/
theorem tokens_element_glued (hn : isToken .alphanumeric name = true) (hg : BeginsGlued text.toList) :
    ∃ p q d x rest, tokensFrom .start (elementText name text).toList =
      ⟨.start, "<", .operator⟩ :: ⟨p, name, .alphanumeric⟩ :: ⟨q, String.ofList ('>' :: d :: x), .operator⟩ :: rest := by
  rw [toList_elementText, tokens_name hn (by decide +kernel)]
  obtain ⟨d, x, rest, htokens⟩ := tokensFrom_glued (hg.append ('<' :: '/' :: (name.toList ++ ['>'])))
    ((Position.start.after ['<']).after name.toList)
  rw [htokens]
  exact ⟨_, _, d, x, rest, rfl⟩

/-! ## Parsing -/

variable {next : Token} {rest : List Token} {f : Position}

/-- a name that is no part of a longer one -/
theorem tagName_run {p : Position} (hd : next.is "-" = false) (hc : next.is ":" = false) :
    tagName ⟨⟨p, name, .alphanumeric⟩ :: next :: rest, f⟩ = .ok (name, ⟨next :: rest, f⟩) := by
  have hround : nameRound name ⟨next :: rest, f⟩ = .ok (.inr name, ⟨next :: rest, f⟩) := by
    have hnext : (TokenStream.mk (next :: rest) f).peek .kept = next := rfl
    rw [nameRound, bind_ok (peek_run .kept _), bind_ok (peekNext_run .kept _), hnext, hd, hc]
    rfl
  have hword : word .kept ⟨⟨p, name, .alphanumeric⟩ :: next :: rest, f⟩ = .ok (name, ⟨next :: rest, f⟩) := rfl
  rw [tagName, bind_ok hword, iterate_eq (fun _ a => settled_nameRound a), bind_ok hround]
  rfl

/-- an end tag with at most whitespace before it -/
theorem endTag_run {us : List Token} (hu : AtMostBlank us) (p q r s start : Position) :
    ∃ leading, endTag name start ⟨us ++ closing p q [⟨r, name, .alphanumeric⟩, ⟨s, ">", .operator⟩], f⟩ =
      .ok (⟨leading, name, ""⟩, ⟨[], f⟩) := by
  obtain ⟨leading, hblank⟩ : ∃ leading, blank ⟨us ++ closing p q [⟨r, name, .alphanumeric⟩, ⟨s, ">", .operator⟩], f⟩ =
      .ok (leading, ⟨closing p q [⟨r, name, .alphanumeric⟩, ⟨s, ">", .operator⟩], f⟩) := by
    rcases hu with rfl | ⟨w, hw, rfl⟩
    · exact ⟨"", rfl⟩
    · refine ⟨w.text, ?_⟩
      have htaken := blank_bind_run (s := ⟨[w] ++ closing p q [⟨r, name, .alphanumeric⟩, ⟨s, ">", .operator⟩], f⟩) hw pure
      rw [bind_pure] at htaken
      exact htaken
  have hname : tagName ⟨[⟨r, name, .alphanumeric⟩, ⟨s, ">", .operator⟩], f⟩ = .ok (name, ⟨[⟨s, ">", .operator⟩], f⟩) :=
    tagName_run rfl rfl
  have heq : Text.equalIgnoringCase name name = true := by simp [Text.equalIgnoringCase]
  refine ⟨leading, ?_⟩
  rw [endTag, bind_ok hblank, bind_ok (expect_run rfl _ _), bind_ok (expect_run rfl _ _), bind_ok hname, heq]
  rfl

theorem is_bang_name (hn : isToken .alphanumeric name = true) (q : Position) :
    (⟨q, name, .alphanumeric⟩ : Token).is "!" = false := by
  by_contra hb
  rw [Bool.not_eq_false, Token.is, Bool.and_eq_true, beq_iff_eq] at hb
  have hb : name = "!" := hb.2
  subst hb
  revert hn
  decide +kernel

/-- an element without attributes -/
theorem segment_element (hn : isToken .alphanumeric name = true) (hv : isVoidElement name = false) {p q r : Position}
    {s s' : TokenStream} {inner : List Segment} {e : EndTag}
    (hinner : children (segment .markup) name p ⟨rest, f⟩ = .ok (inner, s)) (hend : endTag name p s = .ok (e, s')) :
    segment .markup ⟨⟨p, "<", .operator⟩ :: ⟨q, name, .alphanumeric⟩ :: ⟨r, ">", .operator⟩ :: rest, f⟩ =
      .ok (.element ⟨"", name, [], ""⟩ inner e, s') := by
  have hafter : (TokenStream.mk (⟨q, name, .alphanumeric⟩ :: ⟨r, ">", .operator⟩ :: rest) f).peek .kept =
      ⟨q, name, .alphanumeric⟩ := rfl
  have hattributes : attributes (embedded segment) name p ⟨⟨r, ">", .operator⟩ :: rest, f⟩ =
      .ok ([], ⟨⟨r, ">", .operator⟩ :: rest, f⟩) := rfl
  have hslash : ((TokenStream.mk (⟨r, ">", .operator⟩ :: rest) f).peek .kept).is "/" = false := rfl
  rw [segment_open rfl, markup, bind_ok (blank_run rfl), bind_ok (expect_run rfl _ _), bind_ok (peek_run .kept _), hafter,
    is_bang_name hn, if_neg Bool.false_ne_true, bind_ok (tagName_run rfl rfl), bind_ok hattributes, bind_ok (blank_run rfl),
    bind_ok (peek_run .kept _), hslash, if_neg Bool.false_ne_true, bind_ok (expect_run rfl _ _), hv,
    if_neg Bool.false_ne_true, bind_ok hinner, bind_ok hend]
  rfl

/-- a start tag that another operator stands in -/
theorem segment_glued (hn : isToken .alphanumeric name = true) (p q r : Position) (d : Char) (x : List Char)
    (rest : List Token) (f : Position) :
    ∃ e, segment .markup ⟨⟨p, "<", .operator⟩ :: ⟨q, name, .alphanumeric⟩ ::
      ⟨r, String.ofList ('>' :: d :: x), .operator⟩ :: rest, f⟩ = .error (.lexical e) := by
  have hafter : (TokenStream.mk (⟨q, name, .alphanumeric⟩ :: ⟨r, String.ofList ('>' :: d :: x), .operator⟩ :: rest)
      f).peek .kept = ⟨q, name, .alphanumeric⟩ := rfl
  have hlong : ∀ mark : String, mark.toList.length = 1 →
      (⟨r, String.ofList ('>' :: d :: x), .operator⟩ : Token).is mark = false := by
    intro mark hlen
    by_contra hm
    rw [Bool.not_eq_false, Token.is, Bool.and_eq_true, beq_iff_eq] at hm
    rw [← hm.2, String.toList_ofList] at hlen
    simp at hlen
  have hskip : (TokenStream.mk (⟨r, String.ofList ('>' :: d :: x), .operator⟩ :: rest) f).peek .skipped =
      ⟨r, String.ofList ('>' :: d :: x), .operator⟩ := rfl
  have hpresent : (⟨r, String.ofList ('>' :: d :: x), .operator⟩ : Token).isEnd = false := rfl
  -- behind the name an attribute is expected, with whitespace in front
  obtain ⟨e, hattribute⟩ : ∃ e, oneAttribute (embedded segment)
      ⟨⟨r, String.ofList ('>' :: d :: x), .operator⟩ :: rest, f⟩ = .error (.lexical e) := ⟨_, rfl⟩
  have hattributes : attributes (embedded segment) name p
      ⟨⟨r, String.ofList ('>' :: d :: x), .operator⟩ :: rest, f⟩ = .error (.lexical e) := by
    rw [attributes, iterate_eq fun _ a => settled_attributeRound spends_embeddedSegment name trivial a]
    refine bind_error ?_
    rw [attributeRound, bind_ok (peek_run .skipped _), hskip, hlong ">" rfl, hlong "/" rfl, Bool.or_self,
      if_neg Bool.false_ne_true, hpresent, if_neg Bool.false_ne_true]
    exact bind_error hattribute
  refine ⟨e, ?_⟩
  rw [segment_open rfl, markup, bind_ok (blank_run rfl), bind_ok (expect_run rfl _ _), bind_ok (peek_run .kept _), hafter,
    is_bang_name hn, if_neg Bool.false_ne_true, bind_ok (tagName_run (hlong "-" rfl) (hlong ":" rfl)),
    bind_error hattributes]

theorem parse_element (hn : isToken .alphanumeric name = true) (hv : isVoidElement name = false)
    (ht : '@' ∉ text.toList ∧ '<' ∉ text.toList) (hg : ¬ BeginsGlued text.toList) :
    ∃ (texts : List String) (e : EndTag), Template.parse (elementText name text) =
      .ok ⟨[.element ⟨"", name, [], ""⟩ (texts.map .text) e]⟩ := by
  obtain ⟨p, q, r, p', q', r', s', htokens⟩ := tokens_element hn ht.2 hg
  obtain ⟨texts, us, hus, hinner⟩ := children_bare (f := Position.start.after (elementText name text).toList)
    (bare_tokensFrom ht r) p' q' [⟨r', name, .alphanumeric⟩, ⟨s', ">", .operator⟩] name .start
  obtain ⟨leading, hend⟩ := endTag_run hus p' q' r' s' .start
  have hsegment := segment_element (q := p) (r := q) hn hv hinner hend
  refine ⟨texts, ⟨leading, name, ""⟩, parseAs_eq_ok.2 ⟨⟨[], Position.start.after (elementText name text).toList⟩, ?_⟩⟩
  rw [TokenStream.ofSource, htokens, document_segment rfl hsegment, iterate_documentRound]
  rfl

theorem parse_element_glued (hn : isToken .alphanumeric name = true) (hg : BeginsGlued text.toList) :
    ∃ e, Template.parse (elementText name text) = .error (.lexical e) := by
  obtain ⟨p, q, d, x, rest, htokens⟩ := tokens_element_glued hn hg
  obtain ⟨e, hsegment⟩ := segment_glued hn .start p q d x rest (Position.start.after (elementText name text).toList)
  have hdocument : document (segment .markup) (.ofSource (elementText name text)) = .error (.lexical e) := by
    rw [TokenStream.ofSource, htokens]
    exact document_error rfl hsegment
  refine ⟨e, ?_⟩
  rw [Template.parse, Template.parseAs, hdocument]

end Grammar

end TemplateView
