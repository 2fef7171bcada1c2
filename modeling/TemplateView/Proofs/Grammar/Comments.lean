/-
HTML comments. The text of a comment is gathered token by token, and after each one the parser asks whether it ends in
`-->`. In front of the `>` that ends the first `-->` no token does, and that `>` is a token of its own unless a `>` or a
`=` stands behind it (`tokens_comment`). So a comment ends at the first `-->` exactly where neither does
(`comment_ends_first`); otherwise the mark is passed over as a part of a longer operator.
-/
import TemplateView.Proofs.Grammar.Bare
import TemplateView.Proofs.Grammar.Plain

namespace TemplateView

/-! ## Tokens -/

/-- two dashes are a token, whatever follows -/
theorem firstLexeme_dashes (cs : List Char) : firstLexeme '-' ('-' :: cs) = (.operator, ['-', '-'], cs) := by
  refine firstLexeme_pair (by decide +kernel) (by decide +kernel) ?_ cs
  intro e hop
  have hall := forall_operator (fun cs => decide (cs.take 2 = ['-', '-'] → cs.length = 2)) (by decide +kernel) hop
  simp at hall

/-- two dashes end no mark -/
theorem not_mark_dashes {cs : List Char} (h : ¬ ['-', '-', '>'] <:+: cs) : ¬ ['-', '-', '>'] <:+: cs ++ ['-', '-'] := by
  have hlast : ∀ cs : List Char, ¬ ['-', '-', '>'] <:+ cs ++ ['-'] := by
    intro cs hs
    rcases List.suffix_concat_iff.1 hs with hnil | ⟨t, ht, -⟩
    · cases hnil
    · have hl := congrArg List.getLast? ht
      simp at hl
  have hcs : cs ++ ['-', '-'] = cs ++ ['-'] ++ ['-'] := by simp
  rw [hcs, List.infix_concat_iff, not_or, List.infix_concat_iff, not_or]
  exact ⟨hlast _, hlast _, h⟩

/-- the source of a comment with this text, and what follows it -/
def commentText (text rest : String) : String :=
  "<!--" ++ text ++ "-->" ++ rest

namespace Grammar

open TemplateView.Parser

variable {text rest : String}

/-- the tokens of a comment: its opening, those up to the dashes of its end, and those from the `>` on -/
theorem tokens_comment (text rest : String) :
    ∃ p q r s, tokensFrom .start (commentText text rest).toList =
      ⟨.start, "<", .operator⟩ :: ⟨p, "!", .operator⟩ :: ⟨q, "--", .operator⟩ ::
        (tokensFrom r (text.toList ++ ['-', '-']) ++ tokensFrom s ('>' :: rest.toList)) := by
  have hsource : (commentText text rest).toList =
      '<' :: '!' :: '-' :: '-' :: (text.toList ++ ['-', '-'] ++ '>' :: rest.toList) := by simp [commentText]
  have hopen : ∀ cs, firstLexeme '<' ('!' :: cs) = (.operator, ['<'], '!' :: cs) := fun _ => rfl
  have hbang : ∀ cs, firstLexeme '!' ('-' :: cs) = (.operator, ['!'], '-' :: cs) := fun _ => rfl
  rw [hsource]
  simp only [tokensFrom_cons _ '<', hopen, tokensFrom_cons _ '!', hbang, tokensFrom_cons _ '-', firstLexeme_dashes]
  rw [tokensFrom_angle (by decide) (by simp)]
  exact ⟨_, _, _, _, rfl⟩

/-! ## The text of a comment -/

variable {t : Token} {ts us : List Token} {f : Position}

theorem iterate_htmlCommentRound (start : Position) (reversed : List Char) :
    iterate reversed (htmlCommentRound start) =
      htmlCommentRound start reversed >>= Sum.elim (iterate · (htmlCommentRound start)) pure :=
  iterate_eq (fun _ reversed => (spends_htmlCommentRound trivial reversed).spends) reversed

/-- a token after which the text ends in no mark -/
theorem htmlCommentRound_more (ht : t.isEnd = false) (start : Position) {cs : List Char}
    (h : ¬ ['-', '-', '>'] <:+ cs ++ t.text.toList) :
    htmlCommentRound start cs.reverse ⟨t :: ts, f⟩ = .ok (.inl (cs ++ t.text.toList).reverse, ⟨ts, f⟩) := by
  have hend : (TokenStream.mk (t :: ts) f).atEnd .kept = false := ht
  have htake : consume .kept ⟨t :: ts, f⟩ = .ok (t, ⟨ts, f⟩) := rfl
  rw [htmlCommentRound, bind_ok (atEnd_run _), hend, if_neg Bool.false_ne_true, bind_ok htake, ← List.reverse_append]
  generalize hr : (cs ++ t.text.toList).reverse = reversed
  split
  · next body =>
    refine absurd ⟨body.reverse, ?_⟩ h
    rw [← List.reverse_inj, hr]
    simp
  · rfl

/-- the token that completes the mark -/
theorem htmlCommentRound_mark (start p : Position) (cs : List Char) :
    htmlCommentRound start (cs ++ ['-', '-']).reverse ⟨⟨p, ">", .operator⟩ :: ts, f⟩ =
      .ok (.inr (String.ofList cs), ⟨ts, f⟩) := by
  have hend : (TokenStream.mk (⟨p, ">", .operator⟩ :: ts) f).atEnd .kept = false := rfl
  have htake : consume .kept ⟨⟨p, ">", .operator⟩ :: ts, f⟩ = .ok (⟨p, ">", .operator⟩, ⟨ts, f⟩) := rfl
  have hreversed : ">".toList.reverse ++ (cs ++ ['-', '-']).reverse = '>' :: '-' :: '-' :: cs.reverse := by simp
  rw [htmlCommentRound, bind_ok (atEnd_run _), hend, if_neg Bool.false_ne_true, bind_ok htake, hreversed]
  simp only [List.reverse_reverse]
  rfl

/-- tokens whose text holds no mark are gathered -/
theorem iterate_comment (hus : ∀ u ∈ us, u.isEnd = false) (cs : List Char)
    (h : ¬ ['-', '-', '>'] <:+: cs ++ (textOf us).toList) (start : Position) (ts : List Token) (f : Position) :
    iterate cs.reverse (htmlCommentRound start) ⟨us ++ ts, f⟩ =
      iterate (cs ++ (textOf us).toList).reverse (htmlCommentRound start) ⟨ts, f⟩ := by
  induction us generalizing cs with
  | nil => simp
  | cons u us ih =>
    obtain ⟨hu, hus⟩ := List.forall_mem_cons.1 hus
    rw [textOf_cons, String.toList_append, ← List.append_assoc] at h ⊢
    have hmore : ¬ ['-', '-', '>'] <:+ cs ++ u.text.toList := fun hs =>
      h (hs.isInfix.trans (List.prefix_append _ _).isInfix)
    rw [iterate_htmlCommentRound, List.cons_append, bind_ok (htmlCommentRound_more hu start hmore)]
    exact ih hus _ h

/-- the opening of a comment leads to its text -/
theorem segment_comment (p q r : Position) (ts : List Token) (f : Position) :
    segment .markup ⟨⟨p, "<", .operator⟩ :: ⟨q, "!", .operator⟩ :: ⟨r, "--", .operator⟩ :: ts, f⟩ =
      (htmlComment p >>= fun text => pure (.htmlComment "" text)) ⟨⟨r, "--", .operator⟩ :: ts, f⟩ := by
  have hblank : blank ⟨⟨p, "<", .operator⟩ :: ⟨q, "!", .operator⟩ :: ⟨r, "--", .operator⟩ :: ts, f⟩ =
      .ok ("", ⟨⟨p, "<", .operator⟩ :: ⟨q, "!", .operator⟩ :: ⟨r, "--", .operator⟩ :: ts, f⟩) := rfl
  have hbang : ((TokenStream.mk (⟨q, "!", .operator⟩ :: ⟨r, "--", .operator⟩ :: ts) f).peek .kept).is "!" = true := rfl
  have htake : consume .kept ⟨⟨q, "!", .operator⟩ :: ⟨r, "--", .operator⟩ :: ts, f⟩ =
      .ok (⟨q, "!", .operator⟩, ⟨⟨r, "--", .operator⟩ :: ts, f⟩) := rfl
  have hdashes : ((TokenStream.mk (⟨r, "--", .operator⟩ :: ts) f).peek .kept).is "--" = true := rfl
  rw [segment_open rfl, markup, bind_ok hblank, bind_ok (expect_run rfl _ _), bind_ok (peek_run .kept _), if_pos hbang,
    bind_ok htake, bind_ok (peek_run .kept _), if_pos hdashes]

theorem textOf_body (r p : Position) (text : String) :
    textOf (⟨r, "--", .operator⟩ :: tokensFrom p (text.toList ++ ['-', '-'])) = "--" ++ (text ++ "--") := by
  rw [textOf_cons, textOf_tokensFrom, String.ofList_append, String.ofList_toList]

/-- **A comment ends at the first mark** where the `>` of the mark is a token. -/
theorem htmlComment_run (h : ¬ ['-', '-', '>'] <:+: text.toList) (start r p q : Position) (ts : List Token) (f : Position) :
    htmlComment start ⟨⟨r, "--", .operator⟩ :: (tokensFrom p (text.toList ++ ['-', '-']) ++ ⟨q, ">", .operator⟩ :: ts), f⟩ =
      .ok (text, ⟨ts, f⟩) := by
  have htext : (textOf (tokensFrom p (text.toList ++ ['-', '-']))).toList = text.toList ++ ['-', '-'] := by
    rw [textOf_tokensFrom, String.toList_ofList]
  have hpresent : ∀ u ∈ tokensFrom p (text.toList ++ ['-', '-']), u.isEnd = false :=
    fun u hu => (proper_tokensFrom _ _ u hu).present
  have hgathered := iterate_comment hpresent [] (by rw [List.nil_append, htext]; exact not_mark_dashes h) start
    (⟨q, ">", .operator⟩ :: ts) f
  rw [List.reverse_nil, List.nil_append, htext] at hgathered
  rw [htmlComment, bind_ok (expect_run rfl _ _), hgathered, iterate_htmlCommentRound,
    bind_ok (htmlCommentRound_mark start q text.toList), String.ofList_toList]
  rfl

/-- a mark that ends a text is not the first of its marks if a character follows that one -/
theorem prefix_of_mark {cs ds rest : List Char} {d : Char}
    (h : ds ++ ['-', '-', '>'] = cs ++ ['-', '-', '>'] ++ d :: rest) : cs ++ ['-', '-', '>'] <+: ds := by
  rw [List.append_assoc] at h
  rcases List.append_eq_append_iff.1 h with ⟨more, rfl, hmore⟩ | ⟨more, rfl, hmore⟩
  · have hlength := congrArg List.length hmore
    simp only [List.length_append, List.length_cons, List.length_nil] at hlength
    omega
  · rcases more with - | ⟨a, - | ⟨b, - | ⟨c, more⟩⟩⟩
    · simp at hmore
    · simp at hmore
    · simp at hmore
    · simp only [List.cons_append, List.nil_append, List.cons.injEq] at hmore
      obtain ⟨rfl, rfl, rfl, -⟩ := hmore
      exact ⟨more, by simp⟩

/-- where the `>` is part of a longer token, the comment goes on behind the mark -/
theorem htmlComment_glued (hm : ¬ ['-', '-', '>'] <:+: text.toList) {start r p q : Position} {d : Char} {x : List Char}
    {ts : List Token} {f : Position} {text' : String} {s : TokenStream}
    (h : htmlComment start ⟨⟨r, "--", .operator⟩ :: (tokensFrom p (text.toList ++ ['-', '-']) ++
      ⟨q, String.ofList ('>' :: d :: x), .operator⟩ :: ts), f⟩ = .ok (text', s)) :
    ∃ more, text' = text ++ "-->" ++ more := by
  obtain ⟨used, hs, hused⟩ := takes_htmlComment start _ _ h
  have hrest := congrArg TokenStream.rest hs
  have hbody := textOf_body r p text
  -- the mark that was found is not among the tokens in front of the longer one
  have hpast : ∀ tail, "--" ++ (text ++ "--") ≠ textOf used ++ tail := by
    intro tail htail
    rw [hused, ← String.toList_inj] at htail
    simp only [String.toList_append, List.append_assoc, List.append_cancel_left_eq] at htail
    exact not_mark_dashes hm ⟨text'.toList, tail.toList, by simpa using htail.symm⟩
  rw [← List.cons_append] at hrest
  rcases List.append_eq_append_iff.1 hrest with ⟨more, rfl, hmore⟩ | ⟨more, hfront, -⟩
  · cases more with
    | nil => exact absurd (by simp [hbody]) (hpast "")
    | cons u more =>
      obtain ⟨rfl, -⟩ := List.cons.inj hmore
      rw [textOf_append, hbody, textOf_cons, ← String.toList_inj] at hused
      have hmark : text'.toList ++ ['-', '-', '>'] =
          text.toList ++ ['-', '-', '>'] ++ d :: (x ++ (textOf more).toList) := by
        simpa [String.toList_append] using hused.symm
      obtain ⟨tail, htail⟩ := prefix_of_mark hmark
      refine ⟨String.ofList tail, ?_⟩
      rw [← String.toList_inj, ← htail]
      simp
  · rw [hfront, textOf_append] at hbody
    exact absurd hbody.symm (hpast _)

/-! ## Documents that begin with a comment -/

/-- a document keeps the segments that it has read -/
theorem loop_documentRound_prefix (m : Parser Segment) (n : Nat) {rs rs' : List Segment} {s t : TokenStream}
    (h : loop (documentRound m) n rs s = .ok (rs', t)) : rs <+: rs' := by
  induction n generalizing rs s with
  | zero => cases h
  | succ n ih =>
    obtain ⟨x, u, hx, h⟩ := bind_ok_iff.1 h
    rw [documentRound, bind_ok (atEnd_run s)] at hx
    by_cases he : s.atEnd .kept = true
    · rw [if_pos he] at hx
      cases hx
      cases h
      exact List.prefix_rfl
    · rw [if_neg he] at hx
      obtain ⟨r, v, -, hx⟩ := bind_ok_iff.1 hx
      cases hx
      exact (List.prefix_append rs [r]).trans (ih h)

/-- the first segment of a template is the one that its first tokens are read as -/
theorem parse_first {source : String} {template : Template} (hsource : TokenStream.ofSource source = ⟨t :: ts, f⟩)
    (ht : t.isEnd = false) (h : Template.parse source = .ok template) :
    ∃ r s, segment .markup ⟨t :: ts, f⟩ = .ok (r, s) ∧ template.segments.head? = some r := by
  obtain ⟨u, hu⟩ := parseAs_eq_ok.1 h
  rw [hsource] at hu
  cases hr : segment .markup ⟨t :: ts, f⟩ with
  | error e =>
    rw [document_error ht hr] at hu
    cases hu
  | ok r =>
    obtain ⟨r, s⟩ := r
    rw [document_segment ht hr] at hu
    obtain ⟨more, hmore⟩ := loop_documentRound_prefix _ _ hu
    exact ⟨r, s, rfl, by rw [← hmore]; rfl⟩

/-- a comment whose `>` is a token is the first segment that is read -/
theorem comment_ended (hm : ¬ ['-', '-', '>'] <:+: text.toList) (hg : ¬ BeginsGlued rest.toList) :
    ∃ t ts f p, TokenStream.ofSource (commentText text rest) = ⟨t :: ts, f⟩ ∧ t.isEnd = false ∧
      segment .markup ⟨t :: ts, f⟩ = .ok (.htmlComment "" text, ⟨tokensFrom p rest.toList, f⟩) := by
  obtain ⟨p, q, r, s, htokens⟩ := tokens_comment text rest
  rw [tokensFrom_close hg] at htokens
  have hsource := congrArg (TokenStream.mk · (Position.start.after (commentText text rest).toList)) htokens
  have hsegment := fun f => (segment_comment .start p q _ f).trans
    (bind_ok (htmlComment_run hm .start q r s (tokensFrom (s.after ['>']) rest.toList) f))
  exact ⟨_, _, _, _, hsource, rfl, hsegment _⟩

/-- where it is not, a comment that is read goes on behind the mark -/
theorem comment_goes_on (hm : ¬ ['-', '-', '>'] <:+: text.toList) (hg : BeginsGlued rest.toList) :
    ∃ t ts f, TokenStream.ofSource (commentText text rest) = ⟨t :: ts, f⟩ ∧ t.isEnd = false ∧
      ∀ r s, segment .markup ⟨t :: ts, f⟩ = .ok (r, s) → ∃ more, r = .htmlComment "" (text ++ "-->" ++ more) := by
  obtain ⟨p, q, r, s, htokens⟩ := tokens_comment text rest
  obtain ⟨d, x, behind, hglued⟩ := tokensFrom_glued hg s
  rw [hglued] at htokens
  have hsource := congrArg (TokenStream.mk · (Position.start.after (commentText text rest).toList)) htokens
  refine ⟨_, _, _, hsource, rfl, ?_⟩
  intro first u hfirst
  rw [segment_comment] at hfirst
  obtain ⟨text', v, hcomment, hmade⟩ := bind_ok_iff.1 hfirst
  cases hmade
  obtain ⟨more, rfl⟩ := htmlComment_glued hm hcomment
  exact ⟨more, rfl⟩

/-- **A comment ends at the first `-->`, unless that is lengthened.** Let `text` hold no `-->`. Where neither `>` nor `=`
follows the mark, a source that begins with `<!--`, `text` and `-->` and is parsed has the comment `text` as its first
segment; and it is parsed if no `@` and no `<` stands behind the mark. Where a `>` or a `=` does follow, the `>` of the
mark is part of a longer operator: the comment goes on behind it, so a source that is parsed all the same has a comment as
its first segment that holds the mark and more. -/
theorem comment_ends_first {text rest : String} (h : ¬ ['-', '-', '>'] <:+: text.toList) :
    (rest.toList.head? ≠ some '>' → rest.toList.head? ≠ some '=' →
      (∀ t, Template.parse ("<!--" ++ text ++ "-->" ++ rest) = .ok t →
        t.segments.head? = some (.htmlComment "" text)) ∧
      ('@' ∉ rest.toList → '<' ∉ rest.toList → ∃ t, Template.parse ("<!--" ++ text ++ "-->" ++ rest) = .ok t)) ∧
    (rest.toList.head? = some '>' ∨ rest.toList.head? = some '=' →
      ∀ t, Template.parse ("<!--" ++ text ++ "-->" ++ rest) = .ok t →
        ∃ more, t.segments.head? = some (.htmlComment "" (text ++ "-->" ++ more))) := by
  constructor
  · intro hclose hsign
    obtain ⟨u, us, f, p, hsource, hu, hsegment⟩ := comment_ended h (not_or.2 ⟨hclose, hsign⟩)
    rw [commentText] at hsource
    constructor
    · intro t ht
      obtain ⟨first, v, hfirst, hhead⟩ := parse_first hsource hu ht
      cases hsegment.symm.trans hfirst
      exact hhead
    · intro hat hopen
      obtain ⟨texts, hrun⟩ := document_bare (f := f) (bare_tokensFrom ⟨hat, hopen⟩ p) [.htmlComment "" text]
      refine ⟨⟨.htmlComment "" text :: texts.map .text⟩, parseAs_eq_ok.2 ⟨⟨[], f⟩, ?_⟩⟩
      rw [hsource, document_segment hu hsegment]
      exact hrun
  · intro hg t ht
    obtain ⟨u, us, f, hsource, hu, hsegment⟩ := comment_goes_on h hg
    obtain ⟨first, v, hfirst, hhead⟩ := parse_first hsource hu ht
    obtain ⟨more, rfl⟩ := hsegment first v hfirst
    exact ⟨more, hhead⟩

/-- a comment of an arrow and a dash in front of a text, and one that a second mark ends -/
theorem comment_ends_first_arrow :
    (∃ t, Template.parse ("<!--" ++ "a->b-" ++ "-->" ++ " = c") = .ok t ∧
      t.segments.head? = some (.htmlComment "" "a->b-")) ∧
    ∀ t, Template.parse ("<!--" ++ "a->b-" ++ "-->" ++ "=-->") = .ok t →
      ∃ more, t.segments.head? = some (.htmlComment "" ("a->b-" ++ "-->" ++ more)) := by
  have hm : ¬ ['-', '-', '>'] <:+: "a->b-".toList := by decide
  obtain ⟨hfirst, hparse⟩ := (@comment_ends_first "a->b-" " = c" hm).1 (by decide) (by decide)
  obtain ⟨t, ht⟩ := hparse (by decide) (by decide)
  exact ⟨⟨t, ht, hfirst t ht⟩, (@comment_ends_first "a->b-" "=-->" hm).2 (.inr (by decide))⟩

/-- a comment with an equals sign behind it is never closed -/
theorem sign_closes_no_comment :
    (¬ ['-', '-', '>'] <:+: "a".toList) ∧ '@' ∉ "=".toList ∧ '<' ∉ "=".toList ∧
      ∀ t, Template.parse ("<!--" ++ "a" ++ "-->" ++ "=") ≠ .ok t := by
  have hnone : (Template.parse ("<!--" ++ "a" ++ "-->" ++ "=")).toOption.isNone = true := by decide +kernel
  refine ⟨by decide, by decide, by decide, fun t h => ?_⟩
  rw [h] at hnone
  cases hnone

end Grammar

end TemplateView
