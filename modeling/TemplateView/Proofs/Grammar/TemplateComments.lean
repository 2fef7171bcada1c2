/-
Template comments. The marks `@*` and `*@` are found among tokens, and no lexeme holds a `*` behind its first character
but `*=`. So a comment whose text does not start with `=` and holds no `*@` ends at the first `*@`, and leaves the tokens
of what follows, as they are elsewhere (`segment_templateComment`). With a `=` the opening `*` is part of an operator, and
no directive is read (`segment_starred`).
-/
import TemplateView.Proofs.Grammar.Bare
import TemplateView.Proofs.Grammar.Elsewhere
import TemplateView.Proofs.Grammar.Plain

namespace TemplateView

/-! ## Stars among lexemes -/

/-- no lexeme holds a star behind its first character -/
theorem firstLexeme_tail_star (c : Char) (cs : List Char) : '*' ∉ (firstLexeme c cs).2.1.tail := by
  obtain ⟨x, hx, hop | hparts⟩ := firstLexeme_cases c cs
  · have hall := forall_operator (fun cs => !cs.tail.contains '*') (by decide +kernel) hop
    rw [hx]
    simpa using hall
  · have hnone : isWordPart '*' = false ∧ '*'.isDigit = false ∧ '*' ≠ '.' ∧ isSpace '*' = false := by decide +kernel
    rw [hx]
    intro hm
    simpa [hnone] using hparts _ hm

/-- so a star starts a token, whatever stands in front of it -/
theorem apart_star (cs ds : List Char) : Apart cs ('*' :: ds) := by
  refine apart_of_last ?_ ds
  rintro last - c rest ⟨before, behind, hsplit⟩
  refine firstLexeme_tail_star c rest ?_
  rw [← hsplit]
  cases before <;> simp

/-- that token is the star unless a `=` follows -/
theorem firstLexeme_star {cs : List Char} (h : cs.head? ≠ some '=') : firstLexeme '*' cs = (.operator, ['*'], cs) := by
  refine firstLexeme_alone (by decide +kernel) ?_
  intro d hd hop
  have hall := forall_operator (fun cs => cs.head? != some '*' || cs.tail.all (· == '=')) (by decide +kernel) hop
  obtain rfl : d = '=' := by simpa using hall
  exact h hd

theorem firstLexeme_starred (cs : List Char) : firstLexeme '*' ('=' :: cs) = (.operator, ['*', '='], cs) := by
  refine firstLexeme_pair (by decide +kernel) (by decide +kernel) ?_ cs
  intro e hop
  have hall := forall_operator (fun cs => decide (cs.take 2 = ['*', '='] → cs.length = 2)) (by decide +kernel) hop
  simp at hall

namespace Grammar

open TemplateView.Parser

/-- the source of a template comment with this text, and what follows it -/
def templateCommentText (text rest : String) : String :=
  "@*" ++ text ++ "*@" ++ rest

/-- the tokens of a comment: its opening, those of its text, its end, and those of what follows -/
theorem tokens_templateComment {text : String} (h : text.toList.head? ≠ some '=') (rest : String) :
    ∃ p q r s t, tokensFrom .start (templateCommentText text rest).toList =
      ⟨.start, "@", .delimiter⟩ :: ⟨p, "*", .operator⟩ ::
        (tokensFrom q text.toList ++ ⟨r, "*", .operator⟩ :: ⟨s, "@", .delimiter⟩ :: tokensFrom t rest.toList) := by
  have hsource : (templateCommentText text rest).toList =
      '@' :: '*' :: (text.toList ++ '*' :: '@' :: rest.toList) := by simp [templateCommentText]
  have hmark : ∀ cs, firstLexeme '@' cs = (.delimiter, ['@'], cs) := fun _ => rfl
  have hopen : (text.toList ++ '*' :: '@' :: rest.toList).head? ≠ some '=' := by
    cases hcs : text.toList with
    | nil => simp
    | cons c cs => simpa [hcs] using h
  rw [hsource, tokensFrom_cons _ '@', hmark, tokensFrom_cons _ '*', firstLexeme_star hopen]
  simp only
  rw [tokensFrom_append (apart_star _ _), tokensFrom_cons _ '*', firstLexeme_star (by simp), tokensFrom_cons _ '@', hmark]
  exact ⟨_, _, _, _, _, rfl⟩

/-- with a `=`, the opening is another operator -/
theorem tokens_starred (text rest : String) (h : text.toList.head? = some '=') :
    ∃ ts, tokensFrom .start (templateCommentText text rest).toList =
      ⟨.start, "@", .delimiter⟩ :: ⟨⟨1, 0, 1⟩, "*=", .operator⟩ :: ts := by
  obtain ⟨cs, hcs⟩ : ∃ cs, text.toList = '=' :: cs := by
    cases hcs : text.toList with
    | nil => simp [hcs] at h
    | cons c cs => exact ⟨cs, by rw [hcs, List.head?_cons, Option.some_inj] at h; rw [h]⟩
  have hsource : (templateCommentText text rest).toList = '@' :: '*' :: '=' :: (cs ++ '*' :: '@' :: rest.toList) := by
    simp [templateCommentText, hcs]
  have hmark : ∀ cs, firstLexeme '@' cs = (.delimiter, ['@'], cs) := fun _ => rfl
  rw [hsource, tokensFrom_cons _ '@', hmark, tokensFrom_cons _ '*', firstLexeme_starred]
  exact ⟨_, rfl⟩

/-! ## The text of a comment -/

variable {t : Token} {ts us : List Token} {f : Position}

theorem iterate_templateCommentRound (start : Position) (text : String) :
    iterate text (templateCommentRound start) =
      templateCommentRound start text >>= Sum.elim (iterate · (templateCommentRound start)) pure :=
  iterate_eq (fun _ text => (spends_templateCommentRound trivial text).spends) text

/-- a token that is no star in front of an `@` belongs to the text -/
theorem templateCommentRound_more (ht : t.isEnd = false)
    (h : (t.is "*" && ((TokenStream.mk (t :: ts) f).peekNext .kept).isDelimiter) = false) (start : Position)
    (text : String) : templateCommentRound start text ⟨t :: ts, f⟩ = .ok (.inl (text ++ t.text), ⟨ts, f⟩) := by
  have hnext : (TokenStream.mk (t :: ts) f).peek .kept = t := rfl
  have htake : consume .kept ⟨t :: ts, f⟩ = .ok (t, ⟨ts, f⟩) := rfl
  rw [templateCommentRound, bind_ok (peek_run _ _), bind_ok (peekNext_run _ _), hnext, ht, h, if_neg Bool.false_ne_true,
    if_neg Bool.false_ne_true, bind_ok htake]
  rfl

/-- **A comment takes all tokens in front of the first `*` that stands before an `@`.** -/
theorem iterate_templateComment (hus : ∀ u ∈ us, u.Proper) (h : ¬ ['*', '@'] <:+: (textOf us).toList)
    (start p q : Position) (text : String) (ts : List Token) (f : Position) :
    iterate text (templateCommentRound start) ⟨us ++ ⟨p, "*", .operator⟩ :: ⟨q, "@", .delimiter⟩ :: ts, f⟩ =
      .ok (text ++ textOf us, ⟨ts, f⟩) := by
  induction us generalizing text with
  | nil =>
    rw [iterate_templateCommentRound, List.nil_append, textOf_nil, String.append_empty]
    rfl
  | cons u us ih =>
    obtain ⟨hu, hus⟩ := List.forall_mem_cons.1 hus
    have hrest : ¬ ['*', '@'] <:+: (textOf us).toList := fun hs => h (by
      rw [textOf_cons, String.toList_append]
      exact hs.trans (List.suffix_append _ _).isInfix)
    have hmore : (u.is "*" && ((TokenStream.mk
        (u :: (us ++ ⟨p, "*", .operator⟩ :: ⟨q, "@", .delimiter⟩ :: ts)) f).peekNext .kept).isDelimiter) = false := by
      rw [Bool.and_eq_false_iff, ← Bool.not_eq_true, ← Bool.not_eq_true, ← not_and_or]
      rintro ⟨hstar, hat⟩
      cases us with
      | nil => cases hat
      | cons v us =>
        -- the two marks would stand next to each other in the text
        have htext : u.text = "*" := by
          rw [Token.is, Bool.and_eq_true, beq_iff_eq] at hstar
          exact hstar.2
        have hmark : v.text = "@" := (hus v (by simp)).mark hat
        refine h ⟨[], (textOf us).toList, ?_⟩
        rw [textOf_cons, textOf_cons, htext, hmark]
        simp
    rw [iterate_templateCommentRound, List.cons_append, bind_ok (templateCommentRound_more hu.present hmore start text)]
    show iterate (text ++ u.text) _ _ = _
    rw [ih hus hrest, textOf_cons, String.append_assoc]

/-- what stands behind an `@` with nothing before it -/
theorem segment_mark (p : Position) (ts : List Token) (f : Position) :
    segment .markup ⟨⟨p, "@", .delimiter⟩ :: ts, f⟩ = construct segment "" ⟨p, "@", .delimiter⟩ ⟨ts, f⟩ := by
  have hmark : ((TokenStream.mk (⟨p, "@", .delimiter⟩ :: ts) f).peek .skipped).isDelimiter = true := rfl
  have hsolid : ((TokenStream.mk (⟨p, "@", .delimiter⟩ :: ts) f).peek .kept).isWhitespace = false := rfl
  have hblank : blank ⟨⟨p, "@", .delimiter⟩ :: ts, f⟩ = .ok ("", ⟨⟨p, "@", .delimiter⟩ :: ts, f⟩) := rfl
  have hdelimiter : expectCategory .kept .delimiter ⟨⟨p, "@", .delimiter⟩ :: ts, f⟩ =
      .ok (⟨p, "@", .delimiter⟩, ⟨ts, f⟩) := rfl
  refine (congrFun (segment_eq .markup) _).trans ?_
  rw [segmentOver, markupSegment, bind_ok (peek_run .skipped _), if_pos hmark, bind_ok (peek_run .kept _),
    bind_ok (peekNth_run 2 _), hsolid, Bool.false_and, if_neg Bool.false_ne_true, embedded, bind_ok hblank,
    bind_ok hdelimiter]

/-- **A template comment is a segment, and leaves what follows its end.** -/
theorem segment_templateComment (hus : ∀ u ∈ us, u.Proper) (h : ¬ ['*', '@'] <:+: (textOf us).toList)
    (p q r s : Position) (ts : List Token) (f : Position) :
    segment .markup ⟨⟨p, "@", .delimiter⟩ :: ⟨q, "*", .operator⟩ ::
        (us ++ ⟨r, "*", .operator⟩ :: ⟨s, "@", .delimiter⟩ :: ts), f⟩ =
      .ok (.comment (textOf us), ⟨ts, f⟩) := by
  have htext := iterate_templateComment hus h p r s "" ts f
  rw [String.empty_append] at htext
  rw [segment_mark]
  refine (bind_ok rfl).trans ((bind_ok (a := textOf us) ?_).trans rfl)
  exact (bind_ok (expect_run rfl _ _)).trans htext

/-- with a `=` behind the star, it is an error -/
theorem segment_starred (p q : Position) (ts : List Token) (f : Position) :
    segment .markup ⟨⟨p, "@", .delimiter⟩ :: ⟨q, "*=", .operator⟩ :: ts, f⟩ =
      .error (.grammatical (.unknownDirective ⟨q, "*=", .operator⟩)) := by
  rw [segment_mark]
  rfl

end Grammar

end TemplateView
