/-
Tokens of a part of a source. The lexemes of a text do not depend on where it stands, nor on what follows behind a
lexeme: where a token list is cut in two, the text of each part has the tokens of that part, up to their positions.
-/
import Mathlib.Data.List.Forall2
import TemplateView.Token

namespace TemplateView

/-! ## Tokens up to position -/

/-- the texts of tokens, joined -/
def textOf : List Token → String
  | [] => ""
  | t :: ts => t.text ++ textOf ts

@[simp] theorem textOf_nil : textOf [] = "" := rfl

@[simp] theorem textOf_cons (t : Token) (ts : List Token) : textOf (t :: ts) = t.text ++ textOf ts := rfl

@[simp] theorem textOf_append (ts us : List Token) : textOf (ts ++ us) = textOf ts ++ textOf us := by
  induction ts with
  | nil => simp
  | cons t ts ih => simp [ih, String.append_assoc]

/-- one lexeme, perhaps at two places -/
structure Token.Same (t t' : Token) : Prop where
  text : t.text = t'.text
  category : t.category = t'.category

/-- the same lexemes, perhaps at two places -/
abbrev SameTokens : List Token → List Token → Prop := List.Forall₂ Token.Same

namespace Token.Same

variable {t t' : Token}

theorem refl (t : Token) : t.Same t := ⟨rfl, rfl⟩

theorem is (h : t.Same t') (s : String) : t.is s = t'.is s := by
  rw [Token.is, Token.is, h.text, h.category]

theorem isOneOf (h : t.Same t') (texts : List String) : t.isOneOf texts = t'.isOneOf texts := by
  have hi : t.is = t'.is := funext h.is
  rw [Token.isOneOf, Token.isOneOf, hi]

theorem isWhitespace (h : t.Same t') : t.isWhitespace = t'.isWhitespace := by
  rw [Token.isWhitespace, Token.isWhitespace, h.category]

theorem isDelimiter (h : t.Same t') : t.isDelimiter = t'.isDelimiter := by
  rw [Token.isDelimiter, Token.isDelimiter, h.category]

theorem isAlphanumeric (h : t.Same t') : t.isAlphanumeric = t'.isAlphanumeric := by
  rw [Token.isAlphanumeric, Token.isAlphanumeric, h.category]

theorem isEnd (h : t.Same t') : t.isEnd = t'.isEnd := by
  rw [Token.isEnd, Token.isEnd, h.category]

end Token.Same

/-- what is the same as two parts has two parts -/
theorem sameTokens_append {us vs ws : List Token} (h : SameTokens (us ++ vs) ws) :
    ∃ us' vs', ws = us' ++ vs' ∧ SameTokens us us' ∧ SameTokens vs vs' := by
  induction us generalizing ws with
  | nil => exact ⟨[], ws, rfl, .nil, h⟩
  | cons u us ih =>
    cases h with
    | @cons _ w _ ws hu h =>
      obtain ⟨us', vs', rfl, hus, hvs⟩ := ih h
      exact ⟨w :: us', vs', rfl, .cons hu hus, hvs⟩

/-! ## Characters of words -/

theorem isDigit_of_isWordStart {c : Char} (h : isWordStart c = true) : c.isDigit = false := by
  refine Bool.eq_false_iff.2 fun hd => ?_
  have hr : 48 ≤ c.toNat ∧ c.toNat ≤ 57 := by
    simpa [Char.isDigit, UInt32.le_iff_toNat_le] using hd
  have ha : c.isAlpha = false := by
    unfold Char.isAlpha Char.isUpper Char.isLower
    simp [UInt32.le_iff_toNat_le]
    constructor <;> intro <;> show _ <;> omega
  rw [isWordStart, Text.isAlphabetic_of_ascii (by omega), ha, Bool.false_or, beq_iff_eq] at h
  subst h
  exact absurd hd (by decide)

theorem isWordPart_of_isWordStart {c : Char} (h : isWordStart c = true) : isWordPart c = true := by
  rw [isWordStart, Bool.or_eq_true] at h
  rw [isWordPart, Bool.or_eq_true]
  exact h.imp_left Text.isAlphanumeric_of_isAlphabetic

/-! ## Lexemes in a part of a text -/

/-- a longest run with less behind it is the same run -/
theorem cut_takeWhile {p : Char → Bool} {cs more tail : List Char} (h : cs.dropWhile p = more ++ tail) :
    (cs.takeWhile p ++ more).takeWhile p = cs.takeWhile p ∧ (cs.takeWhile p ++ more).dropWhile p = more := by
  have hall : ∀ c ∈ cs.takeWhile p, p c = true := List.all_eq_true.1 List.all_takeWhile
  have hmore : more.takeWhile p = [] ∧ more.dropWhile p = more := by
    cases more with
    | nil => simp
    | cons d ds =>
      have hd : p d = false := by
        have hn : cs.dropWhile p ≠ [] := by simp [h]
        have hh := List.head_dropWhile_not p hn
        simpa [h] using hh
      simp [hd]
  rw [List.takeWhile_append_of_pos hall, List.dropWhile_append_of_pos hall, hmore.1, hmore.2]
  simp

theorem cut_growOperator {op cs g more tail : List Char} (h : growOperator op cs = (g, more ++ tail)) :
    ∃ x, g = op ++ x ∧ growOperator op (x ++ more) = (g, more) := by
  induction cs generalizing op with
  | nil =>
    rw [growOperator, Prod.mk.injEq] at h
    obtain ⟨rfl, hm⟩ := h
    obtain ⟨rfl, rfl⟩ := List.append_eq_nil_iff.1 hm.symm
    exact ⟨[], by simp, rfl⟩
  | cons c cs ih =>
    rw [growOperator] at h
    by_cases ho : isOperator (op ++ [c])
    · rw [if_pos ho] at h
      obtain ⟨x, hx, hg⟩ := ih h
      refine ⟨c :: x, by simp [hx], ?_⟩
      rw [List.cons_append, growOperator, if_pos ho]
      exact hg
    · rw [if_neg ho, Prod.mk.injEq] at h
      obtain ⟨rfl, hm⟩ := h
      refine ⟨[], by simp, ?_⟩
      cases more with
      | nil => rfl
      | cons d ds =>
        obtain ⟨rfl, -⟩ := List.cons.inj hm
        rw [List.nil_append, growOperator, if_neg ho]

theorem cut_numberTail {cs more tail : List Char} (h : (numberTail cs).2 = more ++ tail) :
    numberTail ((numberTail cs).1 ++ more) = ((numberTail cs).1, more) := by
  have hdot : Char.isDigit '.' = false := by decide
  have hall : ∀ c ∈ cs.takeWhile Char.isDigit, c.isDigit = true := List.all_eq_true.1 List.all_takeWhile
  by_cases hp : ∃ rest, cs.dropWhile Char.isDigit = '.' :: rest
  · obtain ⟨rest, hr⟩ := hp
    have hn : numberTail cs = (cs.takeWhile Char.isDigit ++ '.' :: rest.takeWhile Char.isDigit,
        rest.dropWhile Char.isDigit) := by
      simp only [numberTail, hr]
    rw [hn] at h ⊢
    obtain ⟨ht, hd⟩ := cut_takeWhile h
    simp only [numberTail, List.append_assoc, List.cons_append]
    rw [List.takeWhile_append_of_pos hall, List.dropWhile_append_of_pos hall]
    simp [hdot, ht, hd]
  · have hn : numberTail cs = (cs.takeWhile Char.isDigit, cs.dropWhile Char.isDigit) := by
      simp only [numberTail]
      split
      · next rest hr => exact absurd ⟨rest, hr⟩ hp
      · rfl
    rw [hn] at h ⊢
    obtain ⟨ht, hd⟩ := cut_takeWhile h
    simp only [numberTail, ht, hd]
    split
    · next rest => exact absurd ⟨rest ++ tail, h⟩ hp
    · rfl

/-- **A lexeme with less behind it is the same lexeme.** -/
theorem cut_firstLexeme {c : Char} {cs more tail : List Char} (h : (firstLexeme c cs).2.2 = more ++ tail) :
    ∃ x, (firstLexeme c cs).2.1 = c :: x ∧
      firstLexeme c (x ++ more) = ((firstLexeme c cs).1, (firstLexeme c cs).2.1, more) := by
  unfold firstLexeme at h ⊢
  by_cases hw : isWordStart c
  · simp only [if_pos hw] at h ⊢
    obtain ⟨ht, hd⟩ := cut_takeWhile h
    exact ⟨_, rfl, by rw [ht, hd]⟩
  simp only [if_neg hw] at h ⊢
  by_cases hn : c.isDigit
  · simp only [if_pos hn] at h ⊢
    exact ⟨_, rfl, by rw [cut_numberTail h]⟩
  simp only [if_neg hn] at h ⊢
  by_cases hp : c == '.' && startsWithDigit cs
  · simp only [if_pos hp] at h ⊢
    obtain ⟨ht, hd⟩ := cut_takeWhile h
    refine ⟨_, rfl, ?_⟩
    have hs : (c == '.' && startsWithDigit (cs.takeWhile Char.isDigit ++ more)) = true := by
      cases cs with
      | nil => simp [startsWithDigit] at hp
      | cons d ds =>
        simp only [startsWithDigit, Bool.and_eq_true] at hp
        simp [startsWithDigit, hp.1, hp.2]
    rw [if_pos hs, ht, hd]
  have hp' : ¬ (c == '.' && startsWithDigit ([] : List Char)) := by simp [startsWithDigit]
  -- a cut text starts no number behind a point, as the whole text does not
  have hcut : ∀ x, cs = x ++ (more ++ tail) → ¬ (c == '.' && startsWithDigit (x ++ more)) := by
    intro x he
    subst he
    cases x with
    | cons d ds => exact hp
    | nil =>
      cases more with
      | nil => exact hp'
      | cons d ds => exact hp
  simp only [if_neg hp] at h ⊢
  by_cases ha : c == '@'
  · simp only [if_pos ha] at h ⊢
    exact ⟨[], rfl, by rw [if_neg (hcut [] h)]; rfl⟩
  simp only [if_neg ha] at h ⊢
  by_cases ho : isOperator [c]
  · simp only [if_pos ho] at h ⊢
    have hg : growOperator [c] cs = ((growOperator [c] cs).1, more ++ tail) := by rw [← h]
    obtain ⟨x, hx, hm⟩ := cut_growOperator hg
    have hcs := growOperator_append [c] cs
    rw [hx, h, List.append_assoc, List.append_cancel_left_eq] at hcs
    exact ⟨x, hx, by rw [if_neg (hcut x hcs.symm), hm]⟩
  simp only [if_neg ho] at h ⊢
  by_cases hs : isSpace c
  · simp only [if_pos hs] at h ⊢
    obtain ⟨ht, hd⟩ := cut_takeWhile h
    have hcs := List.takeWhile_append_dropWhile (p := isSpace) (l := cs)
    rw [h] at hcs
    exact ⟨_, rfl, by rw [if_neg (hcut _ hcs.symm), ht, hd]⟩
  · simp only [if_neg hs] at h ⊢
    exact ⟨[], rfl, by rw [if_neg (hcut [] h)]; rfl⟩

/-! ## Tokens of a part of a text -/

theorem tokensFrom_cons (p : Position) (c : Char) (cs : List Char) :
    tokensFrom p (c :: cs) = ⟨p, String.ofList (firstLexeme c cs).2.1, (firstLexeme c cs).1⟩ ::
      tokensFrom (p.after (firstLexeme c cs).2.1) (firstLexeme c cs).2.2 := by
  rw [tokensFrom]

/-- a text has the same tokens wherever it stands -/
theorem sameTokens_tokensFrom (p q : Position) (cs : List Char) : SameTokens (tokensFrom p cs) (tokensFrom q cs) := by
  fun_induction tokensFrom p cs generalizing q with
  | case1 p => rw [tokensFrom]; exact .nil
  | case2 p c cs lexeme ih =>
    rw [tokensFrom_cons q]
    exact .cons ⟨rfl, rfl⟩ (ih _)

/-- a lexeme that ends in a text does not depend on what follows the text -/
theorem firstLexeme_of_rest {c : Char} {cs ds more : List Char} (h : (firstLexeme c (cs ++ ds)).2.2 = more ++ ds) :
    firstLexeme c (cs ++ ds) =
      ((firstLexeme c cs).1, (firstLexeme c cs).2.1, (firstLexeme c cs).2.2 ++ ds) := by
  have hsplit := firstLexeme_append c (cs ++ ds)
  obtain ⟨x, hx, hcut⟩ := cut_firstLexeme h
  have hcs : x ++ more = cs := by
    rw [hx, h, ← List.append_assoc, ← List.cons_append, List.append_cancel_right_eq] at hsplit
    exact (List.cons.inj hsplit).2
  rw [hcs] at hcut
  rw [hcut, ← h]

/-- no lexeme that starts in the text goes on in what follows it -/
def Apart (cs ds : List Char) : Prop :=
  ∀ c rest, c :: rest <:+ cs → ∃ more, (firstLexeme c (rest ++ ds)).2.2 = more ++ ds

/-- **Texts that are apart keep their tokens.** -/
theorem tokensFrom_append {cs ds : List Char} (h : Apart cs ds) (p : Position) :
    tokensFrom p (cs ++ ds) = tokensFrom p cs ++ tokensFrom (p.after cs) ds := by
  induction hn : cs.length using Nat.strongRecOn generalizing p cs with
  | ind n ih =>
    cases cs with
    | nil => rw [tokensFrom]; rfl
    | cons c cs =>
      have hsplit := firstLexeme_append c cs
      obtain ⟨more, hmore⟩ := h c cs List.suffix_rfl
      have hrest : (firstLexeme c cs).2.2 <:+ c :: cs := ⟨_, hsplit⟩
      have hlen : (firstLexeme c cs).2.2.length < n := hn ▸ Nat.lt_succ_of_le (length_firstLexeme_rest c cs)
      rw [List.cons_append, tokensFrom_cons, tokensFrom_cons, firstLexeme_of_rest hmore, List.cons_append]
      simp only
      rw [ih _ hlen (fun d rest hd => h d rest (hd.trans hrest)) (p.after (firstLexeme c cs).2.1) rfl,
        ← Position.after_append, hsplit]

/-- nothing is dropped -/
theorem textOf_tokensFrom (p : Position) (cs : List Char) : textOf (tokensFrom p cs) = String.ofList cs := by
  fun_induction tokensFrom p cs with
  | case1 p => rfl
  | case2 p c cs lexeme ih =>
    rw [textOf_cons, ih, ← String.ofList_append, firstLexeme_append]

/-- **The text of a part of the tokens has the tokens of that part.** -/
theorem tokensFrom_cut {p : Position} {cs : List Char} {ts us : List Token} (h : tokensFrom p cs = ts ++ us) :
    ∃ ds es, cs = ds ++ es ∧ textOf ts = String.ofList ds ∧ (∃ q, tokensFrom q es = us) ∧
      ∀ q, SameTokens ts (tokensFrom q ds) := by
  induction ts generalizing p cs with
  | nil => exact ⟨[], cs, rfl, rfl, ⟨p, h⟩, fun q => by rw [tokensFrom]; exact .nil⟩
  | cons t ts ih =>
    cases cs with
    | nil => rw [tokensFrom] at h; cases h
    | cons c cs =>
      rw [tokensFrom_cons, List.cons_append, List.cons.injEq] at h
      obtain ⟨rfl, h⟩ := h
      obtain ⟨ds, es, hrest, hts, hus, hsame⟩ := ih h
      obtain ⟨x, hx, hcut⟩ := cut_firstLexeme hrest
      refine ⟨(firstLexeme c cs).2.1 ++ ds, es, ?_, ?_, hus, fun q => ?_⟩
      · rw [List.append_assoc, ← hrest, firstLexeme_append]
      · rw [textOf_cons, hts, String.ofList_append]
      · rw [hx, List.cons_append, tokensFrom_cons, hcut]
        exact .cons ⟨by rw [hx], rfl⟩ (hsame _)

/-! ## What tokens of a source look like -/

/-- whitespace is made of spaces, a delimiter is an `@`, and none is the end of the source -/
structure Token.Proper (t : Token) : Prop where
  blank : t.isWhitespace = true → t.text.toList.all isSpace = true
  mark : t.isDelimiter = true → t.text = "@"
  present : t.isEnd = false

theorem firstLexeme_category (c : Char) (cs : List Char) :
    ((firstLexeme c cs).1 = .whitespace → (firstLexeme c cs).2.1.all isSpace = true) ∧
      ((firstLexeme c cs).1 = .delimiter → (firstLexeme c cs).2.1 = ['@']) ∧ (firstLexeme c cs).1 ≠ .endOfInput := by
  unfold firstLexeme
  split
  · simp
  split
  · simp
  split
  · simp
  split
  · next h => simpa using h
  split
  · simp
  split
  · next h => simp [h]
  · simp

theorem proper_tokensFrom (p : Position) (cs : List Char) : ∀ t ∈ tokensFrom p cs, t.Proper := by
  fun_induction tokensFrom p cs with
  | case1 p => simp
  | case2 p c cs lexeme ih =>
    intro t ht
    rcases List.mem_cons.1 ht with rfl | ht
    · obtain ⟨hb, hd, he⟩ := firstLexeme_category c cs
      refine ⟨?_, ?_, by simpa [Token.isEnd] using he⟩
      · intro hk
        have hk : (firstLexeme c cs).1 = .whitespace := by simpa [Token.isWhitespace] using hk
        rw [String.toList_ofList]
        exact hb hk
      · intro hk
        have hk : (firstLexeme c cs).1 = .delimiter := by simpa [Token.isDelimiter] using hk
        show String.ofList (firstLexeme c cs).2.1 = "@"
        rw [hd hk]
    · exact ih t ht

/-- no closing bracket is whitespace -/
theorem Token.Proper.isWhitespace_of_is {t : Token} (h : t.Proper) {s : String} (hs : t.is s = true)
    (hn : s.toList.all isSpace = false) : t.isWhitespace = false := by
  rw [Token.is, Bool.and_eq_true, beq_iff_eq] at hs
  by_contra hw
  have hb := h.blank (by simpa using hw)
  rw [hs.2, hn] at hb
  cases hb

end TemplateView
