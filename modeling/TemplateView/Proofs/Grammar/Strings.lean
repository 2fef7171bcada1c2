/-
Closed strings. A lexeme goes on with no quote and no backslash, so the tokens of a string find its closing quote where
its characters have it: a string is read as one literal and in full (`stringLiteral_run`).
-/
import TemplateView.Proofs.Grammar.Ending
import TemplateView.Proofs.Grammar.Spaced

namespace TemplateView

open TemplateView.Parser

/-! ## The next token -/

namespace Next

variable {s s' : TokenStream} {t : Token}

theorem peek_eq (h : Next s t s') : s.peek .skipped = t := by
  rw [TokenStream.peek, h]
  rfl

theorem peek (h : Next s t s') : Parser.peek .skipped s = .ok (t, s) := by
  rw [peek_run, h.peek_eq]

theorem consume (h : Next s t s') : Parser.consume .skipped s = .ok (t, s') := consume_eq_ok.2 h

theorem expected {e : Expected} (h : Next s t s') (ht : e.matches t = true) :
    taking (·.consumeExpected .skipped e) s = .ok (t, s') :=
  taking_eq_ok.2 (consumeExpected_eq_ok.2 ⟨h, ht⟩)

theorem expect {text : String} (h : Next s t s') (ht : t.is text = true) : Parser.expect .skipped text s = .ok (t, s') :=
  h.expected ht

end Next

namespace Grammar

/-! ## Lexemes in a string -/

/-- the marks of a string -/
def stringMarks : List Char := ['\\', '"', '\'']

theorem mem_loneChars_of_mark {d : Char} (h : d ∈ stringMarks) : d ∈ loneChars := by
  have hsub : (stringMarks.all loneChars.contains) = true := by decide
  simpa using List.all_eq_true.1 hsub d h

theorem isSpace_mark {d : Char} (h : d ∈ stringMarks) : isSpace d = false := by
  have hnone : (stringMarks.all fun d => !isSpace d) = true := by decide
  simpa using List.all_eq_true.1 hnone d h

/-- **No lexeme goes on with a mark of a string.** -/
theorem firstLexeme_plain (c : Char) (cs : List Char) :
    ∃ x, (firstLexeme c cs).2.1 = c :: x ∧ x ++ (firstLexeme c cs).2.2 = cs ∧ ∀ d ∈ x, d ∉ stringMarks := by
  obtain ⟨x, hx, hplain⟩ : ∃ x, (firstLexeme c cs).2.1 = c :: x ∧ ∀ d ∈ x, d ∉ stringMarks := by
    cases hc : isSpace c with
    | true =>
      rw [firstLexeme_space hc]
      refine ⟨_, rfl, fun d hd hm => ?_⟩
      have hs := List.all_eq_true.1 List.all_takeWhile d hd
      rw [isSpace_mark hm] at hs
      cases hs
    | false =>
      obtain ⟨x, hx, htail⟩ := firstLexeme_tail hc cs
      exact ⟨x, hx, fun d hd hm => htail d hd (mem_loneChars_of_mark hm)⟩
  have hsplit := firstLexeme_append c cs
  rw [hx, List.cons_append, List.cons.injEq] at hsplit
  exact ⟨x, hx, hsplit.2, hplain⟩

theorem firstLexeme_backslash (cs : List Char) : firstLexeme '\\' cs = (.unknown, ['\\'], cs) := by
  have hnone : isWordStart '\\' = false ∧ isOperator ['\\'] = false := by decide +kernel
  simp [firstLexeme, hnone.1, hnone.2, isSpace]

theorem firstLexeme_quote {c : Char} (h : c = '"' ∨ c = '\'') (cs : List Char) :
    firstLexeme c cs = (.operator, [c], cs) := by
  have hstart : isWordStart c = false ∧ c.isDigit = false ∧ (c == '.') = false ∧ (c == '@') = false ∧
      isOperator [c] = true := by rcases h with rfl | rfl <;> decide +kernel
  have hone : ∀ s ∈ operatorTable, s.toList.head? = some '"' ∨ s.toList.head? = some '\'' → s.toList.length = 1 := by
    decide +kernel
  obtain ⟨hword, hdigit, hpoint, hmark, hop⟩ := hstart
  have hgrow : growOperator [c] cs = ([c], cs) := by
    cases cs with
    | nil => rfl
    | cons d ds =>
      rw [growOperator, if_neg]
      intro hlong
      have := hone _ (mem_operatorTable hlong) (by simpa using h)
      simp at this
  simp [firstLexeme, hword, hdigit, hpoint, hmark, hop, hgrow]

/-- characters that are no marks of a string do not end it -/
theorem endsAtQuote_plain {quote : Char} (hq : quote = '"' ∨ quote = '\'') {x : List Char}
    (h : ∀ d ∈ x, d ∉ stringMarks) (cs : List Char) : endsAtQuote quote (x ++ cs) = endsAtQuote quote cs := by
  induction x with
  | nil => rfl
  | cons d x ih =>
    have hd := h d List.mem_cons_self
    have hne : d ≠ '\\' ∧ d ≠ quote := by
      constructor
      · rintro rfl
        exact hd (by decide)
      · rintro rfl
        exact hd (by rcases hq with rfl | rfl <;> decide)
    rw [List.cons_append, endsAtQuote_cons hne.1, if_neg (by simpa using hne.2)]
    exact ih fun e he => h e (List.mem_cons_of_mem d he)

/-! ## Strings -/

theorem iterate_stringRound (quote : Token) (raw : String) : iterate raw (stringRound quote) =
    stringRound quote raw >>= Sum.elim (iterate · (stringRound quote)) pure :=
  iterate_eq (fun _ raw => (spends_stringRound trivial raw).spends) raw

/-- one token of a string that is there -/
theorem stringRound_run {quote t : Token} (ht : t.isEnd = false) (raw : String) (rest : List Token) (finish : Position) :
    stringRound quote raw ⟨t :: rest, finish⟩ =
      (if t.text == "\\" then do
        let escaped ← consume .kept
        return .inl (raw ++ t.text ++ escaped.text)
      else if t.is quote.text then return .inr (.literal (raw ++ t.text))
      else return .inl (raw ++ t.text) : Parser (String ⊕ Expression)) ⟨rest, finish⟩ := by
  have hend : TokenStream.atEnd ⟨t :: rest, finish⟩ .kept = false := ht
  have htake : consume .kept ⟨t :: rest, finish⟩ = .ok (t, ⟨rest, finish⟩) := rfl
  rw [stringRound, bind_ok (atEnd_run _), hend, if_neg Bool.false_ne_true, bind_ok htake]

/-- the rest of a string, behind its quote and what was read of it -/
theorem string_rest {c : Char} (hc : c = '"' ∨ c = '\'') {quote : Token} (hq : quote.text = String.ofList [c])
    {cs : List Char} (h : endsAtQuote c cs = true) (p : Position) (raw : String) (s' : TokenStream) :
    iterate raw (stringRound quote) ⟨tokensFrom p cs ++ s'.rest, s'.finish⟩ =
      .ok (.literal (raw ++ String.ofList cs), s') := by
  induction hn : cs.length using Nat.strongRecOn generalizing p cs raw with
  | ind n ih =>
    cases cs with
    | nil => cases h
    | cons d cs =>
      have hn : cs.length + 1 = n := hn
      obtain ⟨x, hx, hsplit, hplain⟩ := firstLexeme_plain d cs
      have hpresent : (firstLexeme d cs).1 ≠ .endOfInput := (firstLexeme_category d cs).2.2
      rw [iterate_stringRound, tokensFrom_cons, List.cons_append]
      by_cases hback : d = '\\'
      · -- a backslash and the lexeme behind it, which holds more than the character that is meant
        subst hback
        cases cs with
        | nil => cases h
        | cons e cs =>
          have h : endsAtQuote c cs = true := h
          obtain ⟨y, hy, hsplit, hplain⟩ := firstLexeme_plain e cs
          have hrest : endsAtQuote c (firstLexeme e cs).2.2 = true := by
            rwa [← hsplit, endsAtQuote_plain hc hplain] at h
          have hlen := length_firstLexeme_rest e cs
          simp only [firstLexeme_backslash, tokensFrom_cons, List.cons_append]
          rw [bind_run, stringRound_run rfl]
          have hih := ih (firstLexeme e cs).2.2.length (by simp at hn; omega) hrest
            ((p.after ['\\']).after (firstLexeme e cs).2.1) (raw ++ "\\" ++ String.ofList (firstLexeme e cs).2.1) rfl
          refine Eq.trans hih ?_
          rw [← firstLexeme_append e cs]
          simp [String.append_assoc, String.ofList_cons]
      have htext : (String.ofList (firstLexeme d cs).2.1 == "\\") = false := by
        rw [beq_eq_false_iff_ne, hx]
        intro he
        exact hback (List.cons.inj (String.ofList_injective he)).1
      rw [endsAtQuote_cons hback] at h
      rw [bind_run, stringRound_run (by simpa [Token.isEnd] using hpresent), htext, if_neg Bool.false_ne_true]
      by_cases hquote : d = c
      · -- the closing quote is the last token
        subst hquote
        rw [if_pos (beq_self_eq_true d), List.isEmpty_iff] at h
        subst h
        rw [firstLexeme_quote hc, if_pos (by simp [Token.is, hq]), tokensFrom]
        rfl
      · rw [if_neg (by simpa using hquote), ← hsplit, endsAtQuote_plain hc hplain] at h
        have hgoes : Token.is ⟨p, String.ofList (firstLexeme d cs).2.1, (firstLexeme d cs).1⟩ quote.text = false := by
          rw [Token.is, hq, hx, Bool.and_eq_false_iff, beq_eq_false_iff_ne]
          refine .inr fun he => hquote ?_
          exact (List.cons.inj (String.ofList_injective he)).1
        have hlen := length_firstLexeme_rest d cs
        rw [hgoes, if_neg Bool.false_ne_true]
        refine Eq.trans (ih (firstLexeme d cs).2.2.length (by omega) h (p.after (firstLexeme d cs).2.1)
          (raw ++ String.ofList (firstLexeme d cs).2.1) rfl) ?_
        rw [String.append_assoc, ← String.ofList_append, firstLexeme_append]

/-- **A closed string is read in full.** -/
theorem stringLiteral_run {raw : String} (h : isQuoted raw = true) {s s' : TokenStream} {p : Position}
    (hs : s.passBlank .skipped = ⟨tokensFrom p raw.toList ++ s'.rest, s'.finish⟩) :
    (∃ quote s₁, Next s quote s₁ ∧ quote.category = .operator ∧ (quote.text = "\"" ∨ quote.text = "'")) ∧
      stringLiteral s = .ok (.literal raw, s') := by
  obtain ⟨c, cs, hraw, hc, hcs⟩ := exists_quote h
  rw [hraw, tokensFrom_cons, firstLexeme_quote hc] at hs
  have hnext : Next s ⟨p, String.ofList [c], .operator⟩ ⟨tokensFrom (p.after [c]) cs ++ s'.rest, s'.finish⟩ := hs
  refine ⟨⟨_, _, hnext, rfl, ?_⟩, ?_⟩
  · rcases hc with rfl | rfl
    · exact .inl rfl
    · exact .inr rfl
  · rw [stringLiteral, bind_ok hnext.consume]
    refine Eq.trans (string_rest hc rfl hcs (p.after [c]) (String.ofList [c]) s') ?_
    rw [← String.ofList_append, List.singleton_append, ← hraw, String.ofList_toList]

end Grammar

end TemplateView
