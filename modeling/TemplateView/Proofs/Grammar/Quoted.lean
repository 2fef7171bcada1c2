/-
Texts in quotes. `quoteString` writes any text as a string, and a string so written is read as a literal of that very
text (`literalValue_quoteString`), though it is cut into tokens that know nothing of strings: its closing quote is a lexeme
of its own, whatever stands inside (`apart_quoted`). So such a string, in parentheses or as the argument of a call, is the
whole of an inline expression (`parse_parenthesized`, `parse_call`).
-/
import TemplateView.Generation.Literal
import TemplateView.Program.Listing
import TemplateView.Proofs.Grammar.Plain
import TemplateView.Proofs.Grammar.Reread

namespace TemplateView

/-! ## Quoting -/

/-- what is quoted is no mark, or a backslash and what it stands for -/
theorem quoteChar_cases (c : Char) :
    (c ≠ '\\' ∧ c ≠ '"' ∧ quoteChar c = [c]) ∨ ∃ e, quoteChar c = ['\\', e] ∧ Generation.escaped e = c := by
  unfold quoteChar
  split
  · exact .inr ⟨'\\', rfl, rfl⟩
  · exact .inr ⟨'"', rfl, rfl⟩
  · exact .inr ⟨'r', rfl, rfl⟩
  · exact .inr ⟨'n', rfl, rfl⟩
  · next hb hq _ _ => exact .inl ⟨hb, hq, rfl⟩

/-- **Escapes are read as what they stand for.** -/
theorem unescape_quote (cs : List Char) : Generation.unescape (cs.flatMap quoteChar) = cs := by
  induction cs with
  | nil => rfl
  | cons c cs ih =>
    rw [List.flatMap_cons]
    rcases quoteChar_cases c with ⟨hb, -, hc⟩ | ⟨e, hc, he⟩
    · rw [hc, List.singleton_append, Generation.unescape, ih]
      · exact fun h => absurd h hb
      · exact fun _ _ h => absurd h hb
    · rw [hc, List.cons_append, List.singleton_append, Generation.unescape, ih, he]

theorem endsAtQuote_quote (cs : List Char) : endsAtQuote '"' (cs.flatMap quoteChar ++ ['"']) = true := by
  induction cs with
  | nil => rfl
  | cons c cs ih =>
    rw [List.flatMap_cons, List.append_assoc]
    rcases quoteChar_cases c with ⟨hb, hq, hc⟩ | ⟨e, hc, -⟩
    · rw [hc, List.singleton_append, endsAtQuote_cons hb, if_neg (by simpa using hq), ih]
    · rw [hc, List.cons_append, List.singleton_append, endsAtQuote, ih]

theorem toList_quoteString (s : String) :
    (quoteString s).toList = '"' :: (s.toList.flatMap quoteChar ++ ['"']) := by
  simp [quoteString, String.toList_append]

/-- a text in quotes is a closed string -/
theorem isQuoted_quoteString (s : String) : isQuoted (quoteString s) = true := by
  rw [isQuoted, toList_quoteString]
  simp only
  rw [endsAtQuote_quote]
  rfl

/-- **A text in quotes is a literal of that text.** -/
theorem literalValue_quoteString (s : String) : Generation.literalValue? (quoteString s) = some (.string s) := by
  have hne : ∀ word, word.toList.head? ≠ some '"' → quoteString s ≠ word := by
    rintro word hw rfl
    exact hw (by rw [toList_quoteString]; rfl)
  have hlast : (s.toList.flatMap quoteChar ++ ['"']).getLast? = some '"' := by simp
  unfold Generation.literalValue?
  split
  · next h => exact absurd h (hne _ (by decide))
  · next h => exact absurd h (hne _ (by decide))
  · next h => exact absurd h (hne _ (by decide))
  · rw [toList_quoteString]
    simp only [Generation.unquote?, if_pos hlast, Option.map_some, List.dropLast_concat, unescape_quote,
      String.ofList_toList]

/-! ## Tokens of a string -/

namespace Grammar

open TemplateView.Parser

/-- **No lexeme of a string goes on behind its closing quote.** -/
theorem apart_quoted {raw : String} (h : isQuoted raw = true) (ds : List Char) : Apart raw.toList ds := by
  intro c rest hs
  obtain ⟨q, hq, hlast⟩ := getLast_of_isQuoted h
  obtain ⟨before, hraw⟩ := hs
  rw [← hraw, List.getLast?_append_of_ne_nil _ (by simp)] at hlast
  rcases List.eq_nil_or_concat' rest with rfl | ⟨inner, last, rfl⟩
  · -- the quote itself
    obtain rfl : c = q := by simpa using hlast
    rw [List.nil_append, firstLexeme_quote hq]
    exact ⟨[], rfl⟩
  rw [← List.cons_append, List.getLast?_concat] at hlast
  obtain rfl := Option.some.inj hlast
  -- a lexeme that starts before the quote does not reach it
  obtain ⟨x, -, hsplit, hplain⟩ := firstLexeme_plain c (inner ++ [last] ++ ds)
  rw [List.append_assoc] at hsplit ⊢
  rcases List.append_eq_append_iff.1 hsplit with ⟨more, -, hrest⟩ | ⟨extra, hx, hrest⟩
  · exact ⟨more ++ [last], by rw [hrest, List.append_assoc]⟩
  cases extra with
  | nil => exact ⟨[last], hrest.symm⟩
  | cons d extra =>
    obtain ⟨rfl, -⟩ := List.cons.inj hrest
    have hmark : last ∈ stringMarks := by rcases hq with rfl | rfl <;> decide
    exact absurd hmark (hplain last (by rw [hx]; simp))

/-! ## Strings as inline expressions -/

/-- a string and a closing bracket behind it are what a stream of their tokens shows -/
theorem shows_quoted {raw : String} (h : isQuoted raw = true) (p f : Position) :
    ∃ s, Shows ⟨tokensFrom p (raw.toList ++ [')']), f⟩ [raw] s ∧ Shows s [")"] ⟨[], f⟩ := by
  obtain ⟨c, cs, hraw, hc⟩ := (solid_of_isQuoted h).starts
  refine ⟨⟨tokensFrom (p.after raw.toList) [')'], f⟩, .cons p ?_ (.nil _), .cons (p.after raw.toList) ?_ (.nil _)⟩
  · rw [← tokensFrom_append (apart_quoted h [')']), hraw]
    exact passBlank_solid hc _ p f
  · rw [List.append_nil]
    exact passBlank_solid (by decide) _ _ f

/-- what is read as a literal is that literal, which has no position -/
theorem same_literal {e : Expression} {raw : String} (h : e.Same (.literal raw)) : e = .literal raw := by
  cases e with
  | literal raw' => exact h
  | _ => cases h

/-- the bracket before a string is a token of its own -/
theorem firstLexeme_bracket {raw : String} (h : isQuoted raw = true) (ds : List Char) :
    firstLexeme '(' (raw.toList ++ ds) = (.operator, ['('], raw.toList ++ ds) := by
  obtain ⟨q, cs, hraw, hq, -⟩ := exists_quote h
  rw [hraw]
  rcases hq with rfl | rfl <;> rfl

theorem firstLexeme_mark (cs : List Char) : firstLexeme '@' cs = (.delimiter, ['@'], cs) := rfl

theorem sameAll_literal {es : List Expression} {raw : String} (h : Expression.SameAll es [.literal raw]) :
    es = [.literal raw] := by
  cases es with
  | nil => cases h
  | cons e es =>
    obtain ⟨he, hes⟩ := List.cons.inj h
    cases es with
    | nil => rw [same_literal he]
    | cons e' es => cases hes

/-- a chain in markup that ends with a call -/
theorem chain_call {callee : Expression} {arguments : List Expression} {p : Position} {rest : List Token} {f : Position}
    (h : listUntil expression ")" ⟨rest, f⟩ = .ok (arguments, ⟨[], f⟩)) :
    chain expression .kept callee ⟨⟨p, "(", .operator⟩ :: rest, f⟩ = .ok (.call callee arguments, ⟨[], f⟩) := by
  have hsuffix : suffix expression callee ⟨p, "(", .operator⟩ ⟨⟨p, "(", .operator⟩ :: rest, f⟩ =
      .ok (.call callee arguments, ⟨[], f⟩) := (bind_ok rfl).trans (bind_ok h)
  have hround : chainRound expression .kept callee ⟨⟨p, "(", .operator⟩ :: rest, f⟩ =
      .ok (.inl (.call callee arguments), ⟨[], f⟩) := (bind_ok rfl).trans ((bind_ok rfl).trans (bind_ok hsuffix))
  rw [chain_eq, bind_ok hround]
  show chain expression .kept _ _ = _
  rw [chain_eq, bind_ok (chainRound_end expression _ f)]
  rfl

/-- a string in parentheses is an inline expression -/
theorem parse_parenthesized {raw : String} (h : isQuoted raw = true) :
    Template.parse ("@(" ++ raw ++ ")") = .ok ⟨[.inline ⟨.literal raw, ""⟩]⟩ := by
  have hsource : ("@(" ++ raw ++ ")").toList = '@' :: '(' :: (raw.toList ++ [')']) := by simp
  obtain ⟨s, hstring, hclose⟩ :=
    shows_quoted h ((Position.start.after ['@']).after ['(']) (Position.start.after ("@(" ++ raw ++ ")").toList)
  obtain ⟨q, s', hnext, hend⟩ := next_of_shows (isToken_mark ")" (by decide)) hclose
  obtain rfl := shows_nil hend
  -- behind the bracket the literal is read, up to the other bracket
  obtain ⟨-, e, hsame, hrun⟩ := (closed_literal (.inr (.inr h))).loosen_to (Nat.zero_le 10) (Nat.le_refl 10) _ s hstring
    (by rw [hnext.peek_eq]; exact nofun)
  have hrun : expression _ = .ok (e, s) := hrun
  rw [same_literal hsame] at hrun
  refine parseAs_eq_ok.2 ⟨⟨[], Position.start.after ("@(" ++ raw ++ ")").toList⟩, ?_⟩
  rw [TokenStream.ofSource, hsource, tokensFrom_cons, firstLexeme_mark, tokensFrom_cons, firstLexeme_bracket h, ← hsource]
  refine document_inline (m := parenthesized) rfl (fun _ _ => rfl) ?_
  exact (bind_ok rfl).trans ((bind_ok hrun).trans (bind_ok (hnext.expect rfl)))

/-- a string as the argument of a call is an inline expression -/
theorem parse_call {raw : String} (h : isQuoted raw = true) :
    ∃ p, Template.parse ("@raw(" ++ raw ++ ")") = .ok ⟨[.inline ⟨.call (.name "raw" p) [.literal raw], ""⟩]⟩ := by
  have hsource : ("@raw(" ++ raw ++ ")").toList = '@' :: 'r' :: 'a' :: 'w' :: '(' :: (raw.toList ++ [')']) := by simp
  have hname : ∀ cs, firstLexeme 'r' ('a' :: 'w' :: '(' :: cs) = (.alphanumeric, ['r', 'a', 'w'], '(' :: cs) :=
    fun _ => rfl
  obtain ⟨s, hstring, hclose⟩ := shows_quoted h (((Position.start.after ['@']).after ['r', 'a', 'w']).after ['('])
    (Position.start.after ("@raw(" ++ raw ++ ")").toList)
  -- behind the bracket the argument is read, with the other bracket
  have hprintable : Expression.printableAll [.literal raw] = true := by
    simp [Expression.printableAll, Expression.printable, h]
  obtain ⟨arguments, hsame, hrun⟩ := reads_list hprintable ")" (by decide) _ _ (shows_append.2 ⟨s, hstring, hclose⟩)
  refine ⟨Position.start.after ['@'], parseAs_eq_ok.2 ⟨⟨[], Position.start.after ("@raw(" ++ raw ++ ")").toList⟩, ?_⟩⟩
  rw [TokenStream.ofSource, hsource, tokensFrom_cons, firstLexeme_mark, tokensFrom_cons, hname, tokensFrom_cons,
    firstLexeme_bracket h, ← hsource]
  refine document_inline (m := inlineChain) rfl (fun _ _ => rfl) ?_
  rw [sameAll_literal hsame] at hrun
  exact (bind_ok rfl).trans (chain_call hrun)

end Grammar

end TemplateView
