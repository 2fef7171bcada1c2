/-
The tokens of a source. They are the source, cut into parts that are not empty, and behind them the end; each knows the
place where it starts, which `positionAt` finds again from the bytes in front of it; and runs of whitespace are maximal
(`tokenize_lossless`).
-/
import Mathlib.Data.List.Chain
import Mathlib.Data.List.DropRight
import TemplateView.Proofs.Grammar.Spaced
import TemplateView.Proofs.Position

namespace TemplateView

/-! ## Lines -/

/-- the characters of a text behind its last line feed -/
def lastLine (cs : List Char) : List Char :=
  cs.rtakeWhile (· != '\n')

theorem lastLine_append {head tail : List Char} (hs : LineStart head) (hn : '\n' ∉ tail) :
    lastLine (head ++ tail) = tail := by
  have htail : ∀ c ∈ tail.reverse, (c != '\n') = true := by
    intro c hc
    rw [bne_iff_ne]
    rintro rfl
    exact hn (List.mem_reverse.1 hc)
  rw [lastLine, List.rtakeWhile, List.reverse_append, List.takeWhile_append_of_pos htail]
  rcases hs with rfl | hs
  · simp
  · -- the part in front ends in a line feed, so nothing of it is taken
    obtain ⟨before, rfl⟩ := List.getLast?_eq_some_iff.1 hs
    simp

/-- **The place behind a text counts its bytes, its lines and the characters of the last one.** -/
theorem after_start (cs : List Char) :
    Position.start.after cs = ⟨(String.ofList cs).utf8ByteSize, cs.count '\n', (lastLine cs).length⟩ := by
  obtain ⟨head, tail, rfl, hs, hn, hline, hcolumn⟩ := exists_lineStart cs
  have hindex := Position.start.index_after (head ++ tail)
  rw [Position.start, Nat.zero_add] at hindex
  rw [Position.mk.injEq]
  refine ⟨hindex, ?_, ?_⟩
  · rw [hline, List.count_append, List.count_eq_zero.2 hn, Nat.add_zero]
  · rw [hcolumn, lastLine_append hs hn]

/-! ## Where tokens stand -/

/-- a token stands behind the texts of the tokens in front of it -/
theorem position_of_split {p : Position} {cs : List Char} {before : List Token} {t : Token} {rest : List Token}
    (h : tokensFrom p cs = before ++ t :: rest) :
    (textOf before).toList <+: cs ∧ t.position = p.after (textOf before).toList := by
  induction before generalizing p cs with
  | nil =>
    refine ⟨List.nil_prefix, ?_⟩
    cases cs with
    | nil =>
      rw [tokensFrom] at h
      cases h
    | cons c cs =>
      rw [tokensFrom_cons] at h
      obtain ⟨rfl, -⟩ := List.cons.inj h
      rfl
  | cons u before ih =>
    cases cs with
    | nil =>
      rw [tokensFrom] at h
      cases h
    | cons c cs =>
      rw [tokensFrom_cons, List.cons_append, List.cons.injEq] at h
      obtain ⟨rfl, h⟩ := h
      obtain ⟨hfront, hplace⟩ := ih h
      rw [textOf_cons, String.toList_append, String.toList_ofList, Position.after_append]
      refine ⟨?_, hplace⟩
      rw [← firstLexeme_append c cs]
      exact (List.prefix_append_right_inj _).2 hfront

theorem textOf_tokenize (source : String) : textOf (tokenize source) = source := by
  rw [tokenize, textOf_append, textOf_tokensFrom, String.ofList_toList]
  simp [Token.endOfInput]

/-- so does the end -/
theorem position_tokenize {source : String} {before : List Token} {t : Token} {rest : List Token}
    (h : tokenize source = before ++ t :: rest) :
    (textOf before).toList <+: source.toList ∧ t.position = Position.start.after (textOf before).toList := by
  rcases List.eq_nil_or_concat rest with rfl | ⟨rest, e, rfl⟩
  · obtain ⟨rfl, hend⟩ := List.append_inj' h rfl
    obtain rfl := List.singleton_inj.1 hend
    rw [textOf_tokensFrom, String.toList_ofList]
    exact ⟨List.prefix_rfl, rfl⟩
  · rw [List.concat_eq_append, ← List.cons_append, ← List.append_assoc] at h
    exact position_of_split (List.append_inj' h rfl).1

/-! ## Runs of whitespace -/

/-- two tokens of which one is not whitespace -/
def Token.Parted (t u : Token) : Prop := ¬ (t.isWhitespace = true ∧ u.isWhitespace = true)

theorem firstLexeme_solid {c : Char} (h : isSpace c = false) (cs : List Char) :
    (firstLexeme c cs).1 ≠ .whitespace := by
  intro hk
  obtain ⟨x, hx, -⟩ := firstLexeme_tail h cs
  have hall := (firstLexeme_category c cs).1 hk
  simp [hx, h] at hall

/-- what follows whitespace does not start with it -/
theorem firstLexeme_behind_space {c : Char} {cs : List Char} (h : (firstLexeme c cs).1 = .whitespace) {d : Char}
    {ds : List Char} (hd : (firstLexeme c cs).2.2 = d :: ds) : isSpace d = false := by
  have hc : isSpace c = true := by
    by_contra hc
    exact firstLexeme_solid (Bool.not_eq_true _ ▸ hc) cs h
  have hrest : cs.dropWhile isSpace = d :: ds := by rwa [firstLexeme_space hc] at hd
  have hhead := List.head_dropWhile_not isSpace (l := cs) (by simp [hrest])
  simpa [hrest] using hhead

theorem parted_tokensFrom (p : Position) (cs : List Char) : (tokensFrom p cs).IsChain Token.Parted := by
  fun_induction tokensFrom p cs with
  | case1 p => exact .nil
  | case2 p c cs lexeme ih =>
    rw [List.isChain_cons]
    refine ⟨?_, ih⟩
    rintro u hu ⟨hblank, hblank'⟩
    have hk : (firstLexeme c cs).1 = .whitespace := by simpa [Token.isWhitespace] using hblank
    cases hrest : (firstLexeme c cs).2.2 with
    | nil => simp [lexeme, hrest, tokensFrom] at hu
    | cons d ds =>
      have hd := firstLexeme_behind_space hk hrest
      rw [hrest, tokensFrom_cons, List.head?_cons, Option.mem_some_iff] at hu
      subst hu
      exact firstLexeme_solid hd ds (by simpa [Token.isWhitespace] using hblank')

theorem parted_tokenize (source : String) : (tokenize source).IsChain Token.Parted := by
  rw [tokenize, List.isChain_append]
  refine ⟨parted_tokensFrom _ _, .singleton _, ?_⟩
  rintro t - u hu ⟨-, hblank⟩
  obtain rfl : Token.endOfInput _ = u := by simpa using hu
  cases hblank

/-! ## All together -/

theorem text_ne_empty (p : Position) (cs : List Char) : ∀ t ∈ tokensFrom p cs, t.text ≠ "" := by
  fun_induction tokensFrom p cs with
  | case1 p => simp
  | case2 p c cs lexeme ih =>
    intro t ht
    rcases List.mem_cons.1 ht with rfl | ht
    · simpa using firstLexeme_ne_nil c cs
    · exact ih t ht

/-- **Tokens lose nothing, and say where they are.** The texts of the tokens of a source are the source. The last token
is the end, and no other is an end or empty. A token starts behind the texts of the tokens in front of it: its index is
their bytes, its line their line feeds, its column the characters behind the last of these, and all three are the
position of its index. Of two tokens next to each other, one is not whitespace. -/
theorem tokenize_lossless (source : String) :
    textOf (tokenize source) = source ∧
    (∃ ts e, tokenize source = ts ++ [e] ∧ e.isEnd = true ∧ e.text = "" ∧
      ∀ t ∈ ts, t.isEnd = false ∧ t.text ≠ "") ∧
    (∀ before t rest, tokenize source = before ++ t :: rest →
      t.position.index = (textOf before).utf8ByteSize ∧
      t.position = positionAt source t.position.index ∧
      t.position.line = (textOf before).toList.count '\n' ∧
      t.position.column = (lastLine (textOf before).toList).length) ∧
    (tokenize source).IsChain fun t u => ¬ (t.isWhitespace = true ∧ u.isWhitespace = true) := by
  refine ⟨textOf_tokenize source, ?_, ?_, parted_tokenize source⟩
  · refine ⟨tokensFrom .start source.toList, .endOfInput (Position.start.after source.toList), rfl, rfl, rfl, ?_⟩
    intro t ht
    exact ⟨(proper_tokensFrom _ _ t ht).present, text_ne_empty _ _ t ht⟩
  · intro before t rest h
    obtain ⟨⟨behind, hsource⟩, hplace⟩ := position_tokenize h
    have hscan : positionAt source t.position.index = t.position := by
      rw [positionAt, hplace, ← hsource]
      exact scanTo_after .start _ behind
    rw [hscan]
    rw [after_start, String.ofList_toList] at hplace
    rw [hplace]
    exact ⟨rfl, rfl, rfl, rfl⟩

end TemplateView
