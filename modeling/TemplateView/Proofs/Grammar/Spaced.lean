/-
Texts with spaces between them. A text that neither starts nor ends in whitespace keeps its tokens when a space follows
it (`tokensFrom_spaced`), so the tokens of texts that are joined by spaces are those of the texts, one after the other
(`shows_join`). `Shows` says so of a stream for a parser that skips whitespace.
-/
import TemplateView.Proofs.Grammar.Lexemes
import TemplateView.Proofs.Grammar.Printed
import TemplateView.TokenStream

namespace TemplateView

/-- whitespace of a template, or nothing -/
def IsBlank (s : String) : Prop := ∀ c ∈ s.toList, isSpace c = true

theorem isBlank_empty : IsBlank "" := List.forall_mem_nil _

/-! ## Characters of a lexeme -/

/-- characters that only whitespace, a quote or a backslash is written with -/
def loneChars : List Char := [' ', '\t', '\r', '\n', '\\', '"', '\'']

theorem mem_loneChars_of_isSpace {c : Char} (h : isSpace c = true) : c ∈ loneChars := by
  have h : ((c = ' ' ∨ c = '\t') ∨ c = '\r') ∨ c = '\n' := by simpa [isSpace] using h
  rcases h with ((rfl | rfl) | rfl) | rfl <;> decide

theorem mem_operatorTable {cs : List Char} (h : isOperator cs = true) : String.ofList cs ∈ operatorTable :=
  List.contains_iff_mem.1 h

theorem isOperator_growOperator {op : List Char} (h : isOperator op = true) (cs : List Char) :
    isOperator (growOperator op cs).1 = true := by
  induction cs generalizing op with
  | nil => exact h
  | cons c cs ih =>
    rw [growOperator]
    split
    · next hc => exact ih hc
    · exact h

/-- no operator goes on with a lone character -/
theorem operator_tail {cs : List Char} (h : isOperator cs = true) : ∀ d ∈ cs.tail, d ∉ loneChars := by
  have htable : (operatorTable.all fun s => s.toList.tail.all fun d => !loneChars.contains d) = true := by
    decide
  have hcs := List.all_eq_true.1 htable _ (mem_operatorTable h)
  rw [String.toList_ofList] at hcs
  intro d hd
  simpa using List.all_eq_true.1 hcs d hd

/-- words and numbers have no lone characters, and whitespace is none of all else -/
theorem lone_facts : (loneChars.all fun c => !isWordPart c && !c.isDigit &&
    (!isSpace c || !isWordStart c && c != '.' && c != '@' && !isOperator [c])) = true := by
  decide

theorem lone_wordPart {c : Char} (h : c ∈ loneChars) : isWordPart c = false := by
  have hc := List.all_eq_true.1 lone_facts c h
  simp only [Bool.and_eq_true, Bool.not_eq_true'] at hc
  exact hc.1.1

theorem lone_digit {c : Char} (h : c ∈ loneChars) : c.isDigit = false := by
  have hc := List.all_eq_true.1 lone_facts c h
  simp only [Bool.and_eq_true, Bool.not_eq_true'] at hc
  exact hc.1.2

theorem firstLexeme_space {c : Char} (h : isSpace c = true) (cs : List Char) :
    firstLexeme c cs = (.whitespace, c :: cs.takeWhile isSpace, cs.dropWhile isSpace) := by
  have hc := List.all_eq_true.1 lone_facts c (mem_loneChars_of_isSpace h)
  simp only [h, Bool.and_eq_true, Bool.not_eq_true', Bool.not_true, Bool.false_or, bne_iff_ne] at hc
  obtain ⟨⟨-, hdigit⟩, ⟨⟨hword, hpoint⟩, hmark⟩, hop⟩ := hc
  simp [firstLexeme, hword, hdigit, hpoint, hmark, hop, h]

/-- **A lexeme is whitespace, or goes on with no lone character.** -/
theorem firstLexeme_tail {c : Char} (h : isSpace c = false) (cs : List Char) :
    ∃ x, (firstLexeme c cs).2.1 = c :: x ∧ ∀ d ∈ x, d ∉ loneChars := by
  have hword : ∀ d ∈ cs.takeWhile isWordPart, d ∉ loneChars := fun d hd hl => by
    have hp := List.all_eq_true.1 List.all_takeWhile d hd
    rw [lone_wordPart hl] at hp
    cases hp
  have hdigits : ∀ ds : List Char, ∀ d ∈ ds.takeWhile Char.isDigit, d ∉ loneChars := fun ds d hd hl => by
    have hp := List.all_eq_true.1 List.all_takeWhile d hd
    rw [lone_digit hl] at hp
    cases hp
  unfold firstLexeme
  split
  · exact ⟨_, rfl, hword⟩
  split
  · refine ⟨_, rfl, ?_⟩
    simp only [numberTail]
    split
    · next more hm =>
      intro d hd
      rcases List.mem_append.1 hd with hd | hd
      · exact hdigits cs d hd
      rcases List.mem_cons.1 hd with rfl | hd
      · decide
      · exact hdigits more d hd
    · exact hdigits cs
  split
  · exact ⟨_, rfl, hdigits cs⟩
  split
  · exact ⟨[], rfl, by simp⟩
  split
  · next ho =>
    have htail := operator_tail (isOperator_growOperator ho cs)
    have hgrow : growOperator [c] cs = ((growOperator [c] cs).1, (growOperator [c] cs).2 ++ []) := by
      rw [List.append_nil]
    obtain ⟨x, hx, -⟩ := cut_growOperator hgrow
    exact ⟨x, hx, by simpa [hx] using htail⟩
  split
  · next hs =>
    rw [h] at hs
    cases hs
  · exact ⟨[], rfl, by simp⟩

/-! ## A space behind a text -/

/-- the text has a last character, and it is no whitespace -/
def EndsSolid (cs : List Char) : Prop := ∃ c, cs.getLast? = some c ∧ isSpace c = false

theorem EndsSolid.of_suffix {cs : List Char} (h : EndsSolid cs) {c : Char} {rest : List Char} (hs : c :: rest <:+ cs) :
    EndsSolid (c :: rest) := by
  obtain ⟨last, hlast, hsolid⟩ := h
  obtain ⟨before, rfl⟩ := hs
  rw [List.getLast?_append_of_ne_nil _ (by simp)] at hlast
  exact ⟨last, hlast, hsolid⟩

/-- a space behind a text that ends in no whitespace is in no lexeme of it -/
theorem apart_space {cs : List Char} (h : EndsSolid cs) (ds : List Char) : Apart cs (' ' :: ds) := by
  intro c rest hs
  obtain ⟨last, hlast, hsolid⟩ := h.of_suffix hs
  have hsplit := firstLexeme_append c (rest ++ ' ' :: ds)
  rw [← List.cons_append] at hsplit
  -- a lexeme cannot hold both the last character and the space
  rcases List.append_eq_append_iff.1 hsplit with ⟨more, -, hrest⟩ | ⟨extra, hlex, hrest⟩
  · exact ⟨more, hrest⟩
  cases extra with
  | nil => exact ⟨[], hrest.symm⟩
  | cons d extra =>
    exfalso
    obtain ⟨rfl, -⟩ := List.cons.inj hrest
    by_cases hc : isSpace c = true
    · rw [firstLexeme_space hc] at hlex
      replace hlex : c :: (rest ++ ' ' :: ds).takeWhile isSpace = c :: rest ++ ' ' :: extra := hlex
      have hall : ∀ d ∈ c :: rest, isSpace d = true := by
        intro d hd
        have hd : d ∈ c :: (rest ++ ' ' :: ds).takeWhile isSpace := by rw [hlex]; exact List.mem_append_left _ hd
        rcases List.mem_cons.1 hd with rfl | hd
        · exact hc
        · exact List.all_eq_true.1 List.all_takeWhile d hd
      rw [hall last (List.mem_of_getLast? hlast)] at hsolid
      cases hsolid
    · obtain ⟨x, hx, hx'⟩ := firstLexeme_tail (Bool.not_eq_true _ ▸ hc) (rest ++ ' ' :: ds)
      rw [hx, List.cons_append, List.cons.injEq] at hlex
      exact hx' ' ' (by rw [hlex.2]; simp) (by decide)

/-- **A text keeps its tokens in front of a space.** -/
theorem tokensFrom_spaced {cs : List Char} (h : EndsSolid cs) (ds : List Char) (p : Position) :
    tokensFrom p (cs ++ ' ' :: ds) = tokensFrom p cs ++ tokensFrom (p.after cs) (' ' :: ds) :=
  tokensFrom_append (apart_space h ds) p

/-! ## Solid texts -/

/-- the text is not empty, and neither starts nor ends in whitespace -/
structure Solid (text : String) : Prop where
  starts : ∃ c cs, text.toList = c :: cs ∧ isSpace c = false
  ends : EndsSolid text.toList

/-- a token of a category is so wherever it stands -/
theorem tokensFrom_of_isToken {k : Category} {text : String} (h : isToken k text = true) (p : Position) :
    tokensFrom p text.toList = [⟨p, text, k⟩] ∧ ∃ c cs, text.toList = c :: cs ∧ firstLexeme c cs = (k, c :: cs, []) := by
  rw [isToken, beq_iff_eq] at h
  cases htext : text.toList with
  | nil =>
    rw [htext, tokensFrom] at h
    cases h
  | cons c cs =>
    rw [htext, tokensFrom_cons, List.cons.injEq, Token.mk.injEq] at h
    obtain ⟨⟨-, -, hk⟩, hrest⟩ := h
    have hsplit := firstLexeme_append c cs
    have hnil : (firstLexeme c cs).2.2 = [] := by
      cases hr : (firstLexeme c cs).2.2 with
      | nil => rfl
      | cons d ds =>
        rw [hr, tokensFrom_cons] at hrest
        cases hrest
    rw [hnil, List.append_nil] at hsplit
    refine ⟨?_, c, cs, rfl, ?_⟩
    · rw [tokensFrom_cons, hsplit, hk, hnil, ← htext, String.ofList_toList, tokensFrom]
    · rw [← hsplit, ← hk, hsplit, ← hnil]
      exact Prod.ext rfl (Prod.ext hsplit rfl)

theorem solid_of_isToken {k : Category} {text : String} (h : isToken k text = true) (hk : k ≠ .whitespace) :
    Solid text := by
  obtain ⟨-, c, cs, htext, hlex⟩ := tokensFrom_of_isToken h .start
  have hc : isSpace c = false := by
    by_contra hs
    rw [firstLexeme_space (by simpa using hs), Prod.mk.injEq] at hlex
    exact hk hlex.1.symm
  obtain ⟨x, hx, htail⟩ := firstLexeme_tail hc cs
  rw [hlex, List.cons.injEq] at hx
  refine ⟨⟨c, cs, htext, hc⟩, ?_⟩
  rw [htext]
  refine ⟨(c :: cs).getLast (by simp), List.getLast?_eq_some_getLast _, ?_⟩
  rcases List.mem_cons.1 (List.getLast_mem (l := c :: cs) (by simp)) with hl | hl
  · rw [hl, hc]
  · by_contra hs
    rw [← hx.2] at htail
    exact htail _ hl (mem_loneChars_of_isSpace (by simpa using hs))

/-- a string goes on until its quote -/
theorem endsAtQuote_cons {quote c : Char} (hc : c ≠ '\\') (cs : List Char) :
    endsAtQuote quote (c :: cs) = if c == quote then cs.isEmpty else endsAtQuote quote cs := by
  rw [endsAtQuote]
  · simp [hc]
  · intro _ _ h
    exact absurd h hc

theorem getLast_of_endsAtQuote {quote : Char} {cs : List Char} (h : endsAtQuote quote cs = true) :
    cs.getLast? = some quote := by
  fun_induction endsAtQuote quote cs with
  | case1 => cases h
  | case2 d cs ih => rw [List.getLast?_cons, List.getLast?_cons, ih h]; rfl
  | case3 c cs hc ih =>
    rw [Bool.and_eq_true] at h
    by_cases hq : (c == quote) = true
    · rw [if_pos hq, List.isEmpty_iff] at h
      rw [h.2, ← beq_iff_eq.1 hq]
      rfl
    · rw [if_neg hq] at h
      rw [List.getLast?_cons, ih h.2]
      rfl

/-- a closed string starts with a quote and goes on until the same quote -/
theorem exists_quote {raw : String} (h : isQuoted raw = true) :
    ∃ q cs, raw.toList = q :: cs ∧ (q = '"' ∨ q = '\'') ∧ endsAtQuote q cs = true := by
  unfold isQuoted at h
  split at h
  · cases h
  · next q cs hraw =>
    rw [Bool.and_eq_true] at h
    exact ⟨q, cs, hraw, by simpa using h.1, h.2⟩

theorem getLast_of_isQuoted {raw : String} (h : isQuoted raw = true) :
    ∃ q, (q = '"' ∨ q = '\'') ∧ raw.toList.getLast? = some q := by
  obtain ⟨q, cs, hraw, hq, hends⟩ := exists_quote h
  exact ⟨q, hq, by rw [hraw, List.getLast?_cons, getLast_of_endsAtQuote hends]; rfl⟩

theorem solid_of_isQuoted {raw : String} (h : isQuoted raw = true) : Solid raw := by
  have hsolid : ∀ q, q = '"' ∨ q = '\'' → isSpace q = false := by rintro q (rfl | rfl) <;> decide
  obtain ⟨q, cs, hraw, hq, -⟩ := exists_quote h
  obtain ⟨last, hlast, hend⟩ := getLast_of_isQuoted h
  exact ⟨⟨q, cs, hraw, hsolid q hq⟩, last, hend, hsolid last hlast⟩

/-! ## Texts in a stream -/

/-- the next token of a stream but for whitespace, and what stands behind it -/
def Next (s : TokenStream) (t : Token) (s' : TokenStream) : Prop :=
  s.passBlank .skipped = ⟨t :: s'.rest, s'.finish⟩

/-- texts are next in a stream, each behind whitespace perhaps, and then the stream goes on as another one -/
inductive Shows : TokenStream → List String → TokenStream → Prop
  | nil (s : TokenStream) : Shows s [] s
  | cons {s s₁ s' : TokenStream} {text : String} {texts : List String} (p : Position)
      (h : s.passBlank .skipped = ⟨tokensFrom p text.toList ++ s₁.rest, s₁.finish⟩) (hs : Shows s₁ texts s') :
      Shows s (text :: texts) s'

theorem shows_nil {s s' : TokenStream} (h : Shows s [] s') : s = s' := by
  cases h
  rfl

theorem shows_append {s s' : TokenStream} {ls ms : List String} :
    Shows s (ls ++ ms) s' ↔ ∃ s₁, Shows s ls s₁ ∧ Shows s₁ ms s' := by
  induction ls generalizing s with
  | nil =>
    constructor
    · exact fun h => ⟨s, .nil s, h⟩
    · rintro ⟨_, ⟨⟩, h⟩
      exact h
  | cons l ls ih =>
    constructor
    · intro h
      cases h with
      | cons p h hs =>
        obtain ⟨s₁, hls, hms⟩ := ih.1 hs
        exact ⟨s₁, .cons p h hls, hms⟩
    · rintro ⟨s₁, h, hms⟩
      cases h with
      | cons p h hs => exact .cons p h (ih.2 ⟨s₁, hs, hms⟩)

/-- a token is next, and then more texts -/
theorem next_of_shows {k : Category} {text : String} (hk : isToken k text = true) {s s' : TokenStream}
    {texts : List String} (h : Shows s (text :: texts) s') :
    ∃ p s₁, Next s ⟨p, text, k⟩ s₁ ∧ Shows s₁ texts s' := by
  cases h with
  | @cons _ s₁ _ _ _ p h hs =>
    rw [(tokensFrom_of_isToken hk p).1] at h
    exact ⟨p, s₁, h, hs⟩

/-- texts with a space in front of each -/
def spacedOut (texts : List String) : List Char :=
  texts.flatMap fun text => ' ' :: text.toList

theorem toList_join (text : String) (texts : List String) :
    (Text.join " " (text :: texts)).toList = text.toList ++ spacedOut texts := by
  rw [Text.join, String.toList_ofList]
  induction texts generalizing text with
  | nil => simp [Text.joinWith, spacedOut]
  | cons l ls ih =>
    rw [List.map_cons, List.map_cons, Text.joinWith, ← List.map_cons, ih]
    simp [spacedOut]

theorem tokensFrom_texts {text : String} (h : Solid text) (texts : List String) (p : Position) :
    tokensFrom p (text.toList ++ spacedOut texts) =
      tokensFrom p text.toList ++ tokensFrom (p.after text.toList) (spacedOut texts) := by
  cases texts with
  | nil => rw [spacedOut, List.flatMap_nil, List.append_nil, tokensFrom, List.append_nil]
  | cons l ls => exact tokensFrom_spaced h.ends _ p

/-- no whitespace is passed over where none is -/
theorem passBlank_solid {c : Char} (h : isSpace c = false) (cs : List Char) (p finish : Position) :
    (TokenStream.mk (tokensFrom p (c :: cs)) finish).passBlank .skipped = ⟨tokensFrom p (c :: cs), finish⟩ := by
  have hw : ((TokenStream.mk (tokensFrom p (c :: cs)) finish).peekNth 0).isWhitespace = false := by
    rw [tokensFrom_cons]
    by_contra hw
    obtain ⟨x, hx, -⟩ := firstLexeme_tail h cs
    have hall := (firstLexeme_category c cs).1 (by simpa [TokenStream.peekNth, Token.isWhitespace] using hw)
    simp [hx, h] at hall
  rw [TokenStream.passBlank, hw]
  rfl

theorem shows_spacedOut {texts : List String} (h : ∀ text ∈ texts, Solid text) (p finish : Position) :
    Shows ⟨tokensFrom p (spacedOut texts), finish⟩ texts ⟨[], finish⟩ := by
  induction texts generalizing p with
  | nil =>
    rw [spacedOut, List.flatMap_nil, tokensFrom]
    exact .nil _
  | cons text texts ih =>
    have hsolid := h text List.mem_cons_self
    obtain ⟨c, cs, htext, hc⟩ := hsolid.starts
    have hspace : firstLexeme ' ' (text.toList ++ spacedOut texts) =
        (.whitespace, [' '], text.toList ++ spacedOut texts) := by
      rw [firstLexeme_space (by decide), htext]
      simp [hc]
    have hrest := ih (fun l hl => h l (List.mem_cons_of_mem _ hl)) ((p.after [' ']).after text.toList)
    refine .cons (p.after [' ']) ?_ hrest
    rw [spacedOut, List.flatMap_cons, List.cons_append, ← spacedOut, tokensFrom_cons, hspace]
    exact congrArg (TokenStream.mk · finish) (tokensFrom_texts hsolid texts _)

/-- **Texts that are joined by spaces are the texts of their tokens.** -/
theorem shows_join {texts : List String} (h : ∀ text ∈ texts, Solid text) :
    Shows (.ofSource (Text.join " " texts)) texts ⟨[], Position.start.after (Text.join " " texts).toList⟩ := by
  cases texts with
  | nil =>
    have hnone : (Text.join " " []).toList = [] := rfl
    rw [TokenStream.ofSource, hnone, tokensFrom]
    exact .nil _
  | cons text texts =>
    have hsolid := h text List.mem_cons_self
    obtain ⟨c, cs, htext, hc⟩ := hsolid.starts
    have hrest := shows_spacedOut (fun l hl => h l (List.mem_cons_of_mem _ hl)) (Position.start.after text.toList)
      (Position.start.after (Text.join " " (text :: texts)).toList)
    refine .cons .start ?_ hrest
    rw [TokenStream.ofSource, toList_join, ← tokensFrom_texts hsolid, htext]
    exact passBlank_solid hc _ _ _

end TemplateView
