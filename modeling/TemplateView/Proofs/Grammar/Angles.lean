/-
Angle brackets among lexemes. In an operator an angle bracket follows only another one of its kind, and no other lexeme
of two characters or more holds one. So a bracket behind a text that does not end in the same bracket starts a token
(`tokensFrom_angle`). What that token is depends on what follows: `<` is one before a name or a slash, `>` is one unless
a second `>` or a `=` follows (`tokensFrom_close`); with these it is a longer operator (`tokensFrom_glued`).
-/
import Mathlib.Data.List.Chain
import TemplateView.Proofs.Grammar.Spaced

namespace TemplateView

/-! ## Characters of a lexeme -/

/-- a lexeme is an operator, or goes on with parts of words and numbers, or with whitespace -/
theorem firstLexeme_cases (c : Char) (cs : List Char) :
    ∃ x, (firstLexeme c cs).2.1 = c :: x ∧
      (isOperator (c :: x) = true ∨ ∀ d ∈ x, isWordPart d = true ∨ d.isDigit = true ∨ d = '.' ∨ isSpace d = true) := by
  have htaken : ∀ (p : Char → Bool) (ds : List Char), ∀ d ∈ ds.takeWhile p, p d = true :=
    fun p ds => List.all_eq_true.1 List.all_takeWhile
  unfold firstLexeme
  split
  · exact ⟨_, rfl, .inr fun d hd => .inl (htaken _ _ d hd)⟩
  split
  · refine ⟨_, rfl, .inr ?_⟩
    simp only [numberTail]
    split
    · intro d hd
      rcases List.mem_append.1 hd with hd | hd
      · exact .inr (.inl (htaken _ _ d hd))
      rcases List.mem_cons.1 hd with rfl | hd
      · exact .inr (.inr (.inl rfl))
      · exact .inr (.inl (htaken _ _ d hd))
    · exact fun d hd => .inr (.inl (htaken _ _ d hd))
  split
  · exact ⟨_, rfl, .inr fun d hd => .inr (.inl (htaken _ _ d hd))⟩
  split
  · exact ⟨[], rfl, .inr (by simp)⟩
  split
  · next ho =>
    have hgrow : growOperator [c] cs = ((growOperator [c] cs).1, (growOperator [c] cs).2 ++ []) := by
      rw [List.append_nil]
    obtain ⟨x, hx, -⟩ := cut_growOperator hgrow
    have hop := isOperator_growOperator ho cs
    rw [hx] at hop
    exact ⟨x, hx, .inl hop⟩
  split
  · exact ⟨_, rfl, .inr fun d hd => .inr (.inr (.inr (htaken _ _ d hd)))⟩
  · exact ⟨[], rfl, .inr (by simp)⟩

/-- a character that no lexeme holds behind the last one of a text is in no lexeme of the text -/
theorem apart_of_last {m : Char} {cs : List Char}
    (h : ∀ last, cs.getLast? = some last → ∀ c rest, ¬ [last, m] <:+: (firstLexeme c rest).2.1) (ds : List Char) :
    Apart cs (m :: ds) := by
  intro c rest hs
  have hsplit := firstLexeme_append c (rest ++ m :: ds)
  rw [← List.cons_append] at hsplit
  rcases List.append_eq_append_iff.1 hsplit with ⟨more, -, hrest⟩ | ⟨extra, hlex, hrest⟩
  · exact ⟨more, hrest⟩
  cases extra with
  | nil => exact ⟨[], hrest.symm⟩
  | cons d extra =>
    -- a lexeme that reaches the character has the last one of the text in front of it
    obtain ⟨rfl, -⟩ := List.cons.inj hrest
    obtain ⟨before, last, hlast⟩ := List.eq_nil_or_concat (c :: rest) |>.resolve_left (by simp)
    rw [List.concat_eq_append] at hlast
    obtain ⟨front, hcs⟩ := hs
    have hend : cs.getLast? = some last := by rw [← hcs, hlast, ← List.append_assoc, List.getLast?_concat]
    exact absurd ⟨before, extra, by rw [hlex, hlast]; simp⟩ (h last hend c (rest ++ m :: ds))

/-! ## Angle brackets -/

def isAngle (m : Char) : Bool := m == '<' || m == '>'

/-- what is so in the table is so of every operator -/
theorem forall_operator (p : List Char → Bool) (hp : ∀ s ∈ operatorTable, p s.toList = true) {cs : List Char}
    (h : isOperator cs = true) : p cs = true := by
  simpa using hp _ (mem_operatorTable h)

theorem operator_follows {m : Char} (hm : isAngle m = true) {cs : List Char} (h : isOperator cs = true) :
    cs.IsChain fun c d => d = m → c = m := by
  have hall := forall_operator (fun cs => ['<', '>'].all fun m => decide (cs.IsChain fun c d => d = m → c = m))
    (by decide) h
  have hmem : m ∈ ['<', '>'] := by simpa [isAngle] using hm
  simpa using List.all_eq_true.1 hall m hmem

/-- **In a lexeme, an angle bracket follows only itself.** -/
theorem firstLexeme_follows {m : Char} (hm : isAngle m = true) (c : Char) (cs : List Char) :
    (firstLexeme c cs).2.1.IsChain fun c d => d = m → c = m := by
  obtain ⟨x, hx, hop | hparts⟩ := firstLexeme_cases c cs
  · exact hx ▸ operator_follows hm hop
  · rw [hx, List.isChain_iff_forall_rel_of_append_cons_cons]
    intro a b before behind hsplit hb
    subst hb
    have hmem : b ∈ x := by
      have htail := congrArg List.tail hsplit
      rw [List.tail_cons] at htail
      rw [htail]
      cases before <;> simp
    have hnone : isWordPart b = false ∧ b.isDigit = false ∧ b ≠ '.' ∧ isSpace b = false := by
      have hangle : b = '<' ∨ b = '>' := by simpa [isAngle] using hm
      rcases hangle with rfl | rfl <;> decide
    rcases hparts b hmem with h | h | h | h
    · rw [hnone.1] at h
      cases h
    · rw [hnone.2.1] at h
      cases h
    · exact absurd h hnone.2.2.1
    · rw [hnone.2.2.2] at h
      cases h

/-- a bracket behind a text that does not end in it is in no lexeme of the text -/
theorem apart_angle {m : Char} (hm : isAngle m = true) {cs : List Char} (h : cs.getLast? ≠ some m) (ds : List Char) :
    Apart cs (m :: ds) := by
  refine apart_of_last ?_ ds
  rintro last hlast c rest ⟨before, behind, hsplit⟩
  have hchain := firstLexeme_follows hm c rest
  rw [← hsplit, List.append_assoc, List.cons_append, List.singleton_append, List.isChain_append_cons_cons] at hchain
  obtain rfl := hchain.2.1 rfl
  exact h hlast

/-- **A bracket behind a text that does not end in it starts a token.** -/
theorem tokensFrom_angle {m : Char} (hm : isAngle m = true) {cs : List Char} (h : cs.getLast? ≠ some m) (ds : List Char)
    (p : Position) : tokensFrom p (cs ++ m :: ds) = tokensFrom p cs ++ tokensFrom (p.after cs) (m :: ds) :=
  tokensFrom_append (apart_angle hm h ds) p

/-! ## Single marks -/

/-- no operator is written with the start of a word -/
theorem operator_wordStart {cs : List Char} (h : isOperator cs = true) : ∀ d ∈ cs, isWordStart d = false := by
  have hall := forall_operator (fun cs => cs.all fun d => !isWordStart d) (by decide) h
  simpa using hall

/-- starts an operator: no number, and is no word, whitespace or `@` -/
def startsOperator (c : Char) : Bool :=
  !isWordStart c && !c.isDigit && c != '.' && c != '@' && isOperator [c]

theorem firstLexeme_operator {c : Char} (hc : startsOperator c = true) (cs : List Char) :
    firstLexeme c cs = (.operator, (growOperator [c] cs).1, (growOperator [c] cs).2) := by
  simp only [startsOperator, Bool.and_eq_true, Bool.not_eq_true', bne_iff_ne] at hc
  obtain ⟨⟨⟨⟨hword, hdigit⟩, hpoint⟩, hat⟩, hop⟩ := hc
  simp [firstLexeme, hword, hdigit, hpoint, hat, hop]

/-- a mark that what follows does not lengthen is a token of its own -/
theorem firstLexeme_alone {c : Char} (hc : startsOperator c = true) {cs : List Char}
    (h : ∀ d, cs.head? = some d → ¬ isOperator [c, d] = true) : firstLexeme c cs = (.operator, [c], cs) := by
  rw [firstLexeme_operator hc]
  cases cs with
  | nil => rfl
  | cons d cs => rw [growOperator, List.singleton_append, if_neg (h d rfl)]

/-- two characters that start no longer operator are a token, whatever follows -/
theorem firstLexeme_pair {c d : Char} (hc : startsOperator c = true) (hpair : isOperator [c, d] = true)
    (h : ∀ e, ¬ isOperator [c, d, e] = true) (cs : List Char) :
    firstLexeme c (d :: cs) = (.operator, [c, d], cs) := by
  have hgrow : growOperator [c] (d :: cs) = growOperator [c, d] cs := by
    rw [growOperator, List.singleton_append, if_pos hpair]
  rw [firstLexeme_operator hc, hgrow]
  cases cs with
  | nil => rfl
  | cons e cs => rw [growOperator, List.cons_append, List.singleton_append, if_neg (h e)]

/-- a mark before a word is a token of its own -/
theorem firstLexeme_before_word {c d : Char} (hc : startsOperator c = true) (hd : isWordStart d = true) (cs : List Char) :
    firstLexeme c (d :: cs) = (.operator, [c], d :: cs) := by
  refine firstLexeme_alone hc ?_
  rintro _ ⟨⟩ hop
  have hnone := operator_wordStart hop d (by simp)
  rw [hd] at hnone
  cases hnone

/-- what lengthens a `>` -/
theorem operator_close {cs : List Char} (h : isOperator ('>' :: cs) = true) : ∀ d ∈ cs, d = '>' ∨ d = '=' := by
  have hall := forall_operator (fun cs => cs.head? != some '>' || cs.tail.all fun d => d == '>' || d == '=')
    (by decide) h
  simpa using hall

/-- a `>` is a token of its own unless a second one or a `=` follows -/
theorem firstLexeme_close {cs : List Char} (h : cs.head? ≠ some '>' ∧ cs.head? ≠ some '=') :
    firstLexeme '>' cs = (.operator, ['>'], cs) := by
  refine firstLexeme_alone (by decide) ?_
  intro d hd hop
  rcases operator_close hop d (by simp) with rfl | rfl
  · exact h.1 hd
  · exact h.2 hd

/-- with one of these it is a longer operator -/
theorem firstLexeme_glued {d : Char} (hd : d = '>' ∨ d = '=') (cs : List Char) :
    ∃ x, (firstLexeme '>' (d :: cs)).1 = .operator ∧ (firstLexeme '>' (d :: cs)).2.1 = '>' :: d :: x := by
  have hgrow : growOperator ['>'] (d :: cs) = growOperator ['>', d] cs := by
    rw [growOperator, if_pos (by rcases hd with rfl | rfl <;> decide)]
    rfl
  have hcut : growOperator ['>', d] cs = ((growOperator ['>', d] cs).1, (growOperator ['>', d] cs).2 ++ []) := by
    rw [List.append_nil]
  obtain ⟨x, hx, -⟩ := cut_growOperator hcut
  rw [firstLexeme_operator (by decide), hgrow]
  exact ⟨x, rfl, hx⟩

/-! ## What stands behind a closing bracket -/

/-- characters that lengthen a `>` in front of them -/
def BeginsGlued (cs : List Char) : Prop := cs.head? = some '>' ∨ cs.head? = some '='

theorem BeginsGlued.append {cs : List Char} (h : BeginsGlued cs) (ds : List Char) : BeginsGlued (cs ++ ds) := by
  rcases h with h | h
  · exact .inl (by simp [h])
  · exact .inr (by simp [h])

theorem tokensFrom_close {cs : List Char} (h : ¬ BeginsGlued cs) (p : Position) :
    tokensFrom p ('>' :: cs) = ⟨p, ">", .operator⟩ :: tokensFrom (p.after ['>']) cs := by
  rw [tokensFrom_cons, firstLexeme_close (not_or.1 h)]

theorem tokensFrom_glued {cs : List Char} (h : BeginsGlued cs) (p : Position) :
    ∃ d x rest, tokensFrom p ('>' :: cs) = ⟨p, String.ofList ('>' :: d :: x), .operator⟩ :: rest := by
  cases cs with
  | nil => simp [BeginsGlued] at h
  | cons d ds =>
    obtain ⟨x, hkind, htext⟩ := firstLexeme_glued (d := d) (by simpa [BeginsGlued] using h) ds
    rw [tokensFrom_cons, hkind, htext]
    exact ⟨d, x, _, rfl⟩

end TemplateView
