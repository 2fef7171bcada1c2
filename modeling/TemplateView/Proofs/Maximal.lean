/-
The tokens of a source are maximal. Each category has a form, and a token is the longest text of its form that starts
where the token does; no other form starts there, except that the point of a number would be an operator by itself. The
mark `@` and the characters of no form are tokens of their own, and the text of a token is one token wherever it stands
(`tokens_maximal`).

Operators are lengthened by one character at a time. That this finds the longest one rests on the table: whatever an
operator starts with is an operator too (`isOperator_of_append`).
-/
import Mathlib.Data.List.Infix
import TemplateView.Proofs.Grammar.Angles
import TemplateView.Proofs.Grammar.Literals
import TemplateView.Proofs.Tokens

namespace TemplateView

/-! ## Forms -/

/-- starts a lexeme of none of the other categories -/
structure Stray (c : Char) : Prop where
  word : isWordStart c = false
  digit : c.isDigit = false
  mark : c ≠ '@'
  operator : isOperator [c] = false
  blank : isSpace c = false

/-- the texts that are lexemes of a category -/
def Category.Form : Category → List Char → Prop
  | .alphanumeric, cs => ∃ c rest, cs = c :: rest ∧ isWordStart c = true ∧ ∀ d ∈ rest, isWordPart d = true
  | .numeric, cs => Decimal cs
  | .whitespace, cs => cs ≠ [] ∧ ∀ d ∈ cs, isSpace d = true
  | .operator, cs => isOperator cs = true
  | .delimiter, cs => cs = ['@']
  | .unknown, cs => ∃ c, cs = [c] ∧ Stray c
  | .endOfInput, _ => False

/-- the longest text with a property that another text starts with -/
structure Longest (p : List Char → Prop) (lexeme cs : List Char) : Prop where
  form : p lexeme
  starts : lexeme <+: cs
  longest : ∀ other, p other → other <+: cs → other.length ≤ lexeme.length

/-! ## Longest lexemes -/

theorem length_le_takeWhile {p : Char → Bool} {x cs : List Char} (h : ∀ d ∈ x, p d = true) (hx : x <+: cs) :
    x.length ≤ (cs.takeWhile p).length := by
  obtain ⟨tail, rfl⟩ := hx
  rw [List.takeWhile_append_of_pos h]
  simp

/-- **Whatever an operator starts with is an operator.** -/
theorem isOperator_of_append {cs ds : List Char} (h : isOperator (cs ++ ds) = true) (hne : cs ≠ []) :
    isOperator cs = true := by
  have hall := forall_operator (fun op => op.inits.all fun front => front.isEmpty || isOperator front)
    (by decide) h
  have hfront := List.all_eq_true.1 hall cs ((List.mem_inits _ _).2 (List.prefix_append cs ds))
  simpa [hne] using hfront

theorem length_le_growOperator {op x cs : List Char} (hne : op ≠ []) (h : isOperator (op ++ x) = true) (hx : x <+: cs) :
    (op ++ x).length ≤ (growOperator op cs).1.length := by
  induction cs generalizing op x with
  | nil =>
    obtain rfl := List.prefix_nil.1 hx
    rw [List.append_nil]
    exact length_growOperator op []
  | cons c cs ih =>
    cases x with
    | nil =>
      rw [List.append_nil]
      exact length_growOperator op (c :: cs)
    | cons d x =>
      obtain ⟨rfl, htail⟩ := List.cons_prefix_cons.1 hx
      rw [List.append_cons] at h ⊢
      rw [growOperator, if_pos (isOperator_of_append h (by simp))]
      exact ih (by simp) h htail

/-- a number that starts with a digit is no longer than the digits and the point that are taken -/
theorem Decimal.length_le_numberTail {c : Char} (hc : c.isDigit = true) {x cs : List Char} (h : Decimal (c :: x))
    (hx : x <+: cs) : x.length ≤ (numberTail cs).1.length := by
  have hpoint : Char.isDigit '.' = false := by decide
  generalize hn : c :: x = n at h
  cases h with
  | whole _ h =>
    subst hn
    have hle := length_le_takeWhile (fun d hd => List.all_eq_true.1 h d (List.mem_cons_of_mem _ hd)) hx
    simp only [numberTail]
    split
    · rw [List.length_append]
      omega
    · exact hle
  | pointed digits more h hm =>
    cases digits with
    | nil =>
      obtain ⟨rfl, -⟩ := List.cons.inj hn
      rw [hpoint] at hc
      cases hc
    | cons d digits =>
      rw [List.cons_append, List.cons.injEq] at hn
      obtain ⟨-, rfl⟩ := hn
      obtain ⟨tail, rfl⟩ := hx
      have hdigits : ∀ d ∈ digits, d.isDigit = true := fun d hd => List.all_eq_true.1 h d (List.mem_cons_of_mem _ hd)
      have hmore : (more ++ tail).takeWhile Char.isDigit = more ++ tail.takeWhile Char.isDigit :=
        List.takeWhile_append_of_pos (List.all_eq_true.1 hm)
      simp only [numberTail, List.append_assoc, List.cons_append]
      rw [List.takeWhile_append_of_pos hdigits, List.dropWhile_append_of_pos hdigits]
      simp [hpoint, hmore]

/-- a number that starts with a point is no longer than the digits behind it -/
theorem Decimal.length_le_fraction {x cs : List Char} (h : Decimal ('.' :: x)) (hx : x <+: cs) :
    x.length ≤ (cs.takeWhile Char.isDigit).length := by
  have hpoint : Char.isDigit '.' = false := by decide
  generalize hn : '.' :: x = n at h
  cases h with
  | whole _ h =>
    have hdot := List.all_eq_true.1 h '.' (by simp [← hn])
    rw [hpoint] at hdot
    cases hdot
  | pointed digits more h hm =>
    cases digits with
    | nil =>
      obtain ⟨-, rfl⟩ := List.cons.inj hn
      exact length_le_takeWhile (List.all_eq_true.1 hm) hx
    | cons d digits =>
      obtain ⟨rfl, -⟩ := List.cons.inj hn
      have hdot := List.all_eq_true.1 h '.' (by simp)
      rw [hpoint] at hdot
      cases hdot

/-- **A lexeme has the form of its category.** -/
theorem form_firstLexeme (c : Char) (cs : List Char) : (firstLexeme c cs).1.Form (firstLexeme c cs).2.1 := by
  have hdecimal : (firstLexeme c cs).1 = .numeric → Decimal (firstLexeme c cs).2.1 := decimal_firstLexeme
  unfold firstLexeme at hdecimal ⊢
  by_cases hw : isWordStart c
  · rw [if_pos hw]
    exact ⟨c, _, rfl, hw, List.all_eq_true.1 List.all_takeWhile⟩
  rw [if_neg hw] at hdecimal ⊢
  by_cases hd : c.isDigit
  · rw [if_pos hd] at hdecimal ⊢
    exact hdecimal rfl
  rw [if_neg hd] at hdecimal ⊢
  by_cases hp : c == '.' && startsWithDigit cs
  · rw [if_pos hp] at hdecimal ⊢
    exact hdecimal rfl
  rw [if_neg hp]
  by_cases ha : c == '@'
  · rw [if_pos ha, beq_iff_eq.1 ha]
    rfl
  rw [if_neg ha]
  by_cases ho : isOperator [c]
  · rw [if_pos ho]
    exact isOperator_growOperator ho cs
  rw [if_neg ho]
  by_cases hs : isSpace c
  · rw [if_pos hs]
    refine ⟨by simp, fun d hmem => ?_⟩
    rcases List.mem_cons.1 hmem with rfl | hmem
    · exact hs
    · exact List.all_eq_true.1 List.all_takeWhile d hmem
  · rw [if_neg hs]
    exact ⟨c, rfl, by simpa using hw, by simpa using hd, by simpa using ha, by simpa using ho, by simpa using hs⟩

/-- a number that starts with no digit starts with a point and a digit -/
theorem Decimal.head_cons {c : Char} {x : List Char} (h : Decimal (c :: x)) :
    c.isDigit = true ∨ c = '.' ∧ startsWithDigit x = true := by
  generalize hn : c :: x = n at h
  cases h with
  | whole _ h => exact .inl (List.all_eq_true.1 h c (by simp [← hn]))
  | pointed digits more h hm hne =>
    cases digits with
    | nil =>
      obtain ⟨rfl, rfl⟩ := List.cons.inj hn
      obtain ⟨d, more, rfl⟩ := List.exists_cons_of_ne_nil hne
      exact .inr ⟨rfl, List.all_eq_true.1 hm d (by simp)⟩
    | cons d digits =>
      rw [List.cons_append, List.cons.injEq] at hn
      exact .inl (List.all_eq_true.1 h c (by simp [hn.1]))

theorem Decimal.isDigit_or_point {x : List Char} (h : Decimal x) : ∀ d ∈ x, d.isDigit = true ∨ d = '.' := by
  cases h with
  | whole _ h => exact fun d hd => .inl (List.all_eq_true.1 h d hd)
  | pointed digits more h hm =>
    intro d hd
    rcases List.mem_append.1 hd with hd | hd
    · exact .inl (List.all_eq_true.1 h d hd)
    rcases List.mem_cons.1 hd with rfl | hd
    · exact .inr rfl
    · exact .inl (List.all_eq_true.1 hm d hd)

theorem startsWithDigit_of_prefix {x cs : List Char} (h : startsWithDigit x = true) (hx : x <+: cs) :
    startsWithDigit cs = true := by
  cases x with
  | nil => cases h
  | cons d x =>
    obtain ⟨tail, rfl⟩ := hx
    exact h

theorem Category.Form.ne_nil {k : Category} {x : List Char} (h : k.Form x) : x ≠ [] := by
  rintro rfl
  cases k with
  | alphanumeric =>
    obtain ⟨_, _, heq, -⟩ := h
    cases heq
  | numeric =>
    obtain ⟨_, _, heq, -⟩ := Decimal.head h
    cases heq
  | whitespace => exact h.1 rfl
  | operator =>
    have hnone : isOperator [] = false := by decide
    rw [Form, hnone] at h
    cases h
  | delimiter => cases h
  | unknown =>
    obtain ⟨_, heq, -⟩ := h
    cases heq
  | endOfInput => exact h

/-- no operator starts with a digit or is an `@` -/
theorem operator_head {c : Char} {x : List Char} (h : isOperator (c :: x) = true) : c.isDigit = false ∧ c ≠ '@' := by
  have hall := forall_operator (fun op => op.head?.all fun c => !c.isDigit && c != '@') (by decide) h
  simpa using hall

/-- **Where a text of a form starts, the lexeme is of that category.** The one exception is a point before a digit. -/
theorem category_of_form {k : Category} {x : List Char} (h : k.Form x) {c : Char} {cs : List Char} (hx : x <+: c :: cs) :
    k = (firstLexeme c cs).1 ∨ k = .operator ∧ (firstLexeme c cs).1 = .numeric := by
  obtain ⟨d, x, rfl⟩ := List.exists_cons_of_ne_nil h.ne_nil
  obtain ⟨rfl, htail⟩ := List.cons_prefix_cons.1 hx
  have hword : d.isDigit = true → isWordStart d = false := fun hd => by
    by_contra hw
    rw [isDigit_of_isWordStart (Bool.not_eq_false _ ▸ hw)] at hd
    cases hd
  cases k with
  | alphanumeric =>
    obtain ⟨_, _, heq, hw, -⟩ := h
    obtain ⟨rfl, -⟩ := List.cons.inj heq
    exact .inl (by simp [firstLexeme, hw])
  | numeric =>
    rcases Decimal.head_cons h with hd | ⟨rfl, hs⟩
    · exact .inl (by simp [firstLexeme, hword hd, hd])
    · have hpoint : isWordStart '.' = false ∧ Char.isDigit '.' = false := by decide
      exact .inl (by simp [firstLexeme, hpoint, startsWithDigit_of_prefix hs htail])
  | whitespace => exact .inl (by rw [firstLexeme_space (h.2 d (by simp))])
  | operator =>
    have hop : isOperator ([d] ++ x) = true := h
    replace hop := isOperator_of_append hop (by simp)
    have hw := operator_wordStart hop d (by simp)
    obtain ⟨hd, ha⟩ := operator_head hop
    by_cases hp : d == '.' && startsWithDigit cs
    · exact .inr ⟨rfl, by simp [firstLexeme, hw, hd, hp]⟩
    · exact .inl (by simp [firstLexeme, hw, hd, hp, ha, hop])
  | delimiter =>
    obtain ⟨rfl, -⟩ := List.cons.inj h
    have hmark : isWordStart '@' = false ∧ Char.isDigit '@' = false := by decide
    exact .inl (by simp [firstLexeme, hmark])
  | unknown =>
    obtain ⟨_, heq, hs⟩ := h
    obtain ⟨rfl, -⟩ := List.cons.inj heq
    have hp : d ≠ '.' := by
      rintro rfl
      exact absurd hs.operator (by decide)
    exact .inl (by simp [firstLexeme, hs.word, hs.digit, hs.mark, hs.operator, hs.blank, hp])
  | endOfInput => exact h.elim

/-- **No longer text of its form starts where a lexeme does.** -/
theorem longest_firstLexeme (c : Char) (cs : List Char) :
    Longest (firstLexeme c cs).1.Form (firstLexeme c cs).2.1 (c :: cs) := by
  refine ⟨form_firstLexeme c cs, ⟨_, firstLexeme_append c cs⟩, fun x h hx => ?_⟩
  obtain ⟨d, x, rfl⟩ := List.exists_cons_of_ne_nil h.ne_nil
  obtain ⟨rfl, htail⟩ := List.cons_prefix_cons.1 hx
  unfold firstLexeme at h ⊢
  by_cases hw : isWordStart d
  · rw [if_pos hw] at h ⊢
    obtain ⟨_, _, heq, -, hall⟩ := h
    obtain ⟨rfl, rfl⟩ := List.cons.inj heq
    exact Nat.succ_le_succ (length_le_takeWhile hall htail)
  rw [if_neg hw] at h ⊢
  by_cases hd : d.isDigit
  · rw [if_pos hd] at h ⊢
    exact Nat.succ_le_succ (Decimal.length_le_numberTail hd h htail)
  rw [if_neg hd] at h ⊢
  by_cases hp : d == '.' && startsWithDigit cs
  · rw [if_pos hp] at h ⊢
    obtain rfl : d = '.' := by simpa using (Bool.and_eq_true_iff.1 hp).1
    exact Nat.succ_le_succ (Decimal.length_le_fraction h htail)
  rw [if_neg hp] at h ⊢
  by_cases ha : d == '@'
  · rw [if_pos ha] at h ⊢
    exact (congrArg List.length h).le
  rw [if_neg ha] at h ⊢
  by_cases ho : isOperator [d]
  · rw [if_pos ho] at h ⊢
    have hgrow : ([d] ++ x).length ≤ (growOperator [d] cs).1.length := length_le_growOperator (by simp) h htail
    exact hgrow
  rw [if_neg ho] at h ⊢
  by_cases hs : isSpace d
  · rw [if_pos hs] at h ⊢
    exact Nat.succ_le_succ (length_le_takeWhile (fun c hc => h.2 c (List.mem_cons_of_mem _ hc)) htail)
  · rw [if_neg hs] at h ⊢
    obtain ⟨_, heq, -⟩ := h
    exact (congrArg List.length heq).le

/-- no other form has an `@` in it -/
theorem Category.Form.mark_mem {k : Category} {x : List Char} (h : k.Form x) (hm : '@' ∈ x) : k = .delimiter := by
  have hnone : isWordStart '@' = false ∧ isWordPart '@' = false ∧ Char.isDigit '@' = false ∧ isSpace '@' = false := by
    decide
  obtain ⟨hstart, hpart, hdigit, hspace⟩ := hnone
  cases k with
  | delimiter => rfl
  | alphanumeric =>
    obtain ⟨c, rest, rfl, hw, hall⟩ := h
    rcases List.mem_cons.1 hm with rfl | hm
    · rw [hstart] at hw
      cases hw
    · rw [hall _ hm] at hpart
      cases hpart
  | numeric =>
    have hall := Decimal.isDigit_or_point h '@' hm
    simp [hdigit] at hall
  | whitespace =>
    rw [h.2 _ hm] at hspace
    cases hspace
  | operator =>
    have hall := forall_operator (fun op => !op.contains '@') (by decide) h
    simp [hm] at hall
  | unknown =>
    obtain ⟨c, rfl, hs⟩ := h
    exact absurd (List.mem_singleton.1 hm).symm hs.mark
  | endOfInput => exact h.elim

/-- a lexeme of one character -/
theorem Category.Form.single {k : Category} {x : List Char} (h : k.Form x) (hk : k = .delimiter ∨ k = .unknown) {c : Char}
    (hc : c ∈ x) : x = [c] := by
  rcases hk with rfl | rfl
  · obtain rfl : x = ['@'] := h
    rw [List.mem_singleton.1 hc]
  · obtain ⟨d, rfl, -⟩ := h
    rw [List.mem_singleton.1 hc]

/-! ## Tokens of a source -/

/-- a token is the lexeme that starts behind the tokens in front of it -/
theorem lexeme_of_split {p : Position} {cs : List Char} {before : List Token} {t : Token} {rest : List Token}
    (h : tokensFrom p cs = before ++ t :: rest) :
    ∃ c ds, cs = (textOf before).toList ++ c :: ds ∧ t.text = String.ofList (firstLexeme c ds).2.1 ∧
      t.category = (firstLexeme c ds).1 := by
  induction before generalizing p cs with
  | nil =>
    cases cs with
    | nil =>
      rw [tokensFrom] at h
      cases h
    | cons c cs =>
      rw [tokensFrom_cons] at h
      obtain ⟨rfl, -⟩ := List.cons.inj h
      exact ⟨c, cs, rfl, rfl, rfl⟩
  | cons u before ih =>
    cases cs with
    | nil =>
      rw [tokensFrom] at h
      cases h
    | cons c cs =>
      rw [tokensFrom_cons, List.cons_append, List.cons.injEq] at h
      obtain ⟨rfl, h⟩ := h
      obtain ⟨d, ds, hrest, ht⟩ := ih h
      refine ⟨d, ds, ?_, ht⟩
      rw [textOf_cons, String.toList_append, String.toList_ofList, List.append_assoc, ← hrest, firstLexeme_append]

/-- only the end is no lexeme -/
theorem split_of_tokenize {source : String} {before : List Token} {t : Token} {rest : List Token}
    (h : tokenize source = before ++ t :: rest) (he : t.isEnd = false) :
    ∃ rest, tokensFrom .start source.toList = before ++ t :: rest := by
  rcases List.eq_nil_or_concat rest with rfl | ⟨rest, e, rfl⟩
  · obtain ⟨-, hend⟩ := List.append_inj' h rfl
    obtain rfl := List.singleton_inj.1 hend
    cases he
  · rw [List.concat_eq_append, ← List.cons_append, ← List.append_assoc] at h
    exact ⟨rest, (List.append_inj' h rfl).1⟩

/-- a lexeme by itself is one token -/
theorem tokenize_firstLexeme (c : Char) (cs : List Char) :
    tokenize (String.ofList (firstLexeme c cs).2.1) =
      [⟨.start, String.ofList (firstLexeme c cs).2.1, (firstLexeme c cs).1⟩,
        .endOfInput (Position.start.after (firstLexeme c cs).2.1)] := by
  have hrest : (firstLexeme c cs).2.2 = [] ++ (firstLexeme c cs).2.2 := rfl
  obtain ⟨x, hx, hcut⟩ := cut_firstLexeme hrest
  rw [tokenize, String.toList_ofList, hx, tokensFrom_cons, ← List.append_nil x, hcut, hx, tokensFrom]
  simp

/-- each character of the texts of tokens is in one of the texts -/
theorem exists_token_of_char {ts : List Token} {front behind : List Char} {c : Char}
    (h : (textOf ts).toList = front ++ c :: behind) :
    ∃ before t rest x y, ts = before ++ t :: rest ∧ front = (textOf before).toList ++ x ∧
      t.text.toList = x ++ c :: y := by
  induction ts generalizing front with
  | nil => simp at h
  | cons t ts ih =>
    rw [textOf_cons, String.toList_append] at h
    by_cases hlen : t.text.toList.length ≤ front.length
    · obtain ⟨more, rfl⟩ : t.text.toList <+: front :=
        List.prefix_of_prefix_length_le ⟨_, h⟩ (List.prefix_append front (c :: behind)) hlen
      rw [List.append_assoc, List.append_cancel_left_eq] at h
      obtain ⟨before, u, rest, x, y, rfl, rfl, hu⟩ := ih h
      exact ⟨t :: before, u, rest, x, y, rfl, by simp, hu⟩
    · obtain ⟨more, hmore⟩ : front <+: t.text.toList :=
        List.prefix_of_prefix_length_le ⟨c :: behind, h.symm⟩ (List.prefix_append _ _) (by omega)
      rw [← hmore, List.append_assoc, List.append_cancel_left_eq] at h
      cases more with
      | nil => simp [← hmore] at hlen
      | cons d more =>
        obtain ⟨rfl, -⟩ := List.cons.inj h
        exact ⟨[], t, ts, front, more, rfl, rfl, hmore.symm⟩

/-- **Tokens are maximal.** A token other than the end is the longest text of the form of its category that starts at its
index, and texts of no other form start there, but for the point of a number, which is an operator by itself. By itself
its text is that one token. Each character of the source is in one token: an `@` in a delimiter, and whatever is in no
word, number, operator or run of whitespace alone in its token. -/
theorem tokens_maximal (source : String) :
    (∀ before t rest, tokenize source = before ++ t :: rest → t.isEnd = false →
      ∃ behind, source = textOf before ++ behind ∧ t.position.index = (textOf before).utf8ByteSize ∧
        Longest t.category.Form t.text.toList behind.toList ∧
        (∀ k x, Category.Form k x → x <+: behind.toList → k = t.category ∨ k = .operator ∧ t.category = .numeric) ∧
        tokenize t.text = [⟨.start, t.text, t.category⟩, .endOfInput (Position.start.after t.text.toList)]) ∧
    ∀ front c behind, source.toList = front ++ c :: behind →
      ∃ before t rest x y, tokenize source = before ++ t :: rest ∧ front = (textOf before).toList ++ x ∧
        t.text.toList = x ++ c :: y ∧ (t.category = .delimiter ↔ c = '@') ∧
        (t.category = .delimiter ∨ t.category = .unknown → x = [] ∧ y = []) := by
  refine ⟨fun before t rest h he => ?_, fun front c behind h => ?_⟩
  · obtain ⟨hfront, hplace⟩ := position_tokenize h
    obtain ⟨rest, h⟩ := split_of_tokenize h he
    obtain ⟨c, ds, hsource, htext, hkind⟩ := lexeme_of_split h
    refine ⟨String.ofList (c :: ds), ?_, ?_, ?_, ?_, ?_⟩
    · rw [← String.toList_inj, String.toList_append, String.toList_ofList]
      exact hsource
    · rw [hplace, after_start, String.ofList_toList]
    · rw [htext, hkind, String.toList_ofList, String.toList_ofList]
      exact longest_firstLexeme c ds
    · rw [hkind, String.toList_ofList]
      exact fun k x hform hx => category_of_form hform hx
    · rw [htext, hkind, String.toList_ofList]
      exact tokenize_firstLexeme c ds
  · have hchars := textOf_tokensFrom .start source.toList
    rw [← String.toList_inj, String.toList_ofList, h] at hchars
    obtain ⟨before, t, rest, x, y, hsplit, hfront, htext⟩ := exists_token_of_char hchars
    obtain ⟨d, ds, -, hlex, hkind⟩ := lexeme_of_split (h ▸ hsplit)
    have hform : t.category.Form (x ++ c :: y) := by
      have hform := form_firstLexeme d ds
      rwa [← hkind, ← String.toList_ofList (l := (firstLexeme d ds).2.1), ← hlex, htext] at hform
    have hsingle : t.category = .delimiter ∨ t.category = .unknown → x ++ c :: y = [c] :=
      fun hk => hform.single hk (by simp)
    refine ⟨before, t, rest ++ [.endOfInput (Position.start.after source.toList)], x, y, ?_, hfront, htext, ?_, ?_⟩
    · rw [tokenize, h, hsplit]
      simp
    · refine ⟨fun hk => ?_, fun hc => hform.mark_mem (by simp [hc])⟩
      rw [hk] at hform
      have hmark : x ++ c :: y = ['@'] := hform
      rw [hsingle (.inl hk)] at hmark
      exact (List.cons.inj hmark).1
    · intro hk
      have hlen := congrArg List.length (hsingle hk)
      simp only [List.length_append, List.length_cons, List.length_nil] at hlen
      exact ⟨List.length_eq_zero_iff.1 (by omega), List.length_eq_zero_iff.1 (by omega)⟩

example : (tokenize "x1>>>=1..5@²").map (fun t => (t.text, t.category)) =
    [("x1", .alphanumeric), (">>>=", .operator), ("1.", .numeric), (".5", .numeric), ("@", .delimiter), ("²", .unknown),
      ("", .endOfInput)] := by
  decide +kernel

end TemplateView
