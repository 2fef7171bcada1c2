/-
Inline chains and parentheses. A name with its suffixes is the same inline expression behind an `@` as in parentheses
behind it (`parse_inlineChain`). One loop reads the suffixes in both, but behind the `@` it stops at whitespace, and it
asks for a name behind a point; as no whitespace stands between the suffixes, it does not matter which way it runs
(`chain_suffixes`). What is in brackets is read as it is read alone.
-/
import TemplateView.Proofs.Generation.Compilation
import TemplateView.Proofs.Grammar.Between
import TemplateView.Proofs.Grammar.Closers
import TemplateView.Proofs.Grammar.Literals
import TemplateView.Proofs.Grammar.Quoted
import TemplateView.Proofs.Grammar.Yields
import Mathlib.Data.Bool.AllAny

namespace TemplateView

open TemplateView.Parser

/-! ## Texts of chains -/

namespace Grammar

/-- an expression, with whitespace around it perhaps -/
def IsExpression (text : String) : Prop :=
  ∃ x t, expression (.ofSource text) = .ok (x, t) ∧ ∀ u ∈ t.rest, u.isWhitespace = true

instance (text : String) : Decidable (IsExpression text) :=
  decidable_of_iff ((expression (.ofSource text)).toOption.any (·.2.rest.all (·.isWhitespace)) = true) <| by
    unfold IsExpression
    cases expression (.ofSource text) with
    | error e => simp [Except.toOption]
    | ok r => simp [Except.toOption, Prod.ext_iff]

/-- expressions with commas between them -/
inductive IsItems : String → Prop
  | last {text : String} : IsExpression text → IsItems text
  | more {text items : String} : IsExpression text → IsItems items → IsItems (text ++ "," ++ items)

/-- the arguments of a call -/
def IsArguments (text : String) : Prop := IsBlank text ∨ IsItems text

/-- suffixes of a name, with no whitespace between them -/
inductive IsSuffixes : String → Prop
  | none : IsSuffixes ""
  | member {name more : String} : IsWord name → IsSuffixes more → IsSuffixes ("." ++ name ++ more)
  | index {key more : String} : IsExpression key → IsSuffixes more → IsSuffixes ("[" ++ key ++ "]" ++ more)
  | call {arguments more : String} : IsArguments arguments → IsSuffixes more → IsSuffixes ("(" ++ arguments ++ ")" ++ more)

/-- the words that are no name behind an `@`, or not in an expression -/
def reserved : List String := ["helper", "section", "if", "for", "foreach", "new"]

/-- a name and its suffixes -/
inductive IsChain : String → Prop
  | of {name suffixes : String} : IsWord name → name ∉ reserved → IsSuffixes suffixes → IsChain (name ++ suffixes)

end Grammar

/-! ## Brackets and words among lexemes -/

/-- marks that are lexemes of their own wherever they stand -/
def brackets : List Char := ['(', ')', '[', ']', ',']

variable {m : Char}

theorem firstLexeme_brackets (h : m ∈ brackets) (cs : List Char) : firstLexeme m cs = (.operator, [m], cs) := by
  have hstarts : brackets.all startsOperator = true := by decide
  refine firstLexeme_alone (List.all_eq_true.1 hstarts m h) fun d _ hop => ?_
  have hall := forall_operator (fun cs => brackets.all fun m => cs.head? != some m || cs.length == 1)
    (by decide) hop
  have hm := List.all_eq_true.1 hall m h
  simp at hm

/-- brackets stand in no word or number and are no whitespace -/
theorem solid_brackets : ∀ m ∈ brackets, isWordPart m = false ∧ m.isDigit = false ∧ m ≠ '.' ∧ isSpace m = false :=
  List.all_iff_forall_prop.1 (by decide)

theorem lone_brackets (h : m ∈ brackets) : Lone m := by
  have hop : ∀ m ∈ brackets, ∀ s ∈ operatorTable, (!s.toList.tail.contains m) = true :=
    List.all_iff_forall_prop.1 (by decide)
  exact lone_of (fun cs => by rw [firstLexeme_brackets h]) (hop m h) (solid_brackets m h)

theorem tokensFrom_brackets (h : m ∈ brackets) (p : Position) (cs : List Char) :
    tokensFrom p (m :: cs) = ⟨p, String.ofList [m], .operator⟩ :: tokensFrom (p.after [m]) cs := by
  rw [tokensFrom_cons, firstLexeme_brackets h]

/-- no word goes on in the text -/
def BeginsApart (cs : List Char) : Prop := ∀ c, cs.head? = some c → isWordPart c = false

theorem tokensFrom_word {name : String} (h : IsWord name) {cs : List Char} (hcs : BeginsApart cs) (p : Position) :
    tokensFrom p (name.toList ++ cs) = ⟨p, name, .alphanumeric⟩ :: tokensFrom (p.after name.toList) cs := by
  obtain ⟨c, ds, hname, hc, hds⟩ := h
  have hall : ∀ d ∈ ds, isWordPart d = true := List.all_eq_true.1 hds
  have hnone : cs.takeWhile isWordPart = [] ∧ cs.dropWhile isWordPart = cs := by
    cases cs with
    | nil => exact ⟨rfl, rfl⟩
    | cons d cs => simp [hcs d rfl]
  have hlexeme : firstLexeme c (ds ++ cs) = (.alphanumeric, c :: ds, cs) := by
    rw [firstLexeme, if_pos hc, List.takeWhile_append_of_pos hall, List.dropWhile_append_of_pos hall, hnone.1, hnone.2,
      List.append_nil]
  rw [hname, List.cons_append, tokensFrom_cons, hlexeme, ← hname, String.ofList_toList]

theorem tokensFrom_point {name : String} (h : IsWord name) (cs : List Char) (p : Position) :
    tokensFrom p ('.' :: (name.toList ++ cs)) = ⟨p, ".", .operator⟩ :: tokensFrom (p.after ['.']) (name.toList ++ cs) := by
  obtain ⟨c, ds, hname, hc, -⟩ := h
  have hop : isOperator ['.', c] = false := by
    by_contra hop
    rw [operator_wordStart (by simpa using hop) c (by simp)] at hc
    cases hc
  have hlexeme : firstLexeme '.' (c :: (ds ++ cs)) = (.operator, ['.'], c :: (ds ++ cs)) := by
    rw [firstLexeme, if_neg (by decide), if_neg (by decide), startsWithDigit, isDigit_of_isWordStart hc,
      Bool.and_false, if_neg Bool.false_ne_true, if_neg (by decide), if_pos (by decide), growOperator,
      List.singleton_append, hop, if_neg Bool.false_ne_true]
  rw [hname, List.cons_append, tokensFrom_cons, hlexeme]

namespace Grammar

open Expression

/-! ## Expressions in brackets -/

/-- whitespace that is left behind a parser is one token at most -/
theorem blank_cases {ts : List Token} (hp : ts.IsChain Token.Parted) (hw : ∀ t ∈ ts, t.isWhitespace = true) :
    ts = [] ∨ ∃ t, ts = [t] := by
  rcases ts with _ | ⟨t, _ | ⟨u, ts⟩⟩
  · exact .inl rfl
  · exact .inr ⟨t, rfl⟩
  · exact absurd ⟨hw t (by simp), hw u (by simp)⟩ (List.isChain_cons_cons.1 hp).1

/-- **What is in brackets is read as it is read alone**, up to the mark behind it. -/
theorem expression_bracketed {text : String} (h : IsExpression text) : ∃ x : Expression,
    ∀ m, m ∈ [')', ']', ','] → ∀ (p : Position) (cs : List Char) (f : Position), ∃ y u q, x.Same y ∧
      expression ⟨tokensFrom p (text.toList ++ m :: cs), f⟩ = .ok (y, u) ∧
      u.passBlank .skipped = ⟨⟨q, String.ofList [m], .operator⟩ :: tokensFrom (q.after [m]) cs, f⟩ := by
  obtain ⟨x, t, hrun, hblank⟩ := h
  refine ⟨x, fun m hm p cs f => ?_⟩
  have hmark : ∀ m ∈ [')', ']', ','], m ∈ brackets ∧ String.ofList [m] ∈ closers := List.all_iff_forall_prop.1 (by decide)
  obtain ⟨hbracket, hcloser⟩ := hmark m hm
  obtain ⟨used, hused, -⟩ := shrinks_expression _ _ _ hrun
  have hchain : t.rest.IsChain Token.Parted :=
    List.IsChain.suffix (parted_tokensFrom .start text.toList) ⟨used, (congrArg TokenStream.rest hused).symm⟩
  let q := p.after text.toList
  let C : Closer := ⟨⟨q, String.ofList [m], .operator⟩, tokensFrom (q.after [m]) cs, f, rfl, hcloser⟩
  have hextends : C.Extends (.ofSource text) ⟨tokensFrom p (text.toList ++ m :: cs), f⟩ := by
    refine ⟨tokensFrom p text.toList, sameTokens_tokensFrom _ _ _, ?_⟩
    rw [tokensFrom_append ((lone_brackets hbracket).apart_before _ _), tokensFrom_brackets hbracket]
  obtain ⟨y, u, hy, ⟨us, hus, rfl⟩, hxy⟩ := carries_expression _ _ hextends x t hrun
  refine ⟨y, _, q, hxy, hy, ?_⟩
  -- what is left is the mark, with the whitespace in front of it that stood behind the expression
  have hmark : ((⟨C.mark :: C.more, C.finish⟩ : TokenStream).peekNth 0).isWhitespace = false := C.not_isWhitespace
  rcases blank_cases hchain hblank with hnil | ⟨w, hone⟩
  · rw [hnil] at hus
    cases hus
    show (⟨C.mark :: C.more, C.finish⟩ : TokenStream).passBlank .skipped = _
    rw [TokenStream.passBlank, if_neg (ne_true_of_eq_false hmark)]
  · have hw : w.isWhitespace = true := hblank w (by rw [hone]; exact List.mem_singleton_self w)
    rw [hone] at hus
    cases hus with
    | cons hww' hnil =>
      cases hnil
      exact if_pos (hww'.isWhitespace.symm.trans hw)

/-- a mark in front of which nothing but whitespace stands -/
theorem consume_mark {m : Char} {u : TokenStream} {q f : Position} {cs : List Char}
    (h : u.passBlank .skipped = ⟨⟨q, String.ofList [m], .operator⟩ :: tokensFrom (q.after [m]) cs, f⟩) :
    consume .skipped u = .ok (⟨q, String.ofList [m], .operator⟩, ⟨tokensFrom (q.after [m]) cs, f⟩) :=
  consume_eq_ok.2 h

theorem expect_mark {m : Char} {u : TokenStream} {q f : Position} {cs : List Char}
    (h : u.passBlank .skipped = ⟨⟨q, String.ofList [m], .operator⟩ :: tokensFrom (q.after [m]) cs, f⟩) :
    expect .skipped (String.ofList [m]) u =
      .ok (⟨q, String.ofList [m], .operator⟩, ⟨tokensFrom (q.after [m]) cs, f⟩) :=
  taking_eq_ok.2 (consumeExpected_eq_ok.2 ⟨h, by simp [Expected.matches, Token.is]⟩)

theorem peek_mark {m : Char} {u : TokenStream} {q f : Position} {cs : List Char}
    (h : u.passBlank .skipped = ⟨⟨q, String.ofList [m], .operator⟩ :: tokensFrom (q.after [m]) cs, f⟩) :
    u.peek .skipped = ⟨q, String.ofList [m], .operator⟩ := by
  rw [TokenStream.peek, h]
  rfl

/-- what is written like a bracket is one -/
theorem operator_of_text {m : Char} (hm : m ∈ brackets) (p : Position) (cs : List Char) :
    ∀ t ∈ tokensFrom p cs, t.text = String.ofList [m] → t.category = .operator := by
  fun_induction tokensFrom p cs with
  | case1 p => exact List.forall_mem_nil _
  | case2 p c cs lexeme ih =>
    refine List.forall_mem_cons.2 ⟨fun ht => ?_, ih⟩
    obtain ⟨x, hx, -⟩ := firstLexeme_cases c cs
    have ht : (firstLexeme c cs).2.1 = [m] := String.ofList_injective ht
    obtain ⟨rfl, -⟩ := List.cons.inj (hx.symm.trans ht)
    exact congrArg Prod.fst (firstLexeme_brackets hm cs)

/-- no expression begins with a bracket that closes -/
theorem no_bracket_next {p f : Position} {cs : List Char} {r : Expression × TokenStream}
    (h : expression ⟨tokensFrom p cs, f⟩ = .ok r) :
    ((⟨tokensFrom p cs, f⟩ : TokenStream).peek .skipped).is ")" = false := by
  by_contra hclose
  have hall : TokenStream.All (fun t => t.text = ")" → t.category = .operator) ⟨tokensFrom p cs, f⟩ :=
    ⟨operator_of_text (by decide) p cs, fun ht => absurd ht (by decide : "" ≠ ")")⟩
  have htext := text_of_is (by simpa using hclose)
  refine barren_expression _ (.inr ⟨?_, ?_⟩) _ h
  · exact (hall.passBlank .skipped).peekNth 0 htext
  · rw [htext]
    decide

/-- items are read up to and with the bracket behind them -/
theorem items_bracketed {text : String} (h : IsItems text) : ∃ xs : List Expression,
    ∀ (p : Position) (cs : List Char) (f : Position),
      ((⟨tokensFrom p (text.toList ++ ')' :: cs), f⟩ : TokenStream).peek .skipped).is ")" = false ∧
      ∀ items, ∃ ys q, SameAll xs ys ∧
        iterate items (listRound expression ")") ⟨tokensFrom p (text.toList ++ ')' :: cs), f⟩ =
          .ok (items ++ ys, ⟨tokensFrom q cs, f⟩) := by
  induction h with
  | last h =>
    obtain ⟨x, hx⟩ := expression_bracketed h
    refine ⟨[x], fun p cs f => ?_⟩
    obtain ⟨y, u, q, hxy, hy, hu⟩ := hx ')' (by decide) p cs f
    have hsame : SameAll [x] [y] := by rw [SameAll, unplacedAll, unplacedAll, hxy, unplacedAll, unplacedAll]
    refine ⟨no_bracket_next hy, fun items => ⟨[y], q.after [')'], hsame, ?_⟩⟩
    rw [iterate_listRound, bind_run, listRound, bind_ok hy, listMark, bind_ok (peek_run _ _), peek_mark hu]
    show (expect .skipped ")" >>= fun _ => pure (Sum.inr (items ++ [y])) : Parser _) u >>= _ = _
    rw [bind_ok (expect_mark hu)]
    rfl
  | @more text rest h _ ih =>
    obtain ⟨x, hx⟩ := expression_bracketed h
    obtain ⟨xs, hxs⟩ := ih
    refine ⟨x :: xs, fun p cs f => ?_⟩
    have htext : (text ++ "," ++ rest).toList ++ ')' :: cs = text.toList ++ ',' :: (rest.toList ++ ')' :: cs) := by simp
    rw [htext]
    obtain ⟨y, u, q, hxy, hy, hu⟩ := hx ',' (by decide) p (rest.toList ++ ')' :: cs) f
    refine ⟨no_bracket_next hy, fun items => ?_⟩
    obtain ⟨ys, q', hsame, hrun⟩ := (hxs (q.after [',']) cs f).2 (items ++ [y])
    refine ⟨y :: ys, q', ?_, ?_⟩
    · rw [SameAll, unplacedAll, unplacedAll, hxy, hsame]
    rw [iterate_listRound, bind_run, listRound, bind_ok hy, listMark, bind_ok (peek_run _ _), peek_mark hu]
    show (consume .skipped >>= fun _ => pure (Sum.inl (items ++ [y])) : Parser _) u >>= _ = _
    rw [bind_ok (consume_mark hu)]
    exact hrun.trans (by rw [List.append_assoc]; rfl)

/-- whitespace in front of a bracket -/
theorem passBlank_blank {text : String} (h : IsBlank text) {m : Char} (hm : m ∈ brackets) (p : Position) (cs : List Char)
    (f : Position) : ∃ q, (⟨tokensFrom p (text.toList ++ m :: cs), f⟩ : TokenStream).passBlank .skipped =
      ⟨⟨q, String.ofList [m], .operator⟩ :: tokensFrom (q.after [m]) cs, f⟩ := by
  have hsolid : isSpace m = false := (solid_brackets m hm).2.2.2
  unfold IsBlank at h
  cases htext : text.toList with
  | nil =>
    refine ⟨p, ?_⟩
    rw [List.nil_append, passBlank_solid hsolid, tokensFrom_brackets hm]
  | cons c ds =>
    rw [htext] at h
    have hall : ∀ d ∈ ds, isSpace d = true := fun d hd => h d (List.mem_cons_of_mem c hd)
    have hlexeme : firstLexeme c (ds ++ m :: cs) = (.whitespace, c :: ds, m :: cs) := by
      rw [firstLexeme_space (h c List.mem_cons_self), List.takeWhile_append_of_pos hall, List.dropWhile_append_of_pos hall]
      simp [hsolid]
    refine ⟨p.after (c :: ds), ?_⟩
    rw [List.cons_append, tokensFrom_cons, hlexeme, tokensFrom_brackets hm]
    rfl

/-- the arguments of a call are read up to and with the bracket behind them -/
theorem arguments_bracketed {text : String} (h : IsArguments text) : ∃ xs : List Expression,
    ∀ (p : Position) (cs : List Char) (f : Position), ∃ ys q, SameAll xs ys ∧
      listUntil expression ")" ⟨tokensFrom p (text.toList ++ ')' :: cs), f⟩ = .ok (ys, ⟨tokensFrom q cs, f⟩) := by
  rcases h with h | h
  · refine ⟨[], fun p cs f => ?_⟩
    obtain ⟨q, hq⟩ := passBlank_blank h (m := ')') (by decide) p cs f
    refine ⟨[], q.after [')'], rfl, ?_⟩
    rw [listUntil, bind_ok (peek_run _ _), peek_mark hq]
    exact bind_ok (consume_mark hq)
  · obtain ⟨xs, hxs⟩ := items_bracketed h
    refine ⟨xs, fun p cs f => ?_⟩
    obtain ⟨hnext, hitems⟩ := hxs p cs f
    obtain ⟨ys, q, hsame, hrun⟩ := hitems []
    refine ⟨ys, q, hsame, ?_⟩
    rw [listUntil, bind_ok (peek_run _ _), hnext]
    exact hrun

/-! ## Suffixes -/

/-- a suffix is read, and then those behind it -/
theorem chain_suffix {b : Blanks} {t : Token} {ts : List Token} {f : Position} {x y : Expression} {u : TokenStream}
    (ht : t.isOneOf [".", "[", "("] = true) (hw : t.isWhitespace = false)
    (hname : t.is "." = true → ((⟨t :: ts, f⟩ : TokenStream).peekNext b).isAlphanumeric = true)
    (h : suffixRest expression x t ⟨ts, f⟩ = .ok (y, u)) :
    chain expression b x ⟨t :: ts, f⟩ = chain expression b y u := by
  have hpass : ∀ b, (⟨t :: ts, f⟩ : TokenStream).passBlank b = ⟨t :: ts, f⟩ := fun b => by
    cases b with
    | kept => rfl
    | skipped => exact if_neg (ne_true_of_eq_false hw)
  have hpeek : (⟨t :: ts, f⟩ : TokenStream).peek b = t := by
    rw [TokenStream.peek, hpass]
    rfl
  have hstay : (t.is "." && decide (b = .kept) && !((⟨t :: ts, f⟩ : TokenStream).peekNext b).isAlphanumeric) = false := by
    cases hd : t.is "." with
    | false => rfl
    | true => rw [hname hd, Bool.not_true, Bool.and_false]
  have hconsume : consume .skipped ⟨t :: ts, f⟩ = .ok (t, ⟨ts, f⟩) := consume_eq_ok.2 (hpass .skipped)
  have hsuffix : suffix expression x t ⟨t :: ts, f⟩ = .ok (y, u) := (bind_ok hconsume).trans h
  have hround : chainRound expression b x ⟨t :: ts, f⟩ = .ok (.inl y, u) := by
    rw [chainRound, bind_ok (peek_run _ _), hpeek, bind_ok (peekNext_run _ _), hstay, if_neg Bool.false_ne_true, if_pos ht,
      bind_ok hsuffix]
    rfl
  rw [chain_eq, bind_ok hround]
  rfl

/-- where no suffix is next, the chain ends -/
theorem chain_end {b : Blanks} {s : TokenStream} (h : (s.peek b).isOneOf [".", "[", "("] = false) (x : Expression) :
    chain expression b x s = .ok (x, s) := by
  have hpoint : (s.peek b).is "." = false := by
    simp only [Token.isOneOf, List.any_cons, Bool.or_eq_false_iff] at h
    exact h.1
  have hround : chainRound expression b x s = .ok (.inr x, s) := by
    rw [chainRound, bind_ok (peek_run _ _), hpoint, bind_ok (peekNext_run _ _), Bool.false_and, Bool.false_and,
      if_neg Bool.false_ne_true, h, if_neg Bool.false_ne_true]
    rfl
  rw [chain_eq, bind_ok hround]
  rfl

theorem beginsApart_cons {c : Char} (h : isWordPart c = false) (cs : List Char) : BeginsApart (c :: cs) := by
  rintro _ ⟨⟩
  exact h

/-! ### Texts of suffixes, in front of more -/

theorem toList_member (name more : String) (cs : List Char) :
    ("." ++ name ++ more).toList ++ cs = '.' :: (name.toList ++ (more.toList ++ cs)) := by simp

theorem toList_index (key more : String) (cs : List Char) :
    ("[" ++ key ++ "]" ++ more).toList ++ cs = '[' :: (key.toList ++ ']' :: (more.toList ++ cs)) := by simp

theorem toList_call (arguments more : String) (cs : List Char) :
    ("(" ++ arguments ++ ")" ++ more).toList ++ cs = '(' :: (arguments.toList ++ ')' :: (more.toList ++ cs)) := by simp

theorem IsSuffixes.beginsApart {text : String} (h : IsSuffixes text) {cs : List Char} (hcs : BeginsApart cs) :
    BeginsApart (text.toList ++ cs) := by
  cases h with
  | none => exact hcs
  | member hn _ =>
    rw [toList_member]
    exact beginsApart_cons (by decide) _
  | index hk _ =>
    rw [toList_index]
    exact beginsApart_cons (by decide) _
  | call ha _ =>
    rw [toList_call]
    exact beginsApart_cons (by decide) _

/-- **Suffixes are read alike by both chains**, and wrapped around the name in the same way. -/
theorem chain_suffixes {text : String} (h : IsSuffixes text) : ∃ wrap : Expression → Expression, SameWrap wrap wrap ∧
    ∀ (b : Blanks) (p : Position) (cs : List Char) (f : Position) (x : Expression), BeginsApart cs →
      ∃ y q, (wrap x).Same y ∧ chain expression b x ⟨tokensFrom p (text.toList ++ cs), f⟩ =
        chain expression b y ⟨tokensFrom q cs, f⟩ := by
  -- on the suffixes: the first one is wrapped around the name, and those behind it around that
  induction h with
  | none => exact ⟨id, fun _ _ h => h, fun b p cs f x _ => ⟨x, p, rfl, rfl⟩⟩
  | @member name more hn hmore ih =>
    obtain ⟨wrap, hwrap, hchain⟩ := ih
    refine ⟨fun x => wrap (.member x name .start), fun x y h => hwrap _ _ (h.member _ _ _), ?_⟩
    intro b p cs f x hcs
    obtain ⟨y, q, hsame, hrun⟩ :=
      hchain b ((p.after ['.']).after name.toList) cs f (.member x name (p.after ['.'])) hcs
    refine ⟨y, q, Eq.trans (hwrap _ _ (Same.member rfl _ _ _)) hsame, ?_⟩
    rw [toList_member, tokensFrom_point hn, tokensFrom_word hn (hmore.beginsApart hcs)]
    rw [chain_suffix rfl rfl (fun _ => by cases b <;> rfl) (y := .member x name (p.after ['.'])) rfl]
    exact hrun
  | @index key more hk hmore ih =>
    obtain ⟨wrap, hwrap, hchain⟩ := ih
    obtain ⟨k, hkey⟩ := expression_bracketed hk
    refine ⟨fun x => wrap (.index x k), fun x y h => hwrap _ _ (h.index rfl), ?_⟩
    intro b p cs f x hcs
    obtain ⟨k', u, q, hkk, hrunKey, hu⟩ := hkey ']' (by decide) (p.after ['[']) (more.toList ++ cs) f
    obtain ⟨y, q', hsame, hrun⟩ := hchain b (q.after [']']) cs f (.index x k') hcs
    refine ⟨y, q', Eq.trans (hwrap _ _ (Same.index rfl hkk)) hsame, ?_⟩
    rw [toList_index, tokensFrom_brackets (by decide)]
    rw [chain_suffix rfl rfl (fun hd => by cases hd) (y := .index x k') ?_]
    · exact hrun
    · exact (bind_ok hrunKey).trans (bind_ok (expect_mark hu))
  | @call arguments more ha hmore ih =>
    obtain ⟨wrap, hwrap, hchain⟩ := ih
    obtain ⟨xs, harguments⟩ := arguments_bracketed ha
    refine ⟨fun x => wrap (.call x xs), fun x y h => hwrap _ _ (h.call rfl), ?_⟩
    intro b p cs f x hcs
    obtain ⟨ys, q, hxs, hrunArguments⟩ := harguments (p.after ['(']) (more.toList ++ cs) f
    obtain ⟨y, q', hsame, hrun⟩ := hchain b q cs f (.call x ys) hcs
    refine ⟨y, q', Eq.trans (hwrap _ _ (Same.call rfl hxs)) hsame, ?_⟩
    rw [toList_call, tokensFrom_brackets (by decide)]
    rw [chain_suffix rfl rfl (fun hd => by cases hd) (y := .call x ys) ?_]
    · exact hrun
    · exact bind_ok hrunArguments

/-! ## Both ways in -/

/-- the source ends, or goes on with whitespace or a tag -/
def EndsChain (cs : List Char) : Prop := ∀ c, cs.head? = some c → isSpace c = true ∨ c = '<'

theorem EndsChain.beginsApart {cs : List Char} (h : EndsChain cs) : BeginsApart cs := by
  intro c hc
  rcases h c hc with hs | rfl
  · exact lone_wordPart (mem_loneChars_of_isSpace hs)
  · decide

/-- no suffix is next -/
theorem EndsChain.no_suffix {cs : List Char} (h : EndsChain cs) (p f : Position) :
    ((⟨tokensFrom p cs, f⟩ : TokenStream).peek .kept).isOneOf [".", "[", "("] = false := by
  cases cs with
  | nil =>
    rw [tokensFrom]
    rfl
  | cons c cs =>
    by_contra hsuffix
    obtain ⟨x, hx, -⟩ := firstLexeme_cases c cs
    have htext : String.ofList (c :: x) ∈ [".", "[", "("] := by
      rw [tokensFrom_cons, hx] at hsuffix
      exact (isOneOf_iff.1 (eq_true_of_ne_false hsuffix)).2
    have hfirst : ∀ text ∈ [".", "[", "("], text.toList.all (fun d => !isSpace d && d != '<') = true := by decide
    have hc := List.all_eq_true.1 (hfirst _ htext) c (by rw [String.toList_ofList]; exact List.mem_cons_self)
    rcases h c rfl with hs | rfl
    · simp [hs] at hc
    · simp at hc

variable {name suffixes : String}

/-- a name in an expression, with the chain behind it -/
theorem expression_chain (hn : IsWord name) (hnew : name ≠ "new") (hs : IsSuffixes suffixes) {p f : Position}
    {cs : List Char} {y : Expression} {q : Position}
    (h : chain expression .skipped (nameOrLiteral ⟨p, name, .alphanumeric⟩)
      ⟨tokensFrom (p.after name.toList) (suffixes.toList ++ ')' :: cs), f⟩ =
        chain expression .skipped y ⟨tokensFrom q (')' :: cs), f⟩) :
    expression ⟨tokensFrom p (name.toList ++ (suffixes.toList ++ ')' :: cs)), f⟩ =
      .ok (y, ⟨tokensFrom q (')' :: cs), f⟩) := by
  have hclose : (⟨tokensFrom q (')' :: cs), f⟩ : TokenStream).peek .skipped = ⟨q, ")", .operator⟩ := by
    rw [tokensFrom_brackets (by decide)]
    rfl
  have hchain : chain expression .skipped y ⟨tokensFrom q (')' :: cs), f⟩ = .ok (y, ⟨tokensFrom q (')' :: cs), f⟩) :=
    chain_end (by rw [hclose]; rfl) y
  rw [tokensFrom_word hn (hs.beginsApart (beginsApart_cons (by decide) _))]
  refine expression_of_tier (n := 9) (by decide) ?_ (by rw [hclose]; exact nofun) ?_
  · exact (bind_ok rfl).trans (h.trans hchain)
  · show frontOperator? ⟨p, name, .alphanumeric⟩ = none
    simp [frontOperator?, hnew]

/-- **A chain behind an `@` is the chain in parentheses.** -/
theorem chain_modes (hn : IsWord name) (hnew : name ≠ "new") (hs : IsSuffixes suffixes) : ∃ x : Expression,
    (∀ (p : Position) (cs : List Char) (f : Position), EndsChain cs → ∃ y q, x.Same y ∧
      inlineChain ⟨tokensFrom p (name.toList ++ (suffixes.toList ++ cs)), f⟩ = .ok (y, ⟨tokensFrom q cs, f⟩)) ∧
    ∀ (p : Position) (cs : List Char) (f : Position), ∃ y q, x.Same y ∧
      parenthesized ⟨tokensFrom p ('(' :: (name.toList ++ (suffixes.toList ++ ')' :: cs))), f⟩ =
        .ok (y, ⟨tokensFrom q cs, f⟩) := by
  obtain ⟨wrap, hwrap, hchain⟩ := chain_suffixes hs
  have hname : ∀ p, (nameOrLiteral ⟨.start, name, .alphanumeric⟩).Same (nameOrLiteral ⟨p, name, .alphanumeric⟩) :=
    fun p => same_nameOrLiteral ⟨rfl, rfl⟩
  refine ⟨wrap (nameOrLiteral ⟨.start, name, .alphanumeric⟩), fun p cs f hcs => ?_, fun p cs f => ?_⟩
  · obtain ⟨y, q, hsame, hrun⟩ :=
      hchain .kept (p.after name.toList) cs f (nameOrLiteral ⟨p, name, .alphanumeric⟩) hcs.beginsApart
    refine ⟨y, q, Eq.trans (hwrap _ _ (hname p)) hsame, ?_⟩
    rw [tokensFrom_word hn (hs.beginsApart hcs.beginsApart)]
    exact (bind_ok rfl).trans (hrun.trans (chain_end (hcs.no_suffix q f) y))
  · have hclose : BeginsApart (')' :: cs) := beginsApart_cons (by decide) _
    obtain ⟨y, q, hsame, hrun⟩ := hchain .skipped ((p.after ['(']).after name.toList) (')' :: cs) f
      (nameOrLiteral ⟨p.after ['('], name, .alphanumeric⟩) hclose
    refine ⟨y, q.after [')'], Eq.trans (hwrap _ _ (hname _)) hsame, ?_⟩
    rw [tokensFrom_brackets (by decide)]
    have hexpect : expect .skipped ")" ⟨tokensFrom q (')' :: cs), f⟩ =
        .ok (⟨q, ")", .operator⟩, ⟨tokensFrom (q.after [')']) cs, f⟩) := by
      rw [tokensFrom_brackets (by decide)]
      exact expect_mark rfl
    exact (bind_ok rfl).trans ((bind_ok (expression_chain hn hnew hs hrun)).trans (bind_ok hexpect))

/-! ## Templates -/

/-- an inline expression behind an `@` is the first segment -/
theorem document_marked {m : Parser Expression} {source : String} {cs : List Char} {u : TokenStream} {y : Expression}
    (hsource : source.toList = '@' :: cs)
    (hc : ∀ p f, construct segment "" ⟨p, "@", .delimiter⟩ ⟨tokensFrom (p.after ['@']) cs, f⟩ =
      (do return .inline ⟨← m, ""⟩ : Parser Segment) ⟨tokensFrom (p.after ['@']) cs, f⟩)
    (hm : m ⟨tokensFrom (Position.start.after ['@']) cs, Position.start.after source.toList⟩ = .ok (y, u)) :
    document (segment .markup) (.ofSource source) = iterate [.inline ⟨y, ""⟩] (documentRound (segment .markup)) u := by
  have hsegment : segment .markup ⟨⟨.start, "@", .delimiter⟩ :: tokensFrom (Position.start.after ['@']) cs,
      Position.start.after source.toList⟩ = .ok (.inline ⟨y, ""⟩, u) := by
    rw [segment_marked]
    exact (hc _ _).trans (bind_ok hm)
  rw [TokenStream.ofSource, ← document_segment rfl hsegment, hsource, tokensFrom_cons, firstLexeme_mark]

/-- a name that is not reserved opens a chain -/
theorem construct_name (hn : IsWord name) (hr : name ∉ reserved) (leading : String) (mark : Token) (p : Position)
    (ts : List Token) (f : Position) : construct segment leading mark ⟨⟨p, name, .alphanumeric⟩ :: ts, f⟩ =
      (do return .inline ⟨← inlineChain, leading⟩ : Parser Segment) ⟨⟨p, name, .alphanumeric⟩ :: ts, f⟩ := by
  have his : ∀ text, ¬ IsWord text → (⟨p, name, .alphanumeric⟩ : Token).is text = false := by
    intro text htext
    have hne : name ≠ text := by
      rintro rfl
      exact htext hn
    rw [Token.is, beq_false_of_ne hne, Bool.and_false]
  have hnext : (⟨⟨p, name, .alphanumeric⟩ :: ts, f⟩ : TokenStream).peek .kept = ⟨p, name, .alphanumeric⟩ := rfl
  simp only [reserved, List.mem_cons, List.not_mem_nil, or_false, not_or] at hr
  obtain ⟨hhelper, hsection, hif, hfor, hforeach, -⟩ := hr
  rw [construct, bind_ok (peek_run _ _), hnext, his "*" (by decide), his "(" (by decide),
    his "\x7b" (by decide)]
  simp [Token.isDelimiter, Token.isAlphanumeric, hhelper, hsection, hif, hfor, hforeach]

/-- segments that are the same begin with the same inline expression -/
theorem sameAll_inline {ss rs : List Segment} {y : Expression} (h : Segment.SameAll ss (.inline ⟨y, ""⟩ :: rs)) :
    ∃ x ss', ss = .inline ⟨x, ""⟩ :: ss' ∧ x.Same y ∧ Segment.SameAll ss' rs := by
  cases ss with
  | nil => cases h
  | cons s ss =>
    obtain ⟨hs, hss⟩ := List.cons.inj h
    cases s with
    | inline i =>
      obtain ⟨x, leading⟩ := i
      rw [Segment.unplaced, Segment.unplaced, Segment.inline.injEq, InlineExpression.unplaced, InlineExpression.unplaced,
        InlineExpression.mk.injEq] at hs
      obtain ⟨hx, rfl⟩ := hs
      exact ⟨x, ss, rfl, hx, hss⟩
    | _ => cases hs

/-- **Inline chains agree with parenthesized ones.** -/
theorem parse_inlineChain {chain rest : String} (hc : IsChain chain) (hrest : EndsChain rest.toList) :
    Option.Rel (fun t t' : Template => ∃ x x' ss ss', t.segments = .inline ⟨x, ""⟩ :: ss ∧
        t'.segments = .inline ⟨x', ""⟩ :: ss' ∧ x.Same x' ∧ Segment.SameAll ss ss')
      (Template.parse ("@" ++ chain ++ rest)).toOption (Template.parse ("@(" ++ chain ++ ")" ++ rest)).toOption := by
  obtain ⟨hn, hr, hs⟩ := hc
  rename_i name suffixes
  have hnew : name ≠ "new" := fun h => hr (h ▸ by decide)
  obtain ⟨x, hchain, hparenthesized⟩ := chain_modes hn hnew hs
  have hsource : ("@" ++ (name ++ suffixes) ++ rest).toList = '@' :: (name.toList ++ (suffixes.toList ++ rest.toList)) := by
    simp
  have hsource' : ("@(" ++ (name ++ suffixes) ++ ")" ++ rest).toList =
      '@' :: '(' :: (name.toList ++ (suffixes.toList ++ ')' :: rest.toList)) := by simp
  obtain ⟨y, q, hxy, hrun⟩ := hchain (Position.start.after ['@']) rest.toList
    (Position.start.after ("@" ++ (name ++ suffixes) ++ rest).toList) hrest
  obtain ⟨y', q', hxy', hrun'⟩ := hparenthesized (Position.start.after ['@']) rest.toList
    (Position.start.after ("@(" ++ (name ++ suffixes) ++ ")" ++ rest).toList)
  have hfront := parse_behind (document_marked hsource (fun p f => by
    rw [tokensFrom_word hn (hs.beginsApart hrest.beginsApart)]
    exact construct_name hn hr _ _ _ _ _) hrun)
  have hbehind := parse_behind (document_marked hsource' (fun p f => by
    rw [tokensFrom_brackets (by decide)]
    rfl) hrun')
  -- each of the two is its first segment and then the rest, at places of its own
  generalize (Template.parse ("@" ++ (name ++ suffixes) ++ rest)).toOption = a,
    (Template.parse ("@(" ++ (name ++ suffixes) ++ ")" ++ rest)).toOption = b,
    (Template.parse rest).toOption = r at hfront hbehind
  cases hfront with
  | none =>
    cases hbehind
    exact .none
  | some h =>
    cases hbehind with
    | some h' =>
      obtain ⟨x₁, ss, hss, hx₁, hrest₁⟩ := sameAll_inline h
      obtain ⟨x₂, ss', hss', hx₂, hrest₂⟩ := sameAll_inline h'
      refine .some ⟨x₁, x₂, ss, ss', hss, hss', ?_, Eq.trans hrest₁ hrest₂.symm⟩
      exact Eq.trans hx₁ (Eq.trans hxy.symm (Eq.trans hxy' hx₂.symm))

/-- a row of a table: suffixes of all kinds, with whitespace in their brackets only -/
theorem isChain_cells : IsChain "rows[ i + 1 ].cells(0, \"a b\" )" := by
  have hzero : IsExpression "0" := by decide +kernel
  have hquoted : IsExpression " \"a b\" " := by decide +kernel
  have hkey : IsExpression " i + 1 " := by decide +kernel
  have hrows : IsWord "rows" := by decide
  have hcells : IsWord "cells" := by decide
  have hcall : IsSuffixes "(0, \"a b\" )" := .call (.inr (.more hzero (.last hquoted))) .none
  exact .of hrows (by decide) (.index hkey (.member hcells hcall))

theorem parse_inlineChain_cells :
    ∃ t t' x x' ss ss', Template.parse "@rows[ i + 1 ].cells(0, \"a b\" ) <b>@i</b>" = .ok t ∧
      Template.parse "@(rows[ i + 1 ].cells(0, \"a b\" )) <b>@i</b>" = .ok t' ∧
      t.segments = .inline ⟨x, ""⟩ :: ss ∧ t'.segments = .inline ⟨x', ""⟩ :: ss' ∧ x.Same x' ∧ Segment.SameAll ss ss' := by
  have hrest : EndsChain " <b>@i</b>".toList := by
    rintro _ ⟨⟩
    exact .inl rfl
  have h := parse_inlineChain isChain_cells hrest
  obtain ⟨t, ht, -⟩ := Generation.exists_ok (x := Template.parse "@rows[ i + 1 ].cells(0, \"a b\" ) <b>@i</b>")
    (p := fun _ => true) (by decide +kernel)
  obtain ⟨t', ht', -⟩ := Generation.exists_ok (x := Template.parse "@(rows[ i + 1 ].cells(0, \"a b\" )) <b>@i</b>")
    (p := fun _ => true) (by decide +kernel)
  have h : Option.Rel _ (Template.parse "@rows[ i + 1 ].cells(0, \"a b\" ) <b>@i</b>").toOption
      (Template.parse "@(rows[ i + 1 ].cells(0, \"a b\" )) <b>@i</b>").toOption := h
  rw [ht, ht'] at h
  obtain ⟨x, x', ss, ss', hss, hss', hx, hrest⟩ := Option.rel_some_some.1 h
  exact ⟨t, t', x, x', ss, ss', ht, ht', hss, hss', hx, hrest⟩

end Grammar

end TemplateView
