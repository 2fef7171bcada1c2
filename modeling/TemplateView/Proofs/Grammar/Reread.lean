/-
The grammar of expressions reads back what is printed (`expression_print`).

A level of the grammar reads some texts as an expression if it takes them up to a token that does not go on at its level:
`Closed`. Between the levels of a loop, `Opened` says more: the loop stands where it would after it has read the
expression, and may still go on. So the left operand of an operator is read by the very loop that then meets the operator.
The induction is on the expression (`reads`), and lists of expressions with it.
-/
import Mathlib.Tactic.IntervalCases
import TemplateView.Proofs.Grammar.Strings
import TemplateView.Proofs.Grammar.Unplaced

namespace TemplateView

namespace Grammar

open TemplateView.Parser

/-! ## Tokens of an expression -/

theorem isToken_mark : ∀ l ∈ ["(", ")", "[", "]", ",", ".", "?", ":"], isToken .operator l = true := by decide +kernel

theorem isToken_binary : ∀ l ∈ binaryLevels.flatten, isToken .operator l = true := by decide +kernel

theorem isToken_after : ∀ l ∈ sideOperators .after, isToken .operator l = true := by decide +kernel

theorem isToken_literalName : ∀ l ∈ literalNames, isToken .alphanumeric l = true := by decide +kernel

/-- the category of the token that writes an operator in front of an operand -/
def frontCategory (operator : String) : Category :=
  if operator = "new" then .alphanumeric else .operator

theorem isToken_front : ∀ l ∈ sideOperators .before, isToken (frontCategory l) l = true := by decide +kernel

theorem frontOperator_before {operator : String} (h : operator ∈ sideOperators .before) (p : Position) :
    frontOperator? ⟨p, operator, frontCategory operator⟩ = some (.unary operator .before) := by
  have hall : ∀ l ∈ sideOperators .before, l = "new" ∨ l ∈ frontOperators := by decide
  rw [frontOperator?, frontCategory, if_pos]
  by_cases hn : operator = "new"
  · simp [hn, Token.isAlphanumeric]
  · simpa [hn] using (hall operator h).resolve_left hn

/-! ## Where a level stops -/

/-- the level at which a token goes on behind an expression -/
def levelBehind? (t : Token) : Option Nat :=
  if t.isOneOf [".", "[", "("] then some 9
  else if t.isOneOf ["++", "--"] then some 8
  else if t.is "?" then some 0
  else (binaryOperator? binaryLevels.flatten t).map operatorLevel

/-- no level from this one on goes on with the token -/
def Stops (n : Nat) (t : Token) : Prop := ∀ m, levelBehind? t = some m → m < n

theorem Stops.mono {m n : Nat} {t : Token} (h : Stops m t) (hmn : m ≤ n) : Stops n t :=
  fun k hk => Nat.lt_of_lt_of_le (h k hk) hmn

theorem level_le : ∀ l ∈ binaryLevels.flatten, 1 ≤ operatorLevel l ∧ operatorLevel l ≤ 6 := by decide

/-- what binds is an operator of the grammar -/
theorem mem_levels {operator : String} (h : operatorLevel operator ≠ 0) : operator ∈ binaryLevels.flatten := by
  unfold operatorLevel at h
  split at h <;> first | decide | exact absurd rfl h

theorem stops_ten (t : Token) : Stops 10 t := by
  intro m hm
  unfold levelBehind? at hm
  split at hm
  · cases hm; decide
  split at hm
  · cases hm; decide
  split at hm
  · cases hm; decide
  · obtain ⟨operator, ho, rfl⟩ := Option.map_eq_some_iff.1 hm
    have := level_le operator (binaryOperator?_eq_some.1 ho).2.1
    omega

theorem Stops.suffix {n : Nat} {t : Token} (h : Stops n t) (hn : n ≤ 9) : t.isOneOf [".", "[", "("] = false := by
  by_contra ht
  have := h 9 (by rw [levelBehind?, if_pos (by simpa using ht)])
  omega

theorem isOneOf_iff {t : Token} {texts : List String} :
    t.isOneOf texts = true ↔ t.category ≠ .endOfInput ∧ t.text ∈ texts := by
  simp [Token.isOneOf, Token.is, and_comm]

theorem Stops.update {n : Nat} {t : Token} (h : Stops n t) (hn : n ≤ 8) : t.isOneOf ["++", "--"] = false := by
  by_contra ht
  have ht : t.isOneOf ["++", "--"] = true := by simpa using ht
  have hsuffix : ¬ t.isOneOf [".", "[", "("] = true := by
    rw [isOneOf_iff] at *
    rintro ⟨-, hm⟩
    have hnone : ∀ l ∈ ["++", "--"], l ∉ [".", "[", "("] := by decide
    exact hnone _ ht.2 hm
  have := h 8 (by rw [levelBehind?, if_neg hsuffix, if_pos ht])
  omega

theorem Stops.conditional {t : Token} (h : Stops 0 t) : t.is "?" = false := by
  by_contra ht
  have ht : t.is "?" = true := by simpa using ht
  have hnone : ∀ texts : List String, "?" ∉ texts → ¬ t.isOneOf texts = true := by
    intro texts hm ho
    rw [isOneOf_iff] at ho
    rw [Token.is, Bool.and_eq_true, beq_iff_eq] at ht
    exact hm (ht.2 ▸ ho.2)
  have := h 0 (by rw [levelBehind?, if_neg (hnone _ (by decide)), if_neg (hnone _ (by decide)), if_pos ht])
  omega

theorem levelBehind_binary {operator : String} (h : operator ∈ binaryLevels.flatten) (p : Position) :
    levelBehind? ⟨p, operator, .operator⟩ = some (operatorLevel operator) := by
  have hall : ∀ l ∈ binaryLevels.flatten, levelBehind? ⟨.start, l, .operator⟩ = some (operatorLevel l) := by decide
  exact hall operator h

theorem levelBehind_after {operator : String} (h : operator ∈ sideOperators .after) (p : Position) :
    levelBehind? ⟨p, operator, .operator⟩ = some 8 := by
  have hall : ∀ l ∈ sideOperators .after, levelBehind? ⟨.start, l, .operator⟩ = some 8 := by decide
  exact hall operator h

theorem Stops.binary {n : Nat} {t : Token} (h : Stops n t) {operators : List String}
    (hn : ∀ l ∈ operators, l ∈ binaryLevels.flatten ∧ n ≤ operatorLevel l) : binaryOperator? operators t = none := by
  by_contra ho
  obtain ⟨operator, ho⟩ := Option.ne_none_iff_exists'.1 ho
  obtain ⟨hc, hm, rfl⟩ := binaryOperator?_eq_some.1 ho
  obtain ⟨p, text, category⟩ := t
  obtain rfl : category = .operator := hc
  obtain ⟨hmem, hle⟩ := hn text hm
  have := h _ (levelBehind_binary hmem p)
  omega

/-! ## Levels of the grammar -/

/-- what reads expressions of a level, and of tighter ones -/
def tier : Nat → Parser Expression
  | 0 => expression
  | 8 => suffixed expression
  | 9 => primary expression >>= chain expression .skipped
  | 10 => primary expression
  | n + 1 => (binaryLevels.drop n).foldr binaryLevel (operand expression)

/-- the operators of a level -/
def operatorsAt (n : Nat) : List String := binaryLevels.getD (n - 1) []

/-- the levels that are loops -/
def IsLoop (n : Nat) : Prop := 1 ≤ n ∧ n ≤ 6 ∨ n = 9

/-- the loop of a level, from an expression on -/
def rounds : Nat → Expression → Parser Expression
  | 9, e => chain expression .skipped e
  | n, e => iterate e (binaryRound (operatorsAt n) (tier (n + 1)))

theorem tier_binary {n : Nat} (h : n ≤ 6) :
    tier (n + 1) = (binaryLevels.drop n).foldr binaryLevel (operand expression) := by
  interval_cases n <;> rfl

/-- a loop starts with an expression of the next tighter level -/
theorem tier_loop {n : Nat} (h : IsLoop n) : tier n = tier (n + 1) >>= rounds n := by
  rcases h with ⟨h, h'⟩ | rfl
  · interval_cases n <;> rfl
  · rfl

theorem rounds_binary {n : Nat} (h : 1 ≤ n) (h' : n ≤ 6) (e : Expression) :
    rounds n e = binaryRound (operatorsAt n) (tier (n + 1)) e >>= Sum.elim (rounds n) pure := by
  have hrounds : rounds n = fun e => iterate e (binaryRound (operatorsAt n) (tier (n + 1))) := by
    funext e
    interval_cases n <;> rfl
  rw [hrounds]
  refine iterate_eq (fun k a => ?_) e
  rw [tier_binary h']
  exact (settled_binaryRound (spends_levels (spends_operand spends_expression) _) _ a).below

theorem chain_eq (b : Blanks) (e : Expression) :
    chain expression b e = chainRound expression b e >>= Sum.elim (chain expression b) pure :=
  iterate_eq (fun _ a => (settled_chainRound spends_expression b a).below) e

theorem rounds_chain (e : Expression) :
    rounds 9 e = chainRound expression .skipped e >>= Sum.elim (rounds 9) pure :=
  chain_eq .skipped e

theorem iterate_operandRound (wrap : Expression → Expression) : iterate wrap (operandRound expression) =
    operandRound expression wrap >>= Sum.elim (iterate · (operandRound expression)) pure :=
  iterate_eq (fun _ a => (spends_operandRound spends_expression a).below.spends) wrap

theorem iterate_listRound (close : String) (items : List Expression) : iterate items (listRound expression close) =
    listRound expression close items >>= Sum.elim (iterate · (listRound expression close)) pure :=
  iterate_eq (fun _ a => (spends_listRound spends_expression close a).spends) items

theorem level_of_mem {n : Nat} (h : 1 ≤ n) (h' : n ≤ 6) :
    ∀ l ∈ operatorsAt n, l ∈ binaryLevels.flatten ∧ n ≤ operatorLevel l := by
  interval_cases n <;> decide

theorem binaryOperator_at {operator : String} (h : operator ∈ binaryLevels.flatten) (p : Position) :
    binaryOperator? (operatorsAt (operatorLevel operator)) ⟨p, operator, .operator⟩ = some operator := by
  have hall : ∀ l ∈ binaryLevels.flatten, l ∈ operatorsAt (operatorLevel l) := by decide
  exact binaryOperator?_eq_some.2 ⟨rfl, hall operator h, rfl⟩

/-- a loop is done where its level stops -/
theorem rounds_stop {n : Nat} (hn : IsLoop n) {s : TokenStream} (hs : Stops n (s.peek .skipped)) (e : Expression) :
    rounds n e s = .ok (e, s) := by
  rcases hn with ⟨h, h'⟩ | rfl
  · rw [rounds_binary h h', bind_run, binaryRound, bind_ok (peek_run .skipped s), hs.binary (level_of_mem h h')]
    rfl
  · rw [rounds_chain, bind_run, chainRound, bind_ok (peek_run .skipped s), bind_ok (peekNext_run .skipped s),
      if_neg (by simp), hs.suffix (Nat.le_refl 9)]
    rfl

/-- what a tighter level reads, the next looser one reads, if it stops behind that and no operator stands in front -/
theorem tier_loosen {n : Nat} {s s' : TokenStream} {e : Expression} (hn : n ≤ 9) (hrun : tier (n + 1) s = .ok (e, s'))
    (hstops : Stops n (s'.peek .skipped)) (hfront : n = 7 → frontOperator? (s.peek .skipped) = none) :
    tier n s = .ok (e, s') := by
  by_cases hloop : IsLoop n
  · rw [tier_loop hloop, bind_ok hrun, rounds_stop hloop hstops]
  have hn : n = 0 ∨ n = 7 ∨ n = 8 := by unfold IsLoop at hloop; omega
  rcases hn with rfl | rfl | rfl
  · show expression s = _
    have hrun : binary expression s = .ok (e, s') := hrun
    rw [expression_eq, expressionOver, bind_ok hrun, bind_ok (peek_run .skipped s'), hstops.conditional]
    rfl
  · show operand expression s = _
    have hrun : suffixed expression s = .ok (e, s') := hrun
    rw [operand, iterate_operandRound, bind_run, operandRound, bind_ok (peek_run .skipped s), hfront rfl]
    simp only
    rw [bind_ok hrun]
    rfl
  · show suffixed expression s = _
    obtain ⟨first, s₁, hfirst, hchain⟩ := bind_ok_iff.1 hrun
    have hnone : (s'.peek .skipped).is "++" = false ∧ (s'.peek .skipped).is "--" = false := by
      simpa [Token.isOneOf] using hstops.update (Nat.le_refl 8)
    rw [suffixed, bind_ok hfirst, bind_ok hchain, bind_ok (peek_run .skipped s'), hnone.1, hnone.2]
    rfl

/-- so a level reads expressions if nothing behind them goes on -/
theorem expression_of_tier {n : Nat} {s s' : TokenStream} {e : Expression} (hn : n ≤ 10) (hrun : tier n s = .ok (e, s'))
    (hstops : Stops 0 (s'.peek .skipped)) (hfront : frontOperator? (s.peek .skipped) = none) :
    expression s = .ok (e, s') := by
  induction n with
  | zero => exact hrun
  | succ n ih =>
    exact ih (by omega) (tier_loosen (by omega) hrun (hstops.mono (Nat.zero_le n)) fun _ => hfront)

/-- operators in front are put around what is read behind them -/
theorem iterate_operandRound_comp (w v : Expression → Expression) (s : TokenStream) :
    iterate (w ∘ v) (operandRound expression) s =
      (iterate v (operandRound expression) s).map fun r => (w r.1, r.2) := by
  induction hn : s.remaining using Nat.strongRecOn generalizing s v with
  | ind n ih =>
    rw [iterate_operandRound, iterate_operandRound, bind_run, bind_run, operandRound, operandRound,
      bind_ok (peek_run .skipped s), bind_ok (peek_run .skipped s)]
    cases frontOperator? (s.peek .skipped) with
    | none =>
      simp only
      rw [bind_run, bind_run]
      cases suffixed expression s <;> rfl
    | some operator =>
      simp only
      rw [bind_run, bind_run]
      cases hc : consume .skipped s with
      | error e => rfl
      | ok r =>
        have hend := (draws_consume (P := fun _ => True) .skipped s (placed_all s)).1
        rw [hc] at hend
        have hlt : r.2.remaining < n := hn ▸ hend.2.2 trivial
        exact ih _ hlt (v ∘ operator) r.2 rfl

/-! ## Reading at a level -/

/-- a token that may start an expression: it closes nothing, and tight expressions have no operator in front -/
def Starts (n : Nat) (t : Token) : Prop :=
  t.is ")" = false ∧ t.is "]" = false ∧ (8 ≤ n → frontOperator? t = none)

theorem Starts.mono {m n : Nat} {t : Token} (h : Starts m t) (hmn : n ≤ m) : Starts n t :=
  ⟨h.1, h.2.1, fun hn => h.2.2 (Nat.le_trans hn hmn)⟩

/-- a level reads the texts as the expression, if it stops behind them -/
def Closed (n : Nat) (texts : List String) (e : Expression) : Prop :=
  ∀ s s', Shows s texts s' → Stops n (s'.peek .skipped) →
    Starts n (s.peek .skipped) ∧ ∃ e', e'.Same e ∧ tier n s = .ok (e', s')

/-- the loop of a level has read the texts as the expression, and goes on behind them -/
def Opened (n : Nat) (texts : List String) (e : Expression) : Prop :=
  ∀ s s', Shows s texts s' → Stops (n + 1) (s'.peek .skipped) →
    Starts n (s.peek .skipped) ∧ ∃ e', e'.Same e ∧ tier n s = rounds n e' s'

section

variable {n : Nat} {texts : List String} {e : Expression}

theorem Opened.closed (h : Opened n texts e) (hn : IsLoop n) : Closed n texts e := by
  intro s s' hshows hstops
  obtain ⟨hstart, e', hsame, hrun⟩ := h s s' hshows (hstops.mono (Nat.le_succ n))
  exact ⟨hstart, e', hsame, by rw [hrun, rounds_stop hn hstops]⟩

theorem Closed.opened (h : Closed (n + 1) texts e) (hn : IsLoop n) : Opened n texts e := by
  intro s s' hshows hstops
  obtain ⟨hstart, e', hsame, hrun⟩ := h s s' hshows hstops
  exact ⟨hstart.mono (Nat.le_succ n), e', hsame, by rw [tier_loop hn, bind_ok hrun]⟩

/-- **What a tighter level reads, the next looser one reads.** -/
theorem Closed.loosen (h : Closed (n + 1) texts e) (hn : n ≤ 9) : Closed n texts e := by
  intro s s' hshows hstops
  obtain ⟨hstart, e', hsame, hrun⟩ := h s s' hshows (hstops.mono (Nat.le_succ n))
  exact ⟨hstart.mono (Nat.le_succ n), e', hsame, tier_loosen hn hrun hstops fun h7 => hstart.2.2 (h7 ▸ Nat.le_refl 8)⟩

theorem Closed.loosen_to {m : Nat} (h : Closed m texts e) (hnm : n ≤ m) (hm : m ≤ 10) : Closed n texts e := by
  induction m with
  | zero => rwa [Nat.le_zero.1 hnm]
  | succ m ih =>
    rcases Nat.eq_or_lt_of_le hnm with rfl | hlt
    · exact h
    · exact ih (h.loosen (by omega)) (by omega) (by omega)

end

/-! ## Parentheses -/

/-- **Parentheses hold any expression together.** -/
theorem closed_parentheses {texts : List String} {e : Expression} (h : Closed 0 texts e) :
    Closed 10 ("(" :: texts ++ [")"]) e := by
  intro s s' hshows _
  obtain ⟨p, s₁, hopen, hshows⟩ := next_of_shows (isToken_mark _ (by decide)) hshows
  obtain ⟨s₂, htexts, hshows⟩ := shows_append.1 hshows
  obtain ⟨q, s₃, hclose, hshows⟩ := next_of_shows (isToken_mark _ (by decide)) hshows
  obtain rfl := shows_nil hshows
  obtain ⟨-, e', hsame, hrun⟩ := h s₁ s₂ htexts (by rw [hclose.peek_eq]; exact nofun)
  refine ⟨?_, e', hsame, ?_⟩
  · rw [hopen.peek_eq]
    exact ⟨rfl, rfl, fun _ => rfl⟩
  · show primary expression s = _
    rw [primary, bind_ok hopen.peek]
    show (consume .skipped >>= _) s = _
    have hrun : expression s₁ = .ok (e', s₂) := hrun
    rw [bind_ok hopen.consume, bind_ok hrun]
    exact bind_ok (hclose.expect rfl)

/-- the same in a place that asks for some level -/
theorem closed_enclosed {n m : Nat} {texts : List String} {e : Expression} (h : Closed m texts e) (hn : n ≤ 9)
    (hm : m ≤ 9) : Closed n (enclosed n m texts) e := by
  unfold enclosed
  split
  · exact (closed_parentheses (h.loosen_to (Nat.zero_le m) (by omega))).loosen_to (by omega) (Nat.le_refl 10)
  · exact h.loosen_to (by omega) (by omega)

theorem opened_enclosed {n m : Nat} {texts : List String} {e : Expression} (hn : IsLoop n) (h : Closed m texts e)
    (ho : m = n → Opened n texts e) (hm : m ≤ 9) : Opened n (enclosed n m texts) e := by
  have hle : n ≤ 9 := by unfold IsLoop at hn; omega
  unfold enclosed
  split
  · exact ((closed_parentheses (h.loosen_to (Nat.zero_le m) (by omega))).loosen_to (by omega) (Nat.le_refl 10)).opened hn
  · by_cases heq : m = n
    · exact ho heq
    · exact (h.loosen_to (by omega) (by omega)).opened hn

/-! ## Leaves -/

theorem isToken_unique {k k' : Category} {text : String} (h : isToken k text = true) (h' : isToken k' text = true) :
    k = k' := by
  have heq := (tokensFrom_of_isToken h .start).1.symm.trans (tokensFrom_of_isToken h' .start).1
  exact congrArg Token.category (List.cons.inj heq).1

/-- words and numbers close nothing -/
theorem starts_of_isToken {k : Category} {text : String} (h : isToken k text = true) (hk : k ≠ .operator)
    {p : Position} {n : Nat} (hf : 8 ≤ n → frontOperator? ⟨p, text, k⟩ = none) : Starts n ⟨p, text, k⟩ := by
  have hne : ∀ mark, isToken .operator mark = true → Token.is ⟨p, text, k⟩ mark = false := by
    intro mark hm
    by_contra ht
    obtain ⟨-, rfl⟩ : k ≠ .endOfInput ∧ text = mark := by simpa [Token.is] using ht
    exact hk (isToken_unique h hm)
  exact ⟨hne _ (isToken_mark _ (by decide)), hne _ (isToken_mark _ (by decide)), hf⟩

theorem frontOperator_word {x : String} (h : x ≠ "new") (p : Position) : frontOperator? ⟨p, x, .alphanumeric⟩ = none := by
  simp [frontOperator?, Token.isAlphanumeric, h]

theorem closed_name {x : String} (hx : isToken .alphanumeric x = true) (hl : x ∉ literalNames) (hn : x ≠ "new")
    (p : Position) : Closed 10 [x] (.name x p) := by
  intro s s' hshows _
  obtain ⟨q, s₁, hnext, hshows⟩ := next_of_shows hx hshows
  obtain rfl := shows_nil hshows
  have hname : nameOrLiteral ⟨q, x, .alphanumeric⟩ = .name x q := by
    rw [nameOrLiteral, if_neg]
    simpa [literalNames, or_assoc] using hl
  refine ⟨?_, .name x q, rfl, ?_⟩
  · rw [hnext.peek_eq]
    exact starts_of_isToken hx nofun fun _ => frontOperator_word hn q
  · show primary expression s = _
    rw [primary, bind_ok hnext.peek]
    show (consume .skipped >>= _) s = _
    rw [bind_ok hnext.consume, hname]
    rfl

theorem closed_literal {raw : String} (h : raw ∈ literalNames ∨ isToken .numeric raw = true ∨ isQuoted raw = true) :
    Closed 10 [raw] (.literal raw) := by
  intro s s' hshows _
  show _ ∧ ∃ e', _ ∧ primary expression s = _
  rcases h with h | h | h
  · obtain ⟨q, s₁, hnext, hshows⟩ := next_of_shows (isToken_literalName raw h) hshows
    obtain rfl := shows_nil hshows
    have hne : ∀ l ∈ literalNames, l ≠ "new" := by decide
    have hliteral : nameOrLiteral ⟨q, raw, .alphanumeric⟩ = .literal raw := by
      rw [nameOrLiteral, if_pos]
      simpa [literalNames, or_assoc] using h
    refine ⟨?_, .literal raw, rfl, ?_⟩
    · rw [hnext.peek_eq]
      exact starts_of_isToken (isToken_literalName raw h) nofun fun _ => frontOperator_word (hne raw h) q
    · rw [primary, bind_ok hnext.peek]
      show (consume .skipped >>= _) s = _
      rw [bind_ok hnext.consume, hliteral]
      rfl
  · obtain ⟨q, s₁, hnext, hshows⟩ := next_of_shows h hshows
    obtain rfl := shows_nil hshows
    refine ⟨?_, .literal raw, rfl, ?_⟩
    · rw [hnext.peek_eq]
      exact starts_of_isToken h nofun fun _ => rfl
    · rw [primary, bind_ok hnext.peek]
      exact bind_ok hnext.consume
  · cases hshows with
    | cons p h' hs =>
      obtain rfl := shows_nil hs
      obtain ⟨⟨quote, s₁, hnext, hcat, htext⟩, hrun⟩ := stringLiteral_run h h'
      obtain ⟨q, text, category⟩ := quote
      obtain rfl : category = .operator := hcat
      have htext : text = "\"" ∨ text = "'" := htext
      refine ⟨?_, .literal raw, rfl, ?_⟩
      · rw [hnext.peek_eq]
        rcases htext with rfl | rfl <;> exact ⟨rfl, rfl, fun _ => rfl⟩
      · rw [primary, bind_ok hnext.peek]
        rcases htext with rfl | rfl <;> exact hrun

/-! ## Operators -/

/-- an operator in front of what it stands in front of -/
theorem closed_front {k : Category} {text : String} {front : Expression → Expression} (hk : isToken k text = true)
    (hf : ∀ p, frontOperator? ⟨p, text, k⟩ = some front) (htext : text ≠ ")" ∧ text ≠ "]")
    (hfront : ∀ x y : Expression, x.Same y → (front x).Same (front y)) {texts : List String} {e : Expression}
    (h : Closed 7 texts e) : Closed 7 (text :: texts) (front e) := by
  intro s s' hshows hstops
  obtain ⟨p, s₁, hnext, hshows⟩ := next_of_shows hk hshows
  obtain ⟨-, e', hsame, hrun⟩ := h s₁ s' hshows hstops
  refine ⟨?_, front e', hfront e' e hsame, ?_⟩
  · rw [hnext.peek_eq]
    exact ⟨by simp [Token.is, htext.1], by simp [Token.is, htext.2], fun h => absurd h (by decide)⟩
  · show operand expression s = _
    have hrun : iterate id (operandRound expression) s₁ = .ok (e', s') := hrun
    rw [operand, iterate_operandRound, bind_run, operandRound, bind_ok hnext.peek, hf]
    simp only
    rw [bind_ok hnext.consume]
    show iterate (front ∘ id) (operandRound expression) s₁ = _
    rw [iterate_operandRound_comp, hrun]
    rfl

theorem closed_before {operator : String} (ho : operator ∈ sideOperators .before) {texts : List String} {e : Expression}
    (h : Closed 7 texts e) : Closed 7 (operator :: texts) (.unary operator .before e) := by
  have hmarks : ∀ l ∈ sideOperators .before, l ≠ ")" ∧ l ≠ "]" := by decide
  refine closed_front (isToken_front operator ho) (frontOperator_before ho) (hmarks operator ho) ?_ h
  intro x y hxy
  exact hxy.unary operator .before

theorem closed_after {operator : String} (ho : operator ∈ sideOperators .after) {texts : List String} {e : Expression}
    (h : Closed 9 texts e) : Closed 8 (texts ++ [operator]) (.unary operator .after e) := by
  intro s s' hshows _
  obtain ⟨s₁, htexts, hshows⟩ := shows_append.1 hshows
  obtain ⟨p, s₂, hnext, hshows⟩ := next_of_shows (isToken_after operator ho) hshows
  obtain rfl := shows_nil hshows
  have hstops : Stops 9 (s₁.peek .skipped) := by
    rw [hnext.peek_eq]
    intro m hm
    rw [levelBehind_after ho] at hm
    cases hm
    decide
  obtain ⟨hstart, e', hsame, hrun⟩ := h s s₁ htexts hstops
  refine ⟨hstart.mono (by decide), .unary operator .after e', hsame.unary operator .after, ?_⟩
  obtain ⟨first, u, hfirst, hchain⟩ := bind_ok_iff.1 hrun
  have hnext' : (Token.is ⟨p, operator, .operator⟩ "++" || Token.is ⟨p, operator, .operator⟩ "--") = true := by
    simpa [sideOperators, Token.is] using ho
  show suffixed expression s = _
  rw [suffixed, bind_ok hfirst, bind_ok hchain, bind_ok hnext.peek, if_pos hnext']
  exact bind_ok hnext.consume

/-- an operator between two operands, the right one of a tighter level -/
theorem opened_binary {operator : String} (ho : operator ∈ binaryLevels.flatten) {texts texts' : List String}
    {left right : Expression} (hl : Opened (operatorLevel operator) texts left)
    (hr : Closed (operatorLevel operator + 1) texts' right) :
    Opened (operatorLevel operator) (texts ++ operator :: texts') (.binary left operator right) := by
  intro s s' hshows hstops
  obtain ⟨s₁, hleft, hshows⟩ := shows_append.1 hshows
  obtain ⟨p, s₂, hnext, hright⟩ := next_of_shows (isToken_binary operator ho) hshows
  have hmark : Stops (operatorLevel operator + 1) (s₁.peek .skipped) := by
    rw [hnext.peek_eq]
    intro m hm
    rw [levelBehind_binary ho] at hm
    cases hm
    exact Nat.lt_succ_self _
  obtain ⟨hstart, left', hsame, hrun⟩ := hl s s₁ hleft hmark
  obtain ⟨-, right', hsame', hrun'⟩ := hr s₂ s' hright hstops
  refine ⟨hstart, .binary left' operator right', hsame.binary operator hsame', ?_⟩
  obtain ⟨h, h'⟩ := level_le operator ho
  rw [hrun, rounds_binary h h', bind_run, binaryRound, bind_ok hnext.peek, binaryOperator_at ho]
  simp only
  rw [bind_ok hnext.consume, bind_ok hrun']
  rfl

theorem closed_conditional {texts texts' texts'' : List String} {test whenTrue whenFalse : Expression}
    (ht : Closed 1 texts test) (hw : Closed 0 texts' whenTrue) (hf : Closed 0 texts'' whenFalse) :
    Closed 0 (texts ++ "?" :: texts' ++ ":" :: texts'') (.conditional test whenTrue whenFalse) := by
  intro s s' hshows hstops
  rw [List.append_assoc] at hshows
  obtain ⟨s₁, htest, hshows⟩ := shows_append.1 hshows
  obtain ⟨p, s₂, hnext, hshows⟩ := next_of_shows (isToken_mark _ (by decide)) hshows
  obtain ⟨s₃, htrue, hshows⟩ := shows_append.1 hshows
  obtain ⟨q, s₄, hcolon, hfalse⟩ := next_of_shows (isToken_mark _ (by decide)) hshows
  have hmark : Stops 1 (s₁.peek .skipped) := by
    rw [hnext.peek_eq]
    rintro m ⟨⟩
    decide
  obtain ⟨hstart, test', hsame, hrun⟩ := ht s s₁ htest hmark
  obtain ⟨-, true', hsame', hrun'⟩ := hw s₂ s₃ htrue (by rw [hcolon.peek_eq]; exact nofun)
  obtain ⟨-, false', hsame'', hrun''⟩ := hf s₄ s' hfalse hstops
  refine ⟨hstart.mono (by decide), .conditional test' true' false', hsame.conditional hsame' hsame'', ?_⟩
  show expression s = _
  have hrun : binary expression s = .ok (test', s₁) := hrun
  have hrun' : expression s₂ = .ok (true', s₃) := hrun'
  have hrun'' : expression s₄ = .ok (false', s') := hrun''
  rw [expression_eq, expressionOver, bind_ok hrun, bind_ok hnext.peek]
  show (consume .skipped >>= _) s₁ = _
  rw [bind_ok hnext.consume, bind_ok hrun', bind_ok (hcolon.expect rfl), bind_ok hrun'']
  rfl

/-! ## Lists -/

/-- the parser of a list reads the texts of its items up to a closing mark -/
def ListClosed (items : List Expression) : Prop :=
  ∀ close ∈ [")", "]"], ∀ s s', Shows s (Expression.textsAll items ++ [close]) s' →
    ∃ items', Expression.SameAll items' items ∧ listUntil expression close s = .ok (items', s')

/-- behind some items, the rest of a list is read with them -/
def RestClosed (items : List Expression) : Prop :=
  ∀ close ∈ [")", "]"], ∀ read s s', Shows s (Expression.textsMore items ++ [close]) s' →
    ∃ items', Expression.SameAll items' items ∧
      (listMark close read >>= Sum.elim (iterate · (listRound expression close)) pure) s = .ok (read ++ items', s')

theorem isToken_close {close : String} (h : close ∈ [")", "]"]) : isToken .operator close = true := by
  rcases List.mem_pair.1 h with rfl | rfl <;> exact isToken_mark _ (by decide)

theorem stops_rest {items : List Expression} {close : String} (hc : close ∈ [")", "]"]) {s s' : TokenStream}
    (h : Shows s (Expression.textsMore items ++ [close]) s') : Stops 0 (s.peek .skipped) := by
  cases items with
  | nil =>
    obtain ⟨p, s₁, hnext, -⟩ := next_of_shows (isToken_close hc) h
    rw [hnext.peek_eq]
    rcases List.mem_pair.1 hc with rfl | rfl <;> exact nofun
  | cons e es =>
    obtain ⟨p, s₁, hnext, -⟩ := next_of_shows (isToken_mark _ (by decide)) h
    rw [hnext.peek_eq]
    exact nofun

/-- one more item and the rest behind it -/
theorem item_closed {e : Expression} {es : List Expression} (he : Closed 0 e.texts e) (hes : RestClosed es)
    {close : String} (hc : close ∈ [")", "]"]) (read : List Expression) {s s' : TokenStream}
    (h : Shows s (e.texts ++ Expression.textsMore es ++ [close]) s') :
    Starts 0 (s.peek .skipped) ∧ ∃ items', Expression.SameAll items' (e :: es) ∧
      iterate read (listRound expression close) s = .ok (read ++ items', s') := by
  rw [List.append_assoc] at h
  obtain ⟨s₁, hitem, hrest⟩ := shows_append.1 h
  obtain ⟨hstart, e', hsame, hrun⟩ := he s s₁ hitem (stops_rest hc hrest)
  obtain ⟨items', hsame', hrun'⟩ := hes close hc (read ++ [e']) s₁ s' hrest
  refine ⟨hstart, e' :: items', ?_, ?_⟩
  · show Expression.unplacedAll (e' :: items') = Expression.unplacedAll (e :: es)
    rw [Expression.unplacedAll, Expression.unplacedAll, hsame, hsame']
  · have hrun : expression s = .ok (e', s₁) := hrun
    rw [iterate_listRound, bind_run, listRound, bind_ok hrun, ← bind_run, hrun', List.append_assoc]
    rfl

theorem restClosed_nil : RestClosed [] := by
  intro close hc read s s' h
  obtain ⟨p, s₁, hnext, hshows⟩ := next_of_shows (isToken_close hc) h
  obtain rfl := shows_nil hshows
  have hmark : Token.is ⟨p, close, .operator⟩ close = true := by simp [Token.is]
  have hcomma : Token.is ⟨p, close, .operator⟩ "," = false := by rcases List.mem_pair.1 hc with rfl | rfl <;> rfl
  refine ⟨[], rfl, ?_⟩
  rw [bind_run, listMark, bind_ok hnext.peek, hcomma, if_neg Bool.false_ne_true, bind_ok (hnext.expect hmark),
    List.append_nil]
  rfl

theorem restClosed_cons {e : Expression} {es : List Expression} (he : Closed 0 e.texts e) (hes : RestClosed es) :
    RestClosed (e :: es) := by
  intro close hc read s s' h
  obtain ⟨p, s₁, hnext, hshows⟩ := next_of_shows (isToken_mark _ (by decide)) h
  obtain ⟨-, items', hsame, hrun⟩ := item_closed he hes hc read hshows
  refine ⟨items', hsame, ?_⟩
  have hcomma : Token.is ⟨p, ",", .operator⟩ "," = true := rfl
  rw [bind_run, listMark, bind_ok hnext.peek, if_pos hcomma, bind_ok hnext.consume]
  exact hrun

theorem listClosed_nil : ListClosed [] := by
  intro close hc s s' h
  obtain ⟨p, s₁, hnext, hshows⟩ := next_of_shows (isToken_close hc) h
  obtain rfl := shows_nil hshows
  refine ⟨[], rfl, ?_⟩
  rw [listUntil, bind_ok hnext.peek, if_pos (by simp [Token.is]), bind_ok hnext.consume]
  rfl

theorem listClosed_cons {e : Expression} {es : List Expression} (he : Closed 0 e.texts e) (hes : RestClosed es) :
    ListClosed (e :: es) := by
  intro close hc s s' h
  obtain ⟨hstart, items', hsame, hrun⟩ := item_closed he hes hc [] h
  refine ⟨items', hsame, ?_⟩
  have hopen : (s.peek .skipped).is close = false := by
    rcases List.mem_pair.1 hc with rfl | rfl
    · exact hstart.1
    · exact hstart.2.1
  rw [listUntil, bind_ok (peek_run .skipped s), hopen, if_neg Bool.false_ne_true]
  exact hrun

theorem closed_array {items : List Expression} (h : ListClosed items) :
    Closed 10 ("[" :: Expression.textsAll items ++ ["]"]) (.array items) := by
  intro s s' hshows _
  obtain ⟨p, s₁, hnext, hshows⟩ := next_of_shows (isToken_mark _ (by decide)) hshows
  obtain ⟨items', hsame, hrun⟩ := h "]" (by decide) s₁ s' hshows
  refine ⟨?_, .array items', hsame.array, ?_⟩
  · rw [hnext.peek_eq]
    exact ⟨rfl, rfl, fun _ => rfl⟩
  · show primary expression s = _
    rw [primary, bind_ok hnext.peek]
    show (consume .skipped >>= _) s = _
    rw [bind_ok hnext.consume, bind_ok hrun]
    rfl

/-! ## Suffixes -/

/-- a suffix behind what it is a suffix of -/
theorem opened_suffix {mark : String} (hm : mark ∈ [".", "[", "("]) {texts rest : List String} {target e : Expression}
    (ht : Opened 9 texts target)
    (hr : ∀ target' : Expression, target'.Same target → ∀ p s s', Shows s rest s' →
      ∃ e', e'.Same e ∧ suffixRest expression target' ⟨p, mark, .operator⟩ s = .ok (e', s')) :
    Opened 9 (texts ++ mark :: rest) e := by
  intro s s' hshows _
  have htoken : isToken .operator mark = true := by
    have hsub : ∀ l ∈ [".", "[", "("], l ∈ ["(", ")", "[", "]", ",", ".", "?", ":"] := by decide
    exact isToken_mark mark (hsub mark hm)
  obtain ⟨s₁, htexts, hshows⟩ := shows_append.1 hshows
  obtain ⟨p, s₂, hnext, hshows⟩ := next_of_shows htoken hshows
  obtain ⟨hstart, target', hsame, hrun⟩ := ht s s₁ htexts (stops_ten _)
  obtain ⟨e', hsame', hrest⟩ := hr target' hsame p s₂ s' hshows
  refine ⟨hstart, e', hsame', ?_⟩
  have hmark : Token.isOneOf ⟨p, mark, .operator⟩ [".", "[", "("] = true := isOneOf_iff.2 ⟨nofun, hm⟩
  rw [hrun, rounds_chain, bind_run, chainRound, bind_ok hnext.peek, bind_ok (peekNext_run .skipped s₁), if_neg (by simp),
    if_pos hmark]
  have hsuffix : suffix expression target' ⟨p, mark, .operator⟩ s₁ = .ok (e', s') := by
    rw [suffix, bind_ok hnext.consume, hrest]
  rw [bind_ok hsuffix]
  rfl

theorem opened_member {texts : List String} {object : Expression} (h : Opened 9 texts object) {x : String}
    (hx : isToken .alphanumeric x = true) (p : Position) : Opened 9 (texts ++ [".", x]) (.member object x p) := by
  refine opened_suffix (by decide) h fun object' hsame q s s' hshows => ?_
  obtain ⟨q', s₁, hnext, hshows⟩ := next_of_shows hx hshows
  obtain rfl := shows_nil hshows
  refine ⟨.member object' x q', hsame.member x q' _, ?_⟩
  exact bind_ok (hnext.expected rfl)

theorem opened_index {texts texts' : List String} {target key : Expression} (h : Opened 9 texts target)
    (hk : Closed 0 texts' key) : Opened 9 (texts ++ "[" :: (texts' ++ ["]"])) (.index target key) := by
  refine opened_suffix (by decide) h fun target' hsame q s s' hshows => ?_
  obtain ⟨s₁, hkey, hshows⟩ := shows_append.1 hshows
  obtain ⟨q', s₂, hnext, hshows⟩ := next_of_shows (isToken_mark _ (by decide)) hshows
  obtain rfl := shows_nil hshows
  obtain ⟨-, key', hsame', hrun⟩ := hk s s₁ hkey (by rw [hnext.peek_eq]; exact nofun)
  have hrun : expression s = .ok (key', s₁) := hrun
  refine ⟨.index target' key', hsame.index hsame', ?_⟩
  exact (bind_ok hrun).trans (bind_ok (hnext.expect rfl))

theorem opened_call {texts : List String} {callee : Expression} {arguments : List Expression} (h : Opened 9 texts callee)
    (ha : ListClosed arguments) :
    Opened 9 (texts ++ "(" :: (Expression.textsAll arguments ++ [")"])) (.call callee arguments) := by
  refine opened_suffix (by decide) h fun callee' hsame q s s' hshows => ?_
  obtain ⟨arguments', hsame', hrun⟩ := ha ")" (by decide) s s' hshows
  exact ⟨.call callee' arguments', hsame.call hsame', bind_ok hrun⟩

/-! ## Expressions -/

/-- an expression is read at its level -/
structure Reads (e : Expression) : Prop where
  closed : Closed e.level e.texts e
  opened : IsLoop e.level → Opened e.level e.texts e

theorem level_le_nine (e : Expression) : e.level ≤ 9 := by
  cases e with
  | binary left operator right =>
    show operatorLevel operator ≤ 9
    by_cases ho : operatorLevel operator = 0
    · omega
    · have := level_le operator (mem_levels ho)
      omega
  | unary operator fixity operand => cases fixity <;> simp [Expression.level]
  | _ => simp [Expression.level]

namespace Reads

variable {e : Expression}

theorem of_closed {n : Nat} (h : Closed (n + 1) e.texts e) (hl : e.level = n) (hn : n ≤ 9) : Reads e := by
  subst hl
  exact ⟨h.loosen hn, h.opened⟩

theorem of_opened {n : Nat} (h : Opened n e.texts e) (hl : e.level = n) (hn : IsLoop n) : Reads e := by
  subst hl
  exact ⟨h.closed hn, fun _ => h⟩

theorem of_done {n : Nat} (h : Closed n e.texts e) (hl : e.level = n) (hn : ¬ IsLoop n) : Reads e := by
  subst hl
  exact ⟨h, fun hloop => absurd hloop hn⟩

/-- in a place for expressions of a level, with parentheses if need be -/
theorem enclosed (h : Reads e) {n : Nat} (hn : n ≤ 9) : Closed n (enclosed n e.level e.texts) e :=
  closed_enclosed h.closed hn (level_le_nine e)

theorem enclosed_opened (h : Reads e) {n : Nat} (hn : IsLoop n) : Opened n (TemplateView.enclosed n e.level e.texts) e :=
  opened_enclosed hn h.closed (fun heq => heq ▸ h.opened (heq ▸ hn)) (level_le_nine e)

/-- in a place for any expression -/
theorem free (h : Reads e) : Closed 0 e.texts e := h.closed.loosen_to (Nat.zero_le _) (by have := level_le_nine e; omega)

end Reads

mutual

/-- **What is printed is read.** -/
theorem reads : ∀ {e : Expression}, e.printable = true → Reads e
  | .name x p, h => by
    rw [Expression.printable, Bool.and_eq_true, Bool.not_eq_true', Bool.or_eq_false_iff] at h
    exact .of_closed (closed_name h.1 (by simpa using h.2.1) (by simpa using h.2.2) p) rfl (Nat.le_refl 9)
  | .literal raw, h => by
    rw [Expression.printable, Bool.or_eq_true, Bool.or_eq_true, or_assoc, List.contains_iff_mem] at h
    exact .of_closed (closed_literal h) rfl (Nat.le_refl 9)
  | .member object x p, h => by
    rw [Expression.printable, Bool.and_eq_true] at h
    exact .of_opened (opened_member ((reads h.1).enclosed_opened (.inr rfl)) h.2 p) rfl (.inr rfl)
  | .call callee arguments, h => by
    rw [Expression.printable, Bool.and_eq_true] at h
    refine .of_opened (n := 9) ?_ rfl (.inr rfl)
    simpa [Expression.texts] using opened_call ((reads h.1).enclosed_opened (.inr rfl)) (reads_list h.2)
  | .index target key, h => by
    rw [Expression.printable, Bool.and_eq_true] at h
    refine .of_opened (n := 9) ?_ rfl (.inr rfl)
    simpa [Expression.texts] using opened_index ((reads h.1).enclosed_opened (.inr rfl)) (reads h.2).free
  | .array items, h => by
    rw [Expression.printable] at h
    exact .of_closed (closed_array (reads_list h)) rfl (Nat.le_refl 9)
  | .unary operator .before operand, h => by
    rw [Expression.printable, Bool.and_eq_true, List.contains_iff_mem] at h
    exact .of_done (closed_before h.1 ((reads h.2).enclosed (by decide))) rfl (by simp [IsLoop])
  | .unary operator .after operand, h => by
    rw [Expression.printable, Bool.and_eq_true, List.contains_iff_mem] at h
    exact .of_done (closed_after h.1 ((reads h.2).enclosed (by decide))) rfl (by simp [IsLoop])
  | .binary left operator right, h => by
    rw [Expression.printable, Bool.and_eq_true, Bool.and_eq_true, bne_iff_ne] at h
    have ho := mem_levels h.1.1
    have hloop : IsLoop (operatorLevel operator) := .inl (level_le operator ho)
    have hnext : operatorLevel operator + 1 ≤ 9 := by have := level_le operator ho; omega
    exact .of_opened (opened_binary ho ((reads h.1.2).enclosed_opened hloop) ((reads h.2).enclosed hnext)) rfl hloop
  | .conditional test whenTrue whenFalse, h => by
    rw [Expression.printable, Bool.and_eq_true, Bool.and_eq_true] at h
    exact .of_done (closed_conditional ((reads h.1.1).enclosed (by decide)) (reads h.1.2).free (reads h.2).free) rfl
      (by simp [IsLoop])

theorem reads_list : ∀ {es : List Expression}, Expression.printableAll es = true → ListClosed es
  | [], _ => listClosed_nil
  | e :: es, h => by
    rw [Expression.printableAll, Bool.and_eq_true] at h
    exact listClosed_cons (reads h.1).free (reads_rest h.2)

theorem reads_rest : ∀ {es : List Expression}, Expression.printableAll es = true → RestClosed es
  | [], _ => restClosed_nil
  | e :: es, h => by
    rw [Expression.printableAll, Bool.and_eq_true] at h
    exact restClosed_cons (reads h.1).free (reads_rest h.2)

end

/-! ## Printed texts -/

theorem solid_mark {l : String} (h : l ∈ ["(", ")", "[", "]", ",", ".", "?", ":"]) : Solid l :=
  solid_of_isToken (isToken_mark l h) nofun

theorem solid_enclosed {n m : Nat} {texts : List String} (h : ∀ l ∈ texts, Solid l) :
    ∀ l ∈ enclosed n m texts, Solid l := by
  unfold enclosed
  split
  · simpa [or_imp, forall_and, solid_mark] using h
  · exact h

mutual

/-- every text of an expression keeps its tokens between spaces -/
theorem solid_texts : ∀ {e : Expression}, e.printable = true → ∀ l ∈ e.texts, Solid l
  | .name x _, h => by
    rw [Expression.printable, Bool.and_eq_true] at h
    simpa [Expression.texts] using solid_of_isToken h.1 nofun
  | .literal raw, h => by
    rw [Expression.printable, Bool.or_eq_true, Bool.or_eq_true, List.contains_iff_mem] at h
    have hraw : Solid raw := by
      rcases h with (h | h) | h
      · exact solid_of_isToken (isToken_literalName raw h) nofun
      · exact solid_of_isToken h nofun
      · exact solid_of_isQuoted h
    simpa [Expression.texts] using hraw
  | .member object x _, h => by
    rw [Expression.printable, Bool.and_eq_true] at h
    have ho := solid_enclosed (n := 9) (m := object.level) (solid_texts h.1)
    have hx : Solid x := solid_of_isToken h.2 nofun
    simpa [Expression.texts, or_imp, forall_and, solid_mark, hx] using ho
  | .call callee arguments, h => by
    rw [Expression.printable, Bool.and_eq_true] at h
    have hc := solid_enclosed (n := 9) (m := callee.level) (solid_texts h.1)
    simpa [Expression.texts, or_imp, forall_and, solid_mark] using ⟨hc, solid_textsAll h.2⟩
  | .index target key, h => by
    rw [Expression.printable, Bool.and_eq_true] at h
    have ht := solid_enclosed (n := 9) (m := target.level) (solid_texts h.1)
    simpa [Expression.texts, or_imp, forall_and, solid_mark] using ⟨ht, solid_texts h.2⟩
  | .array items, h => by
    rw [Expression.printable] at h
    simpa [Expression.texts, or_imp, forall_and, solid_mark] using solid_textsAll h
  | .unary operator .before operand, h => by
    rw [Expression.printable, Bool.and_eq_true, List.contains_iff_mem] at h
    have ho : Solid operator := solid_of_isToken (isToken_front operator h.1) (by unfold frontCategory; split <;> nofun)
    simpa [Expression.texts, ho] using solid_enclosed (n := 7) (m := operand.level) (solid_texts h.2)
  | .unary operator .after operand, h => by
    rw [Expression.printable, Bool.and_eq_true, List.contains_iff_mem] at h
    have ho : Solid operator := solid_of_isToken (isToken_after operator h.1) nofun
    simpa [Expression.texts, or_imp, forall_and, ho] using solid_enclosed (n := 9) (m := operand.level) (solid_texts h.2)
  | .binary left operator right, h => by
    rw [Expression.printable, Bool.and_eq_true, Bool.and_eq_true, bne_iff_ne] at h
    have ho : Solid operator := solid_of_isToken (isToken_binary operator (mem_levels h.1.1)) nofun
    have hl := solid_enclosed (n := operatorLevel operator) (m := left.level) (solid_texts h.1.2)
    have hr := solid_enclosed (n := operatorLevel operator + 1) (m := right.level) (solid_texts h.2)
    simpa [Expression.texts, or_imp, forall_and, ho] using ⟨hl, hr⟩
  | .conditional test whenTrue whenFalse, h => by
    rw [Expression.printable, Bool.and_eq_true, Bool.and_eq_true] at h
    have ht := solid_enclosed (n := 1) (m := test.level) (solid_texts h.1.1)
    simpa [Expression.texts, or_imp, forall_and, solid_mark] using ⟨ht, solid_texts h.1.2, solid_texts h.2⟩

theorem solid_textsAll : ∀ {es : List Expression}, Expression.printableAll es = true →
    ∀ l ∈ Expression.textsAll es, Solid l
  | [], _ => by simp [Expression.textsAll]
  | e :: es, h => by
    rw [Expression.printableAll, Bool.and_eq_true] at h
    simpa [Expression.textsAll, or_imp, forall_and] using ⟨solid_texts h.1, solid_textsMore h.2⟩

theorem solid_textsMore : ∀ {es : List Expression}, Expression.printableAll es = true →
    ∀ l ∈ Expression.textsMore es, Solid l
  | [], _ => by simp [Expression.textsMore]
  | e :: es, h => by
    rw [Expression.printableAll, Bool.and_eq_true] at h
    simpa [Expression.textsMore, or_imp, forall_and, solid_mark] using ⟨solid_texts h.1, solid_textsMore h.2⟩

end

/-- **Reading is the inverse of printing.** A printed expression is read in full, and as the expression that it is, up to
the positions of its names. -/
theorem expression_print {e : Expression} (h : e.printable = true) :
    ∃ e', expression (.ofSource e.print) = .ok (e', ⟨[], Position.start.after e.print.toList⟩) ∧ e'.Same e := by
  obtain ⟨-, e', hsame, hrun⟩ := (reads h).free _ _ (shows_join (solid_texts h)) nofun
  exact ⟨e', hrun, hsame⟩

/-- all levels, both sides of an operator, and every kind of leaf -/
def formula : Expression :=
  let x : String → Expression := (.name · .start)
  .conditional
    (.binary (.binary (.binary (x "a") "-" (x "b")) "-" (.binary (x "c") "-" (.literal "1.5"))) "<"
      (.unary "-" .before (.binary (.unary "++" .after (.member (x "d") "new" .start)) "*"
        (.unary "--" .before (.index (.array [.literal "null", x "e"]) (.literal "0"))))))
    (.call (.member (.unary "new" .before (x "f")) "g" .start)
      [.conditional (x "h") (x "i") (x "j"), .literal "' \\' ('"])
    (.binary (.binary (x "k") "||" (x "l")) "&&" (.unary "!" .before (.unary "!" .before (x "m"))))

theorem expression_print_formula :
    formula.printable = true ∧
    formula.print = "a - b - ( c - 1.5 ) < - ( d . new ++ * -- [ null , e ] [ 0 ] ) ? " ++
      "( new f ) . g ( h ? i : j , ' \\' (' ) : ( k || l ) && ! ! m" ∧
    ∃ e', expression (.ofSource formula.print) = .ok (e', ⟨[], Position.start.after formula.print.toList⟩) ∧
      e'.Same formula := by
  have h : formula.printable = true := by decide +kernel
  exact ⟨h, by decide +kernel, expression_print h⟩

end Grammar

end TemplateView
