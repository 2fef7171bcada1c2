/-
The grammar of expressions. Binary operators stand in levels of precedence, each level a loop over the next tighter one;
the conditional is looser than all of them. Tightest are the suffixes `.name`, `[index]` and `(arguments)`.

Whitespace means nothing between the tokens of an expression, but for the suffixes of an expression written in markup:
there the first whitespace ends the chain.
-/
import TemplateView.Grammar.Parser
import TemplateView.Template

namespace TemplateView.Grammar

open TemplateView.Parser

/-- a bare name, or a word that is a literal -/
def nameOrLiteral (t : Token) : Expression :=
  if t.text == "true" || t.text == "false" || t.text == "null" then .literal t.text else .name t.text t.position

/-- the comma or the closing mark behind the items of a list -/
def listMark (close : String) (items : List Expression) : Parser (List Expression ⊕ List Expression) := do
  if (← peek .skipped).is "," then
    let _ ← consume .skipped
    return .inl items
  else
    let _ ← expect .skipped close
    return .inr items

/-- one more item of a list and the mark behind it -/
def listRound (item : Parser Expression) (close : String) (items : List Expression) :
    Parser (List Expression ⊕ List Expression) := do
  listMark close (items ++ [← item])

/-- comma-separated items up to and with `close`, whose opening mark is consumed -/
def listUntil (item : Parser Expression) (close : String) : Parser (List Expression) := do
  if (← peek .skipped).is close then
    let _ ← consume .skipped
    return []
  else
    iterate [] (listRound item close)

/-- the rest of a suffix behind the token that opens it -/
def suffixRest (expression : Parser Expression) (target : Expression) (next : Token) : Parser Expression := do
  if next.is "." then
    let name ← expectCategory .skipped .alphanumeric
    return .member target name.text name.position
  else if next.is "[" then
    let index ← expression
    let _ ← expect .skipped "]"
    return .index target index
  else
    return .call target (← listUntil expression ")")

/-- the suffix that a token opens behind an expression -/
def suffix (expression : Parser Expression) (target : Expression) (next : Token) : Parser Expression := do
  let _ ← consume .skipped
  suffixRest expression target next

/-- one more suffix, if there is one -/
def chainRound (expression : Parser Expression) (b : Blanks) (target : Expression) :
    Parser (Expression ⊕ Expression) := do
  let next ← peek b
  let after ← peekNext b
  if next.is "." && b = .kept && !after.isAlphanumeric then
    return .inr target
  else if next.isOneOf [".", "[", "("] then
    return .inl (← suffix expression target next)
  else
    return .inr target

/-- the suffixes behind an expression; where whitespace is kept, it ends them, and so does a point without a name -/
def chain (expression : Parser Expression) (b : Blanks) (first : Expression) : Parser Expression :=
  iterate first (chainRound expression b)

/-- one more token of a string that was opened by a quote -/
def stringRound (quote : Token) (raw : String) : Parser (String ⊕ Expression) := do
  if ← atEnd then
    fail (.unclosedString quote)
  else
    let t ← consume .kept
    if t.text == "\\" then
      let escaped ← consume .kept
      return .inl (raw ++ t.text ++ escaped.text)
    else if t.is quote.text then
      return .inr (.literal (raw ++ t.text))
    else
      return .inl (raw ++ t.text)

/-- a string up to its closing quote, kept as written; a backslash takes the token behind it along -/
def stringLiteral : Parser Expression := do
  let quote ← consume .skipped
  iterate quote.text (stringRound quote)

/-- a literal, a name, a list or an expression in parentheses -/
def primary (expression : Parser Expression) : Parser Expression := do
  let t ← peek .skipped
  match t.category with
  | .numeric =>
    let _ ← consume .skipped
    return .literal t.text
  | .alphanumeric =>
    let _ ← consume .skipped
    return nameOrLiteral t
  | .endOfInput => fail (.missingExpression t.position)
  | _ =>
    if t.category = .operator && (t.is "\"" || t.is "'") then
      stringLiteral
    else if t.category = .operator && t.is "(" then
      let _ ← consume .skipped
      let inner ← expression
      let _ ← expect .skipped ")"
      return inner
    else if t.category = .operator && t.is "[" then
      let _ ← consume .skipped
      return .array (← listUntil expression "]")
    else
      fail (.notAnExpression t)

/-- the operators that may stand in front of an operand, beside the word `new` -/
def frontOperators : List String := ["!", "-", "++", "--"]

/-- the operator in front of an operand that a token writes, as what it makes of the operand -/
def frontOperator? (t : Token) : Option (Expression → Expression) :=
  if (t.category = .operator && frontOperators.contains t.text) || (t.isAlphanumeric && t.text == "new") then
    some (.unary t.text .before)
  else none

theorem frontOperator?_eq_some {t : Token} {wrap : Expression → Expression} (h : frontOperator? t = some wrap) :
    t.text ∈ "new" :: frontOperators ∧ wrap = .unary t.text .before := by
  unfold frontOperator? at h
  simp only [Option.ite_none_right_eq_some, Bool.or_eq_true, Bool.and_eq_true, decide_eq_true_eq, List.contains_iff_mem,
    beq_iff_eq, Option.some.injEq] at h
  obtain ⟨⟨-, hm⟩ | ⟨-, hn⟩, rfl⟩ := h
  · exact ⟨List.mem_cons_of_mem _ hm, rfl⟩
  · exact ⟨hn ▸ List.mem_cons_self, rfl⟩

/-- a primary expression with its suffixes and at most one `++` or `--` behind -/
def suffixed (expression : Parser Expression) : Parser Expression := do
  let operand ← chain expression .skipped (← primary expression)
  let next ← peek .skipped
  if next.is "++" || next.is "--" then
    let _ ← consume .skipped
    return .unary next.text .after operand
  else
    return operand

/-- one more operator in front, or what the operators are in front of -/
def operandRound (expression : Parser Expression) (wrap : Expression → Expression) :
    Parser ((Expression → Expression) ⊕ Expression) := do
  match frontOperator? (← peek .skipped) with
  | some operator =>
    let _ ← consume .skipped
    return .inl (wrap ∘ operator)
  | none => return .inr (wrap (← suffixed expression))

/-- operators in front of a suffixed expression; the last one binds first -/
def operand (expression : Parser Expression) : Parser Expression :=
  iterate id (operandRound expression)

/-- the binary operators in levels of precedence, loosest first; every level associates to the left -/
def binaryLevels : List (List String) :=
  [["||"], ["&&"], ["==", "!=", "===", "!=="], ["<", ">", "<=", ">="], ["+", "-"], ["*", "/", "%"]]

/-- the operator among some that a token writes -/
def binaryOperator? (operators : List String) (t : Token) : Option String :=
  if t.category = .operator && operators.contains t.text then some t.text else none

theorem binaryOperator?_eq_some {operators : List String} {t : Token} {op : String} :
    binaryOperator? operators t = some op ↔ t.category = .operator ∧ op ∈ operators ∧ op = t.text := by
  unfold binaryOperator?
  simp only [Option.ite_none_right_eq_some, Bool.and_eq_true, decide_eq_true_eq, List.contains_iff_mem, Option.some.injEq]
  constructor
  · rintro ⟨⟨hc, hm⟩, rfl⟩
    exact ⟨hc, hm, rfl⟩
  · rintro ⟨hc, hm, rfl⟩
    exact ⟨⟨hc, hm⟩, rfl⟩

/-- one more operator and its right operand, if there is one -/
def binaryRound (operators : List String) (tighter : Parser Expression) (left : Expression) :
    Parser (Expression ⊕ Expression) := do
  match binaryOperator? operators (← peek .skipped) with
  | some operator =>
    let _ ← consume .skipped
    return .inl (.binary left operator (← tighter))
  | none => return .inr left

/-- one level of binary operators over the next tighter one, to the left -/
def binaryLevel (operators : List String) (tighter : Parser Expression) : Parser Expression := do
  iterate (← tighter) (binaryRound operators tighter)

/-- all levels of binary operators -/
def binary (expression : Parser Expression) : Parser Expression :=
  binaryLevels.foldr binaryLevel (operand expression)

/-- an expression, in terms of the expressions inside it -/
def expressionOver (expression : Parser Expression) : Parser Expression := do
  let test ← binary expression
  if (← peek .skipped).is "?" then
    let _ ← consume .skipped
    let whenTrue ← expression
    let _ ← expect .skipped ":"
    let whenFalse ← expression
    return .conditional test whenTrue whenFalse
  else
    return test

/-- an expression -/
def expression : Parser Expression :=
  recursive (fun self (_ : Unit) => expressionOver (self ())) ()

end TemplateView.Grammar
