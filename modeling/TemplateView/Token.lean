/-
Tokens. A source text is cut into maximal lexemes: words, numbers, operators (the longest the table holds), runs of
whitespace, the delimiter `@`, and single characters for all else. Nothing is dropped: the texts of the tokens are the
source, and each token carries its position.
-/
import TemplateView.Position
import TemplateView.Text.Numeric
import TemplateView.Text.Visible

namespace TemplateView

/-- what kind of lexeme a token is -/
inductive Category where
  | alphanumeric
  | numeric
  | whitespace
  | operator
  | delimiter
  | unknown
  | endOfInput
deriving DecidableEq, Repr

/-- how a diagnostic names a category -/
def Category.describe : Category → String
  | .alphanumeric => "an identifier"
  | .numeric => "a number"
  | .whitespace => "whitespace"
  | .operator => "an operator"
  | .delimiter => "`@`"
  | .unknown => "a character"
  | .endOfInput => "end of input"

/-- a lexeme and where it starts -/
structure Token where
  position : Position
  text : String
  category : Category
deriving DecidableEq, Repr

namespace Token

/-- the token behind the last one -/
def endOfInput (p : Position) : Token := ⟨p, "", .endOfInput⟩

/-- a token of the source with exactly this text -/
def is (t : Token) (text : String) : Bool :=
  t.category != .endOfInput && t.text == text

/-- one of these texts -/
def isOneOf (t : Token) (texts : List String) : Bool :=
  texts.any t.is

def isWhitespace (t : Token) : Bool := t.category == .whitespace
def isDelimiter (t : Token) : Bool := t.category == .delimiter
def isAlphanumeric (t : Token) : Bool := t.category == .alphanumeric
def isEnd (t : Token) : Bool := t.category == .endOfInput

/-- how a diagnostic names a token it met -/
def describe (t : Token) : String :=
  if t.isEnd then Category.endOfInput.describe else "`" ++ Text.visible t.text ++ "`"

end Token

/-! ## Cutting a text into lexemes -/

/-- the operators and punctuation marks; each but the single characters extends another by one character -/
def operatorTable : List String :=
  ["+", "-", "++", "--", "*", "/", "%", "(", ")", "\x7b", "\x7d", ",", "?", ":", ".", "&", "^", "|", "~", "<<", ">>", ">>>",
    "<", ">", "<=", ">=", "!", "!=", "==", "!==", "===", "&&", "||", "=", "+=", "-=", "*=", "/=", "%=", "<<=", ">>=",
    ">>>=", "&=", "^=", "|=", "\"", "'", "[", "]", ";"]

/-- these characters make up an operator -/
def isOperator (cs : List Char) : Bool :=
  operatorTable.contains (String.ofList cs)

/-- the whitespace of a template: space, tab, carriage return and line feed -/
def isSpace (c : Char) : Bool :=
  c == ' ' || c == '\t' || c == '\r' || c == '\n'

/-- starts a word -/
def isWordStart (c : Char) : Bool :=
  Text.isAlphabetic c || c == '_'

/-- continues a word -/
def isWordPart (c : Char) : Bool :=
  Text.isAlphanumeric c || c == '_'

/-- lengthens an operator by one character as long as it stays one -/
def growOperator (op : List Char) : List Char → List Char × List Char
  | [] => (op, [])
  | c :: cs => if isOperator (op ++ [c]) then growOperator (op ++ [c]) cs else (op, c :: cs)

/-- what follows the first digit of a number: digits, and at most one point with more digits behind it -/
def numberTail (cs : List Char) : List Char × List Char :=
  let whole := cs.takeWhile Char.isDigit
  match cs.dropWhile Char.isDigit with
  | '.' :: more => (whole ++ '.' :: more.takeWhile Char.isDigit, more.dropWhile Char.isDigit)
  | rest => (whole, rest)

/-- a digit is next -/
def startsWithDigit : List Char → Bool
  | c :: _ => c.isDigit
  | [] => false

/-- the first lexeme of a text that starts with `c` and goes on with `cs`: its category, its characters, the rest -/
def firstLexeme (c : Char) (cs : List Char) : Category × List Char × List Char :=
  if isWordStart c then (.alphanumeric, c :: cs.takeWhile isWordPart, cs.dropWhile isWordPart)
  else if c.isDigit then
    let tail := numberTail cs
    (.numeric, c :: tail.1, tail.2)
  else if c == '.' && startsWithDigit cs then (.numeric, c :: cs.takeWhile Char.isDigit, cs.dropWhile Char.isDigit)
  else if c == '@' then (.delimiter, [c], cs)
  else if isOperator [c] then
    let grown := growOperator [c] cs
    (.operator, grown.1, grown.2)
  else if isSpace c then (.whitespace, c :: cs.takeWhile isSpace, cs.dropWhile isSpace)
  else (.unknown, [c], cs)

theorem growOperator_append (op cs : List Char) : (growOperator op cs).1 ++ (growOperator op cs).2 = op ++ cs := by
  induction cs generalizing op with
  | nil => simp [growOperator]
  | cons c cs ih =>
    rw [growOperator]
    split
    · rw [ih]; simp
    · rfl

theorem numberTail_append (cs : List Char) : (numberTail cs).1 ++ (numberTail cs).2 = cs := by
  have h := List.takeWhile_append_dropWhile (p := Char.isDigit) (l := cs)
  simp only [numberTail]
  split
  · next more hm =>
    rw [hm] at h
    simp [List.takeWhile_append_dropWhile, h]
  · exact h

theorem length_growOperator (op cs : List Char) : op.length ≤ (growOperator op cs).1.length := by
  induction cs generalizing op with
  | nil => simp [growOperator]
  | cons c cs ih =>
    rw [growOperator]
    split
    · exact Nat.le_trans (by simp) (ih _)
    · exact Nat.le_refl _

/-- a lexeme and the rest are the text -/
theorem firstLexeme_append (c : Char) (cs : List Char) :
    (firstLexeme c cs).2.1 ++ (firstLexeme c cs).2.2 = c :: cs := by
  unfold firstLexeme
  split
  · simp
  split
  · simp [numberTail_append]
  split
  · simp
  split
  · rfl
  split
  · simp [growOperator_append]
  split <;> simp

/-- no lexeme is empty -/
theorem firstLexeme_ne_nil (c : Char) (cs : List Char) : (firstLexeme c cs).2.1 ≠ [] := by
  have hg : (growOperator [c] cs).1 ≠ [] := fun h => by
    have := length_growOperator [c] cs
    simp [h] at this
  unfold firstLexeme
  repeat' split
  all_goals first | exact hg | simp

theorem length_firstLexeme_rest (c : Char) (cs : List Char) : (firstLexeme c cs).2.2.length ≤ cs.length := by
  have h := congrArg List.length (firstLexeme_append c cs)
  have := List.length_pos_iff.2 (firstLexeme_ne_nil c cs)
  simp only [List.length_append, List.length_cons] at h
  omega

/-- the tokens of a text that stands at a position -/
def tokensFrom (p : Position) : List Char → List Token
  | [] => []
  | c :: cs =>
    let lexeme := firstLexeme c cs
    ⟨p, String.ofList lexeme.2.1, lexeme.1⟩ :: tokensFrom (p.after lexeme.2.1) lexeme.2.2
termination_by cs => cs.length
decreasing_by exact Nat.lt_succ_of_le (length_firstLexeme_rest c cs)

/-- the tokens of a source and behind them the end -/
def tokenize (source : String) : List Token :=
  tokensFrom .start source.toList ++ [.endOfInput (Position.start.after source.toList)]

end TemplateView
