/-
Printing expressions. `Expression.print` writes the tokens of an expression with one space between them, and parentheses
exactly where a looser expression stands in a place for a tighter one. `Expression.printable` says of which expressions
the grammar can read this back: their names and numbers have to be tokens, their strings have to be closed, and their
operators have to be those of the language.
-/
import TemplateView.Template
import TemplateView.Token

namespace TemplateView

/-! ## Leaves -/

/-- the text is one token, of this category -/
def isToken (k : Category) (text : String) : Bool :=
  tokensFrom .start text.toList == [⟨.start, text, k⟩]

/-- behind an opened string: its first quote is its last character; a backslash takes the character behind it along -/
def endsAtQuote (quote : Char) : List Char → Bool
  | [] => false
  | '\\' :: _ :: cs => endsAtQuote quote cs
  | c :: cs => c != '\\' && if c == quote then cs.isEmpty else endsAtQuote quote cs

/-- a closed string, with its quotes -/
def isQuoted (raw : String) : Bool :=
  match raw.toList with
  | [] => false
  | c :: cs => (c == '"' || c == '\'') && endsAtQuote c cs

/-- the names that are literals -/
def literalNames : List String := ["true", "false", "null"]

/-! ## Levels -/

/-- how tight an operator binds that stands between two operands; other texts do not bind at all -/
def operatorLevel : String → Nat
  | "||" => 1
  | "&&" => 2
  | "==" | "!=" | "===" | "!==" => 3
  | "<" | ">" | "<=" | ">=" => 4
  | "+" | "-" => 5
  | "*" | "/" | "%" => 6
  | _ => 0

/-- the operators that may stand on one side of an operand -/
def sideOperators : Fixity → List String
  | .before => ["!", "-", "++", "--", "new"]
  | .after => ["++", "--"]

/-- how tight an expression holds together: conditionals are loosest, then come the levels of binary operators, operators
in front, `++` and `--` behind, and tightest all that may have a suffix -/
def Expression.level : Expression → Nat
  | .conditional .. => 0
  | .binary _ operator _ => operatorLevel operator
  | .unary _ .before _ => 7
  | .unary _ .after _ => 8
  | _ => 9

/-- the tokens of an expression of some level in a place for one that is as tight as needed -/
def enclosed (needed level : Nat) (texts : List String) : List String :=
  if level < needed then "(" :: texts ++ [")"] else texts

/-! ## The printer -/

mutual

/-- the texts of an expression, strings in one piece -/
def Expression.texts : Expression → List String
  | .name x _ => [x]
  | .member object x _ => enclosed 9 object.level object.texts ++ [".", x]
  | .literal raw => [raw]
  | .call callee arguments => enclosed 9 callee.level callee.texts ++ "(" :: Expression.textsAll arguments ++ [")"]
  | .index target key => enclosed 9 target.level target.texts ++ "[" :: key.texts ++ ["]"]
  | .array items => "[" :: Expression.textsAll items ++ ["]"]
  | .unary operator .before operand => operator :: enclosed 7 operand.level operand.texts
  | .unary operator .after operand => enclosed 9 operand.level operand.texts ++ [operator]
  | .binary left operator right =>
    enclosed (operatorLevel operator) left.level left.texts ++
      operator :: enclosed (operatorLevel operator + 1) right.level right.texts
  | .conditional test whenTrue whenFalse =>
    enclosed 1 test.level test.texts ++ "?" :: whenTrue.texts ++ ":" :: whenFalse.texts

/-- the texts of a list, with commas between the items -/
def Expression.textsAll : List Expression → List String
  | [] => []
  | e :: es => e.texts ++ Expression.textsMore es

/-- the texts of further items of a list -/
def Expression.textsMore : List Expression → List String
  | [] => []
  | e :: es => "," :: e.texts ++ Expression.textsMore es

end

/-- the expression as a text -/
def Expression.print (e : Expression) : String :=
  Text.join " " e.texts

mutual

/-- all leaves and operators are written as the grammar reads them -/
def Expression.printable : Expression → Bool
  | .name x _ => isToken .alphanumeric x && !(literalNames.contains x || x == "new")
  | .member object x _ => object.printable && isToken .alphanumeric x
  | .literal raw => literalNames.contains raw || isToken .numeric raw || isQuoted raw
  | .call callee arguments => callee.printable && Expression.printableAll arguments
  | .index target key => target.printable && key.printable
  | .array items => Expression.printableAll items
  | .unary operator fixity operand => (sideOperators fixity).contains operator && operand.printable
  | .binary left operator right => operatorLevel operator != 0 && left.printable && right.printable
  | .conditional test whenTrue whenFalse => test.printable && whenTrue.printable && whenFalse.printable

def Expression.printableAll : List Expression → Bool
  | [] => true
  | e :: es => e.printable && Expression.printableAll es

end

/-- only what needs them has parentheses -/
example : (Expression.binary (.binary (.name "a" .start) "+" (.literal "1")) "*"
    (.unary "!" .before (.member (.name "b" .start) "c" .start))).print = "( a + 1 ) * ! b . c" := by decide

end TemplateView
